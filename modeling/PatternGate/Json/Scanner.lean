import PatternGate.Json.Fault

/-!
# Scanning JSON text

A scanner is the rest of a text and its place. The functions here read the parts of a JSON text that
have no parts of their own: white space, the three words, strings and numbers. A fault is placed
either where the scanner stands or one byte further, behind the character that was looked at.
-/

namespace PatternGate

/-- The rest of a text, and where it starts. -/
structure Scanner where
  rest : List Char
  place : Place

namespace Place

/-- The place after a character. -/
def after (p : Place) (c : Char) : Place :=
  if c = '\n' then ⟨p.line + 1, 0⟩ else ⟨p.line, p.column + c.utf8Size⟩

/-- The place after a text. -/
def afterAll (p : Place) (cs : List Char) : Place := cs.foldl after p

/-- The place after the first `n` bytes of a text. -/
def afterBytes (p : Place) : Nat → List Char → Place
  | _, [] => p
  | n, c :: cs =>
    if c.utf8Size ≤ n then (p.after c).afterBytes (n - c.utf8Size) cs else ⟨p.line, p.column + n⟩

end Place

namespace Scanner

/-- The whole of a text. -/
def ofString (s : String) : Scanner := ⟨s.toList, ⟨1, 0⟩⟩

/-- Passes over one character. -/
def bump (s : Scanner) : Scanner :=
  match s.rest with
  | [] => s
  | c :: rest => ⟨rest, s.place.after c⟩

/-- The place one byte further. -/
def peekPlace (s : Scanner) : Place := s.place.afterBytes 1 s.rest

/-- A fault where the scanner stands. -/
def faultHere {α : Type} (s : Scanner) (cause : JsonCause) : Except JsonFault α :=
  .error ⟨cause, some s.place⟩

/-- A fault behind the byte that comes next. -/
def faultNext {α : Type} (s : Scanner) (cause : JsonCause) : Except JsonFault α :=
  .error ⟨cause, some s.peekPlace⟩

/-- Passes over the characters that satisfy `p`. -/
def dropWhile (p : Char → Bool) (s : Scanner) : Scanner :=
  go s.rest s.place
where
  go : List Char → Place → Scanner
    | [], place => ⟨[], place⟩
    | c :: rest, place => if p c then go rest (place.after c) else ⟨c :: rest, place⟩

/-- Passes over white space. -/
def skipSpace (s : Scanner) : Scanner :=
  s.dropWhile fun c => c = ' ' || c = '\n' || c = '\t' || c = '\r'

/-- Reads the rest of a word. -/
def readWord : List Char → Scanner → Except JsonFault Scanner
  | [], s => .ok s
  | w :: ws, s =>
    match s.rest with
    | [] => s.faultHere .endInValue
    | c :: _ => if c = w then readWord ws s.bump else s.faultNext .expectedIdent

/-! ## Strings -/

/-- The value of a hexadecimal digit. -/
def hexValue? (c : Char) : Option Nat :=
  if '0' ≤ c ∧ c ≤ '9' then some (c.toNat - 48)
  else if 'a' ≤ c ∧ c ≤ 'f' then some (c.toNat - 87)
  else if 'A' ≤ c ∧ c ≤ 'F' then some (c.toNat - 55)
  else none

/-- The value of four hexadecimal digits, if they come next. -/
def hexFour? : List Char → Option Nat
  | a :: b :: c :: d :: _ => do
    let a ← hexValue? a
    let b ← hexValue? b
    let c ← hexValue? c
    let d ← hexValue? d
    return ((a * 16 + b) * 16 + c) * 16 + d
  | _ => none

/-- Reads four hexadecimal digits. -/
def readHexFour (s : Scanner) : Except JsonFault (Nat × Scanner) :=
  match hexFour? s.rest with
  | some n => .ok (n, s.bump.bump.bump.bump)
  | none =>
    if 4 ≤ s.rest.foldl (· + ·.utf8Size) 0 then
      .error ⟨.invalidEscape, some (s.place.afterBytes 4 s.rest)⟩
    else .error ⟨.endInString, some (s.place.afterAll s.rest)⟩

/-- Reads one given character between two parts of a pair of surrogates. -/
def readPairMark (mark : Char) (s : Scanner) : Except JsonFault Scanner :=
  match s.rest with
  | [] => s.faultHere .endInString
  | c :: _ => if c = mark then .ok s.bump else s.faultNext .hexEscapeEnd

/-- Reads the code point of an escape, after its letter. Surrogates come in pairs. -/
def readCodePoint (s : Scanner) : Except JsonFault (Char × Scanner) := do
  let (n, s) ← s.readHexFour
  if 0xDC00 ≤ n ∧ n ≤ 0xDFFF then s.faultHere .loneSurrogate
  else if n < 0xD800 ∨ 0xDBFF < n then return (Char.ofNat n, s)
  else
    let s ← s.readPairMark '\\'
    let s ← s.readPairMark 'u'
    let (m, s) ← s.readHexFour
    if m < 0xDC00 ∨ 0xDFFF < m then s.faultHere .loneSurrogate
    else return (Char.ofNat ((n - 0xD800) * 0x400 + (m - 0xDC00) + 0x10000), s)

/-- The character of an escape of one letter. -/
def shortEscape? : Char → Option Char
  | '"' => some '"'
  | '\\' => some '\\'
  | '/' => some '/'
  | 'b' => some '\x08'
  | 'f' => some '\x0C'
  | 'n' => some '\n'
  | 'r' => some '\r'
  | 't' => some '\t'
  | _ => none

/-- Reads an escape, after its backslash. -/
def readEscape (s : Scanner) : Except JsonFault (Char × Scanner) :=
  match s.rest with
  | [] => s.faultHere .endInString
  | c :: _ =>
    if c = 'u' then s.bump.readCodePoint
    else
      match shortEscape? c with
      | some e => .ok (e, s.bump)
      | none => s.faultNext .invalidEscape

/-- Reads the rest of a string, up to its closing quote. -/
def readStringRest : Nat → Scanner → Except JsonFault (List Char × Scanner)
  | 0, s => s.faultHere .endInString
  | fuel + 1, s =>
    match s.rest with
    | [] => s.faultHere .endInString
    | c :: _ =>
      if c = '"' then .ok ([], s.bump)
      else if c = '\\' then do
        let (e, s) ← s.bump.readEscape
        let (cs, s) ← readStringRest fuel s
        return (e :: cs, s)
      else if c.toNat < 0x20 then s.faultNext .controlCharacter
      else do
        let (cs, s) ← readStringRest fuel s.bump
        return (c :: cs, s)

/-- Reads a string, after its opening quote. -/
def readString (s : Scanner) : Except JsonFault (String × Scanner) := do
  let (cs, s) ← readStringRest (s.rest.length + 1) s
  return (String.ofList cs, s)

/-! ## Numbers -/

/-- The greatest integer that is kept as such. -/
def wordMax : Nat := 18446744073709551615

/-- The greatest exponent that is counted. -/
def exponentMax : Nat := 2147483647

/-- The next character is a decimal digit. -/
def atDigit (s : Scanner) : Bool := s.rest.head?.any Char.isDigit

/-- The next character opens an exponent. -/
def atExponent (s : Scanner) : Bool := s.rest.head? = some 'e' || s.rest.head? = some 'E'

/-- Digits that were added to a number, and how many. -/
structure Digits where
  value : Nat
  count : Nat
  stop : Scanner

/-- Adds digits to a number while it stays at most `max`. -/
def addDigits (max value : Nat) (s : Scanner) : Digits :=
  go value 0 s.rest s.place
where
  go (value count : Nat) : List Char → Place → Digits
    | [], place => ⟨value, count, ⟨[], place⟩⟩
    | c :: rest, place =>
      let next := value * 10 + (c.toNat - 48)
      if c.isDigit && next ≤ max then go next (count + 1) rest (place.after c)
      else ⟨value, count, ⟨c :: rest, place⟩⟩

/-- The double of a significand and a power of ten. It must be finite. -/
def doubleOf (positive : Bool) (significand : Nat) (exponent : Int) (s : Scanner) :
    Except JsonFault (JsonNumber × Scanner) :=
  match FiniteDouble.ofDecimal? significand exponent with
  | some x => .ok (.double (!positive) x, s)
  | none => s.faultHere .numberOutOfRange

/-- Reads an exponent, from its letter on. -/
def readExponent (positive : Bool) (significand : Nat) (exponent : Int) (s : Scanner) :
    Except JsonFault (JsonNumber × Scanner) :=
  let s := s.bump
  let negative : Bool := s.rest.head? = some '-'
  let s := if negative || s.rest.head? = some '+' then s.bump else s
  match s.rest with
  | [] => s.faultHere .endInValue
  | c :: _ =>
    if c.isDigit then
      let d := addDigits exponentMax 0 s
      if d.stop.atDigit then
        if significand ≠ 0 ∧ !negative then d.stop.faultNext .numberOutOfRange
        else .ok (.double (!positive) .zero, d.stop.dropWhile Char.isDigit)
      else
        doubleOf positive significand (if negative then exponent - d.value else exponent + d.value)
          d.stop
    else s.faultNext .invalidNumber

/-- Reads what can follow the digits of a double: an exponent. -/
def readDoubleEnd (positive : Bool) (significand : Nat) (exponent : Int) (s : Scanner) :
    Except JsonFault (JsonNumber × Scanner) :=
  if s.atExponent then readExponent positive significand exponent s
  else doubleOf positive significand exponent s

/-- Reads a fraction, from its point on. Digits that 64 bits cannot hold are passed over. -/
def readFraction (positive : Bool) (significand : Nat) (exponent : Int) (s : Scanner) :
    Except JsonFault (JsonNumber × Scanner) :=
  let d := addDigits wordMax significand s.bump
  let exponent := exponent - d.count
  if d.stop.atDigit then
    readDoubleEnd positive d.value exponent (d.stop.dropWhile Char.isDigit)
  else if d.count = 0 then
    d.stop.faultNext (if d.stop.rest.isEmpty then .endInValue else .invalidNumber)
  else readDoubleEnd positive d.value exponent d.stop

/-- The number of an integer without fraction and exponent. -/
def integer (positive : Bool) (n : Nat) (s : Scanner) : Except JsonFault (JsonNumber × Scanner) :=
  if positive then .ok (.nat n, s)
  else if n = 0 ∨ Nat.pow 2 63 < n then doubleOf false n 0 s
  else .ok (.neg n, s)

/-- Reads what can follow the digits of an integer. -/
def readNumberEnd (positive : Bool) (significand : Nat) (s : Scanner) :
    Except JsonFault (JsonNumber × Scanner) :=
  if s.rest.head? = some '.' then readFraction positive significand 0 s
  else if s.atExponent then readExponent positive significand 0 s
  else integer positive significand s

/-- Reads the rest of an integer that 64 bits cannot hold. -/
def readLongInteger (positive : Bool) (significand : Nat) (s : Scanner) :
    Except JsonFault (JsonNumber × Scanner) :=
  let stop := s.dropWhile Char.isDigit
  let exponent : Int := s.rest.length - stop.rest.length
  if stop.rest.head? = some '.' then readFraction positive significand exponent stop
  else readDoubleEnd positive significand exponent stop

/-- Reads a number, after its sign. A zero at its start stands alone. -/
def readNumber (positive : Bool) (s : Scanner) : Except JsonFault (JsonNumber × Scanner) :=
  match s.rest with
  | [] => s.faultHere .endInValue
  | c :: _ =>
    if c = '0' then
      if s.bump.atDigit then s.bump.faultNext .invalidNumber
      else readNumberEnd positive 0 s.bump
    else if c.isDigit then
      let d := addDigits wordMax 0 s
      if d.stop.atDigit then readLongInteger positive d.value d.stop
      else readNumberEnd positive d.value d.stop
    else s.faultNext .invalidNumber

end Scanner

end PatternGate
