import PatternGate.Json.Scanner

/-!
# Reading JSON values

Reads a value with all its parts. Lists and objects nest less than 128 deep. In a member that nobody
asks for only the form of the text counts: `skipValue` passes over it without a bound on nesting,
and without a look at the size of numbers or at surrogates.
-/

namespace PatternGate

namespace Scanner

/-- The number of levels of lists and objects, plus one. -/
def depthLimit : Nat := 128

/-- Fuel for reading the rest of a text: two units for each character are enough. -/
def fuel (s : Scanner) : Nat := 2 * s.rest.length + 2

/-- Goes on to the next item of a list, if there is one. -/
def nextItem (first : Bool) (s : Scanner) : Except JsonFault (Bool × Scanner) :=
  let s := s.skipSpace
  match s.rest with
  | [] => s.faultNext .endInList
  | c :: _ =>
    if c = ']' then .ok (false, s)
    else if first then .ok (true, s)
    else if c = ',' then
      let s := s.bump.skipSpace
      match s.rest with
      | [] => s.faultNext .endInValue
      | d :: _ => if d = ']' then s.faultNext .trailingComma else .ok (true, s)
    else s.faultNext .expectedListCommaOrEnd

/-- Goes on to the next name of an object, if there is one, and passes over its opening quote. -/
def nextName (first : Bool) (s : Scanner) : Except JsonFault (Bool × Scanner) :=
  let s := s.skipSpace
  match s.rest with
  | [] => s.faultNext .endInObject
  | c :: _ =>
    if c = '}' then .ok (false, s)
    else if first then
      if c = '"' then .ok (true, s.bump) else s.faultNext .keyNotString
    else if c = ',' then
      let s := s.bump.skipSpace
      match s.rest with
      | [] => s.faultNext .endInValue
      | d :: _ =>
        if d = '"' then .ok (true, s.bump)
        else if d = '}' then s.faultNext .trailingComma
        else s.faultNext .keyNotString
    else s.faultNext .expectedObjectCommaOrEnd

/-- Reads the colon after a name. -/
def readColon (s : Scanner) : Except JsonFault Scanner :=
  let s := s.skipSpace
  match s.rest with
  | [] => s.faultNext .endInObject
  | c :: _ => if c = ':' then .ok s.bump else s.faultNext .expectedColon

/-- Checks that nothing but white space is left. -/
def finish (s : Scanner) : Except JsonFault Unit :=
  let s := s.skipSpace
  if s.rest.isEmpty then .ok () else s.faultNext .trailingCharacters

mutual

/-- Reads a value where `depth` is one more than the levels that are still allowed. -/
def readValue : Nat → Nat → Scanner → Except JsonFault (Json × Scanner)
  | 0, _, s => s.faultNext .endInValue
  | fuel + 1, depth, s =>
    let s := s.skipSpace
    match s.rest with
    | [] => s.faultNext .endInValue
    | c :: _ =>
      if c = 'n' then do
        let s ← s.bump.readWord ['u', 'l', 'l']
        return (.null, s)
      else if c = 't' then do
        let s ← s.bump.readWord ['r', 'u', 'e']
        return (.bool true, s)
      else if c = 'f' then do
        let s ← s.bump.readWord ['a', 'l', 's', 'e']
        return (.bool false, s)
      else if c = '-' then do
        let (n, s) ← s.bump.readNumber false
        return (.number n, s)
      else if c.isDigit then do
        let (n, s) ← s.readNumber true
        return (.number n, s)
      else if c = '"' then do
        let (t, s) ← s.bump.readString
        return (.string t, s)
      else if c = '[' then
        if depth ≤ 1 then s.faultNext .recursionLimit
        else do
          let (items, s) ← readItems fuel (depth - 1) true s.bump
          return (.array items, s)
      else if c = '{' then
        if depth ≤ 1 then s.faultNext .recursionLimit
        else do
          let (members, s) ← readMembers fuel (depth - 1) true [] s.bump
          return (.object members, s)
      else s.faultNext .expectedValue

/-- Reads the items of a list up to its end. -/
def readItems : Nat → Nat → Bool → Scanner → Except JsonFault (List Json × Scanner)
  | 0, _, _, s => s.faultNext .endInList
  | fuel + 1, depth, first, s => do
    let (more, s) ← s.nextItem first
    if more then
      let (item, s) ← readValue fuel depth s
      let (items, s) ← readItems fuel depth false s
      return (item :: items, s)
    else return ([], s.bump)

/-- Reads the members of an object up to its end. -/
def readMembers : Nat → Nat → Bool → List (String × Json) → Scanner →
    Except JsonFault (List (String × Json) × Scanner)
  | 0, _, _, _, s => s.faultNext .endInObject
  | fuel + 1, depth, first, members, s => do
    let (more, s) ← s.nextName first
    if more then
      let (name, s) ← s.readString
      let s ← s.readColon
      let (value, s) ← readValue fuel depth s
      readMembers fuel depth false (Json.setMember name value members) s
    else return (members, s.bump)

end

/-! ## Skipping -/

/-- Passes over an escape, after its backslash. -/
def skipEscape (s : Scanner) : Except JsonFault Scanner :=
  match s.rest with
  | [] => s.faultHere .endInString
  | c :: _ =>
    if c = 'u' then do
      let (_, s) ← s.bump.readHexFour
      return s
    else if (shortEscape? c).isSome then .ok s.bump
    else s.faultNext .invalidEscape

/-- Passes over the rest of a string. -/
def skipStringRest : Nat → Scanner → Except JsonFault Scanner
  | 0, s => s.faultHere .endInString
  | fuel + 1, s =>
    match s.rest with
    | [] => s.faultHere .endInString
    | c :: _ =>
      if c = '"' then .ok s.bump
      else if c = '\\' then do
        let s ← s.bump.skipEscape
        skipStringRest fuel s
      else if c.toNat < 0x20 then s.faultHere .controlCharacter
      else skipStringRest fuel s.bump

/-- Passes over a string, after its opening quote. -/
def skipString (s : Scanner) : Except JsonFault Scanner := skipStringRest (s.rest.length + 1) s

/-- Passes over an exponent. -/
def skipExponent (s : Scanner) : Except JsonFault Scanner :=
  let s := s.bump
  let s := if s.rest.head? = some '+' || s.rest.head? = some '-' then s.bump else s
  if s.atDigit then .ok (s.dropWhile Char.isDigit) else s.faultNext .invalidNumber

/-- Passes over a fraction and an exponent. -/
def skipNumberEnd (s : Scanner) : Except JsonFault Scanner :=
  if s.rest.head? = some '.' then
    let stop := s.bump.dropWhile Char.isDigit
    if !s.bump.atDigit then stop.faultNext .invalidNumber
    else if stop.atExponent then stop.skipExponent
    else .ok stop
  else if s.atExponent then s.skipExponent
  else .ok s

/-- Passes over a number, after its sign. -/
def skipNumber (s : Scanner) : Except JsonFault Scanner :=
  if s.rest.head? = some '0' then
    if s.bump.atDigit then s.bump.faultNext .invalidNumber else s.bump.skipNumberEnd
  else if s.atDigit then (s.dropWhile Char.isDigit).skipNumberEnd
  else s.faultNext .invalidNumber

/-- Passes over a value without parts that starts with `c`. -/
def skipScalar (c : Char) (s : Scanner) : Except JsonFault Scanner :=
  if c = 'n' then s.bump.readWord ['u', 'l', 'l']
  else if c = 't' then s.bump.readWord ['r', 'u', 'e']
  else if c = 'f' then s.bump.readWord ['a', 'l', 's', 'e']
  else if c = '-' then s.bump.skipNumber
  else if c.isDigit then s.skipNumber
  else if c = '"' then s.bump.skipString
  else s.faultNext .expectedValue

/-- What is open while a value is skipped. -/
inductive Enclosure where
  | list
  | object
  deriving DecidableEq

namespace Enclosure

/-- The character that closes it. -/
def close : Enclosure → Char
  | list => ']'
  | object => '}'

/-- The text ends inside it. -/
def atEnd : Enclosure → JsonCause
  | list => .endInList
  | object => .endInObject

/-- Something other than a comma or its end comes next. -/
def noComma : Enclosure → JsonCause
  | list => .expectedListCommaOrEnd
  | object => .expectedObjectCommaOrEnd

end Enclosure

/-- Passes over the name and the colon before a value in an object. -/
def skipName (e : Enclosure) (s : Scanner) : Except JsonFault Scanner :=
  match e with
  | .list => .ok s
  | .object =>
    let s := s.skipSpace
    match s.rest with
    | [] => s.faultNext .endInObject
    | c :: _ =>
      if c = '"' then do
        let s ← s.bump.skipString
        s.readColon
      else s.faultNext .keyNotString

mutual

/-- Passes over a value and the rest of what is open around it. -/
def skipValueIn : Nat → List Enclosure → Scanner → Except JsonFault Scanner
  | 0, _, s => s.faultNext .endInValue
  | fuel + 1, stack, s =>
    let s := s.skipSpace
    match s.rest with
    | [] => s.faultNext .endInValue
    | c :: _ =>
      if c = '[' then skipRest fuel false (.list :: stack) s.bump
      else if c = '{' then skipRest fuel false (.object :: stack) s.bump
      else do
        let s ← s.skipScalar c
        skipRest fuel true stack s

/-- Passes over the rest of what is open; `comma` says that an item stands before. -/
def skipRest : Nat → Bool → List Enclosure → Scanner → Except JsonFault Scanner
  | _, _, [], s => .ok s
  | 0, _, e :: _, s => s.faultNext e.atEnd
  | fuel + 1, comma, e :: stack, s =>
    let s := s.skipSpace
    match s.rest with
    | [] => s.faultNext e.atEnd
    | c :: _ =>
      if comma ∧ c = ',' then do
        let s ← s.bump.skipName e
        skipValueIn fuel (e :: stack) s
      else if c = e.close then skipRest fuel true stack s.bump
      else if comma then s.faultNext e.noComma
      else do
        let s ← s.skipName e
        skipValueIn fuel (e :: stack) s

end

/-- Passes over a value. -/
def skipValue (s : Scanner) : Except JsonFault Scanner := skipValueIn s.fuel [] s

end Scanner

/-- The value of a JSON text. -/
def Json.parse (text : String) : Except JsonFault Json := do
  let s := Scanner.ofString text
  let (value, s) ← Scanner.readValue s.fuel Scanner.depthLimit s
  s.finish
  return value

end PatternGate
