import Mathlib.Data.Nat.Find
import PatternGate.Proofs.Decimal.Rounding
import PatternGate.Proofs.Json.Written

/-!
# Spellings of JSON

A spelling is a JSON text as it is written: with white space in all places that allow it, escapes in
strings, and numbers digit by digit. Each part carries what makes it well formed, so that every
spelling is a JSON text, and every JSON text has a spelling.

A spelling has the form of JSON, but that does not make it a value. A surrogate can stand alone, and
a number can be too great for a double; `Spelling.value?` is then undefined. `Spelling.isSound` says
which spellings have a value: their surrogates come in pairs, and their numbers are in range.
Values are also limited in their depth, which `Spelling.levels` measures. All of this is said of
the spelling alone, without a scanner.
-/

namespace PatternGate

/-! ## White space -/

/-- White space of a JSON text. -/
def isJsonSpace (c : Char) : Bool := c = ' ' || c = '\n' || c = '\t' || c = '\r'

/-- White space between two parts of a text, or none. -/
structure Gap where
  chars : List Char
  space : ∀ c ∈ chars, isJsonSpace c = true

/-! ## Strings -/

/-- The characters that have an escape of one letter. -/
inductive ShortEscape where
  | quote
  | backslash
  | slash
  | backspace
  | formFeed
  | lineFeed
  | carriageReturn
  | tab

namespace ShortEscape

/-- The letter behind the backslash. -/
def letter : ShortEscape → Char
  | quote => '"'
  | backslash => '\\'
  | slash => '/'
  | backspace => 'b'
  | formFeed => 'f'
  | lineFeed => 'n'
  | carriageReturn => 'r'
  | tab => 't'

/-- The character that the escape stands for. -/
def char : ShortEscape → Char
  | quote => '"'
  | backslash => '\\'
  | slash => '/'
  | backspace => '\x08'
  | formFeed => '\x0C'
  | lineFeed => '\n'
  | carriageReturn => '\r'
  | tab => '\t'

end ShortEscape

/-- A hexadecimal digit, in small or in capital letters. -/
structure HexDigit where
  value : Fin 16
  capital : Bool

/-- How a hexadecimal digit is written. -/
def HexDigit.char (d : HexDigit) : Char :=
  if d.capital then d.value.val.digitChar.toUpper else d.value.val.digitChar

/-- Four hexadecimal digits. -/
structure HexUnit where
  first : HexDigit
  second : HexDigit
  third : HexDigit
  fourth : HexDigit

namespace HexUnit

/-- How the digits are written. -/
def text (u : HexUnit) : List Char := [u.first.char, u.second.char, u.third.char, u.fourth.char]

/-- The number that they make. -/
def code (u : HexUnit) : Nat :=
  u.first.value * 4096 + u.second.value * 256 + u.third.value * 16 + u.fourth.value

/-- The number is the first of two that stand for one character. -/
def isLeading (u : HexUnit) : Bool := 0xD800 ≤ u.code && u.code ≤ 0xDBFF

/-- The number is the second of two that stand for one character. -/
def isTrailing (u : HexUnit) : Bool := 0xDC00 ≤ u.code && u.code ≤ 0xDFFF

end HexUnit

/-- One piece of a string: a character as it is, an escape of one letter, or an escape of four
hexadecimal digits. -/
inductive StringPiece where
  | plain (c : Char) (visible : 0x20 ≤ c.toNat) (unquoted : c ≠ '"') (unescaped : c ≠ '\\')
  | short (e : ShortEscape)
  | unit (u : HexUnit)

namespace StringPiece

/-- How a piece is written. -/
def text : StringPiece → List Char
  | plain c _ _ _ => [c]
  | short e => ['\\', e.letter]
  | unit u => '\\' :: 'u' :: u.text

/-- The characters of a string. A surrogate counts only as part of a pair. -/
def decode : List StringPiece → Option (List Char)
  | [] => some []
  | plain c _ _ _ :: rest => (decode rest).map (c :: ·)
  | short e :: rest => (decode rest).map (e.char :: ·)
  | unit u :: rest =>
    if u.isTrailing then none
    else if u.isLeading then
      match rest with
      | unit v :: rest =>
        if v.isTrailing then
          (decode rest).map
            (Char.ofNat ((u.code - 0xD800) * 0x400 + (v.code - 0xDC00) + 0x10000) :: ·)
        else none
      | _ => none
    else (decode rest).map (Char.ofNat u.code :: ·)

end StringPiece

/-- A string between its quotes. -/
structure StringSpelling where
  pieces : List StringPiece

namespace StringSpelling

/-- What is written behind the opening quote. -/
def text (s : StringSpelling) : List Char := s.pieces.flatMap StringPiece.text ++ ['"']

/-- The string that is written. -/
def value? (s : StringSpelling) : Option String := (StringPiece.decode s.pieces).map String.ofList

end StringSpelling

/-! ## Numbers -/

/-- Decimal digits, one at least. -/
structure DigitRun where
  chars : List Char
  some : chars ≠ []
  digits : ∀ c ∈ chars, c.isDigit = true

/-- An exponent. -/
structure ExponentSpelling where
  letter : Char
  sign : List Char
  run : DigitRun
  marked : letter = 'e' ∨ letter = 'E'
  signed : sign = [] ∨ sign = ['+'] ∨ sign = ['-']

/-- A number. No zero stands before other digits of its whole part. -/
structure NumberSpelling where
  negative : Bool
  whole : DigitRun
  fraction : Option DigitRun
  exponent : Option ExponentSpelling
  proper : whole.chars = ['0'] ∨ whole.chars.head? ≠ some '0'

/-- What is written of a fraction, if there is one. -/
def fractionText : Option DigitRun → List Char
  | none => []
  | some run => '.' :: run.chars

/-- What is written of an exponent, if there is one. -/
def exponentText : Option ExponentSpelling → List Char
  | none => []
  | some e => e.letter :: (e.sign ++ e.run.chars)

/-- The digits of a fraction, if there is one. -/
def fractionDigits : Option DigitRun → List Char
  | none => []
  | some run => run.chars

/-- The number that digits make behind those of another number. -/
def appendDigits (value : Nat) (ds : List Char) : Nat :=
  ds.foldl (fun n c => n * 10 + (c.toNat - 48)) value

/-- How many digits can be added behind a number such that it stays below a bound. -/
def keptDigits (bound value : Nat) (ds : List Char) : Nat :=
  Nat.findGreatest (fun k => appendDigits value (ds.take k) < bound) ds.length

namespace ExponentSpelling

/-- The exponent is negative. -/
def negative (e : ExponentSpelling) : Bool := e.sign = ['-']

/-- The exponent without its sign. -/
def size (e : ExponentSpelling) : Nat := appendDigits 0 e.run.chars

/-- The exponent is added to another one. -/
def addTo (e : ExponentSpelling) (scale : Int) : Int :=
  if e.negative then scale - e.size else scale + e.size

end ExponentSpelling

namespace NumberSpelling

/-- What is written behind the sign. -/
def unsigned (n : NumberSpelling) : List Char :=
  n.whole.chars ++ (fractionText n.fraction ++ exponentText n.exponent)

/-- How a number is written. -/
def text (n : NumberSpelling) : List Char :=
  if n.negative then '-' :: n.unsigned else n.unsigned

/-- The digits of the whole part that count: as many as 64 bits hold. -/
def wholeKept (n : NumberSpelling) : Nat := keptDigits (Nat.pow 2 64) 0 n.whole.chars

/-- The number that these digits make. -/
def wholeValue (n : NumberSpelling) : Nat :=
  appendDigits 0 (n.whole.chars.take n.wholeKept)

/-- The digits of the fraction that count: as many as 64 bits hold behind the whole part. -/
def fractionKept (n : NumberSpelling) : Nat :=
  keptDigits (Nat.pow 2 64) n.wholeValue (fractionDigits n.fraction)

/-- The number that all digits make that count. -/
def significand (n : NumberSpelling) : Nat :=
  appendDigits n.wholeValue ((fractionDigits n.fraction).take n.fractionKept)

/-- The power of ten that belongs to the significand: one up for each digit of the whole part that
does not count, and one down for each digit of the fraction that does. -/
def scale (n : NumberSpelling) : Int := ↑(n.whole.chars.length - n.wholeKept) - ↑n.fractionKept

/-- The number is an integer that 64 bits hold. -/
def isWord (n : NumberSpelling) : Bool :=
  n.fraction.isNone && n.exponent.isNone && n.wholeKept = n.whole.chars.length

end NumberSpelling

/-- A significand and a power of ten are in the range of doubles, with the exponent that is written.
An exponent of more than 31 bits leaves nothing in range but zero, unless it is negative. -/
def FiniteScaled (significand : Nat) (scale : Int) : Option ExponentSpelling → Prop
  | none => FiniteProduct significand scale
  | some e =>
    if e.size < Nat.pow 2 31 then FiniteProduct significand (e.addTo scale)
    else e.negative = true ∨ significand = 0

instance (significand : Nat) (scale : Int) : DecidablePred (FiniteScaled significand scale)
  | none => inferInstanceAs (Decidable (FiniteProduct significand scale))
  | some e => inferInstanceAs (Decidable
      (if e.size < Nat.pow 2 31 then FiniteProduct significand (e.addTo scale)
      else e.negative = true ∨ significand = 0))

/-- The number is in the range of doubles. -/
def NumberSpelling.InRange (n : NumberSpelling) : Prop :=
  FiniteScaled n.significand n.scale n.exponent

instance (n : NumberSpelling) : Decidable n.InRange :=
  inferInstanceAs (Decidable (FiniteScaled n.significand n.scale n.exponent))

/-- The double of a significand and a power of ten, with the exponent that is written. -/
def scaledDouble? (significand : Nat) (scale : Int) :
    Option ExponentSpelling → Option FiniteDouble
  | none => FiniteDouble.ofDecimal? significand scale
  | some e =>
    if e.size < Nat.pow 2 31 then FiniteDouble.ofDecimal? significand (e.addTo scale)
    else if e.negative = true ∨ significand = 0 then some .zero
    else none

/-- The number of an integer of 64 bits. Zero has a sign only as a double, and what a signed integer
cannot hold is a double, too. -/
def wordNumber? (negative : Bool) (n : Nat) : Option JsonNumber :=
  if negative then
    if n = 0 ∨ Nat.pow 2 63 < n then (FiniteDouble.ofDecimal? n 0).map (.double true)
    else some (.neg n)
  else some (.nat n)

/-- The number that is written, unless it is out of range. -/
def NumberSpelling.value? (n : NumberSpelling) : Option JsonNumber :=
  if n.isWord then wordNumber? n.negative n.significand
  else (scaledDouble? n.significand n.scale n.exponent).map (.double n.negative)

/-! ## Values -/

mutual

/-- A value, from its first character to its last. -/
inductive Spelling where
  | null
  | bool (b : Bool)
  | number (n : NumberSpelling)
  | string (s : StringSpelling)
  | list (items : ItemSpellings)
  | object (members : MemberSpellings)

/-- The items of a list, up to the bracket that closes it. -/
inductive ItemSpellings where
  | close (gap : Gap)
  | cons (comma before : Gap) (value : Spelling) (rest : ItemSpellings)

/-- The members of an object, up to the brace that closes it. -/
inductive MemberSpellings where
  | close (gap : Gap)
  | cons (comma before : Gap) (name : StringSpelling) (colon after : Gap) (value : Spelling)
    (rest : MemberSpellings)

end

/-- What stands before an item or a member: white space, and a comma in it unless it is the first.
-/
def leadIn (comma before : Gap) (first : Bool) : List Char :=
  comma.chars ++ ((if first then [] else [',']) ++ before.chars)

mutual

/-- How a value is written. -/
def Spelling.text : Spelling → List Char
  | .null => ['n', 'u', 'l', 'l']
  | .bool true => ['t', 'r', 'u', 'e']
  | .bool false => ['f', 'a', 'l', 's', 'e']
  | .number n => n.text
  | .string s => '"' :: s.text
  | .list items => '[' :: items.text true
  | .object members => '{' :: members.text true

/-- How items are written, where `first` says that none stands before them. -/
def ItemSpellings.text : ItemSpellings → Bool → List Char
  | .close gap, _ => gap.chars ++ [']']
  | .cons comma before value rest, first =>
    leadIn comma before first ++ (value.text ++ rest.text false)

/-- How members are written, where `first` says that none stands before them. -/
def MemberSpellings.text : MemberSpellings → Bool → List Char
  | .close gap, _ => gap.chars ++ ['}']
  | .cons comma before name colon after value rest, first =>
    leadIn comma before first ++ '"' :: (name.text ++ (colon.chars ++
      ':' :: (after.chars ++ (value.text ++ rest.text false))))

end

mutual

/-- How deep lists and objects stand inside one another. -/
def Spelling.levels : Spelling → Nat
  | .null | .bool _ | .number _ | .string _ => 0
  | .list items => items.levels + 1
  | .object members => members.levels + 1

/-- How deep the items go. -/
def ItemSpellings.levels : ItemSpellings → Nat
  | .close _ => 0
  | .cons _ _ value rest => max value.levels rest.levels

/-- How deep the members go. -/
def MemberSpellings.levels : MemberSpellings → Nat
  | .close _ => 0
  | .cons _ _ _ _ _ value rest => max value.levels rest.levels

end

mutual

/-- The value that is written, if it is one. Of members with one name the last counts. -/
def Spelling.value? : Spelling → Option Json
  | .null => some .null
  | .bool b => some (.bool b)
  | .number n => n.value?.map .number
  | .string s => s.value?.map .string
  | .list items => items.values?.map .array
  | .object members => (members.values? []).map .object

/-- The values of items. -/
def ItemSpellings.values? : ItemSpellings → Option (List Json)
  | .close _ => some []
  | .cons _ _ value rest => value.value?.bind fun v => rest.values?.map (v :: ·)

/-- The members of an object, added to those before them. -/
def MemberSpellings.values? : MemberSpellings → List (String × Json) →
    Option (List (String × Json))
  | .close _, members => some members
  | .cons _ _ name _ _ value rest, members =>
    name.value?.bind fun n => value.value?.bind fun v => rest.values? (Json.setMember n v members)

end

mutual

/-- A value in which no surrogate stands alone and no number is out of range. -/
def Spelling.isSound : Spelling → Bool
  | .null | .bool _ => true
  | .number n => n.InRange
  | .string s => s.value?.isSome
  | .list items => items.isSound
  | .object members => members.isSound

/-- Items that are sound, each of them. -/
def ItemSpellings.isSound : ItemSpellings → Bool
  | .close _ => true
  | .cons _ _ value rest => value.isSound && rest.isSound

/-- Members that are sound, with their names. -/
def MemberSpellings.isSound : MemberSpellings → Bool
  | .close _ => true
  | .cons _ _ name _ _ value rest => name.value?.isSome && (value.isSound && rest.isSound)

end

/-! ## Reading -/

/-- A cause that has to do with the value of a text and not with its form. -/
def JsonCause.concernsValue : JsonCause → Bool
  | .numberOutOfRange | .loneSurrogate | .hexEscapeEnd | .recursionLimit => true
  | _ => false

/-- What comes of reading a spelling: its value, with the scanner behind it, or a fault that
concerns values if it has none. -/
def Reads {α : Type} (result : Except JsonFault (α × Scanner)) (value : Option α)
    (stop : Scanner) : Prop :=
  match value with
  | some a => result = .ok (a, stop)
  | none => ∃ f, result = .error f ∧ f.cause.concernsValue = true

namespace Reads

variable {α β : Type} {x : Except JsonFault (α × Scanner)} {a : Option α} {s stop : Scanner}
  {f : α × Scanner → Except JsonFault (β × Scanner)}

theorem bind {g : α → Option β} (first : Reads x a s)
    (next : ∀ v, Reads (f (v, s)) (g v) stop) : Reads (x >>= f) (a.bind g) stop := by
  cases a with
  | none =>
    obtain ⟨fault, rfl, concerns⟩ := first
    exact ⟨fault, rfl, concerns⟩
  | some v =>
    obtain rfl : x = .ok (v, s) := first
    exact next v

theorem map {g : α → β} (first : Reads x a s) (next : ∀ v, f (v, s) = .ok (g v, s)) :
    Reads (x >>= f) (a.map g) s := by
  rw [Option.map_eq_bind]
  exact first.bind next

end Reads

namespace Scanner

theorem bump_cons (c : Char) (rest : List Char) (p : Place) :
    bump ⟨c :: rest, p⟩ = ⟨rest, p.after c⟩ := rfl

/-- No character that satisfies `q` comes next. -/
def Stops (q : Char → Bool) (rest : List Char) : Prop := ∀ c ∈ rest.head?, q c = false

theorem dropWhile_append {q : Char → Bool} {cs rest : List Char} (all : ∀ c ∈ cs, q c = true)
    (stops : Stops q rest) (p : Place) :
    dropWhile q ⟨cs ++ rest, p⟩ = ⟨rest, p.afterAll cs⟩ := by
  rw [dropWhile]
  dsimp only
  induction cs generalizing p with
  | nil =>
    cases rest with
    | nil => rfl
    | cons c rest => rw [List.nil_append, dropWhile.go, stops c rfl]; rfl
  | cons c cs ih =>
    rw [List.forall_mem_cons] at all
    rw [List.cons_append, dropWhile.go, all.1]
    exact ih all.2 (p.after c)

/-- White space is passed over up to what is none. -/
theorem skipSpace_gap (gap : Gap) {rest : List Char} (visible : Stops isJsonSpace rest)
    (p : Place) : skipSpace ⟨gap.chars ++ rest, p⟩ = ⟨rest, p.afterAll gap.chars⟩ :=
  dropWhile_append gap.space visible p

end Scanner

end PatternGate
