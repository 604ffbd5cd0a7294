import PatternGate.CharSet

/-!
# Written range sets

The tables of character properties are long, so a set is written as a word of letters and digits,
cut into lines. The word is a sequence of numbers: the gap before the first range, one less than the
length of that range, the gap before the second, and so on. A number is written with capital
letters, base 26, for its quotient by 36, and one digit or small letter for the remainder, which
also ends it.
-/

namespace PatternGate.Unicode

namespace RangeCode

/-- The numbers of a word. -/
def numbers : Nat → List Char → List Nat
  | _, [] => []
  | carry, c :: cs =>
    if c.isUpper then numbers (carry * 26 + (c.toNat - 65)) cs
    else
      (carry * 36 + if c.isDigit then c.toNat - 48 else c.toNat - 87) :: numbers 0 cs

/-- The ranges that alternating gaps and lengths describe, from a place on. -/
def ranges : Nat → List Nat → List Range
  | place, gap :: size :: rest =>
    ⟨place + gap, place + gap + size⟩ :: ranges (place + gap + size + 1) rest
  | _, _ => []

/-- The set that a word describes. -/
def decode (code : List String) : RangeSet := ranges 0 (numbers 0 (code.flatMap String.toList))

end RangeCode

/-- An entry of a property table: the names of a set, and the set as a word. -/
structure Row where
  names : List String
  code : List String
  deriving DecidableEq

namespace Row

/-- The set that a table gives to a name. -/
def find? (rows : List Row) (name : String) : Option RangeSet :=
  (rows.find? fun r => r.names.contains name).map fun r => RangeCode.decode r.code

end Row

end PatternGate.Unicode
