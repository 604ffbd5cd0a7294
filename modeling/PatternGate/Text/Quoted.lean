import PatternGate.Unicode.Property

/-!
# Quoted text

How messages quote a text: between double quotes, with the usual escapes, and with every character
that cannot be seen by itself written as its code point in hexadecimal. Not seen are control and
format characters, private and unassigned ones, separators other than the blank, and the marks that
join the character before them.
-/

namespace PatternGate.Text

/-- The characters without a shape. -/
def unprintable : RangeSet := Unicode.categories ["cc", "cf", "co", "cn", "zl", "zp", "zs"]

/-- The marks that join the character before them. -/
def joining : RangeSet := (Unicode.binarySet? "graphemeextend").getD []

/-- The digits of a number in base 16, in lower case. -/
def hexDigits (n : Nat) : List Char := Nat.toDigits 16 n

/-- One character inside quotes. -/
def quoteChar (c : Char) : List Char :=
  if c = '\x00' then ['\\', '0']
  else if c = '\t' then ['\\', 't']
  else if c = '\r' then ['\\', 'r']
  else if c = '\n' then ['\\', 'n']
  else if c = '\\' ∨ c = '"' then ['\\', c]
  else if c = ' ' then [c]
  else if RangeSet.contains joining c.toNat || RangeSet.contains unprintable c.toNat then
    ['\\', 'u', '{'] ++ hexDigits c.toNat ++ ['}']
  else [c]

/-- A text between quotes. -/
def quoted (s : String) : String := String.ofList (['"'] ++ s.toList.flatMap quoteChar ++ ['"'])

end PatternGate.Text
