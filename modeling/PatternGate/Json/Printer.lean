/-!
# Writing JSON text

JSON texts are written without blanks. A string escapes the quote, the backslash and the control
characters below the blank, by their letter where they have one.
-/

namespace PatternGate.JsonText

/-- A hexadecimal digit in lower case. -/
def hexDigit (n : Nat) : Char := if n < 10 then Char.ofNat (48 + n) else Char.ofNat (87 + n)

/-- One character of a string. -/
def escapeChar (c : Char) : List Char :=
  if c = '"' ∨ c = '\\' then ['\\', c]
  else if c = '\x08' then ['\\', 'b']
  else if c = '\x0C' then ['\\', 'f']
  else if c = '\n' then ['\\', 'n']
  else if c = '\r' then ['\\', 'r']
  else if c = '\t' then ['\\', 't']
  else if c.toNat < 0x20 then
    ['\\', 'u', '0', '0', hexDigit (c.toNat / 16), hexDigit (c.toNat % 16)]
  else [c]

/-- A string. -/
def string (s : String) : List Char := ['"'] ++ s.toList.flatMap escapeChar ++ ['"']

/-- A truth value. -/
def bool (b : Bool) : List Char := if b then ['t', 'r', 'u', 'e'] else ['f', 'a', 'l', 's', 'e']

/-- A natural number. -/
def nat (n : Nat) : List Char := (toString n).toList

/-- Members after the first one. -/
def moreMembers : List (String × List Char) → List Char
  | [] => ['}']
  | (name, value) :: rest => [','] ++ string name ++ [':'] ++ value ++ moreMembers rest

/-- An object of members in their order. -/
def object : List (String × List Char) → List Char
  | [] => ['{', '}']
  | (name, value) :: rest => ['{'] ++ string name ++ [':'] ++ value ++ moreMembers rest

end PatternGate.JsonText
