import PatternGate.Text.Utf8

/-!
# Bytes as Latin-1 characters

The engine reads its haystack byte by byte. A pattern is therefore read as the text whose characters
are the bytes of the pattern: the byte `b` becomes the character `U+00b`. A position in that text is
named by its byte offset, and `patternOffset` maps it back to the byte of the pattern it came from.
-/

namespace PatternGate.Latin1

/-- The character whose code point is the byte. -/
def ofByte (b : UInt8) : Char := Char.ofNat b.toNat

/-- The byte that a character stands for, if its code point is at most `U+00FF`. -/
def byte? (c : Char) : Option UInt8 :=
  if c.toNat ≤ 0xFF then some (UInt8.ofNat c.toNat) else none

/-- The text whose characters are the UTF-8 bytes of `s`. ASCII text is unchanged. -/
def decode (s : String) : String :=
  String.ofList ((Utf8.encode s.toList).map ofByte)

/-- How many characters stand before a byte offset, if the offset is a character boundary. -/
def charsBefore? : List Char → Nat → Option Nat
  | _, 0 => some 0
  | [], _ + 1 => none
  | c :: cs, n + 1 =>
    if c.utf8Size ≤ n + 1 then (charsBefore? cs (n + 1 - c.utf8Size)).map (· + 1) else none

/-- The byte of the pattern at a byte offset of its decoded text. An offset that is no character
boundary of the decoded text is left as it is. -/
def patternOffset (decoded : String) (offset : Nat) : Nat :=
  (charsBefore? decoded.toList offset).getD offset

end PatternGate.Latin1
