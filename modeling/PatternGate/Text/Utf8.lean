/-!
# UTF-8

Encoding is the standard one. Decoding accepts any bytes: a maximal run of bytes that starts a
character and is then cut off stands for one replacement character, and so does every byte that can
start none. On the encoding of a text decoding gives the text back.
-/

namespace PatternGate.Utf8

/-- The bytes of a text. -/
def encode (cs : List Char) : List UInt8 := cs.flatMap String.utf8EncodeChar

/-- The character that stands for bytes that encode none. -/
def replacement : Char := '�'

/-- A character that is being read: how many bytes are still due, the bounds of the next one, and
the bits gathered so far. -/
structure Partial where
  due : Nat
  lo : UInt8
  hi : UInt8
  bits : Nat
  deriving DecidableEq

/-- Reads a byte where a character starts: the finished characters, and the one that it opens. The
bounds of the second byte leave out overlong forms, surrogates and values above `U+10FFFF`. -/
def lead (b : UInt8) : List Char × Option Partial :=
  let n := b.toNat
  if n < 0x80 then ([Char.ofNat n], none)
  else if n < 0xC2 then ([replacement], none)
  else if n < 0xE0 then ([], some ⟨1, 0x80, 0xBF, n - 0xC0⟩)
  else if n = 0xE0 then ([], some ⟨2, 0xA0, 0xBF, 0⟩)
  else if n = 0xED then ([], some ⟨2, 0x80, 0x9F, 0xD⟩)
  else if n < 0xF0 then ([], some ⟨2, 0x80, 0xBF, n - 0xE0⟩)
  else if n = 0xF0 then ([], some ⟨3, 0x90, 0xBF, 0⟩)
  else if n < 0xF4 then ([], some ⟨3, 0x80, 0xBF, n - 0xF0⟩)
  else if n = 0xF4 then ([], some ⟨3, 0x80, 0x8F, 4⟩)
  else ([replacement], none)

/-- Reads one byte in a state: it continues the open character, or cuts it off and starts anew. -/
def feed : Option Partial → UInt8 → List Char × Option Partial
  | none, b => lead b
  | some p, b =>
    if p.lo ≤ b ∧ b ≤ p.hi then
      let bits := p.bits * 64 + (b.toNat - 0x80)
      if p.due ≤ 1 then ([Char.ofNat bits], none) else ([], some ⟨p.due - 1, 0x80, 0xBF, bits⟩)
    else
      let (out, next) := lead b
      (replacement :: out, next)

/-- The characters of bytes that follow an open character. -/
def decodeFrom : Option Partial → List UInt8 → List Char
  | none, [] => []
  | some _, [] => [replacement]
  | p, b :: bs =>
    let (out, next) := feed p b
    out ++ decodeFrom next bs

/-- The characters of any bytes, with a replacement character for each stretch that encodes none. -/
def decode (bs : List UInt8) : List Char := decodeFrom none bs

end PatternGate.Utf8
