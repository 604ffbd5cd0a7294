import PatternGate.Pattern.Cursor

/-!
# Numbers in patterns

Repetition counts are decimal and fit 32 bits. Code points are hexadecimal, in a fixed number of
digits or between braces, and must be Unicode scalar values.
-/

namespace PatternGate

/-- The greatest number that a count may be. -/
def countMax : Nat := 4294967295

/-- The value of a digit, decimal or hexadecimal. -/
def digitValue (c : Char) : Nat :=
  if c.isDigit then c.toNat - 48 else if c.toNat < 97 then c.toNat - 55 else c.toNat - 87

/-- The value of digits in a base. -/
def digitsValue (base : Nat) (cs : List Char) : Nat :=
  cs.foldl (fun n c => n * base + digitValue c) 0

/-- A hexadecimal digit. -/
def isHexDigit (c : Char) : Bool :=
  c.isDigit || ('a' ≤ c && c ≤ 'f') || ('A' ≤ c && c ≤ 'F')

/-- The character of a code point, unless it is a surrogate or too great. -/
def scalar? (n : Nat) : Option Char := if n.isValidChar then some (Char.ofNat n) else none

/-- Reads a count. White space around it is passed over, with or without the flag `x`. The cursor
after it is given also when there is no count to read. -/
def readCount (x : Bool) (c : Cursor) : Except Fault Nat × Cursor :=
  let (_, c) := c.takeWhile isBlank false
  let (digits, stop) := c.takeWhile Char.isDigit x
  let span : Span := ⟨c.pos, stop.pos⟩
  let (_, after) := stop.takeWhile isBlank x
  if digits.isEmpty then (.error ⟨.repetitionCountEmpty, span⟩, after)
  else
    let n := digitsValue 10 digits
    if n ≤ countMax then (.ok n, after) else (.error ⟨.decimalInvalid, span⟩, after)

/-- Reads a fixed number of hexadecimal digits. -/
def readHexDigits (x : Bool) : Nat → Cursor → Except Fault (List Char × Cursor)
  | 0, c => .ok ([], c)
  | n + 1, c =>
    match c.rest with
    | [] => .error ⟨.escapeUnexpectedEnd, c.here⟩
    | ch :: _ =>
      if isHexDigit ch then do
        let (digits, stop) ← readHexDigits x n (c.next x)
        return (ch :: digits, stop)
      else .error ⟨.escapeHexInvalidDigit, c.charSpan⟩

/-- Reads a code point of a fixed number of digits. -/
def readFixedHex (x : Bool) (count : Nat) (c : Cursor) : Except Fault (Char × Cursor) := do
  let (digits, stop) ← readHexDigits x count c
  match scalar? (digitsValue 16 digits) with
  | some ch => return (ch, stop)
  | none => throw ⟨.escapeHexInvalid, ⟨c.pos, stop.pos⟩⟩

/-- Reads a code point between braces, from the opening brace on. -/
def readBracedHex (x : Bool) (c : Cursor) : Except Fault (Char × Cursor) :=
  let (digits, stop) := (c.next x).takeWhile isHexDigit x
  match stop.rest with
  | [] => .error ⟨.escapeUnexpectedEnd, ⟨c.pos, stop.pos⟩⟩
  | ch :: _ =>
    if ch ≠ '}' then .error ⟨.escapeHexInvalidDigit, stop.charSpan⟩
    else
      let after := stop.next x
      if digits.isEmpty then .error ⟨.escapeHexEmpty, ⟨c.pos, after.pos⟩⟩
      else
        match scalar? (digitsValue 16 digits) with
        | some v => .ok (v, after)
        | none => .error ⟨.escapeHexInvalid, ⟨c.charSpan.stop, stop.pos⟩⟩

end PatternGate
