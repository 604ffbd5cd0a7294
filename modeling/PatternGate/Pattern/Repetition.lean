import PatternGate.Pattern.Number
import PatternGate.Pattern.Tree

/-!
# Repetition operators

Reads `?`, `*`, `+` and the counted forms between braces, each with the question mark that makes it
lazy, and applies them to the item before.
-/

namespace PatternGate

/-- The bounds of the operators of one character. -/
def operatorBounds? : Char → Option Bounds
  | '?' => some ⟨0, some 1⟩
  | '*' => some ⟨0, none⟩
  | '+' => some ⟨1, none⟩
  | _ => none

/-- An operator: its bounds, whether it is greedy, and the cursor after it. -/
structure RepetitionMark where
  bounds : Bounds
  greedy : Bool
  cursor : Cursor

/-- Reads the question mark of a lazy operator. -/
def readGreed (bounds : Bounds) (c : Cursor) : RepetitionMark :=
  match c.rest with
  | '?' :: _ => ⟨bounds, false, c.bump⟩
  | _ => ⟨bounds, true, c⟩

/-- Reads the bounds of a counted repetition up to its closing brace. A fault of the first count is
reported only after the comma, when what follows does not hide it. -/
def readBounds (x : Bool) (start : Position) (c : Cursor) : Except Fault (Bounds × Cursor) := do
  let unclosed (c : Cursor) : Fault := ⟨.repetitionCountUnclosed, ⟨start, c.pos⟩⟩
  if c.atEnd then throw (unclosed c)
  let (first, c) := readCount x c
  match c.rest with
  | [] => throw (unclosed c)
  | ',' :: _ =>
    let c := c.next x
    match c.rest with
    | [] => throw (unclosed c)
    | '}' :: _ =>
      let min ← first
      return (⟨min, none⟩, c)
    | _ =>
      let min ← first
      let (last, c) := readCount x c
      let max ← last
      return (⟨min, some max⟩, c)
  | _ =>
    let count ← first
    return (⟨count, some count⟩, c)

/-- Bounds that some count satisfies. -/
def Bounds.isValid (b : Bounds) : Bool := b.max.all (b.min ≤ ·)

/-- Reads a counted repetition, from its opening brace on. -/
def readCounted (x : Bool) (c : Cursor) : Except Fault RepetitionMark := do
  let start := c.pos
  let (bounds, c) ← readBounds x start (c.next x)
  if c.rest.head? ≠ some '}' then throw ⟨.repetitionCountUnclosed, ⟨start, c.pos⟩⟩
  let mark := readGreed bounds (c.next x)
  if bounds.isValid then return mark
  else throw ⟨.repetitionCountInvalid, ⟨start, mark.cursor.pos⟩⟩

/-- What an operator may repeat: anything but nothing and a directive. -/
def Tree.isRepeatable : Tree → Bool
  | .empty _ | .flags _ _ => false
  | _ => true

/-- Applies an operator to the last item of a sequence in reverse order. -/
def applyRepetition (here : Span) (items : List Tree) (mark : Except Fault RepetitionMark) :
    Except Fault (List Tree × Cursor) :=
  match items with
  | [] => .error ⟨.repetitionMissing, here⟩
  | body :: rest =>
    if body.isRepeatable then do
      let mark ← mark
      let span : Span := ⟨body.span.start, mark.cursor.pos⟩
      return (.repetition span mark.bounds mark.greedy body :: rest, mark.cursor)
    else .error ⟨.repetitionMissing, here⟩

end PatternGate
