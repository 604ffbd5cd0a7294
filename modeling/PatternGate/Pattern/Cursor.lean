import PatternGate.Pattern.Fault
import PatternGate.Unicode.Property

/-!
# Cursors

A cursor is the rest of a pattern and the position where it starts. The flag `x` of a pattern makes
blanks and comments invisible between its parts; the functions that pass over them take that flag as
an argument. Loops over a cursor count down the characters that are left.
-/

namespace PatternGate

/-- White space. -/
def isBlank (c : Char) : Bool := RangeSet.contains Unicode.space c.toNat

/-- The rest of a pattern, and where it starts. -/
structure Cursor where
  rest : List Char
  pos : Position
  deriving DecidableEq

namespace Cursor

/-- The whole of a text. -/
def ofString (s : String) : Cursor := ⟨s.toList, .start⟩

/-- The empty span at the cursor. -/
def here (c : Cursor) : Span := .empty c.pos

/-- The span of the next character. -/
def charSpan (c : Cursor) : Span :=
  match c.rest with
  | [] => .empty c.pos
  | ch :: _ => ⟨c.pos, c.pos.after ch⟩

/-- Nothing is left. -/
def atEnd (c : Cursor) : Bool := c.rest.isEmpty

/-- Passes over one character. -/
def bump (c : Cursor) : Cursor :=
  match c.rest with
  | [] => c
  | ch :: rest => ⟨rest, c.pos.after ch⟩

/-- Passes over the given text, if it comes next. -/
def bumpIf? (text : List Char) (c : Cursor) : Option Cursor :=
  match text, c.rest with
  | [], _ => some c
  | t :: ts, ch :: _ => if t = ch then bumpIf? ts c.bump else none
  | _ :: _, [] => none

/-- Passes over blanks and over comments, which run from `#` to the end of the line. -/
def skipComments : Bool → List Char → Position → Cursor
  | _, [], pos => ⟨[], pos⟩
  | inComment, ch :: rest, pos =>
    if inComment then skipComments (ch ≠ '\n') rest (pos.after ch)
    else if isBlank ch then skipComments false rest (pos.after ch)
    else if ch = '#' then skipComments true rest (pos.after ch)
    else ⟨ch :: rest, pos⟩

/-- Passes over what the flag `x` makes invisible. -/
def skipBlank (x : Bool) (c : Cursor) : Cursor :=
  if x then skipComments false c.rest c.pos else c

/-- Passes over one character and over what the flag `x` makes invisible after it. -/
def next (x : Bool) (c : Cursor) : Cursor := c.bump.skipBlank x

/-- The character after the next one. -/
def second? (c : Cursor) : Option Char := c.rest.tail.head?

/-- The first visible character after the next one. Blanks and one `#` are passed over; if nothing
visible is left, the very next character counts. -/
def secondVisible? (x : Bool) (c : Cursor) : Option Char :=
  if x then
    let tail := c.rest.tail
    match tail.dropWhile isBlank with
    | '#' :: comment => (comment.dropWhile isBlank).head? <|> tail.head?
    | visible => visible.head? <|> tail.head?
  else c.second?

/-- The characters from the cursor on that satisfy `p`, and the cursor after them, for at most
`fuel` of them. -/
def takeUpTo (p : Char → Bool) (x : Bool) : Nat → Cursor → List Char × Cursor
  | 0, c => ([], c)
  | fuel + 1, c =>
    match c.rest with
    | [] => ([], c)
    | ch :: _ =>
      if p ch then
        let (chars, stop) := takeUpTo p x fuel (c.next x)
        (ch :: chars, stop)
      else ([], c)

/-- The longest run of characters that satisfy `p`, and the cursor after it. -/
def takeWhile (p : Char → Bool) (x : Bool) (c : Cursor) : List Char × Cursor :=
  takeUpTo p x c.rest.length c

end Cursor

end PatternGate
