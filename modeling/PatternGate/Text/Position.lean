/-!
# Positions and spans

A position is a place between two characters of a text: its byte offset in the UTF-8 of the text,
and its line and column, both counted from one, with columns counted in characters. A span is a pair
of positions. Messages point at spans, so every tree node and every fault carries one.
-/

namespace PatternGate

/-- A place between two characters of a text. -/
structure Position where
  offset : Nat
  line : Nat
  column : Nat
  deriving DecidableEq, Inhabited

namespace Position

/-- The place before the first character. -/
def start : Position := ⟨0, 1, 1⟩

/-- The place after the character `c` that stands at `p`; a line feed opens a new line. -/
def after (p : Position) (c : Char) : Position :=
  if c = '\n' then ⟨p.offset + c.utf8Size, p.line + 1, 1⟩
  else ⟨p.offset + c.utf8Size, p.line, p.column + 1⟩

end Position

/-- The stretch of text from `start` up to `stop`. -/
structure Span where
  start : Position
  stop : Position
  deriving DecidableEq, Inhabited

namespace Span

/-- The empty span at a position. -/
def empty (p : Position) : Span := ⟨p, p⟩

/-- A span whose two ends stand on the same line. -/
def isOneLine (s : Span) : Bool := s.start.line == s.stop.line

/-- Spans are ordered by the offset of their start, then by the offset of their end. -/
def before (s t : Span) : Bool :=
  s.start.offset < t.start.offset ||
    (s.start.offset == t.start.offset && s.stop.offset < t.stop.offset)

end Span

end PatternGate
