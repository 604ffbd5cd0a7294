import PatternGate.Pattern.Bracket
import PatternGate.Pattern.Group
import PatternGate.Pattern.Repetition

/-!
# Reading a pattern

A pattern is read from left to right, one item at a time, with the open groups and alternations on a
stack. `step` reads one item; `readAll` repeats it until nothing is left; `Tree.parse` is the whole
reader. The first fault in reading order is the one reported, so a group that is never closed is
reported only when everything inside it could be read.
-/

namespace PatternGate

/-- Items of a sequence in reverse order, and where the sequence starts. -/
structure Sequence where
  start : Position
  items : List Tree

namespace Sequence

/-- An empty sequence at a place. -/
def empty (p : Position) : Sequence := ⟨p, []⟩

/-- One more item. -/
def push (s : Sequence) (t : Tree) : Sequence := { s with items := t :: s.items }

/-- The sequence as a tree; one item is itself. -/
def toTree (s : Sequence) (stop : Position) : Tree :=
  match s.items with
  | [] => .empty ⟨s.start, stop⟩
  | [t] => t
  | items => .concat ⟨s.start, stop⟩ items.reverse

end Sequence

/-- What was open before the current sequence: an alternation with its branches in reverse order, or
a group with the sequence around it and the blank mode to come back to. -/
inductive Frame where
  | alternation (start : Position) (branches : List Tree)
  | group (outer : Sequence) (opened : Span) (kind : GroupKind) (blank : Bool)

/-- The state of the reader. -/
structure Reader where
  cursor : Cursor
  /-- Blanks and comments are invisible. -/
  blank : Bool
  current : Sequence
  stack : List Frame
  /-- How many captures were opened. -/
  captures : Nat
  /-- The names of captures with their spans. -/
  names : List (String × Span)

namespace Reader

/-- The reader before a pattern. -/
def ofString (s : String) : Reader :=
  { cursor := .ofString s, blank := false, current := .empty .start, stack := [], captures := 0,
    names := [] }

/-- Ends the current branch of an alternation. -/
def branch (r : Reader) : Reader :=
  let done := r.current.toTree r.cursor.pos
  let cursor := r.cursor.bump
  let stack :=
    match r.stack with
    | .alternation start branches :: rest => .alternation start (done :: branches) :: rest
    | stack => .alternation r.current.start [done] :: stack
  { r with cursor, stack, current := .empty cursor.pos }

/-- Opens a group. -/
def openGroup (r : Reader) (opened : Span) (kind : GroupKind) (cursor : Cursor) (blank : Bool) :
    Reader :=
  { r with
    cursor, blank, current := .empty cursor.pos
    stack := .group r.current opened kind r.blank :: r.stack }

/-- The number of the next capture. -/
def nextCapture (r : Reader) (opened : Span) : Except Fault Nat :=
  if r.captures < countMax then .ok (r.captures + 1) else .error ⟨.captureLimitExceeded, opened⟩

/-- Reads how a group opens and opens it. A directive is an item of the current sequence. -/
def readGroup (r : Reader) : Except Fault Reader := do
  let opened := r.cursor.charSpan
  let (head, cursor) ← readGroupHead r.blank r.cursor
  match head with
  | .directive items =>
    let blank := (flagState .ignoreBlank true items).getD r.blank
    return { r with
      cursor, blank, current := r.current.push (.flags ⟨opened.start, cursor.pos⟩ items) }
  | .plain items =>
    let blank := (flagState .ignoreBlank true items).getD r.blank
    return r.openGroup opened (.plain items) cursor blank
  | .capture =>
    let index ← r.nextCapture opened
    return { r.openGroup opened (.capture index) cursor r.blank with captures := index }
  | .named name span =>
    let index ← r.nextCapture opened
    match r.names.find? fun entry => entry.1 = name with
    | some entry => throw ⟨.groupNameDuplicate entry.2, span⟩
    | none =>
      return { r.openGroup opened (.named index name) cursor r.blank with
        captures := index, names := (name, span) :: r.names }

/-- Puts a finished group into the sequence around it. -/
def finishGroup (r : Reader) (body : Tree) (outer : Sequence) (opened : Span) (kind : GroupKind)
    (blank : Bool) (stack : List Frame) : Reader :=
  let cursor := r.cursor.bump
  let group : Tree := .group ⟨opened.start, cursor.pos⟩ kind body
  { r with cursor, blank, stack, current := outer.push group }

/-- Closes the innermost group. -/
def closeGroup (r : Reader) : Except Fault Reader :=
  let done := r.current.toTree r.cursor.pos
  match r.stack with
  | .group outer opened kind blank :: rest =>
    .ok (r.finishGroup done outer opened kind blank rest)
  | .alternation start branches :: .group outer opened kind blank :: rest =>
    let body : Tree := .alternation ⟨start, r.cursor.pos⟩ (done :: branches).reverse
    .ok (r.finishGroup body outer opened kind blank rest)
  | _ => .error ⟨.groupUnopened, r.cursor.charSpan⟩

/-- Applies a repetition operator to the last item. -/
def repeatLast (r : Reader) (mark : Except Fault RepetitionMark) : Except Fault Reader := do
  let (items, cursor) ← applyRepetition r.cursor.here r.current.items mark
  return { r with cursor, current := { r.current with items } }

/-- Reads the item that starts with the character `ch`. -/
def step (r : Reader) (ch : Char) : Except Fault Reader :=
  if ch = '(' then r.readGroup
  else if ch = ')' then r.closeGroup
  else if ch = '|' then .ok r.branch
  else if ch = '[' then do
    let (tree, cursor) ← readBracket r.blank r.cursor
    return { r with cursor, current := r.current.push tree }
  else if ch = '{' then r.repeatLast (readCounted r.blank r.cursor)
  else
    match operatorBounds? ch with
    | some bounds => r.repeatLast (.ok (readGreed bounds r.cursor.bump))
    | none => do
      let (item, cursor) ← readPrimitive r.blank ch r.cursor
      return { r with cursor, current := r.current.push item.toTree }

/-- The tree of a pattern that was read to its end. -/
def finish (r : Reader) : Except Fault Tree :=
  let done := r.current.toTree r.cursor.pos
  match r.stack with
  | [] => .ok done
  | .group _ opened _ _ :: _ => .error ⟨.groupUnclosed, opened⟩
  | .alternation start branches :: rest =>
    match rest with
    | .group _ opened _ _ :: _ => .error ⟨.groupUnclosed, opened⟩
    | _ => .ok (.alternation ⟨start, r.cursor.pos⟩ (done :: branches).reverse)

/-- Reads items until nothing is left. -/
def readAll : Nat → Reader → Except Fault Tree
  | 0, r => r.finish
  | fuel + 1, r =>
    let r := { r with cursor := r.cursor.skipBlank r.blank }
    match r.cursor.rest with
    | [] => r.finish
    | ch :: _ => do
      let r ← r.step ch
      readAll fuel r

end Reader

/-- Reads a pattern, without a bound on its nesting. -/
def Tree.parse (pattern : String) : Except Fault Tree :=
  Reader.readAll (pattern.toList.length + 1) (.ofString pattern)

end PatternGate
