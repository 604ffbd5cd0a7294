import PatternGate.Proofs.Pattern.Reading

/-!
# What a pattern holds, in reading order

Some laws are about a list of what a tree holds, from left to right: the constructs outside the
dialect, the numbers of the groups. The reader has such a list too, of all that it has read, spread
over the current sequence and what is open around it. A step of the reader adds to the end of the
list and changes nothing else in it, and when the pattern has been read the list is that of its
tree. This is shown here for any list that goes through a tree in this way, so that a law about one
of them is only about what a step adds.
-/

namespace PatternGate

/-- A way to list what trees hold: what a group opens with comes before its body, and parts come
from left to right. -/
structure Listing (α : Type) where
  /-- What a tree holds. -/
  ofTree : Tree → List α
  /-- What a group opens with. -/
  ofKind : GroupKind → List α
  empty : ∀ span, ofTree (.empty span) = []
  repetition : ∀ span bounds greedy body,
    ofTree (.repetition span bounds greedy body) = ofTree body
  group : ∀ span kind body, ofTree (.group span kind body) = ofKind kind ++ ofTree body
  alternation : ∀ span branches, ofTree (.alternation span branches) = branches.flatMap ofTree
  concat : ∀ span items, ofTree (.concat span items) = items.flatMap ofTree

namespace Listing

variable {α : Type} (l : Listing α)

/-- What a sequence holds. -/
def ofSequence (s : Sequence) : List α := s.items.reverse.flatMap l.ofTree

/-- What is open holds: what was read before it, and what it opens with. -/
def ofFrame : Frame → List α
  | .alternation _ branches => branches.reverse.flatMap l.ofTree
  | .group outer _ kind _ => l.ofSequence outer ++ l.ofKind kind

/-- What frames hold, of which the innermost comes first. -/
def ofFrames : List Frame → List α
  | [] => []
  | frame :: outer => ofFrames outer ++ l.ofFrame frame

/-- What was read so far. -/
def ofReader (r : Reader) : List α := l.ofFrames r.stack ++ l.ofSequence r.current

theorem ofSequence_empty (p : Position) : l.ofSequence (.empty p) = [] := rfl

theorem ofSequence_push (s : Sequence) (t : Tree) :
    l.ofSequence (s.push t) = l.ofSequence s ++ l.ofTree t := by
  rw [ofSequence, Sequence.push, List.reverse_cons, List.flatMap_append, List.flatMap_singleton,
    ofSequence]

theorem ofTree_toTree (s : Sequence) (stop : Position) :
    l.ofTree (s.toTree stop) = l.ofSequence s := by
  obtain ⟨start, items⟩ := s
  match items with
  | [] => exact l.empty _
  | [t] => exact (List.flatMap_singleton l.ofTree t).symm
  | t :: u :: rest => exact l.concat _ _

variable {r : Reader}

/-- What was read is a tree and what is open around it. -/
theorem ofTree_inner {t : Tree} {around : List Frame} (inner : r.Inner t around) :
    l.ofFrames around ++ l.ofTree t = l.ofReader r := by
  cases inner with
  | sequence top => rw [ofReader, ofTree_toTree, top]
  | choice top =>
    rw [ofReader, top, l.alternation, List.reverse_cons, List.flatMap_append,
      List.flatMap_singleton, ofTree_toTree, ofFrames, ofFrame, List.append_assoc]

/-! ## What the steps of the reader add -/

theorem ofReader_push (t : Tree) (cursor : Cursor) (blank : Bool) :
    l.ofReader { r with cursor, blank, current := r.current.push t } =
      l.ofReader r ++ l.ofTree t := by
  rw [ofReader, ofSequence_push, ofReader, List.append_assoc]

theorem ofReader_openGroup (opened : Span) (kind : GroupKind) (cursor : Cursor) (blank : Bool) :
    l.ofReader (r.openGroup opened kind cursor blank) = l.ofReader r ++ l.ofKind kind := by
  rw [ofReader, Reader.openGroup, ofSequence_empty, List.append_nil, ofFrames, ofFrame, ofReader,
    List.append_assoc]

theorem ofReader_finishGroup {body : Tree} {outer : Sequence} {opened : Span} {kind : GroupKind}
    {blank : Bool} {rest : List Frame}
    (inner : r.Inner body (.group outer opened kind blank :: rest)) :
    l.ofReader (r.finishGroup body outer opened kind blank rest) = l.ofReader r := by
  rw [← l.ofTree_inner inner, ofReader, Reader.finishGroup, ofSequence_push, l.group, ofFrames,
    ofFrame]
  simp only [List.append_assoc]

theorem ofReader_branch : l.ofReader r.branch = l.ofReader r := by
  rw [ofReader, ofReader]
  unfold Reader.branch
  dsimp only
  rw [ofSequence_empty, List.append_nil]
  split
  next start branches rest top =>
    rw [top, ofFrames, ofFrames, ofFrame, ofFrame, List.reverse_cons, List.flatMap_append,
      List.flatMap_singleton, ofTree_toTree]
    simp only [List.append_assoc]
  next =>
    rw [ofFrames, ofFrame, List.reverse_singleton, List.flatMap_singleton, ofTree_toTree]

theorem ofReader_repetition {span : Span} {bounds : Bounds} {greedy : Bool} {body : Tree}
    {items : List Tree} (last : r.current.items = body :: items) (cursor : Cursor) :
    l.ofReader { r with
      cursor
      current := { r.current with items := .repetition span bounds greedy body :: items } } =
        l.ofReader r := by
  simp only [ofReader, ofSequence, last, List.reverse_cons, List.flatMap_append,
    List.flatMap_singleton, l.repetition]

end Listing

end PatternGate
