import PatternGate.Pattern.Parser

/-!
# The bound on nesting

Groups, repetitions, alternations, sequences and bracketed classes are levels, and so are the unions
and the operators inside a class. A pattern in which a level stands deeper than the limit is refused
at the first such level in reading order.
-/

namespace PatternGate

/-- Enters a level below `depth` others. -/
def enterLevel (limit depth : Nat) (span : Span) : Except Fault Unit :=
  if depth < limit then .ok () else .error ⟨.nestLimitExceeded limit, span⟩

mutual

/-- Checks a class that stands below `depth` levels. -/
def ClassTree.checkNesting (limit : Nat) : ClassTree → Nat → Except Fault Unit
  | .bracket span _ body, depth => do
    enterLevel limit depth span
    body.checkNesting limit (depth + 1)
  | .union span items, depth => do
    enterLevel limit depth span
    ClassTree.checkNestingAll limit items (depth + 1)
  | .binary span _ lhs rhs, depth => do
    enterLevel limit depth span
    lhs.checkNesting limit (depth + 1)
    rhs.checkNesting limit (depth + 1)
  | .empty _, _ | .literal _ _, _ | .range _ _ _, _ | .ascii _ _ _, _ | .property _ _ _, _
  | .letter _ _ _, _ => .ok ()

/-- Checks classes side by side below `depth` levels. -/
def ClassTree.checkNestingAll (limit : Nat) : List ClassTree → Nat → Except Fault Unit
  | [], _ => .ok ()
  | t :: ts, depth => do
    t.checkNesting limit depth
    ClassTree.checkNestingAll limit ts depth

end

mutual

/-- Checks a tree that stands below `depth` levels. -/
def Tree.checkNesting (limit : Nat) : Tree → Nat → Except Fault Unit
  | .bracket span _ body, depth => do
    enterLevel limit depth span
    body.checkNesting limit (depth + 1)
  | .repetition span _ _ body, depth => do
    enterLevel limit depth span
    body.checkNesting limit (depth + 1)
  | .group span _ body, depth => do
    enterLevel limit depth span
    body.checkNesting limit (depth + 1)
  | .alternation span branches, depth => do
    enterLevel limit depth span
    Tree.checkNestingAll limit branches (depth + 1)
  | .concat span items, depth => do
    enterLevel limit depth span
    Tree.checkNestingAll limit items (depth + 1)
  | .empty _, _ | .flags _ _, _ | .literal _ _, _ | .dot _, _ | .assertion _ _, _
  | .property _ _ _, _ | .letter _ _ _, _ => .ok ()

/-- Checks trees side by side below `depth` levels. -/
def Tree.checkNestingAll (limit : Nat) : List Tree → Nat → Except Fault Unit
  | [], _ => .ok ()
  | t :: ts, depth => do
    t.checkNesting limit depth
    Tree.checkNestingAll limit ts depth

end

/-- Reads a pattern whose levels nest at most `limit` deep. The bound is checked last. -/
def Tree.parseWithin (limit : Nat) (pattern : String) : Except Fault Tree := do
  let tree ← Tree.parse pattern
  tree.checkNesting limit 0
  return tree

end PatternGate
