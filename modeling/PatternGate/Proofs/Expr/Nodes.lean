import PatternGate.Expr.Basic

/-!
# The nodes of an expression

An expression is a tree whose sequences and alternations hold lists. This module gives the two tools
by which laws about expressions are stated and proved: induction with a hypothesis for every item,
and the list of all nodes, so that a condition on an expression is a condition on each of its nodes.
-/

namespace PatternGate.Expr

/-- Induction over expressions, with the hypothesis for every item of a sequence and every branch of
an alternation. -/
@[elab_as_elim, induction_eliminator]
theorem induction {motive : Expr → Prop}
    (empty : motive .empty)
    (literal : ∀ bytes, motive (.literal bytes))
    (chars : ∀ set, motive (.chars set))
    (bytes : ∀ set, motive (.bytes set))
    (look : ∀ l, motive (.look l))
    (repetition : ∀ min max greedy body, motive body → motive (.repetition min max greedy body))
    (capture : ∀ index name body, motive body → motive (.capture index name body))
    (concat : ∀ items, (∀ e ∈ items, motive e) → motive (.concat items))
    (alternation : ∀ branches, (∀ e ∈ branches, motive e) → motive (.alternation branches))
    (e : Expr) : motive e :=
  @Expr.rec motive (fun es => ∀ e ∈ es, motive e) empty literal chars bytes look repetition capture
    concat alternation
    (fun _ h => absurd h List.not_mem_nil)
    (fun _ _ he hes _ h => by
      rcases List.mem_cons.mp h with rfl | h
      · exact he
      · exact hes _ h)
    e

mutual

/-- The expression and all its parts, outer ones first. -/
def nodes : Expr → List Expr
  | .empty => [.empty]
  | .literal bs => [.literal bs]
  | .chars set => [.chars set]
  | .bytes set => [.bytes set]
  | .look l => [.look l]
  | .repetition min max greedy body => .repetition min max greedy body :: body.nodes
  | .capture index name body => .capture index name body :: body.nodes
  | .concat items => .concat items :: nodesAll items
  | .alternation branches => .alternation branches :: nodesAll branches

/-- The nodes of several expressions. -/
def nodesAll : List Expr → List Expr
  | [] => []
  | e :: es => e.nodes ++ nodesAll es

end

theorem nodesAll_eq_flatMap (es : List Expr) : nodesAll es = es.flatMap nodes := by
  induction es with
  | nil => rfl
  | cons e es ih => rw [nodesAll, ih, List.flatMap_cons]

/-- Every expression is one of its nodes. -/
theorem self_mem_nodes (e : Expr) : e ∈ e.nodes := by
  cases e <;> simp [nodes]

theorem nodes_subset_of_mem {e : Expr} {es : List Expr} (mem : e ∈ es) :
    e.nodes ⊆ nodesAll es := by
  intro d inner
  rw [nodesAll_eq_flatMap]
  exact List.mem_flatMap.mpr ⟨e, mem, inner⟩

/-- A condition holds at every node. -/
def Each (P : Expr → Prop) (e : Expr) : Prop := ∀ d ∈ e.nodes, P d

instance (P : Expr → Prop) [DecidablePred P] (e : Expr) : Decidable (e.Each P) :=
  inferInstanceAs (Decidable (∀ d ∈ e.nodes, P d))

namespace Each

variable {P Q : Expr → Prop}

theorem self {e : Expr} (each : e.Each P) : P e := each e (self_mem_nodes e)

theorem mono {e : Expr} (each : e.Each P) (imp : ∀ d, P d → Q d) : e.Each Q :=
  fun d mem => imp d (each d mem)

theorem repetition_iff {min : Nat} {max : Option Nat} {greedy : Bool} {body : Expr} :
    (Expr.repetition min max greedy body).Each P ↔
      P (.repetition min max greedy body) ∧ body.Each P := by
  simp [Each, nodes]

theorem capture_iff {index : Nat} {name : Option String} {body : Expr} :
    (Expr.capture index name body).Each P ↔ P (.capture index name body) ∧ body.Each P := by
  simp [Each, nodes]

theorem concat_iff {items : List Expr} :
    (Expr.concat items).Each P ↔ P (.concat items) ∧ ∀ e ∈ items, e.Each P := by
  simp only [Each, nodes, nodesAll_eq_flatMap, List.forall_mem_cons, List.mem_flatMap]
  grind

theorem alternation_iff {branches : List Expr} :
    (Expr.alternation branches).Each P ↔
      P (.alternation branches) ∧ ∀ e ∈ branches, e.Each P := by
  simp only [Each, nodes, nodesAll_eq_flatMap, List.forall_mem_cons, List.mem_flatMap]
  grind

/-- A condition that holds at every node holds at every node of a node. -/
theorem node {e d : Expr} (each : e.Each P) (mem : d ∈ e.nodes) : d.Each P := by
  induction e with
  | empty | literal _ | chars _ | bytes _ | look _ => exact List.mem_singleton.mp mem ▸ each
  | repetition min max greedy body ih =>
    rcases List.mem_cons.mp mem with rfl | inner
    · exact each
    · exact ih (repetition_iff.mp each).2 inner
  | capture index name body ih =>
    rcases List.mem_cons.mp mem with rfl | inner
    · exact each
    · exact ih (capture_iff.mp each).2 inner
  | concat items ih =>
    rcases List.mem_cons.mp mem with rfl | inner
    · exact each
    · rw [nodesAll_eq_flatMap] at inner
      obtain ⟨item, among, inner⟩ := List.mem_flatMap.mp inner
      exact ih item among ((concat_iff.mp each).2 item among) inner
  | alternation branches ih =>
    rcases List.mem_cons.mp mem with rfl | inner
    · exact each
    · rw [nodesAll_eq_flatMap] at inner
      obtain ⟨branch, among, inner⟩ := List.mem_flatMap.mp inner
      exact ih branch among ((alternation_iff.mp each).2 branch among) inner

end Each

end PatternGate.Expr
