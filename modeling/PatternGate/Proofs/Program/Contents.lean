import PatternGate.Proofs.Program.Budget
import PatternGate.Proofs.Program.Layout

/-!
# What the instructions of a program stand for

Forks and jumps connect the code of a plan; its other instructions are the plain ones, which come
from the leaves and the captures of the expression. So a property of the plain instructions of a
program is one of the nodes of its expression. Here this is said of the looks: a program asserts
nothing but the looks of its expression (`Settings.look_mem_nodes`).
-/

namespace PatternGate

/-- Different plain instructions are different instructions. -/
theorem Plain.instruction_injective : Function.Injective Plain.instruction := by
  intro i j same
  cases i <;> cases j <;> cases same <;> rfl

/-- A plain instruction is no fork. -/
theorem Plain.instruction_ne_fork (i : Plain) (greedy : Bool) (enter leave : Nat) :
    i.instruction ≠ Emitter.fork greedy enter leave := by
  cases i <;> cases greedy <;> exact nofun

namespace Plan

mutual

/-- The plain instructions of a plan, from left to right. -/
def plains : Plan → List Plain
  | nothing => []
  | plain i => [i]
  | seq first second => first.plains ++ second.plains
  | option _ body => body.plains
  | star _ body => body.plains
  | plus _ body => body.plains
  | choice branches => plainsAll branches

/-- The plain instructions of several plans. -/
def plainsAll : List Plan → List Plain
  | [] => []
  | b :: bs => b.plains ++ plainsAll bs

end

/-- The plain instructions of branches are those of each branch. -/
theorem mem_plainsAll_iff {i : Plain} {bs : List Plan} :
    i ∈ plainsAll bs ↔ ∃ b ∈ bs, i ∈ b.plains := by
  induction bs with
  | nil => simp [plainsAll]
  | cons b bs ih => simp [plainsAll, ih]

/-- What stands in the code of a plan without being a fork or a jump is a plain instruction of the
plan. -/
theorem mem_plains_of_mem_code {i : Plain} {p : Plan} {pc : Nat} (mem : i.instruction ∈ p.code pc) :
    i ∈ p.plains := by
  induction p generalizing pc with
  | nothing => cases mem
  | plain j =>
    rw [code, List.mem_singleton] at mem
    exact List.mem_singleton.mpr (Plain.instruction_injective mem)
  | seq first second ihf ihs =>
    rw [code, List.mem_append] at mem
    rw [plains, List.mem_append]
    exact mem.imp ihf ihs
  | option greedy body ih =>
    rw [code, List.mem_cons] at mem
    exact ih (mem.resolve_left (i.instruction_ne_fork _ _ _))
  | star greedy body ih =>
    rw [code, List.mem_cons, List.mem_append, List.mem_singleton] at mem
    rcases mem.resolve_left (i.instruction_ne_fork _ _ _) with mem | jump
    · exact ih mem
    · cases i <;> cases jump
  | plus greedy body ih =>
    rw [code, List.mem_append, List.mem_singleton] at mem
    exact ih (mem.resolve_right (i.instruction_ne_fork _ _ _))
  | choice branches ih =>
    rw [code, List.mem_cons] at mem
    rcases mem with fork | mem
    · cases i <;> cases fork
    · rcases mem_join mem with jump | ⟨start, b, found, mem⟩
      · cases i <;> cases jump
      · have branch := mem_of_mem_laid found
        exact mem_plainsAll_iff.mpr ⟨b, branch, ih b branch mem⟩

/-- Where the code of a plan stands, each of its plain instructions stands. -/
theorem StandsIn.mem_of_mem_plains {i : Plain} {p : Plan} {code : List Instruction} {pc : Nat}
    (stands : p.StandsIn code pc) (mem : i ∈ p.plains) : i.instruction ∈ code := by
  induction p generalizing pc with
  | nothing => cases mem
  | plain j =>
    rw [plains, List.mem_singleton] at mem
    rw [mem]
    exact List.mem_of_getElem? (plain_iff.mp stands)
  | seq first second ihf ihs =>
    obtain ⟨before, after⟩ := seq_iff.mp stands
    rw [plains, List.mem_append] at mem
    exact mem.elim (ihf before) (ihs after)
  | option greedy body ih => exact ih (option_iff.mp stands).2 mem
  | star greedy body ih => exact ih (star_iff.mp stands).2.1 mem
  | plus greedy body ih => exact ih (plus_iff.mp stands).1 mem
  | choice branches ih =>
    obtain ⟨b, branch, mem⟩ := mem_plainsAll_iff.mp mem
    obtain ⟨start, found⟩ := exists_mem_laid branch (pc + 1)
    exact ih b branch (stands.choice.2 start b found).stands mem

/-- Composing plans adds no plain instructions. -/
theorem composes_plains (l : List Plain) : Composes fun p _ => p.plains ⊆ l where
  nothing := List.nil_subset l
  seq first second := List.append_subset.mpr ⟨first, second⟩
  option _ body := body
  star _ body := body
  plus _ body := body

/-- A repetition writes its body over and over, or not at all. -/
theorem mem_plains_of_repetition {i : Plain} {min : Nat} {max : Option Nat} {greedy : Bool}
    {p : Plan} (mem : i ∈ (repetition min max greedy p).plains) : i ∈ p.plains :=
  (composes_plains p.plains).repetition (q := p) (List.Subset.refl _) min max greedy mem

/-- A repetition that has a turn writes its body. -/
theorem mem_plains_repetition_iff {i : Plain} {min : Nat} {max : Option Nat} {greedy : Bool}
    {p : Plan} (turns : ¬(min = 0 ∧ max = some 0)) :
    i ∈ (repetition min max greedy p).plains ↔ i ∈ p.plains := by
  refine ⟨mem_plains_of_repetition, fun mem => ?_⟩
  cases max with
  | none =>
    cases min with
    | zero => exact mem
    | succ min => exact List.mem_append_right _ mem
  | some max =>
    cases min with
    | zero =>
      cases max with
      | zero => exact absurd ⟨rfl, rfl⟩ turns
      | succ max => exact List.mem_append_right _ (List.mem_append_left _ mem)
    | succ min => exact List.mem_append_left _ (List.mem_append_left _ mem)

/-- The code of a literal reads characters. -/
theorem exists_of_mem_ofChars {i : Plain} {cs : List Char} (mem : i ∈ (ofChars cs).plains) :
    ∃ c, i = .ofChar c := by
  induction cs with
  | nil => cases mem
  | cons c cs ih =>
    rw [ofChars, plains, List.mem_append, plains, List.mem_singleton] at mem
    exact mem.elim (fun here => ⟨c, here⟩) ih

end Plan

/-- A plain instruction is in the program of an expression exactly if it starts the program or
belongs to the plan of the expression. -/
theorem Expr.mem_instructions_iff {kept : Bool} {e : Expr} {i : Plain} :
    i.instruction ∈ e.instructions kept ↔ i ∈ e.startPlan.plains ∨ i ∈ (e.plan kept).plains := by
  have split : i ∈ (e.wholePlan kept).plains ↔ i ∈ e.startPlan.plains ∨ i ∈ (e.plan kept).plains :=
    List.mem_append
  rw [← split]
  constructor
  · intro mem
    rw [instructions, List.mem_append, List.mem_singleton] at mem
    refine Plan.mem_plains_of_mem_code (mem.resolve_right fun accept => ?_)
    cases i <;> cases accept
  · exact (e.instructions_stand kept).1.mem_of_mem_plains

/-- What is put before a search only reads any byte. -/
theorem Expr.startPlan_plains {e : Expr} {i : Plain} (mem : i ∈ e.startPlan.plains) :
    i = .consumeAny := by
  unfold startPlan at mem
  split at mem
  · cases mem
  · exact List.mem_singleton.mp mem

/-! ## Looks -/

/-- Reading a byte of a set is no assertion. -/
theorem Plain.ofSet_ne_assertion (set : RangeSet) (l : Look) : ofSet set ≠ .assertion l := by
  unfold ofSet
  split <;> exact nofun

/-- Reading a character is no assertion. -/
theorem Plain.ofChar_ne_assertion (c : Char) (l : Look) : ofChar c ≠ .assertion l := by
  unfold ofChar
  split <;> exact nofun

/-- The code of a text has no assertion. -/
theorem Plan.assertion_not_mem_ofChars (l : Look) (cs : List Char) :
    .assertion l ∉ (ofChars cs).plains := by
  intro mem
  obtain ⟨c, same⟩ := exists_of_mem_ofChars mem
  exact Plain.ofChar_ne_assertion c l same.symm

/-- The assertions of a group are those of its body. -/
theorem Plan.assertion_mem_of_capture {l : Look} {kept : Bool} {index : Nat} {p : Plan}
    (mem : .assertion l ∈ (capture kept index p).plains) : .assertion l ∈ p.plains := by
  cases kept with
  | false => exact mem
  | true => simpa [capture, plains] using mem

namespace Expr

/-- The nodes of expressions are those of each expression. -/
theorem mem_nodesAll_iff {d : Expr} {es : List Expr} :
    d ∈ nodesAll es ↔ ∃ e ∈ es, d ∈ e.nodes := by
  rw [nodesAll_eq_flatMap, List.mem_flatMap]

/-- The plain instructions of a sequence are those of its items. -/
theorem mem_plains_planAll_iff {i : Plain} {kept : Bool} {es : List Expr} :
    i ∈ (planAll kept es).plains ↔ ∃ e ∈ es, i ∈ (e.plan kept).plains := by
  induction es with
  | nil => simp [planAll, Plan.plains]
  | cons e es ih => simp [planAll, Plan.plains, ih]

/-- The plain instructions of an alternation are those of its branches. -/
theorem mem_plains_alternation_iff {i : Plain} {kept : Bool} {es : List Expr} :
    i ∈ ((Expr.alternation es).plan kept).plains ↔ ∃ e ∈ es, i ∈ (e.plan kept).plains := by
  simp [plan, Plan.plains, Plan.mem_plainsAll_iff, plans_eq_map]

/-- A look that the plan of an expression checks is a node of the expression. -/
theorem look_mem_nodes {l : Look} {kept : Bool} {e : Expr}
    (mem : .assertion l ∈ (e.plan kept).plains) : .look l ∈ e.nodes := by
  induction e with
  | empty => cases mem
  | literal bs => exact absurd mem (Plan.assertion_not_mem_ofChars l _)
  | chars set | bytes set =>
    rw [plan, Plan.plains, List.mem_singleton] at mem
    exact absurd mem.symm (Plain.ofSet_ne_assertion _ l)
  | look k =>
    rw [plan, Plan.plains, List.mem_singleton] at mem
    cases mem
    exact List.mem_singleton_self _
  | repetition min max greedy body ih =>
    exact List.mem_cons_of_mem _ (ih (Plan.mem_plains_of_repetition mem))
  | capture index name body ih =>
    exact List.mem_cons_of_mem _ (ih (Plan.assertion_mem_of_capture mem))
  | concat items ih =>
    obtain ⟨e, found, mem⟩ := mem_plains_planAll_iff.mp mem
    exact List.mem_cons_of_mem _ (mem_nodesAll_iff.mpr ⟨e, found, ih e found mem⟩)
  | alternation branches ih =>
    obtain ⟨e, found, mem⟩ := mem_plains_alternation_iff.mp mem
    exact List.mem_cons_of_mem _ (mem_nodesAll_iff.mpr ⟨e, found, ih e found mem⟩)

end Expr

/-- A program asserts nothing but the looks of its expression. -/
theorem Settings.look_mem_nodes {s : Settings} {e : Expr} {p : Program}
    (compiled : s.program e = .ok p) {l : Look} (mem : .assertion l ∈ p.code) :
    .look l ∈ e.nodes := by
  rw [code_of_program compiled] at mem
  have written : (Plain.assertion l).instruction ∈ e.instructions (!s.neverCapture) := mem
  rcases Expr.mem_instructions_iff.mp written with start | plain
  · cases Expr.startPlan_plains start
  · exact Expr.look_mem_nodes plain

end PatternGate
