import Mathlib.Algebra.GroupWithZero.Nat
import PatternGate.Program.Compile
import PatternGate.Proofs.Program.Plan

/-!
# The charges of lowering, one by one

Lowering is a walk over an expression that charges memory on its way, and a charge that exceeds the
budget ends the walk. The charges themselves do not depend on the budget, nor on where the code
stands: they are a list that is read off the plan of the expression (`Expr.charges`). The main
statement, `Expr.lower_charges`, says that lowering makes the charges of this list in their order
and nothing else, so that the memory used, or the overrun, is that of making them. Hence an overrun
is that of the first charge that does not fit (`Settings.program_eq_error_iff`): no charge is made
after it.
-/

namespace PatternGate

namespace Limits

/-- Making charges in their order goes wrong at the first of them that does not fit. -/
theorem foldlM_charge_eq_error_iff {l : Limits} {costs : List Nat} {used : Nat} {o : Overrun}
    (fits : used ≤ l.budget) :
    costs.foldlM l.charge used = .error o ↔
      ∃ paid cost rest, costs = paid ++ cost :: rest ∧ used + paid.sum ≤ l.budget ∧
        l.budget < used + paid.sum + cost ∧ o = ⟨used + paid.sum + cost, l.budget⟩ := by
  induction costs generalizing used with
  | nil => simp [pure, Except.pure]
  | cons cost costs ih =>
    rw [List.foldlM_cons]
    by_cases within : used + cost ≤ l.budget
    · have granted : l.charge used cost = .ok (used + cost) := if_pos within
      rw [granted]
      refine (ih within).trans ?_
      constructor
      · rintro ⟨paid, refused, rest, rfl, before, after, rfl⟩
        refine ⟨cost :: paid, refused, rest, rfl, ?_⟩
        rw [List.sum_cons, ← Nat.add_assoc]
        exact ⟨before, after, rfl⟩
      · rintro ⟨paid, refused, rest, split, before, after, rfl⟩
        cases paid with
        | nil =>
          cases split
          exact absurd within (Nat.not_le_of_gt after)
        | cons first paid =>
          cases split
          rw [List.sum_cons, ← Nat.add_assoc] at before after ⊢
          exact ⟨paid, refused, rest, rfl, before, after, rfl⟩
    · have refused : l.charge used cost = .error ⟨used + cost, l.budget⟩ := if_neg within
      rw [refused]
      constructor
      · rintro ⟨⟩
        exact ⟨[], cost, costs, rfl, fits, Nat.lt_of_not_le within, rfl⟩
      · rintro ⟨paid, other, rest, split, before, after, rfl⟩
        cases paid with
        | nil =>
          cases split
          rfl
        | cons first paid =>
          cases split
          rw [List.sum_cons] at before
          omega

end Limits

namespace Plan

mutual

/-- The charges for the code of a plan, in the order in which they are made. The targets of a choice
are charged when its branches are written. -/
def charges : Plan → List Nat
  | nothing => []
  | plain i => [i.instruction.cost]
  | seq first second => first.charges ++ second.charges
  | option _ body => Instruction.baseCost :: body.charges
  | star _ body => Instruction.baseCost :: (body.charges ++ [Instruction.baseCost])
  | plus _ body => body.charges ++ [Instruction.baseCost]
  | choice branches =>
    Instruction.baseCost ::
      (chargesBranches branches ++ [Instruction.targetCost * branches.length])

/-- The charges for branches, with a jump after each but the last. -/
def chargesBranches : List Plan → List Nat
  | [] => []
  | [b] => b.charges
  | b :: bs => b.charges ++ Instruction.baseCost :: chargesBranches bs

end

end Plan

namespace Emitter

/-- Writing code makes certain charges, wherever the code stands and whatever was used before. -/
def Makes (l : Limits) (a : Emitter) (costs : List Nat) : Prop :=
  ∀ pc used, Stretch.used <$> a pc used = costs.foldlM l.charge used

variable {l : Limits} {a b : Emitter} {costs costs' : List Nat}

/-- Emitting nothing charges nothing. -/
theorem nothing_makes : Makes l nothing [] := fun _ _ => rfl

/-- One instruction is charged by its cost. -/
theorem one_makes (i : Instruction) : Makes l (one l i) [i.cost] := by
  intro pc used
  simp [one]

/-- A charge, and then code that makes charges. -/
theorem charge_makes {α : Type} (cost : Nat) {next : Nat → Except Overrun α} {view : α → Nat}
    (rest : ∀ used, view <$> next used = costs.foldlM l.charge used) (used : Nat) :
    view <$> (l.charge used cost >>= next) = (cost :: costs).foldlM l.charge used := by
  rw [map_bind, List.foldlM_cons]
  exact bind_congr rest

/-- Charges follow one another as the code does. -/
theorem seq_makes (first : Makes l a costs) (second : Makes l b costs') :
    Makes l (a.seq b) (costs ++ costs') := by
  intro pc used
  rw [List.foldlM_append, ← first pc used, seq, map_bind, bind_map_left]
  refine bind_congr fun s => ?_
  rw [← second s.stop s.used, map_bind]
  rfl

/-- Copies are charged each time. -/
theorem copies_makes {p : Plan} (body : Makes l a p.charges) (n : Nat) :
    Makes l (a.copies n) (p.copies n).charges := by
  induction n with
  | zero => exact nothing_makes
  | succ n ih => exact seq_makes body ih

/-- Copies that may be left out are charged each time, and their forks before them. -/
theorem options_makes (greedy : Bool) {p : Plan} (body : Makes l a p.charges) (n : Nat) :
    Makes l (a.options l greedy n) (p.options greedy n).charges := by
  induction n with
  | zero => exact nothing_makes
  | succ n ih =>
    intro pc used
    refine charge_makes _ (fun used => ?_) used
    rw [map_bind]
    exact seq_makes body ih (pc + 1) used

/-- A loop is charged its fork before the body and its jump after it. -/
theorem star_makes (greedy : Bool) (body : Makes l a costs) :
    Makes l (a.star l greedy) (Instruction.baseCost :: (costs ++ [Instruction.baseCost])) := by
  intro pc used
  refine charge_makes _ (fun used => ?_) used
  rw [map_bind]
  exact seq_makes body (one_makes (.jump pc)) (pc + 1) used

/-- A loop that is entered once is charged its fork after the body. -/
theorem plus_makes (greedy : Bool) (body : Makes l a costs) :
    Makes l (a.plus l greedy) (costs ++ [Instruction.baseCost]) := by
  intro pc used
  rw [List.foldlM_append, ← body pc used, plus, map_bind, bind_map_left]
  refine bind_congr fun s => ?_
  have cost : (fork greedy pc (s.stop + 1)).cost = Instruction.baseCost := by cases greedy <;> rfl
  rw [← cost, ← one_makes (fork greedy pc (s.stop + 1)) s.stop s.used, map_bind]
  rfl

/-- A repetition is charged what its plan is charged, for all bounds. -/
theorem repetition_makes (min : Nat) (max : Option Nat) (greedy : Bool) {p : Plan}
    (body : Makes l a p.charges) :
    Makes l (a.repetition l min max greedy) (p.repetition min max greedy).charges := by
  cases max with
  | some max => exact seq_makes (copies_makes body min) (options_makes greedy body _)
  | none =>
    cases min with
    | zero => exact star_makes greedy body
    | succ min => exact seq_makes (copies_makes body min) (plus_makes greedy body)

/-- A group is charged its two registers, if captures are on. -/
theorem capture_makes (index : Nat) {p : Plan} (body : Makes l a p.charges) :
    Makes l (a.capture l index) (p.capture l.captures index).charges := by
  unfold capture Plan.capture
  split
  · exact seq_makes (one_makes _) (seq_makes body (one_makes _))
  · exact body

/-- A text is charged character by character. -/
theorem literal_makes (cs : List Char) : Makes l (literal l cs) (Plan.ofChars cs).charges := by
  induction cs with
  | nil => exact nothing_makes
  | cons c cs ih =>
    rw [literal, ← Plain.instruction_ofChar]
    exact seq_makes (one_makes _) ih

end Emitter

namespace Expr

variable {l : Limits}

/-- A sequence is charged item by item. -/
theorem emitAll_makes (es : List Expr)
    (each : ∀ e ∈ es, Emitter.Makes l (e.emit l) (e.plan l.captures).charges) :
    Emitter.Makes l (emitAll l es) (planAll l.captures es).charges := by
  induction es with
  | nil =>
    simp only [emitAll, planAll]
    exact Emitter.nothing_makes
  | cons e es ih =>
    simp only [emitAll, planAll]
    exact Emitter.seq_makes (each e List.mem_cons_self)
      (ih fun e mem => each e (List.mem_cons_of_mem _ mem))

/-- Branches make their own charges and one for each jump between them, and note a start each. -/
theorem emitBranches_makes (es : List Expr)
    (each : ∀ e ∈ es, Emitter.Makes l (e.emit l) (e.plan l.captures).charges) (pc used : Nat) :
    (fun bs => (bs.starts.length, bs.used)) <$> emitBranches l es pc used =
      Prod.mk es.length <$>
        (Plan.chargesBranches (plans l.captures es)).foldlM l.charge used := by
  induction es generalizing pc used with
  | nil =>
    simp only [emitBranches]
    rfl
  | cons e es ih =>
    have head := each e List.mem_cons_self
    cases es with
    | nil =>
      simp only [emitBranches, plans, Plan.chargesBranches]
      rw [← head pc used, map_bind, Functor.map_map]
      rfl
    | cons e' es =>
      have rest := ih fun e mem => each e (List.mem_cons_of_mem _ mem)
      simp only [emitBranches, plans, Plan.chargesBranches]
      rw [List.foldlM_append, ← head pc used, map_bind, map_bind, bind_map_left]
      refine bind_congr fun s => ?_
      rw [List.foldlM_cons, map_bind, map_bind]
      refine bind_congr fun used => ?_
      have more := congrArg (Prod.map Nat.succ id <$> ·) (rest (s.stop + 1) used)
      rw [Functor.map_map, Functor.map_map] at more
      rw [bind_pure_comp, Functor.map_map]
      exact more

/-- Writing the code of an expression makes the charges of its plan. -/
theorem emit_makes (e : Expr) : Emitter.Makes l (e.emit l) (e.plan l.captures).charges := by
  induction e with
  | empty =>
    simp only [emit, plan]
    exact Emitter.nothing_makes
  | literal bs => simpa only [emit, plan] using Emitter.literal_makes _
  | chars set =>
    simp only [emit, plan, ← Plain.instruction_ofSet]
    exact Emitter.one_makes _
  | bytes set =>
    simp only [emit, plan, ← Plain.instruction_ofSet]
    exact Emitter.one_makes _
  | look k =>
    simp only [emit, plan]
    exact Emitter.one_makes (.assertion k)
  | repetition min max greedy body ih =>
    simpa only [emit, plan] using Emitter.repetition_makes min max greedy ih
  | capture index name body ih =>
    simpa only [emit, plan] using Emitter.capture_makes index ih
  | concat items ih => simpa only [emit, plan] using emitAll_makes items ih
  | alternation branches ih =>
    intro pc used
    simp only [emit, plan]
    refine Emitter.charge_makes _ (fun used => ?_) used
    -- The targets are counted by the starts, so the branches are seen with their number.
    have made := emitBranches_makes branches ih (pc + 1) used
    have seen := congrArg (· >>= fun bs : Nat × Nat =>
      l.charge bs.2 (Instruction.targetCost * bs.1)) made
    simp only [bind_map_left] at seen
    simp only [map_bind, map_pure, bind_pure, List.foldlM_append, List.foldlM_cons,
      List.foldlM_nil, plans_eq_map, List.length_map] at seen ⊢
    exact seen

/-- The charges for the whole program of an expression. -/
def charges (kept : Bool) (e : Expr) : List Nat :=
  (e.wholePlan kept).charges ++ [Instruction.baseCost]

/-- What a compilation has used is the sum of its charges, taken one by one against the limit. -/
theorem lower_charges (e : Expr) :
    Stretch.used <$> e.lower l = (e.charges l.captures).foldlM l.charge 0 := by
  have start : Emitter.Makes l (if e.leadsWith .start then Emitter.nothing else lazyStart l)
      e.startPlan.charges := by
    unfold startPlan
    split
    · exact Emitter.nothing_makes
    · exact Emitter.seq_makes (Emitter.one_makes _)
        (Emitter.seq_makes (Emitter.one_makes _) (Emitter.one_makes _))
  have whole := Emitter.seq_makes start (Emitter.seq_makes e.emit_makes (Emitter.one_makes .accept))
  rw [charges, wholePlan, Plan.charges, List.append_assoc]
  exact whole 0 0

end Expr

namespace Settings

/-- An expression has no program exactly if one of its charges does not fit on top of those before
it, which do; the overrun is that of this charge. -/
theorem program_eq_error_iff {s : Settings} {e : Expr} {o : Overrun} :
    s.program e = .error o ↔
      ∃ paid cost rest, e.charges (!s.neverCapture) = paid ++ cost :: rest ∧
        paid.sum ≤ s.programBudget.toNat ∧ s.programBudget.toNat < paid.sum + cost ∧
          o = ⟨paid.sum + cost, s.programBudget.toNat⟩ := by
  have stops := @Limits.foldlM_charge_eq_error_iff s.limits (e.charges (!s.neverCapture)) 0 o
    (Nat.zero_le _)
  simp only [Nat.zero_add] at stops
  refine Iff.trans ?_ stops
  have lowered := e.lower_charges (l := s.limits)
  rw [show e.charges (!s.neverCapture) = e.charges s.limits.captures from rfl, ← lowered, program]
  cases e.lower s.limits <;> simp [bind, Except.bind, pure, Except.pure, Functor.map, Except.map]

end Settings

end PatternGate
