import Mathlib.Algebra.GroupWithZero.Nat
import PatternGate.Program.Compile
import PatternGate.Proofs.CharSet
import PatternGate.Proofs.Program.Plan

/-!
# The budget decides by the total alone

Lowering charges memory instruction by instruction, in the middle of nested loops, and the targets
of a wide fork only after all its branches are written. None of this shows in the verdict. The main
statement, `Settings.program_verdict`, says that an expression has a program exactly if its total,
a sum over the expression, is within two thirds of the memory limit; that the program then takes
exactly this much memory; and that it does not depend on the limit otherwise.

The proof names what one charged computation does (`Limits.Grants`) and shows that this is kept by
running one computation after another (`Limits.Grants.bind`). Each way of writing code then follows
the plan of its expression (`Emitter.Follows`), by induction over the expression.
-/

namespace PatternGate

namespace Limits

/-- The overrun comes from a charge on top of memory that was within the budget. -/
def Refuses (l : Limits) (o : Overrun) : Prop :=
  ∃ used cost, used ≤ l.budget ∧ l.charge used cost = .error o

/-- A computation that charges `cost` in all on top of `used`: it gives `value` if that is within
the budget, and an overrun if it is not. -/
def Grants {α : Type} (l : Limits) (used cost : Nat) (result : Except Overrun α) (value : α) :
    Prop :=
  if used + cost ≤ l.budget then result = .ok value else ∃ o, result = .error o ∧ l.Refuses o

namespace Grants

variable {α β : Type} {l : Limits} {used cost cost' : Nat} {value : α}

/-- A value without a charge is given while the memory in use is within the budget. -/
theorem pure (fits : used ≤ l.budget) : l.Grants used 0 (.ok value) value := by
  simp [Grants, fits]

/-- A single charge is granted or refused by the sum alone. -/
theorem charge (fits : used ≤ l.budget) :
    l.Grants used cost (l.charge used cost) (used + cost) := by
  unfold Grants
  split
  next within => simp [Limits.charge, within]
  next exceeds =>
    have refused : l.charge used cost = .error ⟨used + cost, l.budget⟩ := by
      simp [Limits.charge, exceeds]
    exact ⟨_, refused, used, cost, fits, refused⟩

/-- One charged computation after another charges the sum. -/
theorem bind {result : Except Overrun α} {next : α → Except Overrun β} {value' : β}
    (first : l.Grants used cost result value)
    (second : used + cost ≤ l.budget → l.Grants (used + cost) cost' (next value) value') :
    l.Grants used (cost + cost') (result >>= next) value' := by
  unfold Grants at first ⊢
  by_cases within : used + cost ≤ l.budget
  · rw [if_pos within] at first
    have second := second within
    unfold Grants at second
    rw [Nat.add_assoc] at second
    rw [first]
    exact second
  · rw [if_neg within] at first
    obtain ⟨o, failed, refused⟩ := first
    rw [if_neg (by omega)]
    exact ⟨o, by rw [failed]; rfl, refused⟩

/-- What is made of a value costs nothing more. -/
theorem map {result : Except Overrun α} (f : α → β) (grants : l.Grants used cost result value) :
    l.Grants used cost (result >>= fun v => Pure.pure (f v)) (f value) := by
  unfold Grants at grants ⊢
  split at grants
  next within => rw [if_pos within, grants]; rfl
  next exceeds =>
    obtain ⟨o, failed, refused⟩ := grants
    rw [if_neg exceeds]
    exact ⟨o, by rw [failed]; rfl, refused⟩

/-- The cost and the value may be written in another way. -/
theorem of_eq {result : Except Overrun α} {value' : α} (grants : l.Grants used cost result value)
    (costs : cost = cost') (values : value = value') : l.Grants used cost' result value' := by
  subst costs values
  exact grants

end Grants

end Limits

namespace Emitter

/-- Writing code follows a plan: it writes the code of the plan and charges its cost, or runs out of
budget if the cost does not fit. -/
def Follows (l : Limits) (a : Emitter) (p : Plan) : Prop :=
  ∀ pc used, used ≤ l.budget →
    l.Grants used p.cost (a pc used) ⟨p.code pc, pc + p.size, used + p.cost⟩

variable {l : Limits} {a b : Emitter} {p q : Plan}

/-- Writing nothing follows the empty plan. -/
theorem nothing_follows : Follows l nothing .nothing := by
  intro pc used fits
  exact (Limits.Grants.pure fits).of_eq rfl rfl

/-- One instruction is written where the writer stands, and its cost is charged. -/
theorem one_grants (i : Instruction) {pc used : Nat} (fits : used ≤ l.budget) :
    l.Grants used i.cost (one l i pc used) ⟨[i], pc + 1, used + i.cost⟩ :=
  (Limits.Grants.charge fits).map fun used => (⟨[i], pc + 1, used⟩ : Stretch)

/-- An instruction without targets follows the plan of that instruction. -/
theorem one_follows (i : Plain) : Follows l (one l i.instruction) (.plain i) :=
  fun _ _ fits => one_grants i.instruction fits

/-- Parts in sequence follow plans in sequence: the second is written where the first has stopped.
-/
theorem seq_follows (first : Follows l a p) (second : Follows l b q) :
    Follows l (a.seq b) (p.seq q) := by
  intro pc used fits
  refine ((first pc used fits).bind fun within =>
    (second (pc + p.size) (used + p.cost) within).map _).of_eq ?_ ?_
  · simp [Plan.cost]
  · simp [Plan.code, Plan.size, Plan.cost, Nat.add_assoc]

/-- Copies of a body follow copies of its plan. The induction is on their number. -/
theorem copies_follows (body : Follows l a p) (n : Nat) :
    Follows l (a.copies n) (p.copies n) := by
  induction n with
  | zero => exact nothing_follows
  | succ n ih => exact seq_follows body ih

/-- Copies that may be left out follow the nested options of the plan. -/
theorem options_follows (greedy : Bool) (body : Follows l a p) (n : Nat) :
    Follows l (a.options l greedy n) (p.options greedy n) := by
  induction n with
  | zero => exact nothing_follows
  | succ n ih =>
    intro pc used fits
    refine ((Limits.Grants.charge fits).bind fun within =>
      (seq_follows body ih (pc + 1) _ within).map _).of_eq ?_ ?_
    · simp [Plan.options, Plan.cost]
    · simp only [Plan.options, Plan.code, Plan.size, Plan.cost]
      grind

/-- A loop follows the plan of a loop: its fork knows where the body ends before it is written. -/
theorem star_follows (greedy : Bool) (body : Follows l a p) :
    Follows l (a.star l greedy) (p.star greedy) := by
  intro pc used fits
  refine ((Limits.Grants.charge fits).bind fun within =>
    (((body (pc + 1) _ within).bind fun within' => (one_grants (.jump pc) within').map _).map
      _)).of_eq ?_ ?_
  · simp [Plan.cost, Instruction.cost, Nat.add_assoc]
  · simp only [Plan.code, Plan.size, Plan.cost, Instruction.cost]
    grind

/-- A loop that is taken at least once follows its plan. -/
theorem plus_follows (greedy : Bool) (body : Follows l a p) :
    Follows l (a.plus l greedy) (p.plus greedy) := by
  intro pc used fits
  refine ((body pc used fits).bind fun within =>
    (one_grants (fork greedy pc (pc + p.size + 1)) within).map _).of_eq ?_ ?_
  · cases greedy <;> simp [Plan.cost, fork, Instruction.cost]
  · cases greedy <;> simp [Plan.code, Plan.size, Plan.cost, fork, Instruction.cost, Nat.add_assoc]

/-- A repetition follows its plan in each of its three forms. -/
theorem repetition_follows (min : Nat) (max : Option Nat) (greedy : Bool) (body : Follows l a p) :
    Follows l (a.repetition l min max greedy) (p.repetition min max greedy) := by
  cases max with
  | some max => exact seq_follows (copies_follows body min) (options_follows greedy body _)
  | none =>
    cases min with
    | zero => exact star_follows greedy body
    | succ min => exact seq_follows (copies_follows body min) (plus_follows greedy body)

/-- A group follows its plan, with its two marks or without them. -/
theorem capture_follows (index : Nat) (body : Follows l a p) :
    Follows l (a.capture l index) (p.capture l.captures index) := by
  unfold capture Plan.capture
  split
  · exact seq_follows (one_follows (.writeRegister _))
      (seq_follows body (one_follows (.writeRegister _)))
  · exact body

/-- A text follows the plan of its characters. -/
theorem literal_follows (cs : List Char) : Follows l (literal l cs) (.ofChars cs) := by
  induction cs with
  | nil => exact nothing_follows
  | cons c cs ih =>
    rw [literal, ← Plain.instruction_ofChar]
    exact seq_follows (one_follows _) ih

end Emitter

namespace Expr

variable {l : Limits}

/-- A sequence follows its plan if each of its items does. -/
theorem emitAll_follows (es : List Expr)
    (each : ∀ e ∈ es, Emitter.Follows l (e.emit l) (e.plan l.captures)) :
    Emitter.Follows l (emitAll l es) (planAll l.captures es) := by
  induction es with
  | nil =>
    simp only [emitAll, planAll]
    exact Emitter.nothing_follows
  | cons e es ih =>
    simp only [emitAll, planAll]
    exact Emitter.seq_follows (each e List.mem_cons_self)
      (ih fun e mem => each e (List.mem_cons_of_mem _ mem))

/-- The branches of an alternation are written at the places where the plan puts them, and their
jumps are paid for. -/
theorem emitBranches_grants (es : List Expr)
    (each : ∀ e ∈ es, Emitter.Follows l (e.emit l) (e.plan l.captures)) (pc used : Nat)
    (fits : used ≤ l.budget) :
    l.Grants used (Plan.costBranches (plans l.captures es)) (emitBranches l es pc used)
      ⟨Plan.starts pc (plans l.captures es), Plan.codes pc (plans l.captures es),
        pc + Plan.sizeBranches (plans l.captures es),
        used + Plan.costBranches (plans l.captures es)⟩ := by
  induction es generalizing pc used with
  | nil =>
    simp only [emitBranches]
    exact (Limits.Grants.pure fits).of_eq rfl rfl
  | cons e es ih =>
    have head := each e List.mem_cons_self pc used fits
    cases es with
    | nil =>
      simp only [emitBranches]
      exact (head.map _).of_eq rfl rfl
    | cons e' es =>
      have rest := ih fun e mem => each e (List.mem_cons_of_mem _ mem)
      simp only [emitBranches]
      refine (head.bind fun within => (Limits.Grants.charge within).bind fun within' =>
        (rest _ _ within').map _).of_eq ?_ ?_
      · simp [plans, Plan.costBranches, Nat.add_assoc]
      · simp [plans, Plan.codes, Plan.sizeBranches, Plan.costBranches, Nat.add_assoc]

/-- Writing the code of an expression follows its plan. -/
theorem emit_follows (e : Expr) : Emitter.Follows l (e.emit l) (e.plan l.captures) := by
  induction e with
  | empty => simpa only [emit, plan] using Emitter.nothing_follows
  | literal bs => simpa only [emit, plan] using Emitter.literal_follows _
  | chars set =>
    simp only [emit, plan, ← Plain.instruction_ofSet]
    exact Emitter.one_follows _
  | bytes set =>
    simp only [emit, plan, ← Plain.instruction_ofSet]
    exact Emitter.one_follows _
  | look k =>
    simp only [emit, plan]
    exact Emitter.one_follows (.assertion k)
  | repetition min max greedy body ih =>
    simpa only [emit, plan] using Emitter.repetition_follows min max greedy ih
  | capture index name body ih =>
    simpa only [emit, plan] using Emitter.capture_follows index ih
  | concat items ih => simpa only [emit, plan] using emitAll_follows items ih
  | alternation branches ih =>
    intro pc used fits
    simp only [emit, plan]
    -- The targets are charged after the branches, although the fork that holds them stands first.
    refine ((Limits.Grants.charge fits).bind fun within =>
      (emitBranches_grants branches ih _ _ within).bind fun within' =>
      (Limits.Grants.charge within').map _).of_eq ?_ ?_
    · simp [Plan.cost, plans_eq_map, Nat.add_assoc]
    · simp only [Plan.code, Plan.size, Plan.cost, Plan.length_starts, plans_eq_map]
      grind

/-- The loop before a program that may start anywhere. -/
theorem lazyStart_grants {used : Nat} (fits : used ≤ l.budget) :
    l.Grants used 48 (lazyStart l 0 used)
      ⟨(Plan.star false (.plain .consumeAny)).code 0, 3, used + 48⟩ := by
  refine ((Emitter.one_grants _ fits).bind fun within =>
    ((Emitter.one_grants _ within).bind fun within' =>
      (Emitter.one_grants _ within').map _).map _).of_eq ?_ ?_
  · rfl
  · rfl

/-- What stands in front of a program follows its plan, which is empty for anchored expressions. -/
theorem startPlan_grants (e : Expr) :
    l.Grants 0 e.startPlan.cost
      ((if e.leadsWith .start then Emitter.nothing else lazyStart l) 0 0)
      ⟨e.startPlan.code 0, 0 + e.startPlan.size, 0 + e.startPlan.cost⟩ := by
  unfold startPlan
  split
  · exact Emitter.nothing_follows 0 0 (Nat.zero_le _)
  · exact lazyStart_grants (Nat.zero_le _)

/-- A whole program is the code of its plan and an accepting instruction, or an overrun. -/
theorem lower_grants (e : Expr) :
    l.Grants 0 ((e.wholePlan l.captures).cost + Instruction.baseCost) (e.lower l)
      ⟨e.instructions l.captures, (e.wholePlan l.captures).size + 1,
        (e.wholePlan l.captures).cost + Instruction.baseCost⟩ := by
  refine (e.startPlan_grants.bind fun within =>
    ((e.emit_follows _ _ within).bind fun within' =>
      (Emitter.one_grants .accept within').map _).map _).of_eq ?_ ?_
  · simp [wholePlan, Plan.cost, Instruction.cost, Nat.add_assoc]
  · simp [instructions, wholePlan, Plan.code, Plan.size, Plan.cost, Instruction.cost, Nat.add_assoc]

mutual

/-- The memory of the code of an expression, summed over the expression. -/
def cost (kept : Bool) : Expr → Nat
  | .empty => 0
  | .literal bs => 16 * (Utf8.decode bs).length
  | .chars set => if RangeSet.coversBytes set then 16 else 16 + 2 * (RangeSet.clip set).length
  | .bytes set => if RangeSet.coversBytes set then 16 else 16 + 2 * set.length
  | .look _ => 16
  | .repetition min (some max) _ body =>
    min * body.cost kept + (max - min) * (16 + body.cost kept)
  | .repetition 0 none _ body => 32 + body.cost kept
  | .repetition (min + 1) none _ body => (min + 1) * body.cost kept + 16
  | .capture _ _ body => body.cost kept + if kept then 32 else 0
  | .concat items => costSum kept items
  | .alternation branches =>
    16 + 4 * branches.length + 16 * (branches.length - 1) + costSum kept branches

/-- The sum of the memory of several expressions. -/
def costSum (kept : Bool) : List Expr → Nat
  | [] => 0
  | e :: es => e.cost kept + costSum kept es

end

/-- The memory of a whole program: the accepting instruction, and the loop at its start if it has
one. -/
def total (kept : Bool) (e : Expr) : Nat :=
  e.cost kept + 16 + if e.leadsWith .start then 0 else 48

/-- A class is in canonical form as far as it holds bytes. Other expressions are no classes. -/
def ClassCanonical : Expr → Prop
  | .chars set => (RangeSet.clip set).Canonical
  | .bytes set => set.Canonical ∧ ∀ r ∈ set, r.hi ≤ 0xFF
  | _ => True

instance : DecidablePred ClassCanonical
  | .chars set => inferInstanceAs (Decidable (RangeSet.clip set).Canonical)
  | .bytes set => inferInstanceAs (Decidable (set.Canonical ∧ ∀ r ∈ set, r.hi ≤ 0xFF))
  | .empty | .literal _ | .look _ | .repetition _ _ _ _ | .capture _ _ _ | .concat _
  | .alternation _ => inferInstanceAs (Decidable True)

end Expr

namespace Plan

/-- Copies of a body cost the body as often as it is copied. -/
theorem cost_copies (p : Plan) (n : Nat) : (p.copies n).cost = n * p.cost := by
  induction n with
  | zero => simp [copies, cost]
  | succ n ih => rw [copies, cost, ih, Nat.succ_mul, Nat.add_comm]

/-- A copy that may be left out costs a fork more than the body. -/
theorem cost_options (greedy : Bool) (p : Plan) (n : Nat) :
    (p.options greedy n).cost = n * (16 + p.cost) := by
  induction n with
  | zero => simp [options, cost]
  | succ n ih =>
    rw [options, cost, cost, ih, Nat.succ_mul, Instruction.baseCost]
    omega

/-- A text costs one instruction per character. -/
theorem cost_ofChars (cs : List Char) : (ofChars cs).cost = 16 * cs.length := by
  induction cs with
  | nil => simp [ofChars, cost]
  | cons c cs ih =>
    have one : (Plain.ofChar c).instruction.cost = 16 := by
      unfold Plain.ofChar
      cases Latin1.byte? c <;> rfl
    rw [ofChars, cost, cost, ih, one, List.length_cons]
    omega

/-- A class costs its ranges, unless it holds every byte. -/
theorem cost_ofSet {set : RangeSet} (canonical : set.Canonical) (bytes : ∀ r ∈ set, r.hi ≤ 0xFF) :
    (Plan.plain (.ofSet set)).cost =
      if RangeSet.coversBytes set then 16 else 16 + 2 * set.length := by
  have full := canonical.eq_full_iff bytes
  unfold Plain.ofSet
  by_cases covers : RangeSet.coversBytes set = true
  · rw [if_pos covers, if_pos (full.mpr covers)]
    rfl
  · rw [if_neg covers, if_neg (mt full.mp covers)]
    rfl

/-- Branches cost what each of them costs, and a jump between any two. -/
theorem costBranches_eq (bs : List Plan) :
    costBranches bs = (bs.map cost).sum + 16 * (bs.length - 1) := by
  induction bs with
  | nil => rfl
  | cons b bs ih =>
    cases bs with
    | nil => simp [costBranches]
    | cons c bs =>
      simp only [costBranches, List.map_cons, List.sum_cons, List.length_cons,
        Instruction.baseCost] at ih ⊢
      rw [ih]
      omega

end Plan

namespace Expr

/-- A sequence costs the sum of its items, if the plans of the items cost what is counted for them.
-/
theorem cost_planAll (kept : Bool) (es : List Expr)
    (each : ∀ e ∈ es, (e.plan kept).cost = e.cost kept) :
    (planAll kept es).cost = costSum kept es := by
  induction es with
  | nil => rw [planAll, costSum, Plan.cost]
  | cons e es ih =>
    rw [planAll, costSum, Plan.cost, each e List.mem_cons_self,
      ih fun e mem => each e (List.mem_cons_of_mem _ mem)]

/-- The branches of an alternation cost the sum of what is counted for them. -/
theorem sum_cost_plans (kept : Bool) (es : List Expr)
    (each : ∀ e ∈ es, (e.plan kept).cost = e.cost kept) :
    ((plans kept es).map Plan.cost).sum = costSum kept es := by
  induction es with
  | nil => simp [plans, costSum]
  | cons e es ih =>
    rw [plans, costSum, List.map_cons, List.sum_cons, each e List.mem_cons_self,
      ih fun e mem => each e (List.mem_cons_of_mem _ mem)]

/-- The plan of an expression costs what the sum over the expression says. -/
theorem cost_plan (kept : Bool) (e : Expr) (canonical : e.Each ClassCanonical) :
    (e.plan kept).cost = e.cost kept := by
  induction e with
  | empty => rw [plan, cost, Plan.cost]
  | literal bs => rw [plan, cost, Plan.cost_ofChars]
  | chars set =>
    have clipped : (RangeSet.clip set).Canonical := canonical.self
    rw [plan, cost, Plan.cost_ofSet clipped fun r => RangeSet.hi_le_of_mem_clip,
      RangeSet.coversBytes_clip]
  | bytes set =>
    obtain ⟨ordered, bytes⟩ : set.Canonical ∧ ∀ r ∈ set, r.hi ≤ 0xFF := canonical.self
    rw [plan, cost, Plan.cost_ofSet ordered bytes]
  | look l =>
    rw [plan, cost, Plan.cost]
    rfl
  | repetition min max greedy body ih =>
    have body := ih (Each.repetition_iff.mp canonical).2
    rw [plan, Plan.repetition.eq_def]
    cases max with
    | some max => simp only [cost, Plan.cost, Plan.cost_copies, Plan.cost_options, body]
    | none =>
      cases min with
      | zero =>
        simp only [cost, Plan.cost, body, Instruction.baseCost]
        omega
      | succ min =>
        simp only [cost, Plan.cost, Plan.cost_copies, body, Instruction.baseCost, Nat.succ_mul]
        omega
  | capture index name body ih =>
    have body := ih (Each.capture_iff.mp canonical).2
    cases kept with
    | false => simp [plan, cost, Plan.capture, body]
    | true =>
      simp only [plan, cost, Plan.capture, Plan.cost, body, if_true, Plain.instruction,
        Instruction.cost, Instruction.baseCost]
      omega
  | concat items ih =>
    have each := (Each.concat_iff.mp canonical).2
    rw [plan, cost, cost_planAll kept items fun e mem => ih e mem (each e mem)]
  | alternation branches ih =>
    have each := (Each.alternation_iff.mp canonical).2
    have sum := sum_cost_plans kept branches fun e mem => ih e mem (each e mem)
    rw [plan, cost, Plan.cost, Plan.costBranches_eq, sum, plans_eq_map, List.length_map,
      Instruction.baseCost, Instruction.targetCost]
    omega

/-- The plan of a whole program costs what is counted for the expression, up to the instruction that
accepts. -/
theorem cost_wholePlan (kept : Bool) (e : Expr) (canonical : e.Each ClassCanonical) :
    (e.wholePlan kept).cost + Instruction.baseCost = e.total kept := by
  rw [wholePlan, Plan.cost, e.cost_plan kept canonical, total, startPlan, Instruction.baseCost]
  split
  · simp [Plan.cost]
  · simp [Plan.cost, Plain.instruction, Instruction.cost, Instruction.baseCost]
    omega

end Expr

namespace Settings

/-- The budget of a program is two thirds of the memory limit, rounded down: no step of computing it
exceeds 64 bits. -/
theorem toNat_programBudget (s : Settings) :
    s.programBudget.toNat = 2 * s.maxMemory.toNat / 3 := by
  have bound := s.maxMemory.toNat_lt
  simp only [programBudget, UInt64.toNat_add, UInt64.toNat_mul, UInt64.toNat_div,
    UInt64.toNat_mod, UInt64.reduceToNat]
  generalize s.maxMemory.toNat = m at bound ⊢
  have quotient : m / 3 * 2 < 2 ^ 64 := by omega
  have remainder : m % 3 * 2 < 2 ^ 64 := by omega
  have sum : m / 3 * 2 + m % 3 * 2 / 3 < 2 ^ 64 := by omega
  rw [Nat.mod_eq_of_lt quotient, Nat.mod_eq_of_lt remainder, Nat.mod_eq_of_lt sum]
  omega

/-- The answer for an expression is the code of its plan and an accepting instruction, or a refusal
if that takes more than the budget. -/
theorem mapError_program (s : Settings) (e : Expr) :
    (s.program e).mapError s.refusalOf =
      if (e.wholePlan (!s.neverCapture)).cost + Instruction.baseCost ≤ s.programBudget.toNat then
        .ok ⟨e.instructions (!s.neverCapture),
          (e.wholePlan (!s.neverCapture)).cost + Instruction.baseCost,
          if s.neverCapture then 0 else e.captureCount⟩
      else .error (.tooLarge s.maxMemory) := by
  have grants := e.lower_grants (l := s.limits)
  rw [Limits.Grants, Nat.zero_add] at grants
  rw [program]
  split at grants
  next within =>
    rw [grants]
    exact (if_pos within).symm
  next exceeds =>
    obtain ⟨o, failed, -⟩ := grants
    rw [failed]
    exact (if_neg exceeds).symm

/-- Where a program is granted there is one. -/
theorem exists_program {s : Settings} {e : Expr} (granted : (s.program e).isOk = true) :
    ∃ p, s.program e = .ok p := by
  cases compiled : s.program e with
  | error overrun =>
    rw [compiled] at granted
    cases granted
  | ok p => exact ⟨p, rfl⟩

/-- What a program consists of. -/
theorem eq_of_program {s : Settings} {e : Expr} {p : Program} (compiled : s.program e = .ok p) :
    p = ⟨e.instructions (!s.neverCapture),
      (e.wholePlan (!s.neverCapture)).cost + Instruction.baseCost,
      if s.neverCapture then 0 else e.captureCount⟩ := by
  have answer := s.mapError_program e
  rw [compiled] at answer
  split at answer
  · exact Except.ok.inj answer
  · cases answer

/-- The code of a program is that of the plan, whatever the budget was. -/
theorem code_of_program {s : Settings} {e : Expr} {p : Program} (compiled : s.program e = .ok p) :
    p.code = e.instructions (!s.neverCapture) :=
  congrArg Program.code (eq_of_program compiled)

/-- The verdict on an expression is decided by its total: it has a program exactly if the total is
within two thirds of the memory limit. The program takes exactly the total, and it is one and the
same for every limit that admits it. -/
theorem program_verdict (e : Expr) (canonical : e.Each Expr.ClassCanonical) (neverCapture : Bool) :
    ∃ code, ∀ s : Settings, s.neverCapture = neverCapture →
      (s.program e).mapError s.refusalOf =
        if e.total (!neverCapture) ≤ 2 * s.maxMemory.toNat / 3 then
          .ok ⟨code, e.total (!neverCapture), if neverCapture then 0 else e.captureCount⟩
        else .error (.tooLarge s.maxMemory) := by
  refine ⟨e.instructions (!neverCapture), ?_⟩
  rintro s rfl
  rw [s.mapError_program e, e.cost_wholePlan _ canonical, s.toNat_programBudget]

/-- The pattern `^([a-z]|ab)+` takes 138 bytes without its capture, whatever the limit. -/
theorem program_verdict_plus :
    let e : Expr := .concat [.look .start, .repetition 1 none true
      (.capture 1 none (.alternation [.chars [⟨0x61, 0x7A⟩], .literal [0x61, 0x62]]))]
    e.Each Expr.ClassCanonical ∧
      ∃ code, ∀ s : Settings, s.neverCapture = true →
        (s.program e).mapError s.refusalOf =
          if 138 ≤ 2 * s.maxMemory.toNat / 3 then .ok ⟨code, 138, 0⟩
          else .error (.tooLarge s.maxMemory) :=
  ⟨by decide, program_verdict _ (by decide) true⟩

end Settings

end PatternGate
