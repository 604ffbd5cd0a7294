import Mathlib.Algebra.GroupWithZero.Nat
import Mathlib.Data.List.Forall2
import PatternGate.Proofs.Program.Layout
import PatternGate.Proofs.Program.Outline
import PatternGate.Proofs.Validator.Outcome

/-!
# Erasing the notes of captures

A program that keeps captures notes places in registers, and these notes are all that it has over
the program without captures. `erased` deletes them and moves every target to where its instruction
now stands. The main statement, `Settings.program_erased`, says that suppressing captures gives
exactly this, and saves the memory of what was deleted.

A target may point at a note, as the start of a loop or of a branch does; it then goes to the first
instruction after it that stays. So the new place of a target is the number of instructions before
it that stay, its `rank`, which can only be read off the whole program. The proof follows the plan:
one plan erases to another if, wherever its code stands in a program, what stays of it is the code
of the other at the rank of that place (`Plan.ErasesTo`). Each shape of plan keeps this relation.
-/

namespace PatternGate

namespace Instruction

/-- The instruction notes a place in a register. -/
def writes : Instruction → Bool
  | writeRegister _ => true
  | consume _ | consumeAny | consumeClass _ | fork2 _ _ | forkN _ | jump _ | assertion _ | accept =>
    false

/-- The instruction with its targets moved. -/
def retarget (move : Nat → Nat) : Instruction → Instruction
  | fork2 first second => fork2 (move first) (move second)
  | forkN targets => forkN (targets.map move)
  | jump target => jump (move target)
  | consume b => consume b
  | consumeAny => consumeAny
  | consumeClass set => consumeClass set
  | writeRegister r => writeRegister r
  | assertion l => assertion l
  | accept => accept

/-- Where targets are does not change what an instruction costs. -/
@[simp]
theorem cost_retarget (move : Nat → Nat) (i : Instruction) : (i.retarget move).cost = i.cost := by
  cases i <;> simp [retarget, cost]

/-- The marks that are erased cost the base of an instruction each. -/
theorem cost_of_writes {i : Instruction} (writes : i.writes = true) : i.cost = 16 := by
  cases i <;> first | rfl | cases writes

end Instruction

/-- The instructions of a stretch that write no register, with their targets moved. -/
def erasedBy (move : Nat → Nat) (part : List Instruction) : List Instruction :=
  (part.filter fun i => !i.writes).map (Instruction.retarget move)

/-- How many instructions before a place of a program write no register. -/
def rank (code : List Instruction) (pc : Nat) : Nat := (code.take pc).countP fun i => !i.writes

/-- A program without its register writes. A target becomes the number of instructions before it
that stay. -/
def erased (code : List Instruction) : List Instruction := erasedBy (rank code) code

section ErasedBy

variable (move : Nat → Nat)

@[simp]
theorem erasedBy_nil : erasedBy move [] = [] := rfl

/-- Code is erased part by part. -/
theorem erasedBy_append (part part' : List Instruction) :
    erasedBy move (part ++ part') = erasedBy move part ++ erasedBy move part' := by
  simp [erasedBy]

/-- What writes no register stays. -/
theorem erasedBy_cons {i : Instruction} (stays : i.writes = false) (part : List Instruction) :
    erasedBy move (i :: part) = i.retarget move :: erasedBy move part := by
  simp [erasedBy, stays]

/-- What is left of code are the instructions that are no marks. -/
theorem length_erasedBy (part : List Instruction) :
    (erasedBy move part).length = part.countP fun i => !i.writes := by
  rw [erasedBy, List.length_map, List.countP_eq_length_filter]

/-- Erasing saves the cost of what is deleted, and nothing else. -/
theorem sum_cost_erasedBy (part : List Instruction) :
    ((erasedBy move part).map Instruction.cost).sum + 16 * part.countP Instruction.writes =
      (part.map Instruction.cost).sum := by
  induction part with
  | nil => rfl
  | cons i part ih =>
    rw [List.map_cons, List.sum_cons, ← ih]
    by_cases writes : i.writes = true
    · have deleted : erasedBy move (i :: part) = erasedBy move part := by simp [erasedBy, writes]
      have cost := Instruction.cost_of_writes writes
      rw [deleted, List.countP_cons_of_pos writes, cost]
      omega
    · have stays : i.writes = false := Bool.not_eq_true _ ▸ writes
      rw [erasedBy_cons move stays, List.countP_cons_of_neg writes, List.map_cons, List.sum_cons,
        Instruction.cost_retarget]
      omega

end ErasedBy

section Rank

variable {code : List Instruction} {pc : Nat}

/-- Nothing stands before the start. -/
@[simp]
theorem rank_zero (code : List Instruction) : rank code 0 = 0 := rfl

/-- The rank grows by what stays of a stretch of code. -/
theorem rank_add {part : List Instruction} (placed : Placed code pc part) :
    rank code (pc + part.length) = rank code pc + part.countP fun i => !i.writes := by
  have stretch : (code.drop pc).take part.length = part := by
    apply List.ext_getElem?
    intro k
    by_cases inside : k < part.length
    · have found : part[k]? = some part[k] := List.getElem?_eq_getElem inside
      rw [List.getElem?_take_of_lt inside, List.getElem?_drop, placed k _ found, found]
    · have outside : part.length ≤ k := Nat.le_of_not_lt inside
      have short := List.length_take_le part.length (code.drop pc)
      rw [List.getElem?_eq_none outside, List.getElem?_eq_none (Nat.le_trans short outside)]
  rw [rank, rank, List.take_add, List.countP_append, stretch]

/-- The rank grows by one over an instruction that stays. -/
theorem rank_succ {i : Instruction} (here : code[pc]? = some i) (stays : i.writes = false) :
    rank code (pc + 1) = rank code pc + 1 := by
  have placed : Placed code pc [i] := by
    rw [Placed.cons_iff]
    exact ⟨here, fun k j found => by cases found⟩
  have grown := rank_add placed
  rwa [List.countP_singleton, stays] at grown

end Rank

namespace Plan

/-- What stays of the code of one plan, wherever it stands in a program, is the code of the other at
the place where that stretch of the program comes to stand. -/
def ErasesTo (p q : Plan) : Prop :=
  ∀ code pc, p.StandsIn code pc → erasedBy (rank code) (p.code pc) = q.code (rank code pc)

namespace ErasesTo

variable {p q r t : Plan}

/-- The stretch after a plan comes to stand after the plan that it erases to. -/
theorem rank_stop (erases : p.ErasesTo q) {code : List Instruction} {pc : Nat}
    (stands : p.StandsIn code pc) : rank code (pc + p.size) = rank code pc + q.size := by
  have grown := rank_add stands
  have stays := congrArg List.length (erases code pc stands)
  rw [length_erasedBy, length_code] at stays
  rwa [length_code, stays] at grown

/-- The empty plan has nothing to erase. -/
theorem nothing : Plan.nothing.ErasesTo .nothing := fun _ _ _ => rfl

/-- An instruction that writes no register erases to itself. -/
theorem plain {i : Plain} (stays : i.instruction.writes = false) :
    (Plan.plain i).ErasesTo (.plain i) := by
  intro code pc _
  rw [Plan.code, erasedBy_cons _ stays, erasedBy_nil]
  cases i <;> rfl

/-- A register write erases to nothing. -/
theorem write (register : Nat) : (Plan.plain (.writeRegister register)).ErasesTo .nothing :=
  fun _ _ _ => rfl

/-- Sequences are erased part by part: targets inside a part move by the marks before it. -/
theorem seq (first : p.ErasesTo q) (second : r.ErasesTo t) : (p.seq r).ErasesTo (q.seq t) := by
  intro code pc stands
  obtain ⟨here, after⟩ := StandsIn.seq_iff.mp stands
  rw [Plan.code, erasedBy_append, first code pc here, second code _ after, first.rank_stop here,
    Plan.code]

/-- A fork is no mark. -/
theorem fork_writes (greedy : Bool) (enter leave : Nat) :
    (Emitter.fork greedy enter leave).writes = false := by
  cases greedy <;> rfl

/-- Both targets of a fork move with the code. -/
theorem fork_retarget (move : Nat → Nat) (greedy : Bool) (enter leave : Nat) :
    (Emitter.fork greedy enter leave).retarget move =
      Emitter.fork greedy (move enter) (move leave) := by
  cases greedy <;> rfl

/-- Erasing the body of an option erases the option. -/
theorem option (greedy : Bool) (body : p.ErasesTo q) :
    (Plan.option greedy p).ErasesTo (.option greedy q) := by
  intro code pc stands
  obtain ⟨fork, inner⟩ := StandsIn.option_iff.mp stands
  have enter : rank code (pc + 1) = rank code pc + 1 := rank_succ fork (fork_writes _ _ _)
  have leave : rank code (pc + (p.size + 1)) = rank code pc + (q.size + 1) := by
    have stop := body.rank_stop inner
    rw [enter] at stop
    rw [show pc + (p.size + 1) = pc + 1 + p.size by omega, stop]
    omega
  rw [Plan.code, erasedBy_cons _ (fork_writes _ _ _), fork_retarget, body code _ inner, enter,
    leave, Plan.code]

/-- Erasing the body of a loop erases the loop. -/
theorem star (greedy : Bool) (body : p.ErasesTo q) : (p.star greedy).ErasesTo (q.star greedy) := by
  intro code pc stands
  obtain ⟨fork, inner, back⟩ := StandsIn.star_iff.mp stands
  have enter : rank code (pc + 1) = rank code pc + 1 := rank_succ fork (fork_writes _ _ _)
  have leave : rank code (pc + (p.size + 2)) = rank code pc + (q.size + 2) := by
    have stop := body.rank_stop inner
    have past := rank_succ back rfl
    rw [stop, enter] at past
    rw [show pc + (p.size + 2) = pc + 1 + p.size + 1 by omega, past]
    omega
  rw [Plan.code, erasedBy_cons _ (fork_writes _ _ _), fork_retarget, erasedBy_append,
    erasedBy_cons _ rfl, erasedBy_nil, body code _ inner, enter, leave, Plan.code]
  rfl

/-- Erasing the body of a loop that is taken at least once erases the loop. -/
theorem plus (greedy : Bool) (body : p.ErasesTo q) : (p.plus greedy).ErasesTo (q.plus greedy) := by
  intro code pc stands
  obtain ⟨inner, fork⟩ := StandsIn.plus_iff.mp stands
  have leave : rank code (pc + (p.size + 1)) = rank code pc + (q.size + 1) := by
    have past := rank_succ fork (fork_writes _ _ _)
    rw [body.rank_stop inner] at past
    rw [← Nat.add_assoc, past, Nat.add_assoc]
  rw [Plan.code, erasedBy_append, erasedBy_cons _ (fork_writes _ _ _), fork_retarget, erasedBy_nil,
    body code _ inner, leave, Plan.code]

/-- The branches of a choice erase one by one, with the jumps between them. -/
theorem branches {bs cs : List Plan} (each : List.Forall₂ ErasesTo bs cs)
    {code : List Instruction} {pc stop : Nat}
    (placed : Placed code pc (Branches.join stop (codes pc bs))) :
    erasedBy (rank code) (Branches.join stop (codes pc bs)) =
        Branches.join (rank code stop) (codes (rank code pc) cs) ∧
      (starts pc bs).map (rank code) = starts (rank code pc) cs ∧
      rank code (pc + sizeBranches bs) = rank code pc + sizeBranches cs := by
  induction each generalizing pc with
  | nil => exact ⟨rfl, rfl, rfl⟩
  | @cons b c bs cs first rest ih =>
    cases rest with
    | nil => exact ⟨first code pc placed, rfl, first.rank_stop placed⟩
    | cons second rest =>
      simp only [codes, Branches.join, Placed.append_iff, Placed.cons_iff, length_code] at placed
      obtain ⟨here, jump, after⟩ := placed
      have past : rank code (pc + b.size + 1) = rank code pc + c.size + 1 := by
        rw [rank_succ jump rfl, first.rank_stop here]
      obtain ⟨joined, started, ended⟩ := ih after
      rw [past] at joined started ended
      refine ⟨?_, ?_, ?_⟩
      · simp only [codes, Branches.join, erasedBy_append, erasedBy_cons _ (rfl :
          (Instruction.jump stop).writes = false)] at joined ⊢
        rw [first code pc here, joined]
        rfl
      · rw [starts_cons, List.map_cons, started, starts_cons _ c]
      · simp only [sizeBranches] at ended ⊢
        rw [show ∀ n, pc + (b.size + 1 + n) = pc + b.size + 1 + n by omega, ended]
        omega

/-- Erasing each branch erases the choice, with the table of its targets. -/
theorem choice {bs cs : List Plan} (each : List.Forall₂ ErasesTo bs cs) :
    (Plan.choice bs).ErasesTo (.choice cs) := by
  intro code pc stands
  rw [StandsIn, Plan.code, Placed.cons_iff] at stands
  obtain ⟨fork, placed⟩ := stands
  have enter : rank code (pc + 1) = rank code pc + 1 := rank_succ fork rfl
  obtain ⟨joined, started, ended⟩ := branches each placed
  rw [enter] at joined started ended
  have leave : rank code (pc + (sizeBranches bs + 1)) = rank code pc + (sizeBranches cs + 1) := by
    rw [show pc + (sizeBranches bs + 1) = pc + 1 + sizeBranches bs by omega, ended]
    omega
  rw [leave] at joined
  rw [Plan.code, erasedBy_cons _ rfl, joined, Instruction.retarget, started, Plan.code]

/-- Plans erase part by part. -/
theorem composes : Composes ErasesTo := ⟨.nothing, .seq, .option, .star, .plus⟩

/-- A capture that is kept erases to what its body erases to. -/
theorem capture (index : Nat) (body : p.ErasesTo q) : (p.capture true index).ErasesTo q := by
  intro code pc stands
  have notes := (write (Emitter.register (2 * index))).seq
    (body.seq (write (Emitter.register (2 * index + 1)))) code pc stands
  have bare : (Plan.nothing.seq (q.seq .nothing)).code (rank code pc) = q.code (rank code pc) := by
    simp [Plan.code, size]
  exact notes.trans bare

end ErasesTo

/-- A text has no marks. -/
theorem erasesTo_ofChars (cs : List Char) : (ofChars cs).ErasesTo (ofChars cs) := by
  induction cs with
  | nil => exact .nothing
  | cons c cs ih =>
    refine .seq (.plain ?_) ih
    unfold Plain.ofChar
    cases Latin1.byte? c <;> rfl

/-- A set has no marks. -/
theorem erasesTo_ofSet (set : RangeSet) :
    (Plan.plain (.ofSet set)).ErasesTo (.plain (.ofSet set)) := by
  refine .plain ?_
  unfold Plain.ofSet
  split <;> rfl

end Plan

namespace Expr

/-- A sequence with captures erases to the sequence without them, if each of its items does. -/
theorem erasesTo_planAll {es : List Expr}
    (each : ∀ e ∈ es, (e.plan true).ErasesTo (e.plan false)) :
    (planAll true es).ErasesTo (planAll false es) := by
  induction es with
  | nil => exact .nothing
  | cons e es ih =>
    rw [List.forall_mem_cons] at each
    rw [planAll, planAll]
    exact each.1.seq (ih each.2)

/-- The plan of an expression with its captures erases to the plan without them. -/
theorem erasesTo_plan (e : Expr) : (e.plan true).ErasesTo (e.plan false) := by
  induction e with
  | empty => exact .nothing
  | literal bs => exact Plan.erasesTo_ofChars _
  | chars set => exact Plan.erasesTo_ofSet _
  | bytes set => exact Plan.erasesTo_ofSet _
  | look l => exact .plain rfl
  | repetition min max greedy body ih =>
    rw [plan, plan]
    exact Plan.ErasesTo.composes.repetition ih min max greedy
  | capture index name body ih =>
    rw [plan, plan]
    exact ih.capture index
  | concat items ih =>
    rw [plan, plan]
    exact erasesTo_planAll ih
  | alternation branches ih =>
    rw [plan, plan, plans_eq_map, plans_eq_map]
    refine .choice ?_
    rw [List.forall₂_map_left_iff, List.forall₂_map_right_iff, List.forall₂_same]
    exact ih

/-- The loop at the start of a program notes nothing. -/
theorem erasesTo_startPlan (e : Expr) : e.startPlan.ErasesTo e.startPlan := by
  unfold startPlan
  split
  · exact .nothing
  · exact .star false (.plain rfl)

/-- Without captures a program is the one with captures, erased. -/
theorem erased_instructions (e : Expr) : erased (e.instructions true) = e.instructions false := by
  have stands := (e.instructions_stand true).1
  have body := e.erasesTo_startPlan.seq e.erasesTo_plan _ _ stands
  have split : e.instructions true = (e.wholePlan true).code 0 ++ [.accept] := rfl
  rw [rank_zero] at body
  rw [erased]
  nth_rewrite 2 [split]
  rw [erasedBy_append, wholePlan, body, erasedBy_cons _ rfl]
  rfl

/-- Without captures a program is smaller by the memory of the notes. -/
theorem cost_wholePlan_false (e : Expr) :
    (e.wholePlan false).cost + 16 * (e.instructions true).countP Instruction.writes =
      (e.wholePlan true).cost := by
  have saved := sum_cost_erasedBy (rank (e.instructions true)) (e.instructions true)
  rw [show erasedBy _ _ = _ from e.erased_instructions] at saved
  simp only [instructions, List.map_append, List.sum_append, Plan.sum_cost_code] at saved ⊢
  omega

end Expr

namespace Settings

/-- What has a program with its captures has one without them, under the same memory limit: the same
program, erased. -/
theorem exists_program_erased (s s' : Settings) (limit : s'.maxMemory = s.maxMemory)
    (kept : s.neverCapture = false) (dropped : s'.neverCapture = true) {e : Expr} {p : Program}
    (compiled : s.program e = .ok p) :
    ∃ q, s'.program e = .ok q ∧ q.code = erased p.code ∧
      q.memory + 16 * p.code.countP Instruction.writes = p.memory := by
  have budget : s'.programBudget = s.programBudget := by rw [programBudget, limit, programBudget]
  have answer := s.mapError_program e
  have bare := s'.mapError_program e
  have saved := e.cost_wholePlan_false
  rw [compiled, kept, Bool.not_false] at answer
  rw [dropped, Bool.not_true, budget] at bare
  split at answer
  next fits =>
    cases answer
    rw [if_pos (by omega), mapError_eq_ok_iff] at bare
    refine ⟨_, bare, e.erased_instructions.symm, ?_⟩
    dsimp only
    omega
  next => cases answer

/-- Suppressing captures erases them. If an expression has a program that keeps its captures, then
under the same memory limit it has one that does not, and this is the first without its register
writes, each target moved to where its instruction now stands; it saves 16 bytes for each write. So
a request that is supported with its captures is supported without them. -/
theorem program_erased :
    (∀ (e : Expr) (s s' : Settings) (p : Program), s'.maxMemory = s.maxMemory →
      s.neverCapture = false → s'.neverCapture = true → s.program e = .ok p →
        ∃ q, s'.program e = .ok q ∧ q.code = erased p.code ∧
          q.memory + 16 * p.code.countP Instruction.writes = p.memory) ∧
    (∀ (l : ValidatorLimits) (r : Request),
      (l.validate { r with requireCapturing := true }).verdict = .supported →
        (l.validate { r with requireCapturing := false }).verdict = .supported) := by
  constructor
  · intro e s s' p limit kept dropped compiled
    exact exists_program_erased s s' limit kept dropped compiled
  · intro l r supported
    obtain ⟨e, p, found, compiled⟩ := ValidatorLimits.verdict_eq_supported_iff.mp supported
    -- The two requests ask for settings that differ in whether captures are kept, and only in that.
    obtain ⟨q, bare, -⟩ := exists_program_erased (l.settings { r with requireCapturing := true })
      (l.settings { r with requireCapturing := false }) rfl rfl rfl compiled
    exact ValidatorLimits.verdict_eq_supported_iff.mpr ⟨e, q, found, bare⟩

/-- In the pattern `(?:(a)|b)+` a loop and a branch start with a register write. -/
theorem program_erased_loop :
    let e : Expr := .repetition 1 none true
      (.alternation [.capture 1 none (.literal [0x61]), .literal [0x62]])
    let s : Settings := { neverCapture := false }
    (∃ p, s.program e = .ok p ∧ p.code.countP Instruction.writes = 2 ∧
      ∃ q, Settings.program {} e = .ok q ∧ q.code = erased p.code ∧ q.memory + 32 = p.memory) ∧
      (ValidatorLimits.validate {} ⟨"((a)|b)+", true, false⟩).verdict = .supported := by
  intro e s
  obtain ⟨p, compiled⟩ : ∃ p, s.program e = .ok p := exists_program (by decide +kernel)
  have writes : p.code.countP Instruction.writes = 2 := by
    rw [code_of_program compiled]
    decide +kernel
  obtain ⟨q, bare, code, memory⟩ := program_erased.1 e s {} p rfl rfl rfl compiled
  rw [writes] at memory
  have supported : (ValidatorLimits.validate {} ⟨"((a)|b)+", true, true⟩).verdict = .supported := by
    decide +kernel
  exact ⟨⟨p, compiled, writes, q, bare, code, memory⟩,
    program_erased.2 {} ⟨"((a)|b)+", true, true⟩ supported⟩

end Settings

end PatternGate
