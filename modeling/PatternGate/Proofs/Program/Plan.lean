import PatternGate.Program.Lowering
import PatternGate.Proofs.Expr.Nodes

/-!
# Plans of code

An expression is lowered in two thoughts: which instructions stand in which order, and where they
stand. A plan is the first of them. It nests instructions the way the expression nests, without
addresses, and `Plan.code` puts it at a place. Repetition counts are gone: copies are written out,
an optional copy is an `option` that holds the copies after it, and the two kinds of loop are `star`
and `plus`.

Nothing here charges memory. That lowering writes exactly the code of a plan, or runs out of budget,
is shown in `Proofs.Program.Budget`; what the code does and how it is connected follows from the
plan alone, so that every law about programs is an induction over the seven shapes of a plan.
-/

namespace PatternGate

/-- An instruction after which the next one follows: it reads a byte, checks a place or notes it. -/
inductive Plain where
  | consume (b : UInt8)
  | consumeAny
  | consumeClass (set : RangeSet)
  | writeRegister (register : Nat)
  | assertion (l : Look)
  deriving DecidableEq

namespace Plain

/-- The instruction itself. -/
def instruction : Plain → Instruction
  | consume b => .consume b
  | consumeAny => .consumeAny
  | consumeClass set => .consumeClass set
  | writeRegister r => .writeRegister r
  | assertion l => .assertion l

/-- What reads a byte of a set. -/
def ofSet (set : RangeSet) : Plain :=
  if set = [⟨0, 0xFF⟩] then .consumeAny else .consumeClass set

/-- What reads the byte of a character. -/
def ofChar (c : Char) : Plain :=
  match Latin1.byte? c with
  | some b => .consume b
  | none => .consumeClass []

theorem instruction_ofSet (set : RangeSet) :
    (ofSet set).instruction = Emitter.classInstruction set := by
  unfold ofSet Emitter.classInstruction
  split <;> rfl

theorem instruction_ofChar (c : Char) :
    (ofChar c).instruction = Emitter.charInstruction c := by
  unfold ofChar Emitter.charInstruction
  cases Latin1.byte? c <;> rfl

end Plain

/-- A stretch of code without its addresses. -/
inductive Plan where
  | nothing
  | plain (i : Plain)
  | seq (first second : Plan)
  | option (greedy : Bool) (body : Plan)
  | star (greedy : Bool) (body : Plan)
  | plus (greedy : Bool) (body : Plan)
  | choice (branches : List Plan)

namespace Plan

/-- Induction over plans, with the hypothesis for every branch of a choice. -/
@[elab_as_elim, induction_eliminator]
theorem induction {motive : Plan → Prop}
    (nothing : motive .nothing)
    (plain : ∀ i, motive (.plain i))
    (seq : ∀ first second, motive first → motive second → motive (.seq first second))
    (option : ∀ greedy body, motive body → motive (.option greedy body))
    (star : ∀ greedy body, motive body → motive (.star greedy body))
    (plus : ∀ greedy body, motive body → motive (.plus greedy body))
    (choice : ∀ branches, (∀ b ∈ branches, motive b) → motive (.choice branches))
    (p : Plan) : motive p :=
  @Plan.rec motive (fun bs => ∀ b ∈ bs, motive b) nothing plain seq option star plus choice
    (fun _ h => absurd h List.not_mem_nil)
    (fun _ _ hb hbs _ h => by
      rcases List.mem_cons.mp h with rfl | h
      · exact hb
      · exact hbs _ h)
    p

mutual

/-- The number of instructions. -/
def size : Plan → Nat
  | nothing => 0
  | plain _ => 1
  | seq first second => first.size + second.size
  | option _ body => body.size + 1
  | star _ body => body.size + 2
  | plus _ body => body.size + 1
  | choice branches => sizeBranches branches + 1

/-- The number of instructions of branches, with a jump after each but the last. -/
def sizeBranches : List Plan → Nat
  | [] => 0
  | [b] => b.size
  | b :: bs => b.size + 1 + sizeBranches bs

end

mutual

/-- The memory of the instructions. -/
def cost : Plan → Nat
  | nothing => 0
  | plain i => i.instruction.cost
  | seq first second => first.cost + second.cost
  | option _ body => Instruction.baseCost + body.cost
  | star _ body => Instruction.baseCost + body.cost + Instruction.baseCost
  | plus _ body => body.cost + Instruction.baseCost
  | choice branches =>
    Instruction.baseCost + costBranches branches + Instruction.targetCost * branches.length

/-- The memory of branches, with a jump after each but the last. -/
def costBranches : List Plan → Nat
  | [] => 0
  | [b] => b.cost
  | b :: bs => b.cost + Instruction.baseCost + costBranches bs

end

/-- Branches with the places where they start, the first of them at `pc`. -/
def laid : Nat → List Plan → List (Nat × Plan)
  | _, [] => []
  | pc, b :: bs => (pc, b) :: laid (pc + b.size + 1) bs

/-- The places where branches start. -/
def starts (pc : Nat) (bs : List Plan) : List Nat := (laid pc bs).map Prod.fst

@[simp]
theorem starts_nil (pc : Nat) : starts pc [] = [] := rfl

@[simp]
theorem starts_cons (pc : Nat) (b : Plan) (bs : List Plan) :
    starts pc (b :: bs) = pc :: starts (pc + b.size + 1) bs := rfl

@[simp]
theorem length_starts (pc : Nat) (bs : List Plan) : (starts pc bs).length = bs.length := by
  induction bs generalizing pc with
  | nil => rfl
  | cons b bs ih => simp [ih]

theorem mem_starts_iff {pc start : Nat} {bs : List Plan} :
    start ∈ starts pc bs ↔ ∃ b, (start, b) ∈ laid pc bs := by
  simp [starts]

theorem mem_of_mem_laid {pc start : Nat} {b : Plan} {bs : List Plan}
    (mem : (start, b) ∈ laid pc bs) : b ∈ bs := by
  induction bs generalizing pc with
  | nil => cases mem
  | cons c bs ih =>
    rcases List.mem_cons.mp mem with eq | mem
    · cases eq
      exact List.mem_cons_self
    · exact List.mem_cons_of_mem _ (ih mem)

theorem exists_mem_laid {b : Plan} {bs : List Plan} (mem : b ∈ bs) (pc : Nat) :
    ∃ start, (start, b) ∈ laid pc bs := by
  induction bs generalizing pc with
  | nil => cases mem
  | cons c bs ih =>
    rcases List.mem_cons.mp mem with rfl | mem
    · exact ⟨pc, List.mem_cons_self⟩
    · obtain ⟨start, found⟩ := ih mem (pc + c.size + 1)
      exact ⟨start, List.mem_cons_of_mem _ found⟩

/-- Branches are laid one after another, each within the stretch of all. -/
theorem laid_bounds {pc start : Nat} {b : Plan} {bs : List Plan} (mem : (start, b) ∈ laid pc bs) :
    pc ≤ start ∧ start + b.size ≤ pc + sizeBranches bs := by
  induction bs generalizing pc with
  | nil => cases mem
  | cons c bs ih =>
    cases bs with
    | nil =>
      simp only [laid, List.mem_singleton, Prod.mk.injEq] at mem
      obtain ⟨rfl, rfl⟩ := mem
      simp [sizeBranches]
    | cons d bs =>
      rcases List.mem_cons.mp mem with eq | mem
      · cases eq
        simp only [sizeBranches]
        omega
      · have bounds := ih mem
        simp only [sizeBranches] at bounds ⊢
        omega

/-- The starts of branches are in increasing order. -/
theorem starts_pairwise (pc : Nat) (bs : List Plan) : (starts pc bs).Pairwise (· < ·) := by
  induction bs generalizing pc with
  | nil => exact List.Pairwise.nil
  | cons b bs ih =>
    rw [starts_cons, List.pairwise_cons]
    refine ⟨fun start mem => ?_, ih _⟩
    obtain ⟨c, found⟩ := mem_starts_iff.mp mem
    have := (laid_bounds found).1
    omega

mutual

/-- The instructions of a plan at the place `pc`. -/
def code : Plan → Nat → List Instruction
  | nothing, _ => []
  | plain i, _ => [i.instruction]
  | seq first second, pc => first.code pc ++ second.code (pc + first.size)
  | option greedy body, pc =>
    Emitter.fork greedy (pc + 1) (pc + (body.size + 1)) :: body.code (pc + 1)
  | star greedy body, pc =>
    Emitter.fork greedy (pc + 1) (pc + (body.size + 2)) :: (body.code (pc + 1) ++ [.jump pc])
  | plus greedy body, pc =>
    body.code pc ++ [Emitter.fork greedy pc (pc + (body.size + 1))]
  | choice branches, pc =>
    .forkN (starts (pc + 1) branches) ::
      Branches.join (pc + (sizeBranches branches + 1)) (codes (pc + 1) branches)

/-- The instructions of each branch, without the jumps between them. -/
def codes : Nat → List Plan → List (List Instruction)
  | _, [] => []
  | pc, b :: bs => b.code pc :: codes (pc + b.size + 1) bs

end

theorem length_join (stop : Nat) (b : Plan) (bs : List Plan) (pc : Nat)
    (lengths : ∀ c ∈ b :: bs, ∀ at', (c.code at').length = c.size) :
    (Branches.join stop (codes pc (b :: bs))).length = sizeBranches (b :: bs) := by
  induction bs generalizing b pc with
  | nil => simp [codes, Branches.join, sizeBranches, lengths b (by simp)]
  | cons c bs ih =>
    have rest := ih c (pc + b.size + 1) fun d mem => lengths d (List.mem_cons_of_mem _ mem)
    simp only [codes, Branches.join, sizeBranches, List.length_append, List.length_cons,
      lengths b List.mem_cons_self] at rest ⊢
    rw [rest]
    omega

/-- A plan has as many instructions as its size says, wherever it stands. -/
@[simp]
theorem length_code (p : Plan) (pc : Nat) : (p.code pc).length = p.size := by
  induction p generalizing pc with
  | nothing => rfl
  | plain i => rfl
  | seq first second ihf ihs => simp [code, size, ihf, ihs]
  | option greedy body ih => simp [code, size, ih]
  | star greedy body ih => simp [code, size, ih]
  | plus greedy body ih => simp [code, size, ih]
  | choice branches ih =>
    cases branches with
    | nil => simp [code, size, sizeBranches, codes, Branches.join]
    | cons b bs =>
      simp only [code, size, List.length_cons]
      rw [length_join _ b bs (pc + 1) ih]

/-- Copies one after another. -/
def copies (p : Plan) : Nat → Plan
  | 0 => nothing
  | n + 1 => p.seq (p.copies n)

/-- Up to `n` copies, each of which may be left out with those after it. -/
def options (greedy : Bool) (p : Plan) : Nat → Plan
  | 0 => nothing
  | n + 1 => .option greedy (p.seq (p.options greedy n))

/-- A counted repetition. -/
def repetition (min : Nat) (max : Option Nat) (greedy : Bool) (p : Plan) : Plan :=
  match max, min with
  | some max, min => (p.copies min).seq (p.options greedy (max - min))
  | none, 0 => p.star greedy
  | none, min + 1 => (p.copies min).seq (p.plus greedy)

/-- A relation that goes from plans to what is composed of them. A property is such a relation, too,
if it looks at the first plan only. -/
structure Composes (R : Plan → Plan → Prop) : Prop where
  nothing : R nothing nothing
  seq : ∀ {p q p' q'}, R p q → R p' q' → R (p.seq p') (q.seq q')
  option : ∀ {p q} greedy, R p q → R (.option greedy p) (.option greedy q)
  star : ∀ {p q} greedy, R p q → R (p.star greedy) (q.star greedy)
  plus : ∀ {p q} greedy, R p q → R (p.plus greedy) (q.plus greedy)

namespace Composes

variable {R : Plan → Plan → Prop} {p q : Plan} (composes : Composes R) (body : R p q)
include composes body

/-- What composes goes from a plan to its copies. -/
theorem copies (n : Nat) : R (p.copies n) (q.copies n) := by
  induction n with
  | zero => exact composes.nothing
  | succ n ih => exact composes.seq body ih

/-- What composes goes from a plan to its copies that may be left out. -/
theorem options (greedy : Bool) (n : Nat) : R (p.options greedy n) (q.options greedy n) := by
  induction n with
  | zero => exact composes.nothing
  | succ n ih => exact composes.option greedy (composes.seq body ih)

/-- What composes goes from a plan to its repetitions, in each of their three forms. -/
theorem repetition (min : Nat) (max : Option Nat) (greedy : Bool) :
    R (p.repetition min max greedy) (q.repetition min max greedy) := by
  cases max with
  | some max =>
    exact composes.seq (composes.copies body min) (composes.options body greedy (max - min))
  | none =>
    cases min with
    | zero => exact composes.star greedy body
    | succ min => exact composes.seq (composes.copies body min) (composes.plus greedy body)

end Composes

/-- The characters of a literal. -/
def ofChars : List Char → Plan
  | [] => nothing
  | c :: cs => (Plan.plain (.ofChar c)).seq (ofChars cs)

/-- A plan between the notes of the two registers of a capture, if captures are kept. -/
def capture (kept : Bool) (index : Nat) (p : Plan) : Plan :=
  if kept then
    (Plan.plain (.writeRegister (Emitter.register (2 * index)))).seq
      (p.seq (.plain (.writeRegister (Emitter.register (2 * index + 1)))))
  else p

end Plan

namespace Expr

mutual

/-- The plan of an expression. -/
def plan (kept : Bool) : Expr → Plan
  | .empty => .nothing
  | .literal bs => .ofChars (Utf8.decode bs)
  | .chars set => .plain (.ofSet (RangeSet.clip set))
  | .bytes set => .plain (.ofSet set)
  | .look k => .plain (.assertion k)
  | .repetition min max greedy body => .repetition min max greedy (body.plan kept)
  | .capture index _ body => .capture kept index (body.plan kept)
  | .concat items => planAll kept items
  | .alternation branches => .choice (plans kept branches)

/-- The plan of expressions in a sequence. -/
def planAll (kept : Bool) : List Expr → Plan
  | [] => .nothing
  | e :: es => (e.plan kept).seq (planAll kept es)

/-- The plans of branches. -/
def plans (kept : Bool) : List Expr → List Plan
  | [] => []
  | e :: es => e.plan kept :: plans kept es

end

theorem plans_eq_map (kept : Bool) (es : List Expr) : plans kept es = es.map (plan kept) := by
  induction es with
  | nil => rfl
  | cons e es ih => rw [plans, ih, List.map_cons]

/-- What stands before the code of an expression: a lazy loop over any bytes, unless every match
starts at the start of the text. -/
def startPlan (e : Expr) : Plan :=
  if e.leadsWith .start then .nothing else .star false (.plain .consumeAny)

/-- The plan of a whole program, without the accepting instruction. -/
def wholePlan (kept : Bool) (e : Expr) : Plan := e.startPlan.seq (e.plan kept)

/-- The instructions of a whole program. -/
def instructions (kept : Bool) (e : Expr) : List Instruction :=
  (e.wholePlan kept).code 0 ++ [.accept]

end Expr

end PatternGate
