import PatternGate.Proofs.Program.Plan

/-!
# Where the instructions of a plan stand

A plan stands in a program at a place if its code is there, with its targets counted for that place.
For each shape of plan this module says which instruction stands where: the forks and jumps by
themselves, and the parts as plans that stand in the same program. These are the only facts about
addresses that the laws on programs use.
-/

namespace PatternGate

/-- Instructions stand in a program from the place `pc` on. -/
def Placed (code : List Instruction) (pc : Nat) (part : List Instruction) : Prop :=
  ∀ k i, part[k]? = some i → code[pc + k]? = some i

namespace Placed

variable {code : List Instruction} {pc : Nat}

/-- Instructions are placed one behind the other. -/
theorem cons_iff {i : Instruction} {part : List Instruction} :
    Placed code pc (i :: part) ↔ code[pc]? = some i ∧ Placed code (pc + 1) part := by
  constructor
  · intro placed
    refine ⟨placed 0 i rfl, fun k j found => ?_⟩
    rw [Nat.add_assoc, Nat.add_comm 1]
    exact placed (k + 1) j found
  · rintro ⟨here, rest⟩ k j found
    cases k with
    | zero =>
      cases found
      exact here
    | succ k =>
      rw [Nat.add_comm k, ← Nat.add_assoc]
      exact rest k j found

/-- Two stretches are placed if the second follows the first. -/
theorem append_iff {part part' : List Instruction} :
    Placed code pc (part ++ part') ↔
      Placed code pc part ∧ Placed code (pc + part.length) part' := by
  induction part generalizing pc with
  | nil => simp [Placed]
  | cons i part ih =>
    rw [List.cons_append, cons_iff, cons_iff, ih, and_assoc, List.length_cons, Nat.add_assoc,
      Nat.add_comm 1]

/-- A program stands in itself. -/
theorem self (code : List Instruction) : Placed code 0 code := by
  intro k i found
  rwa [Nat.zero_add]

end Placed

namespace Plan

/-- The code of a plan stands in a program at the place `pc`. -/
def StandsIn (p : Plan) (code : List Instruction) (pc : Nat) : Prop := Placed code pc (p.code pc)

/-- A branch of a choice stands at `start`, and after it the choice is left at `stop`. -/
structure BranchAt (code : List Instruction) (stop start : Nat) (b : Plan) : Prop where
  stands : b.StandsIn code start
  leaves : start + b.size = stop ∨ code[start + b.size]? = some (.jump stop)

namespace StandsIn

variable {code : List Instruction} {pc : Nat}

/-- A plain instruction stands where it is found. -/
theorem plain_iff {i : Plain} :
    (Plan.plain i).StandsIn code pc ↔ code[pc]? = some i.instruction := by
  rw [StandsIn, Plan.code, Placed.cons_iff]
  simp [Placed]

/-- In a sequence the second part stands where the first ends. -/
theorem seq_iff {first second : Plan} :
    (first.seq second).StandsIn code pc ↔
      first.StandsIn code pc ∧ second.StandsIn code (pc + first.size) := by
  rw [StandsIn, Plan.code, Placed.append_iff, length_code]
  rfl

/-- A part that may be left out has a fork before it, which goes in or past it. -/
theorem option_iff {greedy : Bool} {body : Plan} :
    (Plan.option greedy body).StandsIn code pc ↔
      code[pc]? = some (Emitter.fork greedy (pc + 1) (pc + (body.size + 1))) ∧
        body.StandsIn code (pc + 1) := by
  rw [StandsIn, Plan.code, Placed.cons_iff]
  rfl

/-- A loop has a fork before its body and a jump back behind it. -/
theorem star_iff {greedy : Bool} {body : Plan} :
    (body.star greedy).StandsIn code pc ↔
      code[pc]? = some (Emitter.fork greedy (pc + 1) (pc + (body.size + 2))) ∧
        body.StandsIn code (pc + 1) ∧ code[pc + 1 + body.size]? = some (.jump pc) := by
  rw [StandsIn, Plan.code, Placed.cons_iff, Placed.append_iff, Placed.cons_iff, length_code]
  simp [Placed, StandsIn]

/-- A loop that is entered once has its fork behind the body. -/
theorem plus_iff {greedy : Bool} {body : Plan} :
    (body.plus greedy).StandsIn code pc ↔
      body.StandsIn code pc ∧
        code[pc + body.size]? = some (Emitter.fork greedy pc (pc + (body.size + 1))) := by
  rw [StandsIn, Plan.code, Placed.append_iff, Placed.cons_iff, length_code]
  simp [Placed, StandsIn]

/-- Each branch stands at its start, and what follows it leads to the end of all. The induction is
on the branches that are left. -/
theorem branches {bs : List Plan} {stop : Nat}
    (placed : Placed code pc (Branches.join stop (codes pc bs)))
    (ends : stop = pc + sizeBranches bs) {start : Nat} {b : Plan}
    (mem : (start, b) ∈ laid pc bs) : BranchAt code stop start b := by
  induction bs generalizing pc with
  | nil => cases mem
  | cons c bs ih =>
    cases bs with
    | nil =>
      simp only [laid, List.mem_singleton, Prod.mk.injEq] at mem
      obtain ⟨rfl, rfl⟩ := mem
      exact ⟨placed, .inl ends.symm⟩
    | cons d bs =>
      simp only [codes, Branches.join, Placed.append_iff, Placed.cons_iff, length_code] at placed
      obtain ⟨head, jump, rest⟩ := placed
      simp only [sizeBranches] at ends
      rcases List.mem_cons.mp mem with eq | mem
      · cases eq
        exact ⟨head, .inr jump⟩
      · exact ih rest (by omega) mem

/-- A choice has its table of targets first and its branches behind it. -/
theorem choice {bs : List Plan} (stands : (Plan.choice bs).StandsIn code pc) :
    code[pc]? = some (.forkN (starts (pc + 1) bs)) ∧
      ∀ start b, (start, b) ∈ laid (pc + 1) bs →
        BranchAt code (pc + (sizeBranches bs + 1)) start b := by
  rw [StandsIn, Plan.code, Placed.cons_iff] at stands
  refine ⟨stands.1, fun start b mem => ?_⟩
  exact branches stands.2 (by omega) mem

end StandsIn

end Plan

/-- The instructions that an instruction names, besides the next one. -/
def Instruction.targets : Instruction → List Nat
  | fork2 first second => [first, second]
  | forkN targets => targets
  | jump target => [target]
  | consume _ | consumeAny | consumeClass _ | writeRegister _ | assertion _ | accept => []

/-- An instruction fit for a stretch of code from `lo` to `hi`: it does not end the run, and its
targets are inside or just after the stretch. -/
structure Confined (lo hi : Nat) (i : Instruction) : Prop where
  goes : i ≠ .accept
  inside : ∀ t ∈ i.targets, lo ≤ t ∧ t ≤ hi

namespace Confined

variable {lo hi : Nat}

/-- What stays inside an interval stays inside a larger one. -/
theorem mono {lo' hi' : Nat} {i : Instruction} (confined : Confined lo hi i) (below : lo' ≤ lo)
    (above : hi ≤ hi') : Confined lo' hi' i where
  goes := confined.goes
  inside t mem :=
    ⟨Nat.le_trans below (confined.inside t mem).1, Nat.le_trans (confined.inside t mem).2 above⟩

/-- A plain instruction has no target. -/
theorem plain (i : Plain) : Confined lo hi i.instruction := by
  cases i <;> constructor <;> simp [Plain.instruction, Instruction.targets]

/-- A fork stays inside an interval that has both its targets. -/
theorem fork {greedy : Bool} {enter leave : Nat} (inner : lo ≤ enter ∧ enter ≤ hi)
    (outer : lo ≤ leave ∧ leave ≤ hi) : Confined lo hi (Emitter.fork greedy enter leave) := by
  cases greedy <;> constructor <;> simp [Emitter.fork, Instruction.targets, inner, outer]

/-- A jump stays inside an interval that has its target. -/
theorem jump {target : Nat} (inner : lo ≤ target ∧ target ≤ hi) :
    Confined lo hi (.jump target) := by
  constructor <;> simp [Instruction.targets, inner]

end Confined

namespace Plan

/-- An instruction of the branches is one of a branch, or a jump to their end. -/
theorem mem_join {stop pc : Nat} {bs : List Plan} {i : Instruction}
    (mem : i ∈ Branches.join stop (codes pc bs)) :
    i = .jump stop ∨ ∃ start b, (start, b) ∈ laid pc bs ∧ i ∈ b.code start := by
  induction bs generalizing pc with
  | nil => simp [codes, Branches.join] at mem
  | cons b bs ih =>
    cases bs with
    | nil => exact .inr ⟨pc, b, List.mem_cons_self, by simpa [codes, Branches.join] using mem⟩
    | cons c bs =>
      simp only [codes, Branches.join, List.mem_append, List.mem_cons] at mem
      rcases mem with mem | rfl | mem
      · exact .inr ⟨pc, b, List.mem_cons_self, mem⟩
      · exact .inl rfl
      · have rest : i ∈ Branches.join stop (codes (pc + b.size + 1) (c :: bs)) := mem
        rcases ih rest with jump | ⟨start, d, found, mem⟩
        · exact .inl jump
        · exact .inr ⟨start, d, List.mem_cons_of_mem _ found, mem⟩

/-- The instructions of a plan keep to its stretch of code. -/
theorem confined_of_mem_code {p : Plan} {pc : Nat} {i : Instruction} (mem : i ∈ p.code pc) :
    Confined pc (pc + p.size) i := by
  induction p generalizing pc with
  | nothing => simp [code] at mem
  | plain q =>
    rw [code, List.mem_singleton] at mem
    exact mem ▸ .plain q
  | seq first second ihf ihs =>
    rw [code, List.mem_append] at mem
    rw [size]
    rcases mem with mem | mem
    · exact (ihf mem).mono (by omega) (by omega)
    · exact (ihs mem).mono (by omega) (by omega)
  | option greedy body ih =>
    rw [code, List.mem_cons] at mem
    rw [size]
    rcases mem with rfl | mem
    · exact .fork (by omega) (by omega)
    · exact (ih mem).mono (by omega) (by omega)
  | star greedy body ih =>
    rw [code, List.mem_cons, List.mem_append, List.mem_singleton] at mem
    rw [size]
    rcases mem with rfl | mem | rfl
    · exact .fork (by omega) (by omega)
    · exact (ih mem).mono (by omega) (by omega)
    · exact .jump (by omega)
  | plus greedy body ih =>
    rw [code, List.mem_append, List.mem_singleton] at mem
    rw [size]
    rcases mem with mem | rfl
    · exact (ih mem).mono (by omega) (by omega)
    · exact .fork (by omega) (by omega)
  | choice branches ih =>
    rw [code, List.mem_cons] at mem
    rw [size]
    rcases mem with rfl | mem
    · refine ⟨by simp, fun t mem => ?_⟩
      obtain ⟨b, found⟩ := mem_starts_iff.mp mem
      have := laid_bounds found
      omega
    · rcases mem_join mem with rfl | ⟨start, b, found, mem⟩
      · exact .jump (by omega)
      · have := laid_bounds found
        exact (ih b (mem_of_mem_laid found) mem).mono (by omega) (by omega)

end Plan

/-- The plan of a whole program stands at its start, and the accepting instruction after it. -/
theorem Expr.instructions_stand (kept : Bool) (e : Expr) :
    (e.wholePlan kept).StandsIn (e.instructions kept) 0 ∧
      (e.instructions kept)[(e.wholePlan kept).size]? = some .accept := by
  have placed := Placed.self (e.instructions kept)
  rw [instructions, Placed.append_iff, Placed.cons_iff, Plan.length_code, Nat.zero_add] at placed
  exact ⟨placed.1, placed.2.1⟩

/-- A program is its plan and the accepting instruction. -/
@[simp]
theorem Expr.length_instructions (kept : Bool) (e : Expr) :
    (e.instructions kept).length = (e.wholePlan kept).size + 1 := by
  simp [instructions]

/-- The last instruction of a program accepts, and no other does. -/
theorem Expr.accept_iff (kept : Bool) (e : Expr) {pc : Nat} :
    (e.instructions kept)[pc]? = some .accept ↔ pc = (e.wholePlan kept).size := by
  constructor
  · intro here
    have lt := (List.getElem?_eq_some_iff.mp here).1
    rw [length_instructions] at lt
    rcases Nat.lt_succ_iff_lt_or_eq.mp lt with before | last
    · rw [instructions, List.getElem?_append_left (by simpa using before)] at here
      exact absurd rfl (Plan.confined_of_mem_code (List.mem_of_getElem? here)).goes
    · exact last
  · rintro rfl
    exact (e.instructions_stand kept).2

end PatternGate
