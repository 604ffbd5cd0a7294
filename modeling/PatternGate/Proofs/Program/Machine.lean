import PatternGate.Program.Lowering
import PatternGate.Proofs.Expr.Matching

/-!
# Running a program

The engine follows every thread of a program over the bytes of a haystack: a thread stands before an
instruction and at a place, and an instruction says where the threads after it stand. This is a
relation and not a function, since a fork goes to any of its targets. A program accepts at a place
if some run from its first instruction and the first place ends there before an accepting
instruction.

The laws here are about single instructions: where the threads after each kind of instruction stand.
-/

namespace PatternGate

/-- Where a run stands: before an instruction, and at a place of the haystack. -/
structure Thread where
  pc : Nat
  place : Nat

/-- One step of a program. -/
inductive Step (code : List Instruction) (hay : Haystack) : Thread → Thread → Prop where
  | consume {pc i : Nat} {b : UInt8} (here : code[pc]? = some (.consume b))
      (byte : hay.bytes[i]? = some b) : Step code hay ⟨pc, i⟩ ⟨pc + 1, i + 1⟩
  | consumeAny {pc i : Nat} {b : UInt8} (here : code[pc]? = some .consumeAny)
      (byte : hay.bytes[i]? = some b) : Step code hay ⟨pc, i⟩ ⟨pc + 1, i + 1⟩
  | consumeClass {pc i : Nat} {b : UInt8} {set : RangeSet}
      (here : code[pc]? = some (.consumeClass set)) (byte : hay.bytes[i]? = some b)
      (member : set.contains b.toNat = true) : Step code hay ⟨pc, i⟩ ⟨pc + 1, i + 1⟩
  | fork2First {pc i first second : Nat} (here : code[pc]? = some (.fork2 first second)) :
      Step code hay ⟨pc, i⟩ ⟨first, i⟩
  | fork2Second {pc i first second : Nat} (here : code[pc]? = some (.fork2 first second)) :
      Step code hay ⟨pc, i⟩ ⟨second, i⟩
  | forkN {pc i target : Nat} {targets : List Nat} (here : code[pc]? = some (.forkN targets))
      (mem : target ∈ targets) : Step code hay ⟨pc, i⟩ ⟨target, i⟩
  | jump {pc i target : Nat} (here : code[pc]? = some (.jump target)) :
      Step code hay ⟨pc, i⟩ ⟨target, i⟩
  | writeRegister {pc i register : Nat} (here : code[pc]? = some (.writeRegister register)) :
      Step code hay ⟨pc, i⟩ ⟨pc + 1, i⟩
  | assertion {pc i : Nat} {l : Look} (here : code[pc]? = some (.assertion l))
      (holds : hay.holds l i) : Step code hay ⟨pc, i⟩ ⟨pc + 1, i⟩

/-- A run of so many steps. -/
inductive Runs (code : List Instruction) (hay : Haystack) : Nat → Thread → Thread → Prop where
  | done {t : Thread} : Runs code hay 0 t t
  | step {n : Nat} {t u v : Thread} (first : Step code hay t u) (rest : Runs code hay n u v) :
      Runs code hay (n + 1) t v

/-- A program accepts at a place: a run over the haystack ends there before an accepting
instruction. -/
def Accepts (code : List Instruction) (hay : Haystack) (stop : Nat) : Prop :=
  ∃ n pc, Runs code hay n ⟨0, 0⟩ ⟨pc, stop⟩ ∧ code[pc]? = some .accept

namespace Runs

variable {code : List Instruction} {hay : Haystack} {t u v : Thread} {n m : Nat}

theorem trans (first : Runs code hay n t u) (second : Runs code hay m u v) :
    Runs code hay (n + m) t v := by
  induction first with
  | done => rwa [Nat.zero_add]
  | step one _ ih =>
    rw [Nat.succ_add]
    exact .step one (ih second)

/-- A run that ends elsewhere takes a first step. -/
theorem first_step (run : Runs code hay n t v) (moves : v.pc ≠ t.pc) :
    ∃ m u, n = m + 1 ∧ Step code hay t u ∧ Runs code hay m u v := by
  cases run with
  | done => exact absurd rfl moves
  | step first rest => exact ⟨_, _, rfl, first, rest⟩

end Runs

section Steps

variable {code : List Instruction} {hay : Haystack} {pc i : Nat} {t : Thread}

theorem step_fork_iff {greedy : Bool} {enter leave : Nat}
    (here : code[pc]? = some (Emitter.fork greedy enter leave)) :
    Step code hay ⟨pc, i⟩ t ↔ t = ⟨enter, i⟩ ∨ t = ⟨leave, i⟩ := by
  cases greedy with
  | false =>
    constructor
    · intro step
      cases step <;> simp_all [Emitter.fork]
    · rintro (rfl | rfl)
      · exact .fork2Second here
      · exact .fork2First here
  | true =>
    constructor
    · intro step
      cases step <;> simp_all [Emitter.fork]
    · rintro (rfl | rfl)
      · exact .fork2First here
      · exact .fork2Second here

theorem step_forkN_iff {targets : List Nat} (here : code[pc]? = some (.forkN targets)) :
    Step code hay ⟨pc, i⟩ t ↔ ∃ target ∈ targets, t = ⟨target, i⟩ := by
  constructor
  · intro step
    cases step <;> simp_all
  · rintro ⟨target, mem, rfl⟩
    exact .forkN here mem

theorem step_jump_iff {target : Nat} (here : code[pc]? = some (.jump target)) :
    Step code hay ⟨pc, i⟩ t ↔ t = ⟨target, i⟩ := by
  constructor
  · intro step
    cases step <;> simp_all
  · rintro rfl
    exact .jump here

/-- An accepting instruction ends a run. -/
theorem not_step_accept (here : code[pc]? = some .accept) : ¬ Step code hay ⟨pc, i⟩ t := by
  intro step
  cases step <;> simp_all

end Steps

end PatternGate
