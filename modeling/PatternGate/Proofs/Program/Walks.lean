import Mathlib.Computability.Language
import PatternGate.Proofs.Program.Contents
import PatternGate.Proofs.Program.Flow

/-!
# Walks through a program

A walk follows the edges of the graph of a program, whatever the bytes of a haystack, and keeps the
instructions that it passes. The plain ones among them are its word, and the words of the walks
through the code of a plan form a regular language that has the shape of the plan (`Plan.words`):
sequences are products, loops are stars. So a law about all walks through a program, of any length,
is one about a language, and loops are dealt with by the laws of the star.

That a walk from the first instruction to the last one spells a word of the language is
`Expr.word_mem_words`. As for runs over a haystack, a walk is cut where it leaves a part for good.
-/

namespace PatternGate

open scoped Computability

/-- A walk through a program from one place to another, with the instructions that it passes. The
instruction where it ends is not passed. -/
inductive Walk (code : List Instruction) : Nat → List Instruction → Nat → Prop
  | stay (pc : Nat) : Walk code pc [] pc
  | step {pc next stop : Nat} {i : Instruction} {passed : List Instruction}
      (here : code[pc]? = some i) (goes : next ∈ i.successors pc)
      (rest : Walk code next passed stop) : Walk code pc (i :: passed) stop

namespace Walk

variable {code : List Instruction} {pc mid stop : Nat} {passed passed' : List Instruction}

/-- Walks that meet are one walk. -/
theorem trans (first : Walk code pc passed mid) (second : Walk code mid passed' stop) :
    Walk code pc (passed ++ passed') stop := by
  induction first with
  | stay pc => exact second
  | step here goes _ ih => exact .step here goes (ih second)

/-- A walk that ends elsewhere passes the instruction where it starts. -/
theorem first_step {i : Instruction} (here : code[pc]? = some i) (walk : Walk code pc passed stop)
    (moves : stop ≠ pc) :
    ∃ next rest, next ∈ i.successors pc ∧ passed = i :: rest ∧ Walk code next rest stop := by
  cases walk with
  | stay => exact absurd rfl moves
  | step found goes rest =>
    obtain rfl := Option.some.inj (here.symm.trans found)
    exact ⟨_, _, goes, rfl, rest⟩

/-- From an accepting instruction a walk goes nowhere. -/
theorem eq_nil_of_accept (accept : code[pc]? = some .accept) (walk : Walk code pc passed stop) :
    passed = [] := by
  cases walk with
  | stay => rfl
  | step here goes _ =>
    rw [accept] at here
    cases here
    cases goes

end Walk

/-- Along a path one can walk. -/
theorem exists_walk {code : List Instruction} {pc stop : Nat} (path : Path code pc stop) :
    ∃ passed, Walk code pc passed stop := by
  induction path using Relation.ReflTransGen.head_induction_on with
  | refl => exact ⟨[], .stay stop⟩
  | head edge _ ih =>
    obtain ⟨i, here, goes⟩ := edge
    obtain ⟨passed, rest⟩ := ih
    exact ⟨i :: passed, .step here goes rest⟩

namespace Instruction

/-- The instruction as a plain one, if the next instruction is the one that follows it. -/
def plain? : Instruction → Option Plain
  | consume b => some (.consume b)
  | consumeAny => some .consumeAny
  | consumeClass set => some (.consumeClass set)
  | writeRegister r => some (.writeRegister r)
  | assertion l => some (.assertion l)
  | fork2 _ _ | forkN _ | jump _ | accept => none

/-- An instruction counts as plain exactly if it is made from a plain one. -/
theorem plain?_eq_some_iff {i : Instruction} {p : Plain} :
    i.plain? = some p ↔ i = p.instruction := by
  cases i <;> cases p <;> simp [plain?, Plain.instruction]

/-- What is made from a plain instruction is plain. -/
@[simp]
theorem plain?_instruction (p : Plain) : p.instruction.plain? = some p := plain?_eq_some_iff.mpr rfl

/-- A fork is not plain: it decides only where to go on. -/
@[simp]
theorem plain?_fork (greedy : Bool) (enter leave : Nat) :
    (Emitter.fork greedy enter leave).plain? = none := by
  cases greedy <;> rfl

/-- A plain instruction goes on to the next one. -/
theorem successors_plain (p : Plain) (pc : Nat) : p.instruction.successors pc = [pc + 1] := by
  cases p <;> rfl

/-- A fork goes on to either of its targets, whichever it prefers. -/
theorem mem_successors_fork_iff {greedy : Bool} {enter leave pc next : Nat} :
    next ∈ (Emitter.fork greedy enter leave).successors pc ↔ next = enter ∨ next = leave := by
  cases greedy with
  | false => simp [Emitter.fork, successors, or_comm]
  | true => simp [Emitter.fork, successors]

end Instruction

/-- The plain instructions among those that a walk passes. -/
def word (passed : List Instruction) : List Plain := passed.filterMap Instruction.plain?

@[simp]
theorem word_nil : word [] = [] := rfl

/-- The word of two walks is the word of one after the other. -/
theorem word_append (passed passed' : List Instruction) :
    word (passed ++ passed') = word passed ++ word passed' := List.filterMap_append

/-- A plain instruction is a letter of the word. -/
theorem word_cons_plain (p : Plain) (passed : List Instruction) :
    word (p.instruction :: passed) = p :: word passed := by
  simp [word]

/-- Passing a fork adds no letter to the word. -/
theorem word_cons_fork (greedy : Bool) (enter leave : Nat) (passed : List Instruction) :
    word (Emitter.fork greedy enter leave :: passed) = word passed := by
  simp [word]

theorem word_cons_forkN (targets : List Nat) (passed : List Instruction) :
    word (.forkN targets :: passed) = word passed := rfl

theorem word_cons_jump (target : Nat) (passed : List Instruction) :
    word (.jump target :: passed) = word passed := rfl

/-- The letters of a word are the plain instructions that were passed. -/
theorem mem_word_iff {p : Plain} {passed : List Instruction} :
    p ∈ word passed ↔ p.instruction ∈ passed := by
  simp [word, Instruction.plain?_eq_some_iff]

namespace Plan

mutual

/-- The words that walks through the code of a plan spell. -/
def words : Plan → Language Plain
  | nothing => 1
  | plain i => {[i]}
  | seq first second => first.words * second.words
  | option _ body => 1 + body.words
  | star _ body => body.words∗
  | plus _ body => body.words * body.words∗
  | choice branches => wordsAny branches

/-- The words of any of the plans. -/
def wordsAny : List Plan → Language Plain
  | [] => 0
  | b :: bs => b.words + wordsAny bs

end

/-- A choice has the words of all its branches. -/
theorem mem_wordsAny_iff {w : List Plain} {bs : List Plan} :
    w ∈ wordsAny bs ↔ ∃ b ∈ bs, w ∈ b.words := by
  induction bs with
  | nil => simp [wordsAny]
  | cons b bs ih => rw [wordsAny, Language.mem_add, ih, List.exists_mem_cons_iff]

/-- A word of a capture that is kept is one of its body between two notes. -/
theorem exists_of_mem_words_capture {index : Nat} {p : Plan} {w : List Plain}
    (spelled : w ∈ (p.capture true index).words) :
    ∃ u ∈ p.words, w = .writeRegister (Emitter.register (2 * index)) ::
      (u ++ [.writeRegister (Emitter.register (2 * index + 1))]) := by
  simp only [capture, if_true, words] at spelled
  obtain ⟨_, rfl, v, inner, rfl⟩ := Language.mem_mul.mp spelled
  obtain ⟨u, inside, _, rfl, rfl⟩ := Language.mem_mul.mp inner
  exact ⟨u, inside, rfl⟩

/-- One more turn before turns of a loop gives turns of the loop again. -/
theorem append_mem_kstar {l : Language Plain} {u v : List Plain} (head : u ∈ l) (tail : v ∈ l∗) :
    u ++ v ∈ l∗ := by
  have le : l * l∗ ≤ l∗ := mul_kstar_le_kstar
  exact le (Language.append_mem_mul head tail)

/-- A walk that enters the code of a plan and ends outside it leaves the code at its end, and spells
a word of the plan up to there. -/
def Leaves (code : List Instruction) (p : Plan) : Prop :=
  ∀ {pc stop : Nat} {passed : List Instruction}, p.StandsIn code pc → Walk code pc passed stop →
    stop < pc ∨ pc + p.size ≤ stop →
      ∃ inner rest, passed = inner ++ rest ∧ word inner ∈ p.words ∧
        Walk code (pc + p.size) rest stop

namespace Leaves

variable {code : List Instruction} {p q : Plan}

/-- Code of no instructions is left where it is entered. -/
theorem nothing : Leaves code .nothing :=
  fun _ walk _ => ⟨[], _, rfl, Language.nil_mem_one, walk⟩

/-- A plain instruction is left behind it, with one letter. -/
theorem plain (i : Plain) : Leaves code (.plain i) := by
  intro pc stop passed stands walk outside
  rw [size] at outside ⊢
  obtain ⟨next, rest, goes, rfl, more⟩ := walk.first_step (StandsIn.plain_iff.mp stands) (by omega)
  rw [Instruction.successors_plain, List.mem_singleton] at goes
  subst goes
  refine ⟨[i.instruction], rest, rfl, ?_, more⟩
  rw [word_cons_plain, words]
  rfl

/-- A sequence is left after its second part, with a word of each part. -/
theorem seq (first : Leaves code p) (second : Leaves code q) : Leaves code (p.seq q) := by
  intro pc stop passed stands walk outside
  obtain ⟨before, after⟩ := StandsIn.seq_iff.mp stands
  rw [size] at outside ⊢
  obtain ⟨inner, rest, rfl, head, more⟩ := first before walk (by omega)
  obtain ⟨inner', rest', rfl, tail, done⟩ := second after more (by omega)
  refine ⟨inner ++ inner', rest', by rw [List.append_assoc], ?_, by rwa [← Nat.add_assoc]⟩
  rw [word_append, words]
  exact Language.append_mem_mul head tail

/-- An option is left with a word of its body, or with none. -/
theorem option (greedy : Bool) (body : Leaves code p) : Leaves code (.option greedy p) := by
  intro pc stop passed stands walk outside
  obtain ⟨fork, inside⟩ := StandsIn.option_iff.mp stands
  rw [size] at outside ⊢
  obtain ⟨next, rest, goes, rfl, more⟩ := walk.first_step fork (by omega)
  rcases Instruction.mem_successors_fork_iff.mp goes with rfl | rfl
  · obtain ⟨inner, rest', rfl, spelled, done⟩ := body inside more (by omega)
    refine ⟨_ :: inner, rest', rfl, ?_, by rwa [Nat.add_comm p.size, ← Nat.add_assoc]⟩
    rw [word_cons_fork, words]
    exact .inr spelled
  · refine ⟨[_], rest, rfl, ?_, more⟩
    rw [word_cons_fork, words]
    exact .inl rfl

/-- A loop is left with a word of its body for every turn. The induction is on the length of the
walk, since each turn is a shorter walk. -/
theorem star (greedy : Bool) (body : Leaves code p) : Leaves code (p.star greedy) := by
  intro pc stop passed stands walk outside
  obtain ⟨fork, inside, back⟩ := StandsIn.star_iff.mp stands
  rw [size] at outside ⊢
  -- Each turn of the loop takes instructions off the walk, so the turns come to an end.
  induction length : passed.length using Nat.strongRecOn generalizing passed with
  | ind n turn =>
    obtain ⟨next, rest, goes, rfl, more⟩ := walk.first_step fork (by omega)
    rcases Instruction.mem_successors_fork_iff.mp goes with rfl | rfl
    · obtain ⟨inner, rest', rfl, spelled, more'⟩ := body inside more (by omega)
      obtain ⟨next, rest, goes, rfl, again⟩ := more'.first_step back (by omega)
      obtain rfl := (List.mem_singleton.mp goes).symm
      obtain ⟨inner', rest', rfl, loops, done⟩ := turn rest.length
        (by rw [← length]; simp; omega) again rfl
      refine ⟨Emitter.fork greedy (pc + 1) (pc + (p.size + 2)) :: (inner ++ .jump pc :: inner'),
        rest', by simp, ?_, done⟩
      rw [word_cons_fork, word_append, word_cons_jump, words]
      exact append_mem_kstar spelled loops
    · refine ⟨[_], rest, rfl, ?_, more⟩
      rw [word_cons_fork, words]
      exact Language.nil_mem_kstar _

/-- A loop that is taken at least once is left with one word of its body or more. -/
theorem plus (greedy : Bool) (body : Leaves code p) : Leaves code (p.plus greedy) := by
  intro pc stop passed stands walk outside
  obtain ⟨inside, fork⟩ := StandsIn.plus_iff.mp stands
  rw [size] at outside ⊢
  induction length : passed.length using Nat.strongRecOn generalizing passed with
  | ind n turn =>
    obtain ⟨inner, rest, rfl, spelled, more⟩ := body inside walk (by omega)
    obtain ⟨next, rest', goes, rfl, more'⟩ := more.first_step fork (by omega)
    rcases Instruction.mem_successors_fork_iff.mp goes with again | rfl
    · obtain rfl := again.symm
      obtain ⟨inner', rest, rfl, loops, done⟩ := turn rest'.length
        (by rw [← length]; simp; omega) more' rfl
      refine ⟨inner ++ Emitter.fork greedy pc (pc + (p.size + 1)) :: inner', rest, by simp, ?_,
        done⟩
      rw [word_append, word_cons_fork, words]
      rw [words] at loops
      obtain ⟨u, head, v, tail, eq⟩ := Language.mem_mul.mp loops
      exact Language.append_mem_mul spelled (eq ▸ append_mem_kstar head tail)
    · refine ⟨inner ++ [Emitter.fork greedy pc (pc + (p.size + 1))], rest', by simp, ?_, more'⟩
      rw [word_append, word_cons_fork, words]
      exact Language.append_mem_mul spelled (Language.nil_mem_kstar _)

/-- A choice is left with a word of one of its branches, by the jump at its end. -/
theorem choice {branches : List Plan} (each : ∀ b ∈ branches, Leaves code b) :
    Leaves code (.choice branches) := by
  intro pc stop passed stands walk outside
  obtain ⟨fork, laid⟩ := stands.choice
  rw [size] at outside ⊢
  obtain ⟨start, rest, goes, rfl, more⟩ := walk.first_step fork (by omega)
  obtain ⟨b, found⟩ := mem_starts_iff.mp goes
  have branch := laid start b found
  have bounds := laid_bounds found
  have mem := mem_of_mem_laid found
  obtain ⟨inner, rest', rfl, spelled, more'⟩ := each b mem branch.stands more (by omega)
  have chosen : word inner ∈ (Plan.choice branches).words := by
    rw [words, mem_wordsAny_iff]
    exact ⟨b, mem, spelled⟩
  by_cases last : start + b.size = pc + (sizeBranches branches + 1)
  · exact ⟨_ :: inner, rest', rfl, chosen, last ▸ more'⟩
  · have jump := branch.leaves.resolve_left last
    obtain ⟨next, rest, goes, rfl, done⟩ := more'.first_step jump (by omega)
    obtain rfl := List.mem_singleton.mp goes
    refine ⟨.forkN (starts (pc + 1) branches) ::
      (inner ++ [.jump (pc + (sizeBranches branches + 1))]), rest, by simp, ?_, done⟩
    rw [word_cons_forkN, word_append, word_cons_jump, word_nil, List.append_nil]
    exact chosen

end Leaves

/-- Every plan is left at its end with one of its words. The induction is on the plan. -/
theorem leaves (code : List Instruction) (p : Plan) : p.Leaves code := by
  induction p with
  | nothing => exact Leaves.nothing
  | plain i => exact Leaves.plain i
  | seq first second ihf ihs => exact ihf.seq ihs
  | option greedy body ih => exact ih.option greedy
  | star greedy body ih => exact ih.star greedy
  | plus greedy body ih => exact ih.plus greedy
  | choice branches ih => exact Leaves.choice ih

/-- A word consists of plain instructions of the plan. -/
theorem mem_plains_of_mem_words {p : Plan} {w : List Plain} (spelled : w ∈ p.words) {i : Plain}
    (mem : i ∈ w) : i ∈ p.plains := by
  have turns {body : Plan} (each : ∀ {w : List Plain}, w ∈ body.words → i ∈ w → i ∈ body.plains)
      {w : List Plain} (spelled : w ∈ body.words∗) (mem : i ∈ w) : i ∈ body.plains := by
    obtain ⟨parts, rfl, inside⟩ := Language.mem_kstar.mp spelled
    obtain ⟨part, among, mem⟩ := List.mem_flatten.mp mem
    exact each (inside part among) mem
  induction p generalizing w with
  | nothing =>
    rw [words, Language.mem_one] at spelled
    subst spelled
    cases mem
  | plain j =>
    rw [words] at spelled
    obtain rfl : w = [j] := spelled
    exact mem
  | seq first second ihf ihs =>
    rw [words] at spelled
    obtain ⟨u, head, v, tail, rfl⟩ := Language.mem_mul.mp spelled
    rw [plains, List.mem_append]
    exact (List.mem_append.mp mem).imp (ihf head) (ihs tail)
  | option greedy body ih =>
    rw [words] at spelled
    rcases spelled with none | spelled
    · obtain rfl : w = [] := none
      cases mem
    · exact ih spelled mem
  | star greedy body ih =>
    rw [words] at spelled
    rw [plains]
    exact turns ih spelled mem
  | plus greedy body ih =>
    rw [words] at spelled
    obtain ⟨u, head, v, tail, rfl⟩ := Language.mem_mul.mp spelled
    rw [plains]
    exact (List.mem_append.mp mem).elim (ih head) (turns ih tail)
  | choice branches ih =>
    rw [words, mem_wordsAny_iff] at spelled
    obtain ⟨b, among, spelled⟩ := spelled
    exact mem_plainsAll_iff.mpr ⟨b, among, ih b among spelled mem⟩

end Plan

namespace Expr

/-- The words of an alternation are those of its branches. -/
theorem mem_words_alternation_iff {kept : Bool} {branches : List Expr} {w : List Plain} :
    w ∈ (plan kept (.alternation branches)).words ↔ ∃ e ∈ branches, w ∈ (e.plan kept).words := by
  rw [plan, Plan.words, Plan.mem_wordsAny_iff, plans_eq_map]
  simp

/-- A walk from the first instruction of a program to the last one spells a word of its plan. -/
theorem word_mem_words {kept : Bool} {e : Expr} {passed : List Instruction} {stop : Nat}
    (walk : Walk (e.instructions kept) 0 passed stop)
    (accepts : (e.instructions kept)[stop]? = some .accept) :
    word passed ∈ (e.wholePlan kept).words := by
  obtain ⟨stands, accept⟩ := e.instructions_stand kept
  obtain rfl := (e.accept_iff kept).mp accepts
  obtain ⟨inner, rest, rfl, spelled, more⟩ :=
    Plan.leaves _ _ stands walk (.inr (Nat.le_of_eq (Nat.zero_add _)))
  rw [Nat.zero_add] at more
  rwa [more.eq_nil_of_accept accept, List.append_nil]

end Expr

end PatternGate
