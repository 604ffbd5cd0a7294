import PatternGate.Program.Compile
import PatternGate.Proofs.CharSet
import PatternGate.Proofs.Program.Budget
import PatternGate.Proofs.Program.Layout
import PatternGate.Proofs.Program.Machine
import PatternGate.Proofs.Text.Utf8

/-!
# Programs accept what expressions match

A plan reads a stretch of the haystack: from which place to which place its code can lead. The code
of a plan leads from its start to its end exactly over what the plan reads (`Plan.reach` and
`Plan.leave`), loops and loops that consume nothing included. A run through the code is cut where it
leaves a part for good, and the steps that are left count down, which is what a loop needs.

An expression matches what its plan reads (`Expr.reads_plan_iff`), and a program may skip bytes at
the start unless every match starts there anyway. The main statement is
`Settings.accepts_iff_matches`.
-/

namespace PatternGate

namespace Plain

/-- The instruction leads from the place `i` to the place `j`. -/
def Reads (hay : Haystack) : Plain → Nat → Nat → Prop
  | consume b, i, j => hay.bytes[i]? = some b ∧ j = i + 1
  | consumeAny, i, j => (∃ b, hay.bytes[i]? = some b) ∧ j = i + 1
  | consumeClass set, i, j => hay.HasByte set i j
  | writeRegister _, i, j => i = j
  | assertion l, i, j => hay.holds l i ∧ i = j

theorem step_iff {code : List Instruction} {hay : Haystack} {i : Plain} {pc place : Nat}
    {t : Thread} (here : code[pc]? = some i.instruction) :
    Step code hay ⟨pc, place⟩ t ↔ ∃ j, i.Reads hay place j ∧ t = ⟨pc + 1, j⟩ := by
  cases i with
  | consume b =>
    constructor
    · intro step
      cases step <;> simp_all [instruction, Reads]
    · intro reads
      obtain ⟨j, ⟨byte, rfl⟩, rfl⟩ := reads
      exact .consume here byte
  | consumeAny =>
    constructor
    · intro step
      cases step <;> simp_all [instruction, Reads]
    · intro reads
      obtain ⟨j, ⟨⟨b, byte⟩, rfl⟩, rfl⟩ := reads
      exact .consumeAny here byte
  | consumeClass set =>
    constructor
    · intro step
      cases step <;> simp_all [instruction, Reads, Haystack.HasByte]
    · intro reads
      obtain ⟨j, ⟨⟨b, byte, member⟩, rfl⟩, rfl⟩ := reads
      exact .consumeClass here byte member
  | writeRegister r =>
    constructor
    · intro step
      cases step <;> simp_all [instruction, Reads]
    · intro reads
      obtain ⟨j, rfl, rfl⟩ := reads
      exact .writeRegister here
  | assertion l =>
    constructor
    · intro step
      cases step <;> simp_all [instruction, Reads]
    · intro reads
      obtain ⟨j, ⟨holds, rfl⟩, rfl⟩ := reads
      exact .assertion here holds

end Plain

namespace Plan

mutual

/-- The code of the plan can lead from the place `i` to the place `j`. -/
def Reads (hay : Haystack) : Plan → Nat → Nat → Prop
  | nothing, i, j => i = j
  | plain p, i, j => p.Reads hay i j
  | seq first second, i, j => ∃ k, Reads hay first i k ∧ Reads hay second k j
  | option _ body, i, j => i = j ∨ Reads hay body i j
  | star _ body, i, j => ∃ n, Repeats (Reads hay body) n i j
  | plus _ body, i, j => ∃ n, Repeats (Reads hay body) (n + 1) i j
  | choice branches, i, j => ReadsAny hay branches i j

/-- One of the plans can. -/
def ReadsAny (hay : Haystack) : List Plan → Nat → Nat → Prop
  | [], _, _ => False
  | b :: bs, i, j => Reads hay b i j ∨ ReadsAny hay bs i j

end

theorem readsAny_iff {hay : Haystack} {bs : List Plan} {i j : Nat} :
    ReadsAny hay bs i j ↔ ∃ b ∈ bs, Reads hay b i j := by
  induction bs with
  | nil => simp [ReadsAny]
  | cons b bs ih => simp [ReadsAny, ih]

section Runs

variable {code : List Instruction} {hay : Haystack}

theorem reach_repeats {R : Nat → Nat → Prop} {pc : Nat}
    (once : ∀ i j, R i j → ∃ n, Runs code hay n ⟨pc, i⟩ ⟨pc, j⟩) {m i j : Nat}
    (reps : Repeats R m i j) : ∃ n, Runs code hay n ⟨pc, i⟩ ⟨pc, j⟩ := by
  induction m generalizing i with
  | zero =>
    rw [Repeats] at reps
    exact ⟨0, reps ▸ .done⟩
  | succ m ih =>
    obtain ⟨k, first, rest⟩ := reps
    obtain ⟨n, run⟩ := once i k first
    obtain ⟨n', run'⟩ := ih rest
    exact ⟨n + n', run.trans run'⟩

/-- The code of a plan leads over what the plan reads. -/
theorem reach (p : Plan) {pc i j : Nat} (stands : p.StandsIn code pc) (reads : Reads hay p i j) :
    ∃ n, Runs code hay n ⟨pc, i⟩ ⟨pc + p.size, j⟩ := by
  induction p generalizing pc i j with
  | nothing =>
    rw [Reads] at reads
    exact ⟨0, reads ▸ .done⟩
  | plain p =>
    rw [Reads] at reads
    rw [StandsIn.plain_iff] at stands
    exact ⟨1, .step ((Plain.step_iff stands).mpr ⟨j, reads, rfl⟩) .done⟩
  | seq first second ihf ihs =>
    rw [Reads] at reads
    rw [StandsIn.seq_iff] at stands
    obtain ⟨k, before, after⟩ := reads
    obtain ⟨n, run⟩ := ihf stands.1 before
    obtain ⟨m, run'⟩ := ihs stands.2 after
    rw [size, ← Nat.add_assoc]
    exact ⟨n + m, run.trans run'⟩
  | option greedy body ih =>
    rw [Reads] at reads
    rw [StandsIn.option_iff] at stands
    obtain ⟨fork, inner⟩ := stands
    rcases reads with rfl | reads
    · exact ⟨1, .step ((step_fork_iff fork).mpr (.inr rfl)) .done⟩
    · obtain ⟨n, run⟩ := ih inner reads
      rw [size, Nat.add_comm body.size, ← Nat.add_assoc]
      exact ⟨n + 1, .step ((step_fork_iff fork).mpr (.inl rfl)) run⟩
  | star greedy body ih =>
    rw [Reads] at reads
    rw [StandsIn.star_iff] at stands
    obtain ⟨fork, inner, jump⟩ := stands
    obtain ⟨m, reps⟩ := reads
    have once : ∀ i j, Reads hay body i j → ∃ n, Runs code hay n ⟨pc, i⟩ ⟨pc, j⟩ := by
      intro i j reads
      obtain ⟨n, run⟩ := ih inner reads
      exact ⟨_, .step ((step_fork_iff fork).mpr (.inl rfl))
        (run.trans (.step ((step_jump_iff jump).mpr rfl) .done))⟩
    obtain ⟨n, run⟩ := reach_repeats once reps
    exact ⟨_, run.trans (.step ((step_fork_iff fork).mpr (.inr rfl)) .done)⟩
  | plus greedy body ih =>
    rw [Reads] at reads
    rw [StandsIn.plus_iff] at stands
    obtain ⟨inner, fork⟩ := stands
    obtain ⟨m, reps⟩ := reads
    -- All copies but the last are followed by a step back to the start.
    rw [Repeats.add_iff] at reps
    obtain ⟨k, before, l, last, eq⟩ := reps
    have once : ∀ i j, Reads hay body i j → ∃ n, Runs code hay n ⟨pc, i⟩ ⟨pc, j⟩ := by
      intro i j reads
      obtain ⟨n, run⟩ := ih inner reads
      exact ⟨_, run.trans (.step ((step_fork_iff fork).mpr (.inl rfl)) .done)⟩
    obtain ⟨n, run⟩ := reach_repeats once before
    obtain ⟨n', run'⟩ := ih inner last
    rw [Repeats] at eq
    subst eq
    exact ⟨_, run.trans (run'.trans (.step ((step_fork_iff fork).mpr (.inr rfl)) .done))⟩
  | choice branches ih =>
    rw [Reads, readsAny_iff] at reads
    obtain ⟨fork, laid⟩ := stands.choice
    obtain ⟨b, mem, reads⟩ := reads
    obtain ⟨start, found⟩ := exists_mem_laid mem (pc + 1)
    have branch := laid start b found
    obtain ⟨n, run⟩ := ih b mem branch.stands reads
    have enter : Step code hay ⟨pc, i⟩ ⟨start, i⟩ :=
      (step_forkN_iff fork).mpr ⟨start, mem_starts_iff.mpr ⟨b, found⟩, rfl⟩
    rcases branch.leaves with last | jump
    · rw [last] at run
      exact ⟨_, .step enter run⟩
    · exact ⟨_, .step enter (run.trans (.step ((step_jump_iff jump).mpr rfl) .done))⟩

/-- A run that enters the code of a plan and ends outside it leaves the code at its end, over what
the plan reads, and no longer than it was. -/
theorem leave (p : Plan) {pc n i : Nat} {v : Thread} (stands : p.StandsIn code pc)
    (run : Runs code hay n ⟨pc, i⟩ v) (outside : v.pc < pc ∨ pc + p.size ≤ v.pc) :
    ∃ j m, m ≤ n ∧ Reads hay p i j ∧ Runs code hay m ⟨pc + p.size, j⟩ v := by
  induction p generalizing pc n i with
  | nothing =>
    refine ⟨i, n, Nat.le_refl n, ?_, run⟩
    rw [Reads]
  | plain p =>
    rw [StandsIn.plain_iff] at stands
    rw [size] at outside
    obtain ⟨m, u, rfl, first, rest⟩ := run.first_step (by simp only; omega)
    obtain ⟨j, reads, rfl⟩ := (Plain.step_iff stands).mp first
    refine ⟨j, m, Nat.le_succ m, ?_, rest⟩
    rwa [Reads]
  | seq first second ihf ihs =>
    rw [StandsIn.seq_iff] at stands
    rw [size] at outside
    obtain ⟨k, m, le, before, rest⟩ := ihf stands.1 run (by omega)
    obtain ⟨j, m', le', after, rest'⟩ := ihs stands.2 rest (by omega)
    refine ⟨j, m', Nat.le_trans le' le, ?_, ?_⟩
    · rw [Reads]
      exact ⟨k, before, after⟩
    · rwa [size, ← Nat.add_assoc]
  | option greedy body ih =>
    rw [StandsIn.option_iff] at stands
    rw [size] at outside ⊢
    obtain ⟨fork, inner⟩ := stands
    obtain ⟨m, u, rfl, first, rest⟩ := run.first_step (by simp only; omega)
    rcases (step_fork_iff fork).mp first with rfl | rfl
    · obtain ⟨j, m', le, reads, rest'⟩ := ih inner rest (by omega)
      refine ⟨j, m', Nat.le_succ_of_le le, ?_, ?_⟩
      · rw [Reads]
        exact .inr reads
      · rwa [Nat.add_comm body.size, ← Nat.add_assoc]
    · refine ⟨i, m, Nat.le_succ m, ?_, rest⟩
      rw [Reads]
      exact .inl rfl
  | star greedy body ih =>
    rw [StandsIn.star_iff] at stands
    rw [size] at outside ⊢
    obtain ⟨fork, inner, jump⟩ := stands
    -- The loop ends because each turn takes steps off the run, whether or not it reads anything.
    induction n using Nat.strongRecOn generalizing i with
    | ind n turn =>
      obtain ⟨m, u, rfl, first, rest⟩ := run.first_step (by simp only; omega)
      rcases (step_fork_iff fork).mp first with rfl | rfl
      · obtain ⟨k, m', le, reads, rest'⟩ := ih inner rest (by omega)
        obtain ⟨m'', u, rfl, back, again⟩ := rest'.first_step (by simp only; omega)
        obtain rfl := (step_jump_iff jump).mp back
        obtain ⟨j, l, le', loops, done⟩ := turn m'' (by omega) again
        refine ⟨j, l, by omega, ?_, done⟩
        rw [Reads] at loops ⊢
        obtain ⟨c, reps⟩ := loops
        exact ⟨c + 1, k, reads, reps⟩
      · refine ⟨i, m, Nat.le_succ m, ?_, rest⟩
        rw [Reads]
        exact ⟨0, rfl⟩
  | plus greedy body ih =>
    rw [StandsIn.plus_iff] at stands
    rw [size] at outside ⊢
    obtain ⟨inner, fork⟩ := stands
    induction n using Nat.strongRecOn generalizing i with
    | ind n turn =>
      obtain ⟨k, m, le, reads, rest⟩ := ih inner run (by omega)
      obtain ⟨m', u, rfl, first, rest'⟩ := rest.first_step (by simp only; omega)
      rcases (step_fork_iff fork).mp first with rfl | rfl
      · obtain ⟨j, l, le', loops, done⟩ := turn m' (by omega) rest'
        refine ⟨j, l, by omega, ?_, done⟩
        rw [Reads] at loops ⊢
        obtain ⟨c, reps⟩ := loops
        exact ⟨c + 1, k, reads, reps⟩
      · refine ⟨k, m', by omega, ?_, rest'⟩
        rw [Reads]
        exact ⟨0, k, reads, rfl⟩
  | choice branches ih =>
    rw [size] at outside ⊢
    obtain ⟨fork, laid⟩ := stands.choice
    obtain ⟨m, u, rfl, first, rest⟩ := run.first_step (by simp only; omega)
    obtain ⟨start, mem, rfl⟩ := (step_forkN_iff fork).mp first
    obtain ⟨b, found⟩ := mem_starts_iff.mp mem
    have branch := laid start b found
    have bounds := laid_bounds found
    obtain ⟨j, m', le, reads, rest'⟩ :=
      ih b (mem_of_mem_laid found) branch.stands rest (by omega)
    have chosen : Reads hay (choice branches) i j := by
      rw [Reads, readsAny_iff]
      exact ⟨b, mem_of_mem_laid found, reads⟩
    by_cases last : start + b.size = pc + (sizeBranches branches + 1)
    · exact ⟨j, m', Nat.le_succ_of_le le, chosen, last ▸ rest'⟩
    · obtain jump := branch.leaves.resolve_left last
      obtain ⟨m'', u, rfl, leaves, done⟩ := rest'.first_step (by simp only; omega)
      obtain rfl := (step_jump_iff jump).mp leaves
      exact ⟨j, m'', by omega, chosen, done⟩

end Runs

variable {hay : Haystack}

theorem reads_copies (p : Plan) {n i j : Nat} :
    Reads hay (p.copies n) i j ↔ Repeats (Reads hay p) n i j := by
  induction n generalizing i with
  | zero => rw [copies, Reads, Repeats]
  | succ n ih => simp only [copies, Reads, Repeats, ih]

theorem reads_options (greedy : Bool) (p : Plan) {n i j : Nat} :
    Reads hay (p.options greedy n) i j ↔ ∃ m ≤ n, Repeats (Reads hay p) m i j := by
  induction n generalizing i with
  | zero => simp [options, Reads, Repeats]
  | succ n ih =>
    simp only [options, Reads, ih]
    constructor
    · rintro (rfl | ⟨k, first, m, le, rest⟩)
      · exact ⟨0, Nat.zero_le _, rfl⟩
      · exact ⟨m + 1, Nat.succ_le_succ le, k, first, rest⟩
    · intro reps
      obtain ⟨m, le, reps⟩ := reps
      cases m with
      | zero => exact .inl reps
      | succ m =>
        obtain ⟨k, first, rest⟩ := reps
        exact .inr ⟨k, first, m, Nat.le_of_succ_le_succ le, rest⟩

/-- A counted repetition reads its body as often as the bounds allow. -/
theorem reads_repetition {min : Nat} {max : Option Nat} (bounds : ∀ m ∈ max, min ≤ m)
    (greedy : Bool) (p : Plan) {i j : Nat} :
    Reads hay (p.repetition min max greedy) i j ↔
      ∃ n, min ≤ n ∧ (∀ m ∈ max, n ≤ m) ∧ Repeats (Reads hay p) n i j := by
  rw [repetition.eq_def]
  cases max with
  | some max =>
    have le : min ≤ max := bounds max rfl
    simp only [Reads, reads_copies, reads_options]
    constructor
    · intro parts
      obtain ⟨k, before, m, upper, after⟩ := parts
      refine ⟨min + m, by omega, ?_, Repeats.add_iff.mpr ⟨k, before, after⟩⟩
      rintro _ ⟨⟩
      omega
    · intro reps
      obtain ⟨n, lower, upper, reps⟩ := reps
      have upper : n ≤ max := upper max rfl
      obtain ⟨m, rfl⟩ := Nat.exists_eq_add_of_le lower
      obtain ⟨k, before, after⟩ := Repeats.add_iff.mp reps
      exact ⟨k, before, m, by omega, after⟩
  | none =>
    cases min with
    | zero => simp [Reads]
    | succ min =>
      simp only [Reads, reads_copies]
      constructor
      · intro parts
        obtain ⟨k, before, m, after⟩ := parts
        exact ⟨min + (m + 1), by omega, by simp, Repeats.add_iff.mpr ⟨k, before, after⟩⟩
      · intro reps
        obtain ⟨n, lower, -, reps⟩ := reps
        obtain ⟨m, rfl⟩ : ∃ m, n = min + (m + 1) := ⟨n - min - 1, by omega⟩
        obtain ⟨k, before, after⟩ := Repeats.add_iff.mp reps
        exact ⟨k, before, m, after⟩

theorem reads_capture (kept : Bool) (index : Nat) (p : Plan) {i j : Nat} :
    Reads hay (p.capture kept index) i j ↔ Reads hay p i j := by
  cases kept <;> simp [capture, Reads, Plain.Reads]

theorem reads_ofChar (c : Char) {i j : Nat} :
    (Plain.ofChar c).Reads hay i j ↔
      (∃ b, hay.bytes[i]? = some b ∧ b.toNat = c.toNat) ∧ j = i + 1 := by
  unfold Plain.ofChar Latin1.byte?
  by_cases byte : c.toNat ≤ 0xFF
  · have value : (UInt8.ofNat c.toNat).toNat = c.toNat := by
      rw [UInt8.toNat_ofNat']
      omega
    simp only [byte, if_true, Plain.Reads, and_congr_left_iff]
    rintro -
    constructor
    · exact fun found => ⟨_, found, value⟩
    · intro read
      obtain ⟨b, found, same⟩ := read
      rw [found, ← UInt8.toNat_inj.mp (value.trans same.symm)]
  · simp only [byte, if_false, Plain.Reads, Haystack.HasByte, RangeSet.contains_nil]
    -- A byte is never as large as the code point of such a character.
    have none : ∀ b : UInt8, b.toNat ≠ c.toNat := fun b => by
      have := b.toNat_lt
      omega
    simp [none]

theorem reads_ofChars (cs : List Char) {i j : Nat} :
    Reads hay (ofChars cs) i j ↔ hay.Spells cs i j := by
  induction cs generalizing i with
  | nil => rw [ofChars, Reads, Haystack.Spells]
  | cons c cs ih =>
    simp only [ofChars, Reads, reads_ofChar, ih, Haystack.Spells]
    constructor
    · intro parts
      obtain ⟨k, ⟨byte, rfl⟩, rest⟩ := parts
      exact ⟨byte, rest⟩
    · intro spelled
      obtain ⟨byte, rest⟩ := spelled
      exact ⟨i + 1, ⟨byte, rfl⟩, rest⟩

theorem reads_ofSet (set : RangeSet) {i j : Nat} :
    (Plain.ofSet set).Reads hay i j ↔ hay.HasByte set i j := by
  unfold Plain.ofSet
  split
  next full =>
    subst full
    have member : ∀ b : UInt8, RangeSet.contains [⟨0, 0xFF⟩] b.toNat = true := by
      intro b
      have upper := Nat.le_of_lt_succ b.toNat_lt
      exact RangeSet.contains_iff.mpr ⟨_, List.mem_singleton_self _, Nat.zero_le _, upper⟩
    simp [Plain.Reads, Haystack.HasByte, member]
  next => rfl

/-- The loop at the start of a program skips any number of bytes. -/
theorem repeats_any {n i j : Nat} :
    Repeats (Reads hay (.plain .consumeAny)) n i j ↔
      j = i + n ∧ (n = 0 ∨ j ≤ hay.bytes.length) := by
  induction n generalizing i with
  | zero =>
    rw [Repeats]
    omega
  | succ n ih =>
    simp only [Repeats, ih]
    simp only [Reads, Plain.Reads]
    constructor
    · intro reps
      obtain ⟨k, ⟨⟨b, byte⟩, rfl⟩, rfl, rest⟩ := reps
      have := (List.getElem?_eq_some_iff.mp byte).1
      omega
    · rintro ⟨rfl, le⟩
      have lt : i < hay.bytes.length := by omega
      exact ⟨i + 1, ⟨⟨_, List.getElem?_eq_getElem lt⟩, rfl⟩, by omega, by omega⟩

end Plan

namespace Expr

/-- A literal is the bytes of a text, and a repetition has its bounds in order. -/
def NodeValid : Expr → Prop
  | .literal bs => Utf8.Valid bs
  | .repetition min max _ _ => ∀ m ∈ max, min ≤ m
  | _ => True

instance : DecidablePred NodeValid
  | .literal bs => inferInstanceAs (Decidable (Utf8.Valid bs))
  | .repetition min max _ _ => inferInstanceAs (Decidable (∀ m ∈ max, min ≤ m))
  | .empty | .chars _ | .bytes _ | .look _ | .capture _ _ _ | .concat _ | .alternation _ =>
    inferInstanceAs (Decidable True)

variable {hay : Haystack}

theorem reads_planAll_iff {kept : Bool} {es : List Expr}
    (each : ∀ e ∈ es, ∀ i j, Plan.Reads hay (e.plan kept) i j ↔ Matches hay e i j) {i j : Nat} :
    Plan.Reads hay (planAll kept es) i j ↔ MatchesAll hay es i j := by
  induction es generalizing i with
  | nil => rw [planAll, Plan.Reads, MatchesAll]
  | cons e es ih =>
    simp only [planAll, Plan.Reads, MatchesAll, each e List.mem_cons_self,
      ih fun e mem => each e (List.mem_cons_of_mem _ mem)]

/-- The plan of an expression reads what the expression matches. -/
theorem reads_plan_iff (kept : Bool) (e : Expr) (valid : e.Each NodeValid) {i j : Nat} :
    Plan.Reads hay (e.plan kept) i j ↔ Matches hay e i j := by
  induction e generalizing i j with
  | empty => rw [plan, Plan.Reads, Matches]
  | literal bs =>
    have encoded : Utf8.encode (Utf8.decode bs) = bs := valid.self
    rw [plan, Plan.reads_ofChars, Matches]
    constructor
    · exact fun spells => ⟨_, encoded, spells⟩
    · intro found
      obtain ⟨cs, rfl, spells⟩ := found
      rwa [Utf8.decode_encode]
  | chars set =>
    rw [plan, Plan.Reads, Plan.reads_ofSet, Matches]
    have same : ∀ b : UInt8, (RangeSet.clip set).contains b.toNat = set.contains b.toNat :=
      fun b => RangeSet.contains_clip set (Nat.le_of_lt_succ b.toNat_lt)
    simp only [Haystack.HasByte, same]
  | bytes set => rw [plan, Plan.Reads, Plan.reads_ofSet, Matches]
  | look l => rw [plan, Plan.Reads, Plain.Reads, Matches]
  | repetition min max greedy body ih =>
    obtain ⟨bounds, inner⟩ := Each.repetition_iff.mp valid
    rw [plan, Plan.reads_repetition bounds, Matches]
    simp only [Repeats.congr fun _ _ => ih inner]
  | capture index name body ih =>
    rw [plan, Plan.reads_capture, Matches, ih (Each.capture_iff.mp valid).2]
  | concat items ih =>
    rw [plan, Matches]
    exact reads_planAll_iff fun e mem _ _ => ih e mem ((Each.concat_iff.mp valid).2 e mem)
  | alternation branches ih =>
    have each := (Each.alternation_iff.mp valid).2
    rw [plan, Plan.Reads, Plan.readsAny_iff, Matches, matchesAny_iff, plans_eq_map]
    constructor
    · intro chosen
      obtain ⟨b, planned, reads⟩ := chosen
      obtain ⟨e, mem, rfl⟩ := List.mem_map.mp planned
      exact ⟨e, mem, (ih e mem (each e mem)).mp reads⟩
    · intro chosen
      obtain ⟨e, mem, found⟩ := chosen
      exact ⟨_, List.mem_map_of_mem mem, (ih e mem (each e mem)).mpr found⟩

/-- A program accepts where its plan, from the first place on, can lead. -/
theorem accepts_iff_reads (kept : Bool) (e : Expr) {stop : Nat} :
    Accepts (e.instructions kept) hay stop ↔ Plan.Reads hay (e.wholePlan kept) 0 stop := by
  obtain ⟨stands, accept⟩ := e.instructions_stand kept
  constructor
  · intro accepts
    obtain ⟨n, pc, run, here⟩ := accepts
    obtain rfl := (e.accept_iff kept).mp here
    obtain ⟨j, m, -, reads, rest⟩ := Plan.leave _ stands run (.inr (by simp))
    rw [Nat.zero_add] at rest
    cases rest with
    | done => exact reads
    | step first _ => exact absurd first (not_step_accept accept)
  · intro reads
    obtain ⟨n, run⟩ := Plan.reach _ stands reads
    rw [Nat.zero_add] at run
    exact ⟨n, _, run, accept⟩

/-- The start of a program leads to every place, unless every match starts at the first one. -/
theorem reads_startPlan_iff (e : Expr) {start : Nat} :
    Plan.Reads hay e.startPlan 0 start ↔
      if e.leadsWith .start then start = 0 else start ≤ hay.bytes.length := by
  unfold startPlan
  split
  · rw [Plan.Reads]
    exact eq_comm
  · rw [Plan.Reads]
    simp only [Plan.repeats_any]
    constructor
    · intro skips
      obtain ⟨n, rfl, le⟩ := skips
      omega
    · exact fun le => ⟨start, by omega, .inr le⟩

/-- A program accepts exactly at the ends of matches, wherever these start. -/
theorem accepts_iff (kept : Bool) (e : Expr) (valid : e.Each NodeValid) {stop : Nat}
    (inside : stop ≤ hay.bytes.length) :
    Accepts (e.instructions kept) hay stop ↔ ∃ start ≤ stop, Matches hay e start stop := by
  rw [accepts_iff_reads, wholePlan, Plan.Reads]
  simp only [reads_plan_iff kept e valid, reads_startPlan_iff]
  constructor
  · intro parts
    obtain ⟨start, -, found⟩ := parts
    exact ⟨start, found.le, found⟩
  · intro found
    obtain ⟨start, le, found⟩ := found
    refine ⟨start, ?_, found⟩
    split
    next leads => exact (hay.holds_start start).mp (found.holds_of_leadsWith leads)
    next => exact Nat.le_trans le inside

end Expr

namespace Settings

/-- The program of an expression accepts at a place of a haystack exactly if the expression matches
up to there, from some place on. -/
theorem accepts_iff_matches (s : Settings) (e : Expr) (valid : e.Each Expr.NodeValid) (p : Program)
    (compiled : s.program e = .ok p) (hay : Haystack) (stop : Nat)
    (inside : stop ≤ hay.bytes.length) :
    Accepts p.code hay stop ↔ ∃ start ≤ stop, e.Matches hay start stop := by
  rw [code_of_program compiled]
  exact e.accepts_iff _ valid inside

/-- The pattern `^(b|)+`, whose loop may consume nothing, accepts at the end of `b`. -/
theorem accepts_iff_matches_plus :
    let e : Expr := .concat [.look .start, .repetition 1 none true
      (.capture 1 none (.alternation [.literal [0x62], .empty]))]
    let text : Haystack := ⟨[0x62], fun _ i => i = 0, fun _ => Iff.rfl⟩
    e.Each Expr.NodeValid ∧ ∃ p, ({} : Settings).program e = .ok p ∧ Accepts p.code text 1 := by
  intro e text
  have valid : e.Each Expr.NodeValid := by decide
  obtain ⟨p, compiled⟩ : ∃ p, ({} : Settings).program e = .ok p :=
    exists_program (by decide +kernel)
  refine ⟨valid, p, compiled, ?_⟩
  refine (accepts_iff_matches {} e valid p compiled text 1 (by decide)).mpr ?_
  have letter : ∃ cs, Utf8.encode cs = [0x62] ∧ text.Spells cs 0 1 :=
    ⟨['b'], by decide, ⟨0x62, rfl, rfl⟩, rfl⟩
  refine ⟨0, by decide, ?_⟩
  simp only [e, Expr.Matches, Expr.MatchesAll, Expr.MatchesAny]
  exact ⟨0, ⟨rfl, rfl⟩, 1, ⟨1, Nat.le_refl 1, by simp, 1, .inl letter, rfl⟩, rfl⟩

end Settings

end PatternGate
