import PatternGate.Proofs.Expr.Nodes
import PatternGate.Text.Utf8

/-!
# What an expression matches

The meaning of an expression over a haystack, as a relation between the place where a match starts
and the place where it ends. The haystack is read byte by byte as Latin-1: a character above
`U+00FF` matches nothing, and captures do not show. What a look means is left open. A haystack comes
with the places where each look holds, and only the start of the text is fixed: it is the first
place.

Two functions on expressions are shown to mean what they say. An expression of greatest length zero
matches only the empty text (`Expr.Matches.eq_of_maxLength`), and one that leads with a look matches
only where the look holds (`Expr.Matches.holds_of_leadsWith`).
-/

namespace PatternGate

/-- The text that a program runs over: its bytes, and the places where a look holds. -/
structure Haystack where
  bytes : List UInt8
  holds : Look → Nat → Prop
  holds_start : ∀ i, holds .start i ↔ i = 0

namespace Haystack

/-- The place `i` has a byte of the set, and `j` is the next place. -/
def HasByte (hay : Haystack) (set : RangeSet) (i j : Nat) : Prop :=
  (∃ b, hay.bytes[i]? = some b ∧ set.contains b.toNat = true) ∧ j = i + 1

/-- The bytes from `i` to `j` are those of the characters. -/
def Spells (hay : Haystack) : List Char → Nat → Nat → Prop
  | [], i, j => i = j
  | c :: cs, i, j =>
    (∃ b, hay.bytes[i]? = some b ∧ b.toNat = c.toNat) ∧ hay.Spells cs (i + 1) j

end Haystack

/-- A relation between places, taken so many times in a row. -/
def Repeats (R : Nat → Nat → Prop) : Nat → Nat → Nat → Prop
  | 0, i, j => i = j
  | n + 1, i, j => ∃ k, R i k ∧ Repeats R n k j

namespace Expr

mutual

/-- The expression matches the haystack from `i` to `j`. -/
def Matches (hay : Haystack) : Expr → Nat → Nat → Prop
  | .empty, i, j => i = j
  | .literal bs, i, j => ∃ cs, Utf8.encode cs = bs ∧ hay.Spells cs i j
  | .chars set, i, j => hay.HasByte set i j
  | .bytes set, i, j => hay.HasByte set i j
  | .look l, i, j => hay.holds l i ∧ i = j
  | .repetition min max _ body, i, j =>
    ∃ n, min ≤ n ∧ (∀ m ∈ max, n ≤ m) ∧ Repeats (Matches hay body) n i j
  | .capture _ _ body, i, j => Matches hay body i j
  | .concat items, i, j => MatchesAll hay items i j
  | .alternation branches, i, j => MatchesAny hay branches i j

/-- The expressions match one after another. -/
def MatchesAll (hay : Haystack) : List Expr → Nat → Nat → Prop
  | [], i, j => i = j
  | e :: es, i, j => ∃ k, Matches hay e i k ∧ MatchesAll hay es k j

/-- One of the expressions matches. -/
def MatchesAny (hay : Haystack) : List Expr → Nat → Nat → Prop
  | [], _, _ => False
  | e :: es, i, j => Matches hay e i j ∨ MatchesAny hay es i j

end

theorem matchesAny_iff {hay : Haystack} {es : List Expr} {i j : Nat} :
    MatchesAny hay es i j ↔ ∃ e ∈ es, Matches hay e i j := by
  induction es with
  | nil => simp [MatchesAny]
  | cons e es ih => simp [MatchesAny, ih]

end Expr

namespace Repeats

variable {R S : Nat → Nat → Prop} {n m i j k : Nat}

theorem mono (imp : ∀ i j, R i j → S i j) (reps : Repeats R n i j) : Repeats S n i j := by
  induction n generalizing i with
  | zero => exact reps
  | succ n ih =>
    obtain ⟨k, first, rest⟩ := reps
    exact ⟨k, imp i k first, ih rest⟩

theorem congr (iff : ∀ i j, R i j ↔ S i j) : Repeats R n i j ↔ Repeats S n i j :=
  ⟨mono fun i j => (iff i j).mp, mono fun i j => (iff i j).mpr⟩

theorem add_iff : Repeats R (n + m) i j ↔ ∃ k, Repeats R n i k ∧ Repeats R m k j := by
  induction n generalizing i with
  | zero => simp [Repeats]
  | succ n ih =>
    rw [Nat.succ_add]
    simp only [Repeats, ih]
    grind

/-- Steps that do not go back lead forward. -/
theorem le (steps : ∀ i j, R i j → i ≤ j) (reps : Repeats R n i j) : i ≤ j := by
  induction n generalizing i with
  | zero => exact Nat.le_of_eq reps
  | succ n ih =>
    obtain ⟨k, first, rest⟩ := reps
    exact Nat.le_trans (steps i k first) (ih rest)

/-- Steps that stay in place lead nowhere. -/
theorem eq (steps : ∀ i j, R i j → i = j) (reps : Repeats R n i j) : i = j := by
  induction n generalizing i with
  | zero => exact reps
  | succ n ih =>
    obtain ⟨k, first, rest⟩ := reps
    exact (steps i k first).trans (ih rest)

end Repeats

namespace Haystack

variable {hay : Haystack} {i j : Nat}

theorem Spells.le {cs : List Char} (spells : hay.Spells cs i j) : i ≤ j := by
  induction cs generalizing i with
  | nil => exact Nat.le_of_eq spells
  | cons c cs ih => exact Nat.le_trans (Nat.le_succ i) (ih spells.2)

theorem spells_append {cs ds : List Char} :
    hay.Spells (cs ++ ds) i j ↔ ∃ k, hay.Spells cs i k ∧ hay.Spells ds k j := by
  induction cs generalizing i with
  | nil => simp [Spells]
  | cons c cs ih => simp [Spells, ih, and_assoc]

end Haystack

namespace Expr

variable {hay : Haystack}

theorem matchesAll_le {es : List Expr} (each : ∀ e ∈ es, ∀ i j, Matches hay e i j → i ≤ j)
    {i j : Nat} (all : MatchesAll hay es i j) : i ≤ j := by
  induction es generalizing i with
  | nil =>
    rw [MatchesAll] at all
    exact Nat.le_of_eq all
  | cons e es ih =>
    rw [MatchesAll] at all
    obtain ⟨k, first, rest⟩ := all
    exact Nat.le_trans (each e List.mem_cons_self i k first)
      (ih (fun e mem => each e (List.mem_cons_of_mem _ mem)) rest)

namespace Matches

/-- A match does not end before it starts. -/
theorem le {e : Expr} {i j : Nat} (found : Matches hay e i j) : i ≤ j := by
  induction e generalizing i j with
  | empty =>
    rw [Matches] at found
    exact Nat.le_of_eq found
  | literal bs =>
    rw [Matches] at found
    obtain ⟨cs, -, spells⟩ := found
    exact spells.le
  | chars set =>
    rw [Matches] at found
    exact Nat.le_of_lt (Nat.lt_of_lt_of_eq (Nat.lt_succ_self i) found.2.symm)
  | bytes set =>
    rw [Matches] at found
    exact Nat.le_of_lt (Nat.lt_of_lt_of_eq (Nat.lt_succ_self i) found.2.symm)
  | look l =>
    rw [Matches] at found
    exact Nat.le_of_eq found.2
  | repetition min max greedy body ih =>
    rw [Matches] at found
    obtain ⟨n, -, -, reps⟩ := found
    exact reps.le fun _ _ => ih
  | capture index name body ih =>
    rw [Matches] at found
    exact ih found
  | concat items ih =>
    rw [Matches] at found
    exact matchesAll_le (fun e mem _ _ => ih e mem) found
  | alternation branches ih =>
    rw [Matches, matchesAny_iff] at found
    obtain ⟨e, mem, found⟩ := found
    exact ih e mem found

end Matches

/-- A sequence has length zero if each item has. -/
theorem sumLength_eq_zero_iff {es : List Expr} :
    sumLength es = some 0 ↔ ∀ e ∈ es, e.maxLength = some 0 := by
  induction es with
  | nil => simp [sumLength]
  | cons e es ih =>
    rw [sumLength, List.forall_mem_cons, ← ih]
    cases e.maxLength <;> cases sumLength es <;> simp

/-- An alternation has length zero if it has a branch and each branch has. -/
theorem supLength_eq_zero_iff {es : List Expr} :
    supLength es = some 0 ↔ es ≠ [] ∧ ∀ e ∈ es, e.maxLength = some 0 := by
  induction es with
  | nil => simp [supLength]
  | cons e es ih =>
    cases es with
    | nil => simp [supLength]
    | cons d es =>
      rw [supLength, List.forall_mem_cons]
      · simp only [ne_eq, reduceCtorEq, not_false_eq_true, true_and] at ih ⊢
        rw [← ih]
        cases e.maxLength <;> cases supLength (d :: es) <;> simp
      · simp

theorem utf8Length_pos (n : Nat) : 0 < utf8Length n := by
  unfold utf8Length
  split
  · decide
  · split
    · decide
    · split <;> decide

theorem eq_of_matchesAll {es : List Expr} (each : ∀ e ∈ es, ∀ i j, Matches hay e i j → i = j)
    {i j : Nat} (all : MatchesAll hay es i j) : i = j := by
  induction es generalizing i with
  | nil =>
    rw [MatchesAll] at all
    exact all
  | cons e es ih =>
    rw [MatchesAll] at all
    obtain ⟨k, first, rest⟩ := all
    exact (each e List.mem_cons_self i k first).trans
      (ih (fun e mem => each e (List.mem_cons_of_mem _ mem)) rest)

/-- An expression of greatest length zero matches only the empty text. -/
theorem Matches.eq_of_maxLength {e : Expr} {i j : Nat} (zero : e.maxLength = some 0)
    (found : Matches hay e i j) : i = j := by
  induction e generalizing i j with
  | empty =>
    rw [Matches] at found
    exact found
  | literal bs =>
    rw [maxLength, Option.some.injEq, List.length_eq_zero_iff] at zero
    rw [Matches, zero] at found
    obtain ⟨cs, encoded, spells⟩ := found
    cases cs with
    | nil => exact spells
    | cons c cs =>
      have length := congrArg List.length encoded
      have size := c.utf8Size_pos
      simp [Utf8.encode] at length
      omega
  | chars set =>
    rw [maxLength] at zero
    obtain ⟨n, -, length⟩ := Option.map_eq_some_iff.mp zero
    exact absurd length (Nat.ne_of_gt (utf8Length_pos n))
  | bytes set =>
    rw [maxLength] at zero
    split at zero <;> cases zero
  | look l =>
    rw [Matches] at found
    exact found.2
  | repetition min max greedy body ih =>
    rw [Matches] at found
    obtain ⟨n, -, upper, reps⟩ := found
    rw [maxLength] at zero
    cases max with
    | none => cases zero
    | some m =>
      cases length : body.maxLength with
      | none => simp [length] at zero
      | some k =>
        have product : k * m = 0 := by simpa [length] using zero
        rcases Nat.mul_eq_zero.mp product with rfl | rfl
        · exact reps.eq fun _ _ => ih length
        · have none : n = 0 := Nat.le_zero.mp (upper 0 rfl)
          rw [none] at reps
          exact reps
  | capture index name body ih =>
    rw [Matches] at found
    rw [maxLength] at zero
    exact ih zero found
  | concat items ih =>
    rw [Matches] at found
    rw [maxLength, sumLength_eq_zero_iff] at zero
    exact eq_of_matchesAll (fun e mem _ _ => ih e mem (zero e mem)) found
  | alternation branches ih =>
    rw [Matches, matchesAny_iff] at found
    rw [maxLength, supLength_eq_zero_iff] at zero
    obtain ⟨e, mem, found⟩ := found
    exact ih e mem (zero.2 e mem) found

theorem allLeadWith_iff {l : Look} {es : List Expr} :
    allLeadWith l es = true ↔ ∀ e ∈ es, leadsWith l e = true := by
  induction es with
  | nil => simp [allLeadWith]
  | cons e es ih => simp [allLeadWith, ih]

theorem holds_of_anyLeadsWith {l : Look} {es : List Expr}
    (each : ∀ e ∈ es, ∀ i j, leadsWith l e = true → Matches hay e i j → hay.holds l i) {i j : Nat}
    (leads : anyLeadsWith l es = true) (all : MatchesAll hay es i j) : hay.holds l i := by
  induction es generalizing i with
  | nil =>
    rw [anyLeadsWith] at leads
    cases leads
  | cons e es ih =>
    rw [MatchesAll] at all
    obtain ⟨k, first, rest⟩ := all
    rw [anyLeadsWith, Bool.or_eq_true, Bool.and_eq_true, beq_iff_eq] at leads
    rcases leads with leads | ⟨zero, leads⟩
    · exact each e List.mem_cons_self i k leads first
    · have stays : i = k := first.eq_of_maxLength zero
      rw [stays]
      exact ih (fun e mem => each e (List.mem_cons_of_mem _ mem)) leads rest

/-- An expression that leads with a look matches only where the look holds. -/
theorem Matches.holds_of_leadsWith {l : Look} {e : Expr} {i j : Nat}
    (leads : leadsWith l e = true) (found : Matches hay e i j) : hay.holds l i := by
  induction e generalizing i j with
  | empty | literal _ | chars _ | bytes _ =>
    rw [leadsWith] at leads
    cases leads
  | look k =>
    rw [leadsWith, beq_iff_eq] at leads
    rw [Matches, leads] at found
    exact found.1
  | repetition min max greedy body ih =>
    rw [leadsWith, Bool.and_eq_true, decide_eq_true_eq] at leads
    rw [Matches] at found
    obtain ⟨n, lower, -, reps⟩ := found
    -- There is a first copy, and it starts where the repetition does.
    obtain ⟨n, rfl⟩ := Nat.exists_eq_add_one_of_ne_zero (by omega : n ≠ 0)
    obtain ⟨k, first, -⟩ := reps
    exact ih leads.2 first
  | capture index name body ih =>
    rw [leadsWith] at leads
    rw [Matches] at found
    exact ih leads found
  | concat items ih =>
    rw [leadsWith] at leads
    rw [Matches] at found
    exact holds_of_anyLeadsWith (fun e mem _ _ => ih e mem) leads found
  | alternation branches ih =>
    rw [leadsWith, Bool.and_eq_true, allLeadWith_iff] at leads
    rw [Matches, matchesAny_iff] at found
    obtain ⟨e, mem, found⟩ := found
    exact ih e mem (leads.2 e mem) found

end Expr

end PatternGate
