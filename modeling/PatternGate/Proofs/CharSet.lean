import PatternGate.CharSet

/-!
# The members of a set

What the operations on lists of ranges do to the numbers they hold. Adding ranges and uniting sets
is exact for any lists of ranges, ordered or not: two ranges are joined only if no number lies
between them. Clipping keeps the members that are bytes.

A set that is made from ranges is in canonical form (`canonical_ofRanges`), and clipping keeps it
there (`Canonical.clip`). In this form equal sets are equal lists (`Canonical.ext`), and a set of
bytes shows at a glance whether it holds them all (`Canonical.eq_full_iff`).
-/

namespace PatternGate.RangeSet

theorem contains_iff {s : RangeSet} {n : Nat} :
    s.contains n = true ↔ ∃ r ∈ s, r.lo ≤ n ∧ n ≤ r.hi := by
  simp [contains, Range.contains]

@[simp]
theorem contains_nil (n : Nat) : contains [] n = false := rfl

theorem contains_cons (r : Range) (s : RangeSet) (n : Nat) :
    contains (r :: s) n = (r.contains n || contains s n) := rfl

/-- Adding a range adds its members. -/
theorem contains_insert (r : Range) (s : RangeSet) (n : Nat) :
    contains (insert r s) n = (r.contains n || contains s n) := by
  induction s generalizing r with
  | nil => rfl
  | cons q rest ih =>
    unfold insert
    split
    next => rfl
    next =>
      split
      next =>
        rw [contains_cons, ih, contains_cons, ← Bool.or_assoc, ← Bool.or_assoc,
          Bool.or_comm (q.contains n)]
      next before after =>
        -- No number lies between the two ranges, so the joined one holds nothing more.
        have joined : Range.contains ⟨min r.lo q.lo, max r.hi q.hi⟩ n =
            (r.contains n || q.contains n) := by
          rw [Bool.eq_iff_iff]
          simp only [Range.contains, Bool.or_eq_true, Bool.and_eq_true, decide_eq_true_eq]
          omega
        rw [ih, contains_cons, joined, Bool.or_assoc]

/-- The union of two sets holds the members of either. -/
theorem contains_union (s t : RangeSet) (n : Nat) :
    contains (union s t) n = (contains s n || contains t n) := by
  unfold union
  induction t generalizing s with
  | nil => simp
  | cons r t ih =>
    rw [List.foldl_cons, ih, contains_insert, contains_cons, ← Bool.or_assoc,
      Bool.or_comm (r.contains n)]

/-- The set of some ranges holds the numbers of each. -/
theorem contains_ofRanges (rs : List Range) (n : Nat) :
    contains (ofRanges rs) n = contains rs n := by
  rw [ofRanges, contains_union, contains_nil, Bool.false_or]

/-- A set with one member is the range of that member. -/
theorem eq_of_single? {s : RangeSet} {n : Nat} (one : single? s = some n) :
    s = [Range.single n] := by
  unfold single? at one
  split at one
  next r =>
    obtain ⟨lo, hi⟩ := r
    split at one
    next same =>
      obtain rfl : lo = hi := same
      cases one
      rfl
    next => cases one
  next => cases one

/-- Clipping keeps the ranges that start with a byte, as far as they hold bytes. -/
theorem mem_clip_iff {s : RangeSet} {r : Range} :
    r ∈ clip s ↔ ∃ q ∈ s, q.lo ≤ 0xFF ∧ ⟨q.lo, min q.hi 0xFF⟩ = r := by
  simp only [clip, List.mem_filterMap, Option.ite_none_right_eq_some, Option.some.injEq]

/-- Clipping keeps exactly the members that are bytes. -/
theorem contains_clip (s : RangeSet) {n : Nat} (byte : n ≤ 0xFF) :
    contains (clip s) n = contains s n := by
  rw [Bool.eq_iff_iff, contains_iff, contains_iff]
  constructor
  · rintro ⟨r, mem, lower, upper⟩
    obtain ⟨q, memq, -, rfl⟩ := mem_clip_iff.mp mem
    exact ⟨q, memq, lower, Nat.le_trans upper (Nat.min_le_left _ _)⟩
  · rintro ⟨r, mem, lower, upper⟩
    exact ⟨_, mem_clip_iff.mpr ⟨r, mem, Nat.le_trans lower byte, rfl⟩, lower,
      Nat.le_min.mpr ⟨upper, byte⟩⟩

/-- No clipped range goes beyond the bytes. -/
theorem hi_le_of_mem_clip {s : RangeSet} {r : Range} (mem : r ∈ clip s) : r.hi ≤ 0xFF := by
  obtain ⟨q, -, -, rfl⟩ := mem_clip_iff.mp mem
  exact Nat.min_le_right _ _

/-- Ranges in increasing order, each with a member, no two of which overlap or touch. -/
structure Canonical (s : RangeSet) : Prop where
  ordered : ∀ r ∈ s, r.lo ≤ r.hi
  apart : s.Pairwise fun r q => r.hi + 1 < q.lo

instance (s : RangeSet) : Decidable s.Canonical :=
  decidable_of_iff
    ((∀ r ∈ s, r.lo ≤ r.hi) ∧ s.Pairwise fun r q => r.hi + 1 < q.lo)
    ⟨fun h => ⟨h.1, h.2⟩, fun h => ⟨h.1, h.2⟩⟩

namespace Canonical

variable {r q : Range} {s t : RangeSet}

theorem nil : Canonical [] := ⟨fun _ mem => absurd mem List.not_mem_nil, .nil⟩

theorem cons_iff :
    Canonical (r :: s) ↔ r.lo ≤ r.hi ∧ (∀ q ∈ s, r.hi + 1 < q.lo) ∧ s.Canonical := by
  constructor
  · rintro ⟨ordered, apart⟩
    rw [List.forall_mem_cons] at ordered
    rw [List.pairwise_cons] at apart
    exact ⟨ordered.1, apart.1, ordered.2, apart.2⟩
  · rintro ⟨here, after, ordered, apart⟩
    exact ⟨List.forall_mem_cons.mpr ⟨here, ordered⟩, List.pairwise_cons.mpr ⟨after, apart⟩⟩

/-- Ranges between two bounds that neither overlap nor touch take two numbers each. -/
theorem length_le {lower upper : Nat} (canonical : s.Canonical)
    (above : ∀ r ∈ s, lower ≤ r.lo) (below : ∀ r ∈ s, r.hi ≤ upper) :
    2 * s.length ≤ upper + 2 - lower := by
  induction s generalizing lower with
  | nil => exact Nat.zero_le _
  | cons r s ih =>
    obtain ⟨here, after, canonical⟩ := cons_iff.mp canonical
    rw [List.forall_mem_cons] at above below
    have further : ∀ q ∈ s, lower + 2 ≤ q.lo := by
      intro q mem
      have := after q mem
      omega
    have rest := ih canonical further below.2
    rw [List.length_cons]
    omega

/-- The start of the first range is a member. -/
theorem contains_lo (canonical : Canonical (r :: s)) : contains (r :: s) r.lo = true :=
  contains_iff.mpr ⟨r, List.mem_cons_self, Nat.le_refl _, (cons_iff.mp canonical).1⟩

/-- No member stands before the first range. -/
theorem lo_le {n : Nat} (canonical : Canonical (r :: s)) (member : contains (r :: s) n = true) :
    r.lo ≤ n := by
  obtain ⟨here, after, -⟩ := cons_iff.mp canonical
  obtain ⟨q, mem, lower, -⟩ := contains_iff.mp member
  rcases List.mem_cons.mp mem with rfl | mem
  · exact lower
  · have := after q mem
    omega

/-- No range after the first one holds a number up to the end of the first. -/
theorem contains_tail {n : Nat} (canonical : Canonical (r :: s)) (upper : n ≤ r.hi + 1) :
    contains s n = false := by
  obtain ⟨-, after, -⟩ := cons_iff.mp canonical
  refine Bool.eq_false_iff.mpr fun member => ?_
  obtain ⟨q, mem, lower, -⟩ := contains_iff.mp member
  have := after q mem
  omega

/-- Of equal sets that start alike, neither has the shorter first range: the number after it is no
member. -/
theorem hi_le (canonical : Canonical (r :: s)) (start : q.lo = r.lo)
    (same : ∀ n, contains (r :: s) n = contains (q :: t) n) : q.hi ≤ r.hi := by
  refine Nat.le_of_not_lt fun short => ?_
  have ordered := (cons_iff.mp canonical).1
  have inside : contains (q :: t) (r.hi + 1) = true :=
    contains_iff.mpr ⟨q, List.mem_cons_self, by omega, short⟩
  rw [← same, contains_cons, canonical.contains_tail (Nat.le_refl _), Bool.or_false] at inside
  simp only [Range.contains, Bool.and_eq_true, decide_eq_true_eq] at inside
  omega

/-- Equal sets are equal lists. -/
theorem ext (first : s.Canonical) (second : t.Canonical)
    (same : ∀ n, s.contains n = t.contains n) : s = t := by
  induction s generalizing t with
  | nil =>
    cases t with
    | nil => rfl
    | cons q t => cases (same q.lo).trans second.contains_lo
  | cons r s ih =>
    cases t with
    | nil => cases (same r.lo).symm.trans first.contains_lo
    | cons q t =>
      have lo : r.lo = q.lo :=
        Nat.le_antisymm (first.lo_le ((same q.lo).trans second.contains_lo))
          (second.lo_le ((same r.lo).symm.trans first.contains_lo))
      have hi : r.hi = q.hi :=
        Nat.le_antisymm (second.hi_le lo fun n => (same n).symm) (first.hi_le lo.symm same)
      obtain rfl : r = q := by
        cases r
        cases q
        cases lo
        cases hi
        rfl
      refine congrArg (r :: ·) (ih (cons_iff.mp first).2.2 (cons_iff.mp second).2.2 fun n => ?_)
      rcases Nat.lt_or_ge r.hi n with after | upto
      · -- The first range does not hold the number, so the rests decide.
        have outside : r.contains n = false := by simp [Range.contains, after]
        have both := same n
        rwa [contains_cons, contains_cons, outside, Bool.false_or, Bool.false_or] at both
      · rw [first.contains_tail (Nat.le_succ_of_le upto),
          second.contains_tail (Nat.le_succ_of_le upto)]

/-- Sets of bytes with the same bytes are equal lists. -/
theorem ext_bytes (first : s.Canonical) (second : t.Canonical) (bytes : ∀ r ∈ s, r.hi ≤ 0xFF)
    (bytes' : ∀ r ∈ t, r.hi ≤ 0xFF) (same : ∀ n ≤ 0xFF, s.contains n = t.contains n) : s = t := by
  have none {u : RangeSet} (bytes : ∀ r ∈ u, r.hi ≤ 0xFF) {n : Nat} (beyond : 0xFF < n) :
      u.contains n = false := by
    refine Bool.eq_false_iff.mpr fun member => ?_
    obtain ⟨r, mem, -, upper⟩ := contains_iff.mp member
    exact absurd (Nat.le_trans upper (bytes r mem)) (Nat.not_le_of_gt beyond)
  refine first.ext second fun n => ?_
  rcases Nat.lt_or_ge 0xFF n with beyond | byte
  · rw [none bytes beyond, none bytes' beyond]
  · exact same n byte

/-- Clipping drops ranges and shortens one, so no two of them come closer. -/
theorem clip (canonical : s.Canonical) : (clip s).Canonical where
  ordered r mem := by
    obtain ⟨q, memq, byte, rfl⟩ := mem_clip_iff.mp mem
    exact Nat.le_min.mpr ⟨canonical.ordered q memq, byte⟩
  apart := by
    refine canonical.apart.filterMap _ fun r q apart r' clipped q' clipped' => ?_
    obtain ⟨-, ⟨⟩⟩ := Option.ite_none_right_eq_some.mp clipped
    obtain ⟨-, ⟨⟩⟩ := Option.ite_none_right_eq_some.mp clipped'
    exact Nat.lt_of_le_of_lt (Nat.succ_le_succ (Nat.min_le_left _ _)) apart

/-- There is nothing to clip from a set of bytes. -/
theorem clip_eq_self (canonical : s.Canonical) (bytes : ∀ r ∈ s, r.hi ≤ 0xFF) :
    RangeSet.clip s = s :=
  canonical.clip.ext_bytes canonical (fun _ => hi_le_of_mem_clip) bytes
    fun _ byte => contains_clip s byte

end Canonical

theorem lt_of_mem_insert {n : Nat} {r : Range} {s : RangeSet} (below : n < r.lo)
    (above : ∀ q ∈ s, n < q.lo) : ∀ q ∈ insert r s, n < q.lo := by
  induction s generalizing r with
  | nil => exact List.forall_mem_singleton.mpr below
  | cons p s ih =>
    rw [List.forall_mem_cons] at above
    unfold insert
    split
    next => exact List.forall_mem_cons.mpr ⟨below, List.forall_mem_cons.mpr above⟩
    next =>
      split
      next => exact List.forall_mem_cons.mpr ⟨above.1, ih below above.2⟩
      next => exact ih (Nat.lt_min.mpr ⟨below, above.1⟩) above.2

/-- Adding a range keeps the form: what it overlaps or touches becomes part of it. -/
theorem canonical_insert {r : Range} {s : RangeSet} (ordered : r.lo ≤ r.hi)
    (canonical : s.Canonical) : (insert r s).Canonical := by
  induction s generalizing r with
  | nil => exact Canonical.cons_iff.mpr ⟨ordered, List.forall_mem_nil _, .nil⟩
  | cons p s ih =>
    obtain ⟨here, after, rest⟩ := Canonical.cons_iff.mp canonical
    unfold insert
    split
    next before =>
      have apart : ∀ q ∈ p :: s, r.hi + 1 < q.lo := by
        refine List.forall_mem_cons.mpr ⟨before, fun q mem => ?_⟩
        have := after q mem
        omega
      exact Canonical.cons_iff.mpr ⟨ordered, apart, canonical⟩
    next =>
      split
      next behind =>
        exact Canonical.cons_iff.mpr ⟨here, lt_of_mem_insert behind after, ih ordered rest⟩
      next =>
        have joined : min r.lo p.lo ≤ max r.hi p.hi := by omega
        exact ih joined rest

/-- A set that is made from ranges is canonical, however they lie. -/
theorem canonical_ofRanges {rs : List Range} (ordered : ∀ r ∈ rs, r.lo ≤ r.hi) :
    (ofRanges rs).Canonical := by
  have keeps : ∀ s : RangeSet, s.Canonical → (union s rs).Canonical := by
    unfold union
    induction rs with
    | nil => exact fun s canonical => canonical
    | cons r rs ih =>
      rw [List.forall_mem_cons] at ordered
      exact fun s canonical => ih ordered.2 _ (canonical_insert ordered.1 canonical)
  exact keeps [] .nil

/-- All bytes are members. -/
def coversBytes (s : RangeSet) : Bool := (List.range 256).all s.contains

theorem coversBytes_iff {s : RangeSet} :
    s.coversBytes = true ↔ ∀ n, n ≤ 0xFF → s.contains n = true := by
  simp only [coversBytes, List.all_eq_true, List.mem_range]
  exact ⟨fun h n le => h n (by omega), fun h n lt => h n (by omega)⟩

theorem coversBytes_clip (s : RangeSet) : (clip s).coversBytes = s.coversBytes := by
  rw [Bool.eq_iff_iff, coversBytes_iff, coversBytes_iff]
  exact forall₂_congr fun n byte => by rw [contains_clip s byte]

/-- A canonical set of bytes that holds all of them is one range. -/
theorem Canonical.eq_full_iff {s : RangeSet} (canonical : s.Canonical)
    (bytes : ∀ r ∈ s, r.hi ≤ 0xFF) : s = [⟨0, 0xFF⟩] ↔ s.coversBytes = true := by
  constructor
  · rintro rfl
    refine coversBytes_iff.mpr fun n byte => contains_iff.mpr ?_
    exact ⟨_, List.mem_singleton_self _, by simpa⟩
  · intro covers
    rw [coversBytes_iff] at covers
    cases s with
    | nil => simpa using covers 0 (by omega)
    | cons r rest =>
      obtain ⟨after, -⟩ := List.pairwise_cons.mp canonical.apart
      -- A member before the second range lies in the first one.
      have inFirst : ∀ n, n ≤ 0xFF → n ≤ r.hi + 1 → r.lo ≤ n ∧ n ≤ r.hi := by
        intro n byte le
        obtain ⟨q, mem, lower, upper⟩ := contains_iff.mp (covers n byte)
        rcases List.mem_cons.mp mem with rfl | mem
        · exact ⟨lower, upper⟩
        · have := after q mem
          omega
      have low := inFirst 0 (by omega) (by omega)
      have high : r.hi = 0xFF := by
        have upper := bytes r List.mem_cons_self
        rcases Nat.lt_or_ge r.hi 0xFF with short | full
        · have := inFirst (r.hi + 1) (by omega) (Nat.le_refl _)
          omega
        · omega
      have alone : rest = [] := by
        rw [List.eq_nil_iff_forall_not_mem]
        intro q mem
        have := after q mem
        have := canonical.ordered q (List.mem_cons_of_mem _ mem)
        have := bytes q (List.mem_cons_of_mem _ mem)
        omega
      rw [alone, ← high, ← Nat.le_zero.mp low.1]

end PatternGate.RangeSet
