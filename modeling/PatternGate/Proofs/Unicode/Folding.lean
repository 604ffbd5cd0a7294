import PatternGate.Proofs.CharSet
import PatternGate.Unicode.Folding

/-!
# Which wide code points fold with bytes

A code point beyond `U+00FF` is no byte, but ignoring case can bring bytes in: the Kelvin sign folds
together with both letters K. There are seven such code points (`byteFolds`). Any other wide code
point is closed under folding into a wide set (`wide_foldClosure`), and nothing is left of that when
it is clipped to bytes (`RangeSet.Wide.clip_eq_nil`).

The table of orbits is long, and it is evaluated once: `filter_touchesBytes` finds the six orbits
that have both bytes and wide members. The rest reasons about these six.
-/

namespace PatternGate

namespace RangeSet

/-- All members lie beyond the bytes. -/
def Wide (s : RangeSet) : Prop := ∀ r ∈ s, 0xFF < r.lo

theorem Wide.insert {s : RangeSet} (wide : s.Wide) {r : Range} (beyond : 0xFF < r.lo) :
    Wide (insert r s) := by
  induction s generalizing r with
  | nil => exact List.forall_mem_singleton.mpr beyond
  | cons q rest ih =>
    obtain ⟨first, others⟩ := List.forall_mem_cons.mp wide
    unfold RangeSet.insert
    split
    · exact List.forall_mem_cons.mpr ⟨beyond, wide⟩
    · split
      · exact List.forall_mem_cons.mpr ⟨first, ih others beyond⟩
      · exact ih others (Nat.lt_min.mpr ⟨beyond, first⟩)

/-- Nothing is left of a wide set when it is clipped. -/
theorem Wide.clip_eq_nil {s : RangeSet} (wide : s.Wide) : clip s = [] := by
  refine List.filterMap_eq_nil_iff.mpr fun r mem => ?_
  exact if_neg (Nat.not_le_of_gt (wide r mem))

end RangeSet

namespace Unicode

/-- The code points beyond the bytes that bytes fold together with, and how many. -/
def byteFoldTable : List (Nat × Nat) :=
  [(0x178, 1), (0x17F, 2), (0x39C, 1), (0x3BC, 1), (0x1E9E, 1), (0x212A, 2), (0x212B, 2)]

/-- How many bytes fold together with a code point beyond them. -/
def byteFolds (n : Nat) : Nat := (byteFoldTable.lookup n).getD 0

theorem byteFolds_eq_zero_or (n : Nat) :
    byteFolds n = 0 ∨ (n, byteFolds n) ∈ byteFoldTable := by
  rw [byteFolds]
  cases found : byteFoldTable.lookup n with
  | none => exact .inl rfl
  | some k =>
    obtain ⟨before, after, split, -⟩ := List.lookup_eq_some_iff.mp found
    rw [split]
    exact .inr (List.mem_append_right _ List.mem_cons_self)

/-- The orbits that hold both bytes and wide code points. -/
def byteOrbits : List (List Nat) :=
  [[0x4B, 0x6B, 0x212A], [0x53, 0x73, 0x17F], [0xB5, 0x39C, 0x3BC], [0xC5, 0xE5, 0x212B],
    [0xDF, 0x1E9E], [0xFF, 0x178]]

/-- An orbit that holds both, or one of the code points that are counted. -/
def touchesBytes (orbit : List Nat) : Bool :=
  orbit.any (· ≤ 0xFF) && orbit.any (0xFF < ·) || orbit.any (byteFolds · ≠ 0)

-- The one look at the whole table.
theorem filter_touchesBytes : foldOrbits.filter touchesBytes = byteOrbits := by decide +kernel

/-- An orbit with a wide code point that is not counted has only wide members. -/
theorem wide_of_mem_orbit {orbit : List Nat} (mem : orbit ∈ foldOrbits) {n : Nat} (own : n ∈ orbit)
    (beyond : 0xFF < n) (alone : byteFolds n = 0) : ∀ m ∈ orbit, 0xFF < m := by
  intro m member
  refine Nat.lt_of_not_le fun byte => ?_
  have touches : touchesBytes orbit = true := by
    rw [touchesBytes, Bool.or_eq_true, Bool.and_eq_true]
    exact .inl ⟨List.any_eq_true.mpr ⟨m, member, decide_eq_true byte⟩,
      List.any_eq_true.mpr ⟨n, own, decide_eq_true beyond⟩⟩
  have listed : orbit ∈ byteOrbits := by
    rw [← filter_touchesBytes]
    exact List.mem_filter.mpr ⟨mem, touches⟩
  have counted : ∀ orbit ∈ byteOrbits, ∀ n ∈ orbit, 0xFF < n → byteFolds n ≠ 0 := by decide
  exact counted orbit listed n own beyond alone

/-- The closure of one code point: the members of its orbits are added to it. -/
theorem foldClosure_single (n : Nat) :
    foldClosure [⟨n, n⟩] = (foldOrbits.filter (·.contains n)).flatten.foldl
      (fun acc m => if m = n then acc else RangeSet.insert ⟨m, m⟩ acc) [⟨n, n⟩] := by
  have own : ∀ m, RangeSet.contains [⟨n, n⟩] m = decide (m = n) := by
    intro m
    rw [RangeSet.contains_cons, RangeSet.contains_nil, Bool.or_false, Bool.eq_iff_iff]
    simp only [Range.contains, Bool.and_eq_true, decide_eq_true_eq]
    omega
  have member : ∀ orbit : List Nat, orbit.any (RangeSet.contains [⟨n, n⟩]) = orbit.contains n := by
    intro orbit
    rw [Bool.eq_iff_iff]
    simp [own]
  rw [foldClosure, List.foldl_flatten, List.foldl_filter]
  simp only [member, own, decide_eq_true_eq]

/-- A wide code point that no byte folds with is closed into a wide set. -/
theorem wide_foldClosure {n : Nat} (beyond : 0xFF < n) (alone : byteFolds n = 0) :
    (foldClosure [⟨n, n⟩]).Wide := by
  have own : RangeSet.Wide [⟨n, n⟩] := List.forall_mem_singleton.mpr beyond
  rw [foldClosure_single]
  refine List.foldlRecOn _ _ own fun acc wide m mem => ?_
  obtain ⟨orbit, filtered, member⟩ := List.mem_flatten.mp mem
  obtain ⟨inTable, holds⟩ := List.mem_filter.mp filtered
  split
  · exact wide
  · have own := List.contains_iff_mem.mp holds
    exact wide.insert (wide_of_mem_orbit inTable own beyond alone m member)

/-- The orbits of a code point that is counted. -/
theorem filter_contains_of_counted {n : Nat} (counted : byteFolds n ≠ 0) :
    foldOrbits.filter (·.contains n) = byteOrbits.filter (·.contains n) := by
  rw [← filter_touchesBytes, List.filter_filter]
  refine List.filter_congr fun orbit _ => ?_
  cases holds : orbit.contains n with
  | false => rfl
  | true =>
    have touches : touchesBytes orbit = true := by
      rw [touchesBytes, Bool.or_eq_true]
      exact .inr (List.any_eq_true.mpr
        ⟨n, List.contains_iff_mem.mp holds, decide_eq_true counted⟩)
    rw [touches]
    rfl

theorem folds_of_counted {n : Nat} (counted : byteFolds n ≠ 0) : folds n = true := by
  have some : ∀ entry ∈ byteFoldTable, byteOrbits.filter (·.contains entry.1) ≠ [] := by decide
  have found := some _ ((byteFolds_eq_zero_or n).resolve_left counted)
  rw [← filter_contains_of_counted counted] at found
  obtain ⟨orbit, mem⟩ := List.exists_mem_of_ne_nil _ found
  exact List.any_eq_true.mpr ⟨orbit, List.mem_filter.mp mem⟩

end Unicode

end PatternGate
