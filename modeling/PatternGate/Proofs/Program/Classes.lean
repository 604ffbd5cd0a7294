import PatternGate.Expr.Build
import PatternGate.Program.Lowering
import PatternGate.Proofs.CharSet
import PatternGate.Proofs.Text.Utf8

/-!
# The instruction of a class

A class is given by ranges of characters or of bytes, in any order, with ends in either order, which
may overlap or touch. What it is lowered to depends on its bytes alone: the ranges that are left
after clipping hold exactly the bytes of the class, and they are the only ranges in canonical form
that do. So the comparison with one full range, by which lowering tells whether a class matches
every byte, is never misled by the way in which the class was given.

The main statement is `CharClass.clipped_exact`.
-/

namespace PatternGate

/-- A class as it is given. -/
inductive CharClass where
  | chars (ranges : List (Char × Char))
  | bytes (ranges : List (UInt8 × UInt8))

namespace CharClass

/-- The ranges of a class, each with its lesser end first. -/
def ranges : CharClass → List Range
  | chars rs => rs.map fun r => .between r.1.toNat r.2.toNat
  | bytes rs => rs.map fun r => .between r.1.toNat r.2.toNat

/-- The set of a class. -/
def set (c : CharClass) : RangeSet := .ofRanges c.ranges

/-- The bytes of a class. Only characters have to be clipped. -/
def clipped : CharClass → RangeSet
  | chars rs => RangeSet.clip (chars rs).set
  | bytes rs => (bytes rs).set

/-- The class as a node of an expression. -/
def node : CharClass → Expr
  | chars rs => .chars (chars rs).set
  | bytes rs => .bytes (bytes rs).set

/-- The expression that is built for a class, which is simpler for one member or none. -/
def built : CharClass → Expr
  | chars rs => .ofChars (chars rs).set
  | bytes rs => .ofByteSet (bytes rs).set

/-- A number lies in one of the ranges of a class. -/
def Holds (c : CharClass) (n : Nat) : Prop := ∃ r ∈ c.ranges, r.lo ≤ n ∧ n ≤ r.hi

/-- No range of a class is the wrong way round. -/
theorem ordered_ranges (c : CharClass) : ∀ r ∈ c.ranges, r.lo ≤ r.hi := by
  have between (a b : Nat) : (Range.between a b).lo ≤ (Range.between a b).hi :=
    Nat.le_trans (Nat.min_le_left a b) (Nat.le_max_left a b)
  cases c with
  | chars rs => exact List.forall_mem_map.mpr fun r _ => between _ _
  | bytes rs => exact List.forall_mem_map.mpr fun r _ => between _ _

/-- The set of a class is in normal form. -/
theorem canonical_set (c : CharClass) : c.set.Canonical :=
  RangeSet.canonical_ofRanges c.ordered_ranges

/-- The set of a class holds the values that the class holds. -/
theorem contains_set_iff {c : CharClass} {n : Nat} : c.set.contains n = true ↔ c.Holds n := by
  rw [set, RangeSet.contains_ofRanges, RangeSet.contains_iff]
  rfl

/-- The set of a class of bytes holds bytes only. -/
theorem hi_le_of_mem_set {rs : List (UInt8 × UInt8)} {r : Range} (mem : r ∈ (bytes rs).set) :
    r.hi ≤ 0xFF := by
  have ordered := (bytes rs).canonical_set.ordered r mem
  obtain ⟨q, memq, -, upper⟩ := contains_set_iff.mp
    (RangeSet.contains_iff.mpr ⟨r, mem, ordered, Nat.le_refl _⟩)
  obtain ⟨p, -, rfl⟩ := List.mem_map.mp memq
  have := p.1.toNat_lt
  have := p.2.toNat_lt
  exact Nat.le_trans upper (Nat.max_le.mpr ⟨by omega, by omega⟩)

/-- Clipping a class of bytes would change nothing. -/
theorem clipped_eq_clip (c : CharClass) : c.clipped = RangeSet.clip c.set := by
  cases c with
  | chars rs => rfl
  | bytes rs => exact ((bytes rs).canonical_set.clip_eq_self fun r => hi_le_of_mem_set).symm

/-- The bytes of a class are in normal form. -/
theorem canonical_clipped (c : CharClass) : c.clipped.Canonical :=
  c.clipped_eq_clip ▸ c.canonical_set.clip

/-- No range of the bytes of a class goes beyond them. -/
theorem hi_le_of_mem_clipped {c : CharClass} {r : Range} (mem : r ∈ c.clipped) : r.hi ≤ 0xFF :=
  RangeSet.hi_le_of_mem_clip (c.clipped_eq_clip ▸ mem)

/-- Clipping a class to bytes loses none of its bytes. -/
theorem contains_clipped_iff {c : CharClass} {n : Nat} (byte : n ≤ 0xFF) :
    c.clipped.contains n = true ↔ c.Holds n := by
  rw [clipped_eq_clip, RangeSet.contains_clip _ byte, contains_set_iff]

end CharClass

/-! ## Expressions of one instruction -/

/-- What holds of every byte holds of the numbers up to `0xFF`. -/
theorem forall_byte_iff {P : Nat → Prop} : (∀ b : UInt8, P b.toNat) ↔ ∀ n ≤ 0xFF, P n := by
  constructor
  · intro each n le
    have := each (UInt8.ofNat n)
    rwa [UInt8.toNat_ofNat', Nat.mod_eq_of_lt (by omega)] at this
  · intro each b
    have := b.toNat_lt
    exact each b.toNat (by omega)

theorem Emitter.seq_nothing (a : Emitter) : a.seq nothing = a := by
  funext pc used
  unfold seq nothing
  cases a pc used with
  | error o => rfl
  | ok s => exact congrArg Except.ok (by rw [List.append_nil])

/-- Only the set of all bytes becomes the instruction that reads any byte. -/
theorem Emitter.classInstruction_eq_consumeAny_iff {set : RangeSet} :
    classInstruction set = .consumeAny ↔ set = [⟨0, 0xFF⟩] := by
  unfold classInstruction
  split
  next full => exact ⟨fun _ => full, fun _ => rfl⟩
  next part => exact ⟨(absurd · (by simp)), fun full => absurd full part⟩

/-- No character becomes the instruction that reads any byte. -/
theorem Emitter.charInstruction_ne_consumeAny (c : Char) : charInstruction c ≠ .consumeAny := by
  unfold charInstruction
  cases Latin1.byte? c <;> simp

namespace Expr

/-- An expression is lowered to one instruction, under all limits and at every place. -/
def LowersTo (e : Expr) (i : Instruction) : Prop := ∀ l, e.emit l = .one l i

/-- A literal of one character is one instruction. -/
theorem lowersTo_literal {bs : List UInt8} {c : Char} (one : Utf8.decode bs = [c]) :
    (Expr.literal bs).LowersTo (Emitter.charInstruction c) := by
  intro l
  rw [emit, one]
  exact Emitter.seq_nothing _

/-- The expression that never matches becomes a class without members. -/
theorem lowersTo_fail : fail.LowersTo (.consumeClass []) := by
  intro l
  rw [fail, emit]
  rfl

/-- A set with one member at most lacks a byte. -/
theorem coversBytes_single (n : Nat) : RangeSet.coversBytes [Range.single n] = false := by
  refine Bool.eq_false_iff.mpr fun covers => ?_
  rw [RangeSet.coversBytes_iff] at covers
  have zero := covers 0 (by omega)
  have one := covers 1 (by omega)
  simp only [RangeSet.contains_iff, List.mem_singleton, exists_eq_left, Range.single] at zero one
  omega

/-- A set that lacks a byte is given by an expression that does not take every byte. -/
def Narrow (set : RangeSet) (e : Expr) : Prop :=
  set.coversBytes = false ∧ ∃ i, e.LowersTo i ∧ i ≠ .consumeAny

/-- An empty set lacks a byte, and the expression that never matches takes none. -/
theorem narrow_fail {set : RangeSet} (empty : set.isEmpty = true) : Narrow set fail := by
  obtain rfl := List.isEmpty_iff.mp empty
  exact ⟨rfl, _, lowersTo_fail, by decide⟩

/-- A set of one value lacks a byte, and a literal of one character does not take every byte. -/
theorem narrow_literal {set : RangeSet} {n : Nat} (one : set.single? = some n) {bs : List UInt8}
    {c : Char} (char : Utf8.decode bs = [c]) : Narrow set (.literal bs) := by
  rw [RangeSet.eq_of_single? one]
  exact ⟨coversBytes_single n, _, lowersTo_literal char, Emitter.charInstruction_ne_consumeAny c⟩

/-- What is built for characters is their class, unless that has one member at most. -/
theorem ofChars_cases (set : RangeSet) :
    ofChars set = .chars set ∨ Narrow set (ofChars set) := by
  unfold ofChars
  split
  next empty => exact .inr (narrow_fail empty)
  next =>
    split
    next n one =>
      split
      next => exact .inr (narrow_literal one (Utf8.decode_encode _))
      next => exact .inl rfl
    next => exact .inl rfl

/-- What is built for bytes is their class, unless that has one member at most. -/
theorem ofByteSet_cases (set : RangeSet) :
    ofByteSet set = .bytes set ∨ Narrow set (ofByteSet set) := by
  unfold ofByteSet
  split
  next empty => exact .inr (narrow_fail empty)
  next =>
    split
    next n one =>
      obtain ⟨c, char⟩ := List.length_eq_one_iff.mp (Utf8.length_decode_singleton (UInt8.ofNat n))
      exact .inr (narrow_literal one char)
    next => exact .inl rfl

end Expr

namespace CharClass

/-- A class node becomes the one instruction of its bytes. -/
theorem lowersTo_node (c : CharClass) :
    c.node.LowersTo (Emitter.classInstruction c.clipped) := by
  intro l
  cases c <;> rw [node, Expr.emit] <;> rfl

/-- The comparison with one full range tells whether a class holds every byte. -/
theorem classInstruction_clipped (c : CharClass) :
    Emitter.classInstruction c.clipped = .consumeAny ↔ ∀ b : UInt8, c.Holds b.toNat := by
  rw [Emitter.classInstruction_eq_consumeAny_iff,
    c.canonical_clipped.eq_full_iff fun r => hi_le_of_mem_clipped, RangeSet.coversBytes_iff,
    forall_byte_iff]
  exact forall₂_congr fun n byte => contains_clipped_iff byte

/-- A class becomes one instruction, which reads any byte exactly if the class holds every byte. -/
theorem lowersTo_built (c : CharClass) :
    ∃ i, c.built.LowersTo i ∧ (i = .consumeAny ↔ ∀ b : UInt8, c.Holds b.toNat) := by
  have cases : c.built = c.node ∨ Expr.Narrow c.set c.built := by
    cases c with
    | chars rs => exact Expr.ofChars_cases _
    | bytes rs => exact Expr.ofByteSet_cases _
  rcases cases with same | ⟨lacks, i, lowers, other⟩
  · exact ⟨_, same ▸ c.lowersTo_node, c.classInstruction_clipped⟩
  · refine ⟨i, lowers, fun any => absurd any other, fun all => ?_⟩
    rw [forall_byte_iff] at all
    rw [RangeSet.coversBytes_iff.mpr fun n byte => contains_set_iff.mpr (all n byte)] at lacks
    cases lacks

/-- Clipping a class is exact and gives its only canonical form: the ranges hold the bytes of the
class, in increasing order and apart from each other, so that there are at most 128 of them and
classes with the same bytes have the same ranges. The class is lowered to the instruction that takes
any byte exactly if it holds every byte, whether or not it is simplified before. -/
theorem clipped_exact (c : CharClass) :
    (∀ b : UInt8, (∃ r ∈ c.clipped, r.lo ≤ b.toNat ∧ b.toNat ≤ r.hi) ↔ c.Holds b.toNat) ∧
      c.clipped.Canonical ∧ (∀ r ∈ c.clipped, r.hi ≤ 0xFF) ∧ c.clipped.length ≤ 128 ∧
      (∀ d : CharClass,
        c.clipped = d.clipped ↔ ∀ b : UInt8, c.Holds b.toNat ↔ d.Holds b.toNat) ∧
      (∃ i, c.node.LowersTo i ∧ (i = .consumeAny ↔ ∀ b : UInt8, c.Holds b.toNat)) ∧
      ∃ i, c.built.LowersTo i ∧ (i = .consumeAny ↔ ∀ b : UInt8, c.Holds b.toNat) := by
  have members (c : CharClass) : ∀ b : UInt8, c.clipped.contains b.toNat = true ↔ c.Holds b.toNat :=
    fun b => contains_clipped_iff (Nat.le_of_lt_succ b.toNat_lt)
  refine ⟨fun b => RangeSet.contains_iff.symm.trans (members c b), c.canonical_clipped,
    fun r => hi_le_of_mem_clipped, ?_, fun d => ⟨?_, ?_⟩,
    ⟨_, c.lowersTo_node, c.classInstruction_clipped⟩, c.lowersTo_built⟩
  · have := c.canonical_clipped.length_le (fun r _ => Nat.zero_le r.lo)
      fun r => hi_le_of_mem_clipped
    omega
  · intro same b
    rw [← members c b, ← members d b, same]
  · intro same
    refine c.canonical_clipped.ext_bytes d.canonical_clipped (fun r => hi_le_of_mem_clipped)
      (fun r => hi_le_of_mem_clipped) (forall_byte_iff.mp fun b => ?_)
    rw [Bool.eq_iff_iff, members, members]
    exact same b

-- A range given backwards, one that overlaps it, one that touches it and one beyond the bytes.
example : (CharClass.chars [('z', 'm'), ('n', 'ÿ'), ('a', 'l'), ('Ā', 'ā')]).clipped =
    [⟨0x61, 0xFF⟩] := by decide

end CharClass

end PatternGate
