/-!
# Sets of code points as lists of ranges

A set is a list of ranges in increasing order, no two of which overlap or touch, so that equal sets
are equal lists. `insert` keeps this form, and the other operations are built from it or keep it by
themselves. Ranges compare code points as numbers. Where `diff` and `complement` cut a range they
step over the surrogate gap: the successor of `U+D7FF` is `U+E000`.
-/

namespace PatternGate

/-- The numbers from `lo` to `hi`, both included. -/
structure Range where
  lo : Nat
  hi : Nat
  deriving DecidableEq, Inhabited

namespace Range

/-- The range with the given ends, in either order. -/
def between (a b : Nat) : Range := ⟨min a b, max a b⟩

/-- The range of one number. -/
def single (a : Nat) : Range := ⟨a, a⟩

/-- Membership of a number. -/
def contains (r : Range) (n : Nat) : Bool := r.lo ≤ n && n ≤ r.hi

/-- The common part of two ranges. -/
def inter? (r s : Range) : Option Range :=
  if max r.lo s.lo ≤ min r.hi s.hi then some ⟨max r.lo s.lo, min r.hi s.hi⟩ else none

end Range

/-- The code point after `n`, over the surrogate gap. -/
def scalarSucc (n : Nat) : Nat := if n = 0xD7FF then 0xE000 else n + 1

/-- The code point before `n`, over the surrogate gap. -/
def scalarPred (n : Nat) : Nat := if n = 0xE000 then 0xD7FF else n - 1

/-- The greatest code point. -/
def scalarMax : Nat := 0x10FFFF

/-- A set of numbers as a list of ranges. -/
abbrev RangeSet := List Range

namespace RangeSet

/-- Membership of a number. -/
def contains (s : RangeSet) (n : Nat) : Bool := s.any (·.contains n)

/-- Adds a range. It swallows the ranges that it overlaps or touches. -/
def insert (r : Range) : RangeSet → RangeSet
  | [] => [r]
  | s :: rest =>
    if r.hi + 1 < s.lo then r :: s :: rest
    else if s.hi + 1 < r.lo then s :: insert r rest
    else insert ⟨min r.lo s.lo, max r.hi s.hi⟩ rest

/-- The numbers of either set. -/
def union (s t : RangeSet) : RangeSet := t.foldl (fun acc r => insert r acc) s

/-- The set of the numbers in any of the given ranges. -/
def ofRanges (rs : List Range) : RangeSet := union [] rs

/-- The numbers of both sets. -/
def inter (s t : RangeSet) : RangeSet := s.flatMap fun r => t.filterMap fun q => r.inter? q

/-- What is left of a range without another one. -/
def without (r q : Range) : List Range :=
  if r.hi < q.lo ∨ q.hi < r.lo then [r]
  else
    (if r.lo < q.lo then [⟨r.lo, scalarPred q.lo⟩] else []) ++
      (if q.hi < r.hi then [⟨scalarSucc q.hi, r.hi⟩] else [])

/-- The code points of the first set that are not in the second. -/
def diff (s t : RangeSet) : RangeSet := t.foldl (fun acc q => acc.flatMap fun r => without r q) s

/-- The code points of exactly one of the sets. -/
def symmDiff (s t : RangeSet) : RangeSet := diff (union s t) (inter s t)

/-- The gaps between the ranges of a set, and what follows the last of them. -/
def gaps (last : Nat) : RangeSet → RangeSet
  | [] => if last < scalarMax then [⟨scalarSucc last, scalarMax⟩] else []
  | r :: rest => Range.between (scalarSucc last) (scalarPred r.lo) :: gaps r.hi rest

/-- The code points that are not in the set. -/
def complement : RangeSet → RangeSet
  | [] => [⟨0, scalarMax⟩]
  | r :: rest => (if 0 < r.lo then [⟨0, scalarPred r.lo⟩] else []) ++ gaps r.hi rest

/-- The one number of a set with one member. -/
def single? : RangeSet → Option Nat
  | [r] => if r.lo = r.hi then some r.lo else none
  | _ => none

/-- The greatest member of a nonempty set. -/
def max? (s : RangeSet) : Option Nat := s.getLast?.map (·.hi)

/-- All members are ASCII. -/
def isAscii (s : RangeSet) : Bool := s.max?.all (· ≤ 0x7F)

/-- The members up to `U+00FF`, as a set of bytes. -/
def clip (s : RangeSet) : RangeSet :=
  s.filterMap fun r => if r.lo ≤ 0xFF then some ⟨r.lo, min r.hi 0xFF⟩ else none

end RangeSet

end PatternGate
