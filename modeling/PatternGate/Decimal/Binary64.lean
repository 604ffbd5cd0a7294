/-!
# Finite doubles

A double that is finite, without its sign, is a multiple of the least one, which is `2^(-1074)`. So
all arithmetic on doubles is arithmetic on natural numbers: the exact result of an operation is a
fraction of two of them, in units of `2^(-1074)`, and `nearest?` rounds it to a double. A number
that is written with a point or an exponent becomes a double in this way (`ofDecimal?`). Its digits
and the power of ten are rounded before they are multiplied or divided, and the result is rounded
once more.
-/

namespace PatternGate

/-- The integer nearest to `num / den`, and the even one of two that are equally near. -/
def nearestInteger (num den : Nat) : Nat :=
  let down := num / den
  let twice := 2 * (num % den)
  if twice < den ∨ twice = den ∧ down % 2 = 0 then down else down + 1

/-- A finite double without its sign: `m · 2^p` times the least double. It has at most 53 bits, and
all of them unless its unit is the least. -/
structure FiniteDouble where
  m : Nat
  p : Nat
  bits : m < Nat.pow 2 53
  full : Nat.pow 2 52 ≤ m ∨ p = 0
  finite : p ≤ 2045
  deriving DecidableEq

namespace FiniteDouble

/-- The double zero. -/
def zero : FiniteDouble := ⟨0, 0, by decide, .inr rfl, by decide⟩

/-- How many times the least double is one. -/
def one : Nat := Nat.pow 2 1074

/-- How many times the least double it is. -/
def size (x : FiniteDouble) : Nat := x.m * Nat.pow 2 x.p

/-- The double of these parts, if they are those of one. -/
def make? (m p : Nat) : Option FiniteDouble :=
  if valid : m < Nat.pow 2 53 ∧ (Nat.pow 2 52 ≤ m ∨ p = 0) ∧ p ≤ 2045 then
    some ⟨m, p, valid.1, valid.2.1, valid.2.2⟩
  else none

/-- The exponent of the unit in which `num / den` is rounded: what is left of it has 53 bits, if it
is not smaller from the start. -/
def unitOf (num den : Nat) : Nat := (num / den).log2 - 52

/-- The double nearest to `num / den` times the least one. What is too great for that has none. -/
def nearest? (num den : Nat) : Option FiniteDouble :=
  let p := unitOf num den
  let m := nearestInteger num (den * Nat.pow 2 p)
  if m = Nat.pow 2 53 then make? (Nat.pow 2 52) (p + 1) else make? m p

/-- The double nearest to an integer. -/
def ofNat? (n : Nat) : Option FiniteDouble := nearest? (n * one) 1

/-- The product of two doubles. -/
def times? (x y : FiniteDouble) : Option FiniteDouble :=
  nearest? (x.size * y.size) one

/-- The quotient of two doubles. -/
def over? (x y : FiniteDouble) : Option FiniteDouble :=
  nearest? (x.size * one) y.size

/-- The exponent of the greatest power of ten that is below all that is too great. -/
def powerMax : Nat := 308

/-- The double `x / 10^n`, in steps that doubles can divide by. -/
def divideByPower? : Nat → FiniteDouble → Nat → Option FiniteDouble
  | 0, _, _ => some zero
  | fuel + 1, x, n =>
    if n ≤ powerMax then (ofNat? (Nat.pow 10 n)).bind x.over?
    else if x.m = 0 then some x
    else do
      let y ← (ofNat? (Nat.pow 10 powerMax)).bind x.over?
      divideByPower? fuel y (n - powerMax)

/-- The double that a significand and a power of ten make. There is none if it is too great. -/
def ofDecimal? (significand : Nat) (exponent : Int) : Option FiniteDouble :=
  if exponent < 0 then do
    let x ← ofNat? significand
    divideByPower? 4 x exponent.natAbs
  else if exponent ≤ powerMax then do
    let x ← ofNat? significand
    let y ← ofNat? (Nat.pow 10 exponent.toNat)
    x.times? y
  else if significand = 0 then some zero
  else none

end FiniteDouble

end PatternGate
