import PatternGate.Decimal.Binary64

/-!
# The shortest decimal of a double

A finite double is `m · 2^q` for integers `m` and `q`. The reals that round to it form an interval,
whose ends belong to it when `m` is even. Among the decimals in that interval the shortest ones are
taken, and of these the nearest to the double. All of it is arithmetic on natural numbers: the three
points of the interval are integer multiples of one power of two.
-/

namespace PatternGate

/-- The number `digits · 10^exponent`. -/
structure Decimal where
  digits : Nat
  exponent : Int
  deriving DecidableEq

/-- A point of the number line, as a numerator and a denominator. -/
structure Fraction where
  num : Nat
  den : Nat
  deriving DecidableEq

namespace Fraction

/-- One fraction is below another. -/
def below (a b : Fraction) : Bool := a.num * b.den < b.num * a.den

/-- The distance of two fractions. -/
def distance (a b : Fraction) : Fraction :=
  let x := a.num * b.den
  let y := b.num * a.den
  ⟨if x ≤ y then y - x else x - y, a.den * b.den⟩

/-- The point `n · base^e`. -/
def scaled (base n : Nat) (e : Int) : Fraction :=
  if 0 ≤ e then ⟨n * base.pow e.toNat, 1⟩ else ⟨n, base.pow (-e).toNat⟩

end Fraction

/-- The point of a decimal. -/
def Decimal.point (d : Decimal) : Fraction := .scaled 10 d.digits d.exponent

namespace FiniteDouble

/-- The exponent of the unit: the double is `m · 2^q`. -/
def q (x : FiniteDouble) : Int := x.p - 1074

/-- The gap below a double is half the gap above it. -/
def narrowBelow (x : FiniteDouble) : Bool := x.m = Nat.pow 2 52 && x.p ≠ 0

/-- The point of a double. -/
def point (x : FiniteDouble) : Fraction := .scaled 2 x.m x.q

/-- A decimal rounds to the double. -/
def holds (x : FiniteDouble) (d : Decimal) : Bool :=
  let lo := Fraction.scaled 2 (4 * x.m - if x.narrowBelow then 1 else 2) (x.q - 2)
  let hi := Fraction.scaled 2 (4 * x.m + 2) (x.q - 2)
  if x.m % 2 = 0 then !d.point.below lo && !hi.below d.point
  else lo.below d.point && d.point.below hi

/-- The greatest multiple of `10^e` that is at most the double. -/
def floorAt (x : FiniteDouble) (e : Int) : Decimal :=
  let p := x.point
  ⟨if 0 ≤ e then p.num / (p.den * Nat.pow 10 e.toNat) else p.num * Nat.pow 10 (-e).toNat / p.den,
    e⟩

/-- The decimal with steps of `10^e` that rounds to the double and is nearest to it. Of two that are
equally near the even one is taken. -/
def nearestAt? (x : FiniteDouble) (e : Int) : Option Decimal :=
  let down := x.floorAt e
  let up : Decimal := ⟨down.digits + 1, e⟩
  match x.holds down, x.holds up with
  | true, true =>
    let toDown := down.point.distance x.point
    let toUp := up.point.distance x.point
    if toDown.below toUp then some down
    else if toUp.below toDown then some up
    else if down.digits % 2 = 0 then some down else some up
  | true, false => some down
  | false, true => some up
  | false, false => none

/-- The first hit among steps that get finer, from `10^e` on. -/
def search (x : FiniteDouble) : Nat → Int → Decimal
  | 0, e => x.floorAt e
  | fuel + 1, e =>
    match x.nearestAt? e with
    | some d => d
    | none => search x fuel (e - 1)

/-- The shortest decimal that rounds to the double. Steps start at `10^309`, above every double, and
the finest one that is needed is `10^(-324)`. -/
def shortest (x : FiniteDouble) : Decimal := x.search 640 309

end FiniteDouble

end PatternGate
