import PatternGate.Decimal.Binary64

/-!
# Rounding to doubles

A fraction of two integers is rounded to a double unless it is too great, and that starts half a
unit behind the greatest double, at `2^1024 - 2^970` (`isSome_nearest?_iff`). For integers the
double is the one that keeps their first 53 bits, up to rounding (`ofNat?_eq_some`), and division by
a power of ten never gets too great. So the double of a decimal is missing exactly if the product of
two rounded integers is at least `2^1024 - 2^970`: `isSome_ofDecimal?_iff`.
-/

namespace PatternGate

/-- The number of 53 significant bits that is nearest to an integer. Of two that are equally near,
the one with an even last bit is taken. -/
def nearest53 (n : Nat) : Nat :=
  let unit := Nat.pow 2 (n.log2 - 52)
  let below := n / unit * unit
  let above := below + unit
  if n - below < above - n ∨ n - below = above - n ∧ n / unit % 2 = 0 then below else above

/-- What is too great for a double: it is not nearer to the greatest double, `2^1024 - 2^971`, than
to `2^1024`. -/
def doubleBound : Nat := Nat.pow 2 1024 - Nat.pow 2 970

/-- A significand times a power of ten is finite as a double. With a negative power this is always
so. Otherwise both are rounded, and their product must not be too great. -/
def FiniteProduct (significand : Nat) (exponent : Int) : Prop :=
  exponent < 0 ∨ significand = 0 ∨ exponent ≤ 308 ∧
    nearest53 significand * nearest53 (Nat.pow 10 exponent.toNat) < doubleBound

instance (significand : Nat) (exponent : Int) : Decidable (FiniteProduct significand exponent) :=
  inferInstanceAs (Decidable (_ ∨ _ ∨ _ ∧ _))

/-! ## Nearest integers -/

section Nearest

variable {num den : Nat}

/-- Rounding goes down or one up from there. -/
theorem nearestInteger_cases (num den : Nat) :
    nearestInteger num den = num / den ∨ nearestInteger num den = num / den + 1 := by
  unfold nearestInteger
  dsimp only
  split
  · exact .inl rfl
  · exact .inr rfl

/-- From an odd integer rounding goes up as soon as half of the way is reached. -/
theorem nearestInteger_of_odd (odd : num / den % 2 = 1) :
    nearestInteger num den = num / den + 1 ↔ den ≤ 2 * (num % den) := by
  unfold nearestInteger
  dsimp only
  split <;> omega

/-- Rounding depends on the value of a fraction only. -/
theorem nearestInteger_mul {k : Nat} (pos : 0 < k) :
    nearestInteger (num * k) (den * k) = nearestInteger num den := by
  have half : 2 * (num % den * k) = 2 * (num % den) * k := (Nat.mul_assoc ..).symm
  unfold nearestInteger
  simp only [Nat.mul_div_mul_right _ _ pos, Nat.mul_mod_mul_right, half, Nat.mul_lt_mul_right pos,
    Nat.mul_left_inj (Nat.pos_iff_ne_zero.mp pos)]

/-- An integer is its own rounding. -/
theorem nearestInteger_self (n : Nat) (pos : 0 < den) : nearestInteger (n * den) den = n := by
  unfold nearestInteger
  simp only [Nat.mul_div_cancel n pos, Nat.mul_mod_left, Nat.mul_zero]
  exact if_pos (.inl pos)

/-- Rounding to 53 bits counts in units of the last of them. -/
theorem nearest53_eq (n : Nat) :
    nearest53 n =
      nearestInteger n (Nat.pow 2 (n.log2 - 52)) * Nat.pow 2 (n.log2 - 52) := by
  have pos : 0 < Nat.pow 2 (n.log2 - 52) := Nat.two_pow_pos _
  unfold nearest53 nearestInteger
  revert pos
  generalize Nat.pow 2 (n.log2 - 52) = unit
  intro pos
  dsimp only
  have parts := Nat.div_add_mod' n unit
  have rest := Nat.mod_lt n pos
  have same : (n - n / unit * unit < n / unit * unit + unit - n ∨
      n - n / unit * unit = n / unit * unit + unit - n ∧ n / unit % 2 = 0) ↔
        (2 * (n % unit) < unit ∨ 2 * (n % unit) = unit ∧ n / unit % 2 = 0) := by omega
  simp only [same]
  split
  · rfl
  · exact (Nat.succ_mul ..).symm

/-- The unit of rounding is no greater than what is rounded. -/
theorem unit_le {n : Nat} (pos : 0 < n) : Nat.pow 2 (n.log2 - 52) ≤ n :=
  Nat.le_trans (Nat.pow_le_pow_right (by decide) (Nat.sub_le _ _))
    (Nat.log2_self_le (Nat.pos_iff_ne_zero.mp pos))

theorem nearest53_pos {n : Nat} (pos : 0 < n) : 0 < nearest53 n := by
  have unit_pos : 0 < Nat.pow 2 (n.log2 - 52) := Nat.two_pow_pos _
  have quotient := Nat.div_pos (unit_le pos) unit_pos
  rw [nearest53_eq]
  refine Nat.mul_pos ?_ unit_pos
  rcases nearestInteger_cases n (Nat.pow 2 (n.log2 - 52)) with same | same <;> omega

theorem nearest53_le (n : Nat) : nearest53 n ≤ 2 * n := by
  obtain rfl | pos := Nat.eq_zero_or_pos n
  · exact Nat.le_refl 0
  have unit := unit_le pos
  have down := Nat.div_mul_le_self n (Nat.pow 2 (n.log2 - 52))
  rw [nearest53_eq]
  rcases nearestInteger_cases n (Nat.pow 2 (n.log2 - 52)) with same | same
  · rw [same]
    omega
  · rw [same, Nat.succ_mul]
    omega

/-- An integer of 64 bits is finite as a double. -/
theorem finiteProduct_zero {n : Nat} (word : n < Nat.pow 2 64) : FiniteProduct n 0 := by
  have rounded := nearest53_le n
  have bound : 2 * Nat.pow 2 64 ≤ doubleBound := by decide +kernel
  refine .inr (.inr ⟨by decide, ?_⟩)
  have one : nearest53 (Nat.pow 10 (Int.toNat 0)) = 1 := rfl
  rw [one, Nat.mul_one]
  omega

end Nearest

namespace FiniteDouble

/-! ## Nearest doubles -/

theorem isSome_make?_iff {m p : Nat} :
    (make? m p).isSome = true ↔
      m < Nat.pow 2 53 ∧ (Nat.pow 2 52 ≤ m ∨ p = 0) ∧ p ≤ 2045 := by
  unfold make?
  split <;> simp_all

theorem size_of_make? {m p : Nat} {x : FiniteDouble} (made : make? m p = some x) :
    x.size = m * Nat.pow 2 p := by
  unfold make? at made
  split at made
  · cases made
    rfl
  · cases made

section Unit

variable (num den : Nat)

/-- The unit is large enough for 53 bits. -/
theorem div_unit_lt : num / (den * Nat.pow 2 (unitOf num den)) < Nat.pow 2 53 := by
  have bits : num / den < Nat.pow 2 ((num / den).log2 + 1) := Nat.lt_log2_self
  have enough : Nat.pow 2 ((num / den).log2 + 1) ≤ Nat.pow 2 (unitOf num den + 53) :=
    Nat.pow_le_pow_right (by decide) (by unfold unitOf; omega)
  have split : Nat.pow 2 (unitOf num den + 53) = Nat.pow 2 (unitOf num den) * Nat.pow 2 53 :=
    Nat.pow_add ..
  rw [← Nat.div_div_eq_div_mul]
  refine Nat.div_lt_of_lt_mul ?_
  omega

/-- The unit is the least, or it is small enough for all of the 53 bits to count. -/
theorem le_div_unit : unitOf num den = 0 ∨
    Nat.pow 2 52 ≤ num / (den * Nat.pow 2 (unitOf num den)) := by
  by_cases least : unitOf num den = 0
  · exact .inl least
  · refine .inr ?_
    have some : num / den ≠ 0 := by
      intro none
      exact least (by rw [unitOf, none]; rfl)
    have bits : Nat.pow 2 (num / den).log2 ≤ num / den := Nat.log2_self_le some
    have split : Nat.pow 2 (num / den).log2 = Nat.pow 2 52 * Nat.pow 2 (unitOf num den) := by
      rw [show (num / den).log2 = 52 + unitOf num den by unfold unitOf at least ⊢; omega]
      exact Nat.pow_add ..
    have pos : 0 < Nat.pow 2 (unitOf num den) := Nat.two_pow_pos _
    rw [← Nat.div_div_eq_div_mul, Nat.le_div_iff_mul_le pos]
    omega

variable {num den}

/-- A double is found unless its unit is too great. -/
theorem isSome_nearest?_iff_unit :
    (nearest? num den).isSome = true ↔
      if nearestInteger num (den * Nat.pow 2 (unitOf num den)) = Nat.pow 2 53 then
        unitOf num den + 1 ≤ 2045
      else unitOf num den ≤ 2045 := by
  have small := div_unit_lt num den
  have full := le_div_unit num den
  have cases := nearestInteger_cases num (den * Nat.pow 2 (unitOf num den))
  unfold nearest?
  dsimp only
  split
  · rw [isSome_make?_iff]
    have valid : Nat.pow 2 52 < Nat.pow 2 53 := by decide
    simp only [valid, Nat.le_refl, true_or, true_and]
  · rw [isSome_make?_iff]
    constructor
    · exact fun valid => valid.2.2
    · exact fun finite => ⟨by omega, by omega, finite⟩

theorem size_of_nearest? {x : FiniteDouble} (found : nearest? num den = some x) :
    x.size = nearestInteger num (den * Nat.pow 2 (unitOf num den)) *
      Nat.pow 2 (unitOf num den) := by
  unfold nearest? at found
  dsimp only at found
  split at found
  · rename_i carried
    rw [size_of_make? found, carried]
    show Nat.pow 2 52 * (Nat.pow 2 (unitOf num den) * 2) = _
    rw [Nat.mul_comm (Nat.pow 2 (unitOf num den)), ← Nat.mul_assoc]
  · exact size_of_make? found

end Unit

/-- What is too great starts in the middle of the last step of the greatest unit. -/
theorem unit_le_iff {num den top k bound : Nat} (pos : 0 < den) (greatest : top = k + 1)
    (middle : bound = (Nat.pow 2 54 - 1) * Nat.pow 2 k) :
    (if nearestInteger num (den * Nat.pow 2 (unitOf num den)) = Nat.pow 2 53 then
        unitOf num den + 1 ≤ top
      else unitOf num den ≤ top) ↔ num < den * bound := by
  subst greatest middle
  have small := div_unit_lt num den
  have full := le_div_unit num den
  generalize unitOf num den = p at *
  have grid : 0 < den * Nat.pow 2 p := Nat.mul_pos pos (Nat.two_pow_pos p)
  have literals : Nat.pow 2 52 = 4503599627370496 ∧ Nat.pow 2 53 = 9007199254740992 ∧
      Nat.pow 2 54 = 18014398509481984 := ⟨rfl, rfl, rfl⟩
  rw [Nat.mul_left_comm den]
  simp only [literals] at *
  rcases Nat.lt_trichotomy p (k + 1) with low | same | high
  · have unit : den * Nat.pow 2 p ≤ den * Nat.pow 2 k :=
      Nat.mul_le_mul_left den (Nat.pow_le_pow_right (by decide) (Nat.le_of_lt_succ low))
    rw [Nat.div_lt_iff_lt_mul grid] at small
    refine iff_of_true ?_ ?_
    · split <;> omega
    · omega
  · -- In the last unit it is the last step up that is too much, from an odd number of units.
    have unit : den * Nat.pow 2 p = 2 * (den * Nat.pow 2 k) := by
      rw [same, Nat.mul_left_comm]
      exact congrArg (den * ·) (Nat.mul_comm ..)
    have parts := Nat.div_add_mod num (den * Nat.pow 2 p)
    have rest := Nat.mod_lt num grid
    have steps := nearestInteger_cases num (den * Nat.pow 2 p)
    have goal : (if nearestInteger num (den * Nat.pow 2 p) = 9007199254740992 then p + 1 ≤ k + 1
        else p ≤ k + 1) ↔ nearestInteger num (den * Nat.pow 2 p) ≠ 9007199254740992 := by
      split <;> omega
    rw [goal]
    by_cases last : num / (den * Nat.pow 2 p) = 9007199254740991
    · have odd : num / (den * Nat.pow 2 p) % 2 = 1 := by omega
      have up := nearestInteger_of_odd odd
      rw [last] at up parts
      rw [ne_eq, up]
      omega
    · have fewer : num / (den * Nat.pow 2 p) < 9007199254740991 := by omega
      rw [Nat.div_lt_iff_lt_mul grid] at fewer
      refine iff_of_true ?_ ?_
      · omega
      · omega
  · have unit : den * Nat.pow 2 (k + 2) ≤ den * Nat.pow 2 p :=
      Nat.mul_le_mul_left den (Nat.pow_le_pow_right (by decide) high)
    have four : den * Nat.pow 2 (k + 2) = 4 * (den * Nat.pow 2 k) := by
      rw [Nat.mul_left_comm]
      exact congrArg (den * ·) ((Nat.mul_assoc ..).trans (Nat.mul_comm ..))
    rw [Nat.le_div_iff_mul_le grid] at full
    refine iff_of_false ?_ ?_
    · split <;> omega
    · omega

/-- What is rounded to a double: everything below the middle between the greatest double and the
next power of two. -/
theorem isSome_nearest?_iff {num den : Nat} (pos : 0 < den) :
    (nearest? num den).isSome = true ↔ num < den * (doubleBound * one) := by
  rw [isSome_nearest?_iff_unit]
  exact unit_le_iff (k := 2044) pos rfl (by decide +kernel)

/-! ## Integers -/

theorem log2_mul_pow {n : Nat} (pos : 0 < n) (j : Nat) :
    (n * Nat.pow 2 j).log2 = n.log2 + j := by
  have least : Nat.pow 2 n.log2 ≤ n := Nat.log2_self_le (Nat.pos_iff_ne_zero.mp pos)
  have greatest : n < Nat.pow 2 (n.log2 + 1) := Nat.lt_log2_self
  have scale : 0 < Nat.pow 2 j := Nat.two_pow_pos j
  refine (Nat.log2_eq_iff (Nat.pos_iff_ne_zero.mp (Nat.mul_pos pos scale))).mpr ⟨?_, ?_⟩
  · rw [Nat.pow_add]
    exact Nat.mul_le_mul_right _ least
  · rw [Nat.add_right_comm, Nat.pow_add]
    exact Nat.mul_lt_mul_of_pos_right greatest scale

/-- An integer is rounded to 53 bits, whatever the unit is in which it is counted. -/
theorem nearestInteger_unitOf (n : Nat) {j scale : Nat} (fine : 52 ≤ j)
    (power : scale = Nat.pow 2 j) :
    nearestInteger (n * scale) (1 * Nat.pow 2 (unitOf (n * scale) 1)) *
      Nat.pow 2 (unitOf (n * scale) 1) = nearest53 n * scale := by
  subst power
  have pos : ∀ i, 0 < Nat.pow 2 i := Nat.two_pow_pos
  rw [Nat.one_mul, unitOf, Nat.div_one]
  obtain rfl | some := Nat.eq_zero_or_pos n
  · have zero : nearest53 0 = 0 := rfl
    rw [zero, Nat.zero_mul]
    rfl
  rw [log2_mul_pow some, nearest53_eq]
  by_cases long : 52 ≤ n.log2
  · have unit : Nat.pow 2 (n.log2 + j - 52) = Nat.pow 2 (n.log2 - 52) * Nat.pow 2 j := by
      rw [show n.log2 + j - 52 = n.log2 - 52 + j by omega]
      exact Nat.pow_add ..
    rw [unit, nearestInteger_mul (pos j), Nat.mul_assoc]
  · have unit : Nat.pow 2 (n.log2 - 52) = 1 := by
      rw [show n.log2 - 52 = 0 by omega]
    have scale : Nat.pow 2 j = Nat.pow 2 (52 - n.log2) * Nat.pow 2 (n.log2 + j - 52) := by
      refine Eq.trans (congrArg (Nat.pow 2) ?_) (Nat.pow_add ..)
      omega
    have whole := nearestInteger_self n Nat.one_pos
    rw [Nat.mul_one] at whole
    rw [unit, whole, Nat.mul_one, scale, ← Nat.mul_assoc, nearestInteger_self _ (pos _)]

theorem one_pos : 0 < one := by decide +kernel

/-- Integers below the bound have a double, and it is what rounding to 53 bits makes of them. -/
theorem ofNat?_eq_some {n : Nat} (small : n < doubleBound) :
    ∃ x, ofNat? n = some x ∧ x.size = nearest53 n * one := by
  have fits : (ofNat? n).isSome = true := by
    rw [ofNat?, isSome_nearest?_iff Nat.one_pos, Nat.one_mul]
    exact Nat.mul_lt_mul_of_pos_right small one_pos
  obtain ⟨x, found⟩ := Option.isSome_iff_exists.mp fits
  refine ⟨x, found, ?_⟩
  rw [size_of_nearest? found]
  exact nearestInteger_unitOf n (j := 1074) (by decide) (by decide +kernel)

/-! ## Decimals -/

/-- The powers of ten that doubles are divided by and multiplied with have doubles themselves. -/
theorem ofNat?_pow_eq_some {n : Nat} (small : n ≤ powerMax) :
    ∃ y, ofNat? (Nat.pow 10 n) = some y ∧ y.size = nearest53 (Nat.pow 10 n) * one := by
  have greatest : Nat.pow 10 powerMax < doubleBound := by decide +kernel
  refine ofNat?_eq_some ?_
  revert small greatest
  generalize powerMax = top
  intro small greatest
  exact Nat.lt_of_le_of_lt (Nat.pow_le_pow_right (by decide) small) greatest

theorem size_lt_of_le (x : FiniteDouble) {top bound : Nat} (unit : x.p ≤ top)
    (great : (Nat.pow 2 53 - 1) * Nat.pow 2 top < bound) : x.size < bound := by
  have bits : x.m ≤ Nat.pow 2 53 - 1 := Nat.le_pred_of_lt x.bits
  have units : Nat.pow 2 x.p ≤ Nat.pow 2 top := Nat.pow_le_pow_right (by decide) unit
  exact Nat.lt_of_le_of_lt (Nat.mul_le_mul bits units) great

/-- No double is too great. -/
theorem size_lt (x : FiniteDouble) : x.size < doubleBound * one :=
  x.size_lt_of_le x.finite (by decide +kernel)

/-- A double has a quotient by a power of ten. -/
theorem exists_over?_pow (x : FiniteDouble) {n : Nat} (small : n ≤ powerMax) :
    ∃ y, (ofNat? (Nat.pow 10 n)).bind x.over? = some y := by
  obtain ⟨ten, power, size⟩ := ofNat?_pow_eq_some small
  have pos : 0 < nearest53 (Nat.pow 10 n) := nearest53_pos (Nat.pow_pos (by decide))
  have least : one ≤ ten.size := by
    rw [size]
    exact Nat.le_mul_of_pos_left one pos
  have some : 0 < ten.size := Nat.lt_of_lt_of_le one_pos least
  have quotient : (x.over? ten).isSome = true := by
    rw [over?, isSome_nearest?_iff some, Nat.mul_comm ten.size]
    exact Nat.mul_lt_mul_of_lt_of_le x.size_lt least some
  rw [power, Option.bind_some]
  exact Option.isSome_iff_exists.mp quotient

/-- Division by powers of ten, step by step, always has a result. -/
theorem isSome_divideByPower? (fuel : Nat) (x : FiniteDouble) (n : Nat) :
    (divideByPower? fuel x n).isSome = true := by
  induction fuel generalizing x n with
  | zero => rfl
  | succ fuel ih =>
    unfold divideByPower?
    split
    · exact Option.isSome_iff_exists.mpr (x.exists_over?_pow ‹_›)
    split
    · rfl
    · obtain ⟨y, quotient⟩ := x.exists_over?_pow (Nat.le_refl powerMax)
      rw [quotient, Option.bind_eq_bind, Option.bind_some]
      exact ih y (n - powerMax)

/-- A decimal has a double exactly if the product of its rounded parts is finite. -/
theorem isSome_ofDecimal?_iff {significand : Nat} (word : significand < Nat.pow 2 64)
    (exponent : Int) :
    (ofDecimal? significand exponent).isSome = true ↔ FiniteProduct significand exponent := by
  have small : Nat.pow 2 64 ≤ doubleBound := by decide +kernel
  obtain ⟨x, found, size⟩ := ofNat?_eq_some (Nat.lt_of_lt_of_le word small)
  unfold ofDecimal? FiniteProduct
  by_cases negative : exponent < 0
  · rw [if_pos negative, found, Option.bind_eq_bind, Option.bind_some]
    exact iff_of_true (isSome_divideByPower? 4 x exponent.natAbs) (.inl negative)
  rw [if_neg negative]
  by_cases within : exponent ≤ powerMax
  · obtain ⟨ten, power, size'⟩ := ofNat?_pow_eq_some (n := exponent.toNat) (by omega)
    have product : (x.times? ten).isSome = true ↔
        nearest53 significand * nearest53 (Nat.pow 10 exponent.toNat) < doubleBound := by
      rw [times?, isSome_nearest?_iff one_pos, size, size', Nat.mul_mul_mul_comm,
        Nat.mul_left_comm one, Nat.mul_lt_mul_right (Nat.mul_pos one_pos one_pos)]
    rw [if_pos within, found, Option.bind_eq_bind, Option.bind_some, power, Option.bind_some]
    refine product.trans ⟨fun finite => .inr (.inr ⟨within, finite⟩), ?_⟩
    rintro (less | rfl | ⟨-, finite⟩)
    · exact absurd less negative
    · have zero : nearest53 0 = 0 := rfl
      rw [zero, Nat.zero_mul]
      decide +kernel
    · exact finite
  · have beyond : ¬ exponent ≤ 308 := within
    rw [if_neg within]
    by_cases zero : significand = 0
    · rw [if_pos zero]
      exact iff_of_true rfl (.inr (.inl zero))
    · rw [if_neg zero]
      refine iff_of_false nofun ?_
      rintro (less | none | ⟨small, -⟩)
      · exact negative less
      · exact zero none
      · exact beyond small

/-- Rounding can go either way: the first number is less than the greatest double and has none, and
the second is more than half a unit beyond that double and has one. -/
example : ¬ FiniteProduct 17976931348623157081 289 ∧ FiniteProduct 179769313486231581 291 := by
  decide +kernel

end FiniteDouble

end PatternGate
