import PatternGate.Proofs.Json.Spelling

/-!
# Numbers of a spelling

A number is passed over by its form (`skipNumber_spelled`), or it is read into an integer or a
double. Reading takes the digits as far as 64 bits hold them and counts the others, in the whole
part, the fraction and the exponent, before doubles are multiplied or divided. That gives the number
that is spelled, whatever follows it and wherever it stands, and a fault if there is none
(`readNumber_spelled`). There is one exactly if the number is in range
(`NumberSpelling.isSome_value?_iff`).
-/

namespace PatternGate

/-! ## Digits -/

/-- Adding digits never makes a number smaller, so digits that do not fit are followed by none that
do. -/
theorem le_appendDigits (value : Nat) (ds : List Char) : value ≤ appendDigits value ds := by
  induction ds generalizing value with
  | nil => exact Nat.le_refl value
  | cons c ds ih =>
    have next : value ≤ value * 10 + (c.toNat - 48) := by omega
    exact Nat.le_trans next (ih _)

section Kept

variable {bound value : Nat} {ds : List Char}

theorem keptDigits_le : keptDigits bound value ds ≤ ds.length := Nat.findGreatest_le _

/-- Digits are kept one by one, up to the first that does not fit. -/
theorem keptDigits_cons (c : Char) :
    keptDigits bound value (c :: ds) =
      if value * 10 + (c.toNat - 48) < bound then
        keptDigits bound (value * 10 + (c.toNat - 48)) ds + 1
      else 0 := by
  by_cases fits : value * 10 + (c.toNat - 48) < bound
  · rw [if_pos fits]
    obtain ⟨least, kept, greatest⟩ := Nat.findGreatest_eq_iff.mp
      (rfl : keptDigits bound (value * 10 + (c.toNat - 48)) ds = _)
    refine Nat.findGreatest_eq_iff.mpr ⟨Nat.succ_le_succ least, fun _ => ?_, fun k more few => ?_⟩
    · by_cases none : keptDigits bound (value * 10 + (c.toNat - 48)) ds = 0
      · rw [none]
        exact fits
      · exact kept none
    · obtain _ | k := k
      · cases more
      exact greatest (Nat.lt_of_succ_lt_succ more) (Nat.le_of_succ_le_succ few)
  · rw [if_neg fits]
    refine Nat.findGreatest_eq_iff.mpr ⟨Nat.zero_le _, fun some => absurd rfl some, ?_⟩
    intro k more few less
    obtain _ | k := k
    · cases more
    exact fits (Nat.lt_of_le_of_lt (le_appendDigits _ (ds.take k)) less)

/-- The digits that are kept fit. -/
theorem appendDigits_kept_lt (small : value < bound) :
    appendDigits value (ds.take (keptDigits bound value ds)) < bound :=
  Nat.findGreatest_spec (m := 0) (P := fun k => appendDigits value (ds.take k) < bound)
    (Nat.zero_le _) small

/-- All digits are kept if all of them fit. -/
theorem keptDigits_eq_length_iff (small : value < bound) :
    keptDigits bound value ds = ds.length ↔ appendDigits value ds < bound := by
  constructor
  · intro all
    have fits : appendDigits value (ds.take (keptDigits bound value ds)) < bound :=
      appendDigits_kept_lt small
    rwa [all, List.take_length] at fits
  · intro fits
    refine Nat.findGreatest_eq ?_
    rwa [List.take_length]

end Kept

/-! ## Range -/

/-- A double is made of digits and an exponent exactly if they are in range. -/
theorem isSome_scaledDouble?_iff {significand : Nat} (word : significand < Nat.pow 2 64)
    (scale : Int) (e : Option ExponentSpelling) :
    (scaledDouble? significand scale e).isSome = true ↔ FiniteScaled significand scale e := by
  cases e with
  | none => exact FiniteDouble.isSome_ofDecimal?_iff word scale
  | some e =>
    rw [scaledDouble?, FiniteScaled]
    by_cases fits : e.size < Nat.pow 2 31
    · rw [if_pos fits, if_pos fits]
      exact FiniteDouble.isSome_ofDecimal?_iff word _
    · rw [if_neg fits, if_neg fits]
      split
      · exact iff_of_true rfl ‹_›
      · exact iff_of_false nofun ‹_›

namespace NumberSpelling

variable (n : NumberSpelling)

/-- The digits of the whole part that count make a number of 64 bits. -/
theorem wholeValue_lt : n.wholeValue < Nat.pow 2 64 := appendDigits_kept_lt (by decide)

/-- All digits that count make a number of 64 bits. -/
theorem significand_lt : n.significand < Nat.pow 2 64 := appendDigits_kept_lt n.wholeValue_lt

/-- Where there is neither a fraction nor an exponent, the digits of the whole part decide. -/
theorem isWord_iff : n.isWord = true ↔
    n.fraction = none ∧ n.exponent = none ∧ n.wholeKept = n.whole.chars.length := by
  simp [isWord, and_assoc]

/-- A number has a value exactly if it is in range. -/
theorem isSome_value?_iff : n.value?.isSome = true ↔ n.InRange := by
  unfold value?
  split
  · rename_i word
    obtain ⟨fraction, exponent, all⟩ := n.isWord_iff.mp word
    have kept : n.fractionKept = 0 := by
      rw [fractionKept, fraction]
      rfl
    have scale : n.scale = 0 := by
      rw [NumberSpelling.scale, all, kept, Nat.sub_self]
      rfl
    have range : n.InRange := by
      rw [InRange, exponent, scale]
      exact finiteProduct_zero n.significand_lt
    refine iff_of_true ?_ range
    unfold wordNumber?
    split
    · split
      · rw [Option.isSome_map]
        exact (FiniteDouble.isSome_ofDecimal?_iff n.significand_lt 0).mpr
          (finiteProduct_zero n.significand_lt)
      · rfl
    · rfl
  · rw [Option.isSome_map]
    exact isSome_scaledDouble?_iff n.significand_lt n.scale n.exponent

end NumberSpelling

namespace Scanner

/-- A run of digits is seen by its first one. -/
theorem atDigit_append {cs rest : List Char} (digits : ∀ c ∈ cs, c.isDigit = true)
    (stops : Stops Char.isDigit rest) (p : Place) :
    atDigit ⟨cs ++ rest, p⟩ = !cs.isEmpty := by
  cases cs with
  | nil =>
    cases rest with
    | nil => rfl
    | cons c rest => exact stops c rfl
  | cons c cs => exact digits c List.mem_cons_self

theorem isDigit_of_mem_drop {cs : List Char} (digits : ∀ c ∈ cs, c.isDigit = true) (k : Nat) :
    ∀ c ∈ cs.drop k, c.isDigit = true :=
  fun c mem => digits c (List.mem_of_mem_drop mem)

/-- Digits are added as far as they fit. -/
theorem addDigits_append {max bound : Nat} (next : bound = max + 1) (value : Nat) {cs : List Char}
    (digits : ∀ c ∈ cs, c.isDigit = true) {rest : List Char} (stops : Stops Char.isDigit rest)
    (p : Place) :
    addDigits max value ⟨cs ++ rest, p⟩ =
      ⟨appendDigits value (cs.take (keptDigits bound value cs)), keptDigits bound value cs,
        ⟨cs.drop (keptDigits bound value cs) ++ rest,
          p.afterAll (cs.take (keptDigits bound value cs))⟩⟩ := by
  have go : ∀ before, addDigits.go max value before (cs ++ rest) p =
      ⟨appendDigits value (cs.take (keptDigits bound value cs)),
        before + keptDigits bound value cs,
        ⟨cs.drop (keptDigits bound value cs) ++ rest,
          p.afterAll (cs.take (keptDigits bound value cs))⟩⟩ := by
    induction cs generalizing value p with
    | nil =>
      intro before
      cases rest with
      | nil => rfl
      | cons c rest =>
        rw [List.nil_append, addDigits.go, stops c rfl]
        rfl
    | cons c cs ih =>
      intro before
      obtain ⟨first, others⟩ := List.forall_mem_cons.mp digits
      rw [List.cons_append, addDigits.go, keptDigits_cons]
      by_cases fits : value * 10 + (c.toNat - 48) ≤ max
      · have more := ih (value * 10 + (c.toNat - 48)) others (p.after c) (before + 1)
        have fits' : value * 10 + (c.toNat - 48) < bound := next ▸ Nat.lt_succ_of_le fits
        simp only [first, fits, fits', decide_true, Bool.and_self, if_true, more]
        rw [Nat.add_assoc, Nat.add_comm 1]
        rfl
      · have fits' : ¬ value * 10 + (c.toNat - 48) < bound := by omega
        simp only [fits, fits', decide_false, Bool.and_false, Bool.false_eq_true, if_false]
        rfl
  have added := go 0
  rwa [Nat.zero_add] at added

/-- What can follow a number does not go on with it. -/
def EndsNumber (rest : List Char) : Prop :=
  Stops (fun c => c.isDigit || c = '.' || c = 'e' || c = 'E') rest

namespace EndsNumber

variable {rest : List Char}

/-- No digit follows a number. -/
theorem digit (ends : EndsNumber rest) : Stops Char.isDigit rest := by
  intro c next
  have other := ends c next
  simp only [Bool.or_eq_false_iff] at other
  exact other.1.1.1

/-- No point follows a number. -/
theorem head?_ne_point (ends : EndsNumber rest) : rest.head? ≠ some '.' := by
  intro next
  cases ends '.' next

/-- No exponent follows a number. -/
theorem atExponent (ends : EndsNumber rest) (p : Place) : Scanner.atExponent ⟨rest, p⟩ = false := by
  cases rest with
  | nil => rfl
  | cons c rest =>
    have other := ends c rfl
    simp only [Bool.or_eq_false_iff, decide_eq_false_iff_not] at other
    simp [Scanner.atExponent, other.1.2, other.2]

end EndsNumber

/-- A run of digits has a first one. -/
theorem DigitRun.cases (run : DigitRun) : ∃ d ds, run.chars = d :: ds ∧ d.isDigit = true := by
  obtain ⟨chars, some, digits⟩ := run
  cases chars with
  | nil => exact absurd rfl some
  | cons d ds => exact ⟨d, ds, rfl, digits d List.mem_cons_self⟩


/-! ## Reading -/

section Double

variable (positive : Bool) (significand : Nat) (exponent : Int)

/-- A decimal is read as its double, and is out of range if it has none. The scanner stays where it
is. -/
theorem doubleOf_reads (s : Scanner) :
    Reads (doubleOf positive significand exponent s)
      ((FiniteDouble.ofDecimal? significand exponent).map (.double (!positive))) s := by
  unfold doubleOf
  cases FiniteDouble.ofDecimal? significand exponent with
  | none => exact ⟨_, rfl, rfl⟩
  | some x => exact rfl

/-- An integer of 64 bits is read as what it spells, be it a double or not. -/
theorem integer_reads (s : Scanner) :
    Reads (integer positive significand s) (wordNumber? (!positive) significand) s := by
  unfold integer wordNumber?
  cases positive with
  | true => exact rfl
  | false =>
    by_cases double : significand = 0 ∨ Nat.pow 2 63 < significand
    · simp only [Bool.false_eq_true, if_false, Bool.not_false, if_true, if_pos double]
      exact doubleOf_reads false significand 0 s
    · simp only [Bool.false_eq_true, if_false, Bool.not_false, if_true, if_neg double]
      exact rfl

/-- What is read of an exponent behind its sign. -/
def readExponentDigits (negative : Bool) (s : Scanner) : Except JsonFault (JsonNumber × Scanner) :=
  let d := addDigits exponentMax 0 s
  if d.stop.atDigit then
    if significand ≠ 0 ∧ !negative then d.stop.faultNext .numberOutOfRange
    else .ok (.double (!positive) .zero, d.stop.dropWhile Char.isDigit)
  else
    doubleOf positive significand (if negative then exponent - d.value else exponent + d.value)
      d.stop

/-- An exponent is read behind its sign as the double that it makes of the digits before it. -/
theorem readExponentDigits_spelled (e : ExponentSpelling) {rest : List Char}
    (ends : EndsNumber rest) (p : Place) :
    Reads (readExponentDigits positive significand exponent e.negative ⟨e.run.chars ++ rest, p⟩)
      ((scaledDouble? significand exponent (some e)).map (.double (!positive)))
      ⟨rest, p.afterAll e.run.chars⟩ := by
  have added := addDigits_append (show Nat.pow 2 31 = exponentMax + 1 by decide) 0 e.run.digits
    ends.digit p
  have all : keptDigits (Nat.pow 2 31) 0 e.run.chars = e.run.chars.length ↔
      e.size < Nat.pow 2 31 := keptDigits_eq_length_iff (by decide)
  have left := isDigit_of_mem_drop e.run.digits (keptDigits (Nat.pow 2 31) 0 e.run.chars)
  rw [readExponentDigits, added]
  dsimp only
  rw [atDigit_append left ends.digit, dropWhile_append left ends.digit, scaledDouble?,
    ← Place.afterAll_append, List.take_append_drop]
  -- Digits are left if the exponent is beyond all doubles, and then only its sign counts.
  by_cases fits : e.size < Nat.pow 2 31
  · rw [if_pos fits, all.mpr fits, List.drop_length, List.take_length, if_neg (by decide)]
    exact doubleOf_reads positive significand (e.addTo exponent) _
  · have more : (e.run.chars.drop (keptDigits (Nat.pow 2 31) 0 e.run.chars)).isEmpty = false := by
      rw [List.isEmpty_eq_false_iff, ne_eq, List.drop_eq_nil_iff]
      exact fun few => fits (all.mp (Nat.le_antisymm keptDigits_le few))
    rw [if_neg fits, more, if_pos (by decide)]
    by_cases small : e.negative = true ∨ significand = 0
    · rw [if_pos small, if_neg (by rcases small with sign | zero <;> simp [*])]
      exact rfl
    · rw [if_neg small, if_pos (by simpa [and_comm] using small)]
      exact ⟨_, rfl, rfl⟩

/-- The sign of an exponent is passed over. -/
theorem readExponent_sign (e : ExponentSpelling) (rest : List Char) (p : Place) :
    readExponent positive significand exponent ⟨exponentText (some e) ++ rest, p⟩ =
      readExponentDigits positive significand exponent e.negative
        ⟨e.run.chars ++ rest, (p.after e.letter).afterAll e.sign⟩ := by
  obtain ⟨d, ds, run, digit⟩ := DigitRun.cases e.run
  have plus : d ≠ '+' := ne_of_isDigit digit rfl
  have minus : d ≠ '-' := ne_of_isDigit digit rfl
  have written : exponentText (some e) ++ rest = e.letter :: (e.sign ++ (d :: ds ++ rest)) := by
    rw [exponentText, run, List.cons_append, List.append_assoc]
  rw [readExponent, written, run, ExponentSpelling.negative]
  rcases e.signed with none | sign | sign
  · simp [none, bump, plus, minus, digit, readExponentDigits, Place.afterAll]
  · simp [sign, bump, digit, readExponentDigits, Place.afterAll]
  · simp [sign, bump, digit, readExponentDigits, Place.afterAll]

/-- An exponent is read from its letter on. -/
theorem readExponent_spelled (e : ExponentSpelling) {rest : List Char} (ends : EndsNumber rest)
    (p : Place) :
    Reads (readExponent positive significand exponent ⟨exponentText (some e) ++ rest, p⟩)
      ((scaledDouble? significand exponent (some e)).map (.double (!positive)))
      ⟨rest, p.afterAll (exponentText (some e))⟩ := by
  have digits := readExponentDigits_spelled positive significand exponent e ends
    ((p.after e.letter).afterAll e.sign)
  rwa [← readExponent_sign, ← Place.afterAll_append] at digits

/-- An exponent is seen by its letter. -/
theorem atExponent_exponentText (e : ExponentSpelling) (rest : List Char) (p : Place) :
    atExponent ⟨exponentText (some e) ++ rest, p⟩ = true := by
  rcases e.marked with letter | letter <;> simp [exponentText, atExponent, letter]

/-- Behind the digits of a double there is an exponent, or the double is complete. -/
theorem readDoubleEnd_spelled (e : Option ExponentSpelling) {rest : List Char}
    (ends : EndsNumber rest) (p : Place) :
    Reads (readDoubleEnd positive significand exponent ⟨exponentText e ++ rest, p⟩)
      ((scaledDouble? significand exponent e).map (.double (!positive)))
      ⟨rest, p.afterAll (exponentText e)⟩ := by
  cases e with
  | none =>
    have other : atExponent ⟨exponentText none ++ rest, p⟩ = false := ends.atExponent p
    rw [readDoubleEnd, other]
    exact doubleOf_reads positive significand exponent _
  | some e =>
    rw [readDoubleEnd, atExponent_exponentText]
    exact readExponent_spelled positive significand exponent e ends p

/-- What follows the digits of a number is none of them. -/
theorem stops_exponentText (e : Option ExponentSpelling) {rest : List Char}
    (ends : EndsNumber rest) : Stops Char.isDigit (exponentText e ++ rest) := by
  cases e with
  | none => exact ends.digit
  | some e =>
    intro c next
    cases next
    rcases e.marked with letter | letter <;> rw [letter] <;> rfl

/-- The double of a significand with more digits behind a point, and an exponent. -/
def tailDouble? (f : Option DigitRun) (e : Option ExponentSpelling) : Option FiniteDouble :=
  let kept := keptDigits (Nat.pow 2 64) significand (fractionDigits f)
  scaledDouble? (appendDigits significand ((fractionDigits f).take kept)) (exponent - kept) e

/-- The number of an integer of 64 bits with a fraction and an exponent, if there are any. -/
def endNumber? : Option DigitRun → Option ExponentSpelling → Option JsonNumber
  | none, none => wordNumber? (!positive) significand
  | f, e => (tailDouble? significand 0 f e).map (.double (!positive))

/-- The digits of a fraction count as far as they fit, and an exponent can follow. -/
theorem readFraction_spelled (run : DigitRun) (e : Option ExponentSpelling) {rest : List Char}
    (ends : EndsNumber rest) (p : Place) :
    Reads (readFraction positive significand exponent
        ⟨(fractionText (some run) ++ exponentText e) ++ rest, p⟩)
      ((tailDouble? significand exponent (some run) e).map (.double (!positive)))
      ⟨rest, p.afterAll (fractionText (some run) ++ exponentText e)⟩ := by
  have stops := stops_exponentText e ends
  have written : (fractionText (some run) ++ exponentText e) ++ rest =
      '.' :: (run.chars ++ (exponentText e ++ rest)) := by simp [fractionText]
  have after : p.afterAll (fractionText (some run) ++ exponentText e) =
      ((p.after '.').afterAll run.chars).afterAll (exponentText e) := by
    rw [Place.afterAll_append]
    rfl
  have added := addDigits_append (show Nat.pow 2 64 = wordMax + 1 by decide) significand
    run.digits stops (p.after '.')
  have left := isDigit_of_mem_drop run.digits (keptDigits (Nat.pow 2 64) significand run.chars)
  have ended := readDoubleEnd_spelled positive
    (appendDigits significand (run.chars.take (keptDigits (Nat.pow 2 64) significand run.chars)))
    (exponent - keptDigits (Nat.pow 2 64) significand run.chars) e ends
    ((p.after '.').afterAll run.chars)
  rw [written, after, readFraction, bump_cons, added]
  dsimp only
  rw [atDigit_append left stops, dropWhile_append left stops, ← Place.afterAll_append,
    List.take_append_drop]
  by_cases all : run.chars.drop (keptDigits (Nat.pow 2 64) significand run.chars) = []
  · have some : keptDigits (Nat.pow 2 64) significand run.chars ≠ 0 := by
      intro none
      rw [none] at all
      exact run.some all
    have whole := List.take_append_drop (keptDigits (Nat.pow 2 64) significand run.chars) run.chars
    rw [all, List.append_nil] at whole
    have place := congrArg (p.after '.').afterAll whole
    rw [all, if_neg (by decide), if_neg some, List.nil_append, place]
    exact ended
  · rw [if_pos (by simpa using all)]
    exact ended

end Double

/-- What follows the whole part of a number is none of its digits. -/
theorem stops_fractionText (f : Option DigitRun) (e : Option ExponentSpelling) {rest : List Char}
    (ends : EndsNumber rest) :
    Stops Char.isDigit ((fractionText f ++ exponentText e) ++ rest) := by
  cases f with
  | none => exact stops_exponentText e ends
  | some run =>
    intro c next
    cases next
    rfl

/-- What follows a number without a fraction does not start with a point. -/
theorem head?_exponentText_ne (e : Option ExponentSpelling) {rest : List Char}
    (ends : EndsNumber rest) : (exponentText e ++ rest).head? ≠ some '.' := by
  cases e with
  | none => exact ends.head?_ne_point
  | some e =>
    intro next
    have same : e.letter = '.' := Option.some.inj next
    rcases e.marked with letter | letter <;> rw [letter] at same <;> cases same

section Whole

variable (positive : Bool) (significand : Nat) (f : Option DigitRun) (e : Option ExponentSpelling)
  {rest : List Char} (ends : EndsNumber rest) (p : Place)
include ends

/-- What follows an integer of 64 bits makes a double of it. -/
theorem readNumberEnd_spelled :
    Reads (readNumberEnd positive significand ⟨(fractionText f ++ exponentText e) ++ rest, p⟩)
      (endNumber? positive significand f e)
      ⟨rest, p.afterAll (fractionText f ++ exponentText e)⟩ := by
  cases f with
  | some run => exact readFraction_spelled positive significand 0 run e ends p
  | none =>
    have bare : fractionText none ++ exponentText e = exponentText e := rfl
    rw [bare, readNumberEnd, if_neg (head?_exponentText_ne e ends)]
    cases e with
    | some e =>
      rw [atExponent_exponentText]
      exact readExponent_spelled positive significand 0 e ends p
    | none =>
      have other : atExponent ⟨exponentText none ++ rest, p⟩ = false := ends.atExponent p
      rw [other]
      exact integer_reads positive significand _

/-- Digits that do not fit count as powers of ten. -/
theorem readLongInteger_spelled {left : List Char} (digits : ∀ c ∈ left, c.isDigit = true) :
    Reads (readLongInteger positive significand
        ⟨(left ++ (fractionText f ++ exponentText e)) ++ rest, p⟩)
      ((tailDouble? significand left.length f e).map (.double (!positive)))
      ⟨rest, p.afterAll (left ++ (fractionText f ++ exponentText e))⟩ := by
  have count : ((left ++ ((fractionText f ++ exponentText e) ++ rest)).length : Int) -
      ((fractionText f ++ exponentText e) ++ rest).length = left.length := by
    rw [List.length_append]
    omega
  rw [List.append_assoc, readLongInteger, dropWhile_append digits (stops_fractionText f e ends),
    Place.afterAll_append]
  dsimp only
  rw [count]
  cases f with
  | some run => exact readFraction_spelled positive significand left.length run e ends _
  | none =>
    have bare : fractionText none ++ exponentText e = exponentText e := rfl
    rw [bare, if_neg (head?_exponentText_ne e ends)]
    exact readDoubleEnd_spelled positive significand left.length e ends _

end Whole

section Value

variable {n : NumberSpelling}

/-- The value of a number that is no integer of 64 bits. -/
theorem value?_of_not_isWord (other : ¬ n.isWord = true) :
    n.value? = (tailDouble? n.wholeValue ↑(n.whole.chars.length - n.wholeKept) n.fraction
      n.exponent).map (.double n.negative) := by
  rw [NumberSpelling.value?, if_neg other]
  rfl

/-- The value of a number whose whole part counts with all its digits. -/
theorem value?_of_kept (all : n.wholeKept = n.whole.chars.length) :
    n.value? = endNumber? (!n.negative) n.wholeValue n.fraction n.exponent := by
  by_cases word : n.isWord = true
  · obtain ⟨fraction, exponent, -⟩ := n.isWord_iff.mp word
    have same : n.significand = n.wholeValue := by
      rw [NumberSpelling.significand, fraction, fractionDigits, List.take_nil]
      rfl
    rw [NumberSpelling.value?, if_pos word, same, fraction, exponent, endNumber?, Bool.not_not]
  · have part : n.fraction = none → n.exponent = none → False := fun fraction exponent =>
      word (n.isWord_iff.mpr ⟨fraction, exponent, all⟩)
    rw [value?_of_not_isWord word, all, Nat.sub_self, endNumber?.eq_2 _ _ _ _ part, Bool.not_not]
    rfl

end Value

/-- A number is read as the value that it spells. -/
theorem readNumber_spelled (n : NumberSpelling) {rest : List Char} (ends : EndsNumber rest)
    (p : Place) :
    Reads (readNumber (!n.negative) ⟨n.unsigned ++ rest, p⟩) n.value?
      ⟨rest, p.afterAll n.unsigned⟩ := by
  obtain ⟨d, ds, run, digit⟩ := DigitRun.cases n.whole
  have stops := stops_fractionText n.fraction n.exponent ends
  have written : n.unsigned ++ rest =
      n.whole.chars ++ ((fractionText n.fraction ++ exponentText n.exponent) ++ rest) :=
    List.append_assoc ..
  have after : p.afterAll n.unsigned =
      (p.afterAll n.whole.chars).afterAll (fractionText n.fraction ++ exponentText n.exponent) :=
    Place.afterAll_append ..
  rw [written, after]
  by_cases zero : d = '0'
  · have alone : n.whole.chars = ['0'] :=
      n.proper.resolve_right fun other => other (by rw [run, zero]; rfl)
    have single := atDigit_append (List.forall_mem_nil _) stops (p.after '0')
    rw [List.nil_append] at single
    have all : n.wholeKept = n.whole.chars.length := by
      rw [NumberSpelling.wholeKept, alone]
      decide
    have value : n.wholeValue = 0 := by
      rw [NumberSpelling.wholeValue, all, List.take_length, alone]
      rfl
    rw [value?_of_kept all, value, alone, List.singleton_append, readNumber, bump_cons, single]
    dsimp only
    rw [if_pos rfl, if_neg (by decide)]
    exact readNumberEnd_spelled (!n.negative) 0 n.fraction n.exponent ends _
  · have added := addDigits_append (show Nat.pow 2 64 = wordMax + 1 by decide) 0 n.whole.digits
      stops p
    have left := isDigit_of_mem_drop n.whole.digits n.wholeKept
    have read : readNumber (!n.negative) ⟨n.whole.chars ++
        ((fractionText n.fraction ++ exponentText n.exponent) ++ rest), p⟩ =
          let stop : Scanner := ⟨n.whole.chars.drop n.wholeKept ++
            ((fractionText n.fraction ++ exponentText n.exponent) ++ rest),
            p.afterAll (n.whole.chars.take n.wholeKept)⟩
          if stop.atDigit then readLongInteger (!n.negative) n.wholeValue stop
          else readNumberEnd (!n.negative) n.wholeValue stop := by
      rw [run] at added ⊢
      rw [List.cons_append, readNumber]
      dsimp only
      rw [if_neg zero, if_pos digit, ← List.cons_append, added, NumberSpelling.wholeKept,
        NumberSpelling.wholeValue, NumberSpelling.wholeKept, run]
    rw [read]
    dsimp only
    rw [atDigit_append left stops]
    by_cases all : n.wholeKept = n.whole.chars.length
    · rw [all, List.drop_length, List.take_length, if_neg (by decide), value?_of_kept all]
      exact readNumberEnd_spelled (!n.negative) n.wholeValue n.fraction n.exponent ends _
    · have more : n.whole.chars.drop n.wholeKept ≠ [] := by
        rw [ne_eq, List.drop_eq_nil_iff]
        exact fun few => all (Nat.le_antisymm keptDigits_le few)
      have long := readLongInteger_spelled (!n.negative) n.wholeValue n.fraction n.exponent ends
        (p.afterAll (n.whole.chars.take n.wholeKept)) left
      have place : ∀ cs, (p.afterAll (n.whole.chars.take n.wholeKept)).afterAll
          (n.whole.chars.drop n.wholeKept ++ cs) = (p.afterAll n.whole.chars).afterAll cs := by
        intro cs
        rw [← Place.afterAll_append, ← List.append_assoc, List.take_append_drop,
          Place.afterAll_append]
      rw [List.append_assoc, place, List.length_drop, Bool.not_not] at long
      rw [if_pos (by simpa using more), value?_of_not_isWord fun word =>
        all (n.isWord_iff.mp word).2.2]
      exact long

/-- An exponent is passed over, whatever its size. -/
theorem skipExponent_spelled (e : ExponentSpelling) {rest : List Char} (ends : EndsNumber rest)
    (p : Place) :
    skipExponent ⟨exponentText (some e) ++ rest, p⟩ =
      .ok ⟨rest, p.afterAll (exponentText (some e))⟩ := by
  obtain ⟨d, ds, run, digit⟩ := DigitRun.cases e.run
  have plus : d ≠ '+' := ne_of_isDigit digit rfl
  have minus : d ≠ '-' := ne_of_isDigit digit rfl
  have written : exponentText (some e) ++ rest = e.letter :: (e.sign ++ (e.run.chars ++ rest)) := by
    rw [exponentText, List.cons_append, List.append_assoc]
  have sign : ∀ q, (if (e.sign ++ (e.run.chars ++ rest)).head? = some '+' ||
      (e.sign ++ (e.run.chars ++ rest)).head? = some '-' then
        bump ⟨e.sign ++ (e.run.chars ++ rest), q⟩ else ⟨e.sign ++ (e.run.chars ++ rest), q⟩) =
          ⟨e.run.chars ++ rest, q.afterAll e.sign⟩ := by
    intro q
    rcases e.signed with none | sign | sign
    · simp [none, run, plus, minus, Place.afterAll]
    · rw [sign]
      rfl
    · rw [sign]
      rfl
  have after : p.afterAll (exponentText (some e)) =
      ((p.after e.letter).afterAll e.sign).afterAll e.run.chars := by
    rw [← Place.afterAll_append]
    rfl
  have nonempty : e.run.chars.isEmpty = false := List.isEmpty_eq_false_iff.mpr e.run.some
  rw [skipExponent, written, bump_cons, after]
  dsimp only
  rw [sign, atDigit_append e.run.digits ends.digit, nonempty,
    dropWhile_append e.run.digits ends.digit]
  rfl

/-- A fraction and an exponent are passed over, if they are there. -/
theorem skipNumberEnd_spelled (f : Option DigitRun) (e : Option ExponentSpelling)
    {rest : List Char} (ends : EndsNumber rest) (p : Place) :
    skipNumberEnd ⟨(fractionText f ++ exponentText e) ++ rest, p⟩ =
      .ok ⟨rest, p.afterAll (fractionText f ++ exponentText e)⟩ := by
  have tail : ∀ q, (if atExponent ⟨exponentText e ++ rest, q⟩ then
      skipExponent ⟨exponentText e ++ rest, q⟩ else .ok ⟨exponentText e ++ rest, q⟩) =
        .ok ⟨rest, q.afterAll (exponentText e)⟩ := by
    intro q
    cases e with
    | none =>
      have other : atExponent ⟨exponentText none ++ rest, q⟩ = false := ends.atExponent q
      rw [other]
      rfl
    | some e =>
      rw [atExponent_exponentText, skipExponent_spelled e ends]
      rfl
  cases f with
  | none =>
    have bare : fractionText none ++ exponentText e = exponentText e := rfl
    rw [bare, skipNumberEnd]
    dsimp only
    rw [if_neg (head?_exponentText_ne e ends)]
    exact tail p
  | some run =>
    have stops := stops_exponentText e ends
    have nonempty : run.chars.isEmpty = false := List.isEmpty_eq_false_iff.mpr run.some
    have written : (fractionText (some run) ++ exponentText e) ++ rest =
        '.' :: (run.chars ++ (exponentText e ++ rest)) := by simp [fractionText]
    rw [written, Place.afterAll_append, skipNumberEnd, bump_cons,
      dropWhile_append run.digits stops, atDigit_append run.digits stops, nonempty]
    dsimp only
    rw [if_pos List.head?_cons, if_neg (by decide)]
    exact tail _

/-- A number is passed over, whatever its size. -/
theorem skipNumber_spelled (n : NumberSpelling) {rest : List Char} (ends : EndsNumber rest)
    (p : Place) :
    skipNumber ⟨n.unsigned ++ rest, p⟩ = .ok ⟨rest, p.afterAll n.unsigned⟩ := by
  obtain ⟨d, ds, run, digit⟩ := DigitRun.cases n.whole
  have stops := stops_fractionText n.fraction n.exponent ends
  have tail := fun q => skipNumberEnd_spelled n.fraction n.exponent ends q
  rw [NumberSpelling.unsigned, Place.afterAll_append, List.append_assoc, skipNumber]
  by_cases zero : d = '0'
  · have alone : n.whole.chars = ['0'] :=
      n.proper.resolve_right fun other => other (by rw [run, zero]; rfl)
    have single := atDigit_append (List.forall_mem_nil _) stops (p.after '0')
    rw [List.nil_append] at single
    rw [alone, List.singleton_append, bump_cons, single]
    dsimp only
    rw [if_pos List.head?_cons, if_neg (by decide)]
    exact tail _
  · have first : (n.whole.chars ++ ((fractionText n.fraction ++ exponentText n.exponent) ++
        rest)).head? ≠ some '0' := by
      rw [run]
      exact fun same => zero (Option.some.inj same)
    have nonempty : n.whole.chars.isEmpty = false := List.isEmpty_eq_false_iff.mpr n.whole.some
    dsimp only
    rw [if_neg first, atDigit_append n.whole.digits stops, nonempty, if_pos (by decide),
      dropWhile_append n.whole.digits stops]
    exact tail _

end Scanner

end PatternGate
