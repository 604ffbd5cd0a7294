import PatternGate.Proofs.Program.Deeds
import PatternGate.Proofs.Program.Outline

/-!
# The account of memory is exact

The memory of a program is counted while it is written, when the targets of forks are not known yet,
and it is counted in 64-bit words. Neither shows in the account. `Settings.memory_of_program` says
that the memory of a program is the sum of the costs of its instructions as they stand in the end.
`Settings.account_in_words` says that no number that is computed on the way exceeds 64 bits, so that
a charge which does not fit never passes for one that does: the classes of an expression have at
most 128 ranges of bytes, and the targets of a wide fork cost less than the jumps between its
branches, which are paid for by then.
-/

namespace PatternGate

namespace Settings

/-- The memory of a program is that of its instructions, and it is within the budget. -/
theorem memory_of_program (s : Settings) (e : Expr) (p : Program)
    (compiled : s.program e = .ok p) :
    p.memory = (p.code.map Instruction.cost).sum ∧ p.memory ≤ s.programBudget.toNat := by
  have answer := s.mapError_program e
  rw [compiled] at answer
  split at answer
  next within =>
    cases answer
    refine ⟨?_, within⟩
    rw [Expr.instructions, List.map_append, List.sum_append, Plan.sum_cost_code]
    rfl
  next => cases answer

/-- The pattern `a(b|[0-9]|)|c`, a choice within a choice, takes 13 instructions, which have five
targets of wide forks and one range. -/
theorem memory_of_program_nested :
    let e : Expr := .alternation [.concat [.literal [0x61],
      .capture 1 none (.alternation [.literal [0x62], .chars [⟨0x30, 0x39⟩], .empty])],
      .literal [0x63]]
    ∃ p, ({} : Settings).program e = .ok p ∧ p.memory = 230 ∧
      p.memory = (p.code.map Instruction.cost).sum ∧
        p.memory ≤ ({} : Settings).programBudget.toNat := by
  intro e
  obtain ⟨p, compiled⟩ : ∃ p, ({} : Settings).program e = .ok p :=
    exists_program (by decide +kernel)
  have memory : ((({} : Settings).program e).toOption.map (·.memory)) = some 230 := by
    decide +kernel
  rw [compiled] at memory
  exact ⟨p, compiled, Option.some.inj memory, memory_of_program {} e p compiled⟩

end Settings

namespace Instruction

/-- The cost of an instruction in 64-bit arithmetic. -/
def costWord : Instruction → UInt64
  | consumeClass set => .ofNat baseCost + .ofNat rangeCost * .ofNat set.length
  | forkN targets => .ofNat baseCost + .ofNat targetCost * .ofNat targets.length
  | consume _ | consumeAny | fork2 _ _ | jump _ | writeRegister _ | assertion _ | accept =>
    .ofNat baseCost

/-- The products in the cost of an instruction. -/
def products : Instruction → List Nat
  | consumeClass set => [rangeCost * set.length]
  | forkN targets => [targetCost * targets.length]
  | consume _ | consumeAny | fork2 _ _ | jump _ | writeRegister _ | assertion _ | accept => []

theorem le_cost_of_mem_products {i : Instruction} {n : Nat} (mem : n ∈ i.products) :
    n ≤ i.cost := by
  cases i <;> simp_all [products, cost]

theorem toNat_costWord {i : Instruction} (small : i.cost < 2 ^ 64) :
    i.costWord.toNat = i.cost := by
  cases i <;> simp only [cost, costWord, baseCost, rangeCost, targetCost, UInt64.toNat_add,
    UInt64.toNat_mul, UInt64.toNat_ofNat'] at small ⊢ <;> omega

/-- The instruction of a class costs no more than that of every other byte. -/
theorem cost_class_le {set : RangeSet} (canonical : set.Canonical)
    (bytes : ∀ r ∈ set, r.hi ≤ 0xFF) : (Emitter.classInstruction set).cost ≤ 272 := by
  have ranges := canonical.length_le (fun r _ => Nat.zero_le r.lo) bytes
  unfold Emitter.classInstruction
  split
  · decide
  · simp only [cost, baseCost, rangeCost]
    omega

end Instruction

namespace Deed

/-- The numbers that are computed for a deed: products, costs and sums. -/
def amounts : Deed → List Nat
  | push used i => i.products ++ [i.cost, used + i.cost]
  | targets used count =>
    [Instruction.targetCost * count, used + Instruction.targetCost * count]
  | enter _ | turn _ => []

/-- The deed passes its check against a budget. -/
def passes (budget : Nat) : Deed → Bool
  | push used i => used + i.cost ≤ budget
  | targets used count => used + Instruction.targetCost * count ≤ budget
  | enter _ | turn _ => true

/-- The deed passes its check in 64-bit arithmetic. -/
def passesWord (budget : UInt64) : Deed → Bool
  | push used i => .ofNat used + i.costWord ≤ budget
  | targets used count => .ofNat used + .ofNat Instruction.targetCost * .ofNat count ≤ budget
  | enter _ | turn _ => true

/-- A check whose numbers are within 64 bits gives the same answer in 64-bit arithmetic. -/
theorem passesWord_eq {d : Deed} (small : ∀ n ∈ d.amounts, n < 2 ^ 64) (budget : UInt64) :
    d.passesWord budget = d.passes budget.toNat := by
  cases d with
  | enter path | turn t => rfl
  | push used i =>
    have cost := Instruction.toNat_costWord (small i.cost (by simp [amounts]))
    have sum := small (used + i.cost) (by simp [amounts])
    have exact : (.ofNat used + i.costWord : UInt64).toNat = used + i.cost := by
      rw [UInt64.toNat_add, UInt64.toNat_ofNat', cost]
      omega
    simp only [passes, passesWord, UInt64.le_iff_toNat_le, exact]
  | targets used count =>
    have sum := small (used + Instruction.targetCost * count) (by simp [amounts])
    have exact : (.ofNat used + .ofNat Instruction.targetCost * .ofNat count : UInt64).toNat =
        used + Instruction.targetCost * count := by
      rw [Instruction.targetCost] at sum ⊢
      simp only [UInt64.toNat_add, UInt64.toNat_mul, UInt64.toNat_ofNat']
      omega
    simp only [passes, passesWord, UInt64.le_iff_toNat_le, exact]

/-- The numbers of a deed for an expression with canonical classes are within 64 bits, if the budget
is at most two thirds of what 64 bits can hold. -/
theorem Fits.amounts_lt {l : Limits} {e : Expr} {path : List Nat} {d : Deed}
    (fits : d.Fits l e path) (canonical : e.Each Expr.ClassCanonical)
    (budget : 3 * l.budget < 2 * 2 ^ 64) : ∀ n ∈ d.amounts, n < 2 ^ 64 := by
  cases d with
  | enter path | turn t => exact fun n mem => absurd mem List.not_mem_nil
  | push used i =>
    obtain ⟨within, code⟩ := fits
    have cost : i.cost ≤ 272 := by
      rcases code with base | ⟨d, mem, written⟩
      · rw [base]
        decide
      · have classes := canonical d mem
        cases d with
        | chars set =>
          cases written
          exact Instruction.cost_class_le classes fun r => RangeSet.hi_le_of_mem_clip
        | bytes set =>
          cases written
          exact Instruction.cost_class_le classes.1 classes.2
        | _ => cases written
    intro n mem
    rcases List.mem_append.mp mem with product | sum
    · have := Instruction.le_cost_of_mem_products product
      omega
    · simp only [List.mem_cons, List.not_mem_nil, or_false] at sum
      omega
  | targets used count =>
    obtain ⟨within, jumps⟩ := fits
    intro n mem
    simp only [amounts, List.mem_cons, List.not_mem_nil, or_false, Instruction.targetCost,
      Instruction.baseCost] at mem jumps
    omega

end Deed

namespace Settings

/-- The budget is two thirds of the memory limit, rounded down, and nothing in its computation
exceeds 64 bits. Nor does anything in the account that is checked against it. The log of a run holds
all its charges, each on top of those before it, and every product, cost and sum for any of them is
exact in 64-bit arithmetic, and so is every check. -/
theorem account_in_words (s : Settings) :
    ((s.maxMemory / 3).toNat * 2 < 2 ^ 64 ∧ (s.maxMemory % 3).toNat * 2 < 2 ^ 64 ∧
      (s.maxMemory / 3 * 2).toNat + (s.maxMemory % 3 * 2 / 3).toNat < 2 ^ 64 ∧
        s.programBudget.toNat = 2 * s.maxMemory.toNat / 3) ∧
    ∀ e : Expr, e.Each Expr.ClassCanonical →
      (e.watchLower s.limits).result = e.lower s.limits ∧
        (e.watchLower s.limits).Keeps 0 Stretch.used ∧
        ∀ d ∈ (e.watchLower s.limits).log, (∀ n ∈ d.amounts, n < 2 ^ 64) ∧
          d.passesWord s.programBudget = d.passes s.limits.budget := by
  have bound := s.maxMemory.toNat_lt
  have budget := s.toNat_programBudget
  refine ⟨⟨?_, ?_, ?_, budget⟩, fun e canonical =>
    ⟨e.result_watchLower, e.keeps_watchLower, fun d mem => ?_⟩⟩
  · simp only [UInt64.toNat_div, UInt64.reduceToNat]
    omega
  · simp only [UInt64.toNat_mod, UInt64.reduceToNat]
    omega
  · simp only [UInt64.toNat_mul, UInt64.toNat_div, UInt64.toNat_mod, UInt64.reduceToNat]
    omega
  · have granted : 3 * s.limits.budget < 2 * 2 ^ 64 := by
      have total : s.limits.budget = 2 * s.maxMemory.toNat / 3 := budget
      omega
    have small := (e.every_watchLower d mem).amounts_lt canonical granted
    exact ⟨small, d.passesWord_eq small s.programBudget⟩

/-- The greatest memory limit, and the pattern `[0-9a-z]|b`. The charge of its two targets is made
on top of 116 bytes. -/
theorem account_in_words_greatest :
    let s : Settings := { maxMemory := 0xFFFFFFFFFFFFFFFF }
    let e : Expr := .alternation [.chars [⟨0x30, 0x39⟩, ⟨0x61, 0x7A⟩], .literal [0x62]]
    s.programBudget.toNat = 12297829382473034410 ∧ e.Each Expr.ClassCanonical ∧
      .targets 116 2 ∈ (e.watchLower s.limits).log ∧
        ∀ d ∈ (e.watchLower s.limits).log, (∀ n ∈ d.amounts, n < 2 ^ 64) ∧
          d.passesWord s.programBudget = d.passes s.limits.budget := by
  intro s e
  have canonical : e.Each Expr.ClassCanonical := by decide
  obtain ⟨⟨-, -, -, budget⟩, exact⟩ := account_in_words s
  exact ⟨budget.trans (by decide +kernel), canonical, by decide +kernel, (exact e canonical).2.2⟩

end Settings

end PatternGate
