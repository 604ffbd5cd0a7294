import Mathlib.Order.CompletePartialOrder
import PatternGate.Proofs.Expr.Preference
import PatternGate.Proofs.Program.Walks

/-!
# Notes of registers in brackets

A capture notes the register where it starts before its body and the register where it ends after
it. Along any walk through a program, however often it goes around the loops and whichever options
and branches it takes, the registers noted form a word of brackets in which each capture opens and
closes (`Settings.registers_balanced`). The words of brackets are a language that contains the empty
word and all products of its members, which is what copies, options and loops need.
-/

namespace PatternGate

open scoped Computability

/-- A word of brackets: register `2 * i` opens the bracket that register `2 * i + 1` closes, and
what stands between them is balanced itself. -/
inductive Balanced : List Nat → Prop
  | nil : Balanced []
  | group (i : Nat) {inner rest : List Nat} (inside : Balanced inner) (after : Balanced rest) :
    Balanced (2 * i :: (inner ++ (2 * i + 1) :: rest))

/-- Balanced runs follow one another to a balanced run. -/
theorem Balanced.append {u v : List Nat} (first : Balanced u) (second : Balanced v) :
    Balanced (u ++ v) := by
  induction first with
  | nil => exact second
  | group i inside _ _ ih =>
    rw [List.cons_append, List.append_assoc, List.cons_append]
    exact .group i inside ih

/-- The register that an instruction notes, if it notes one. -/
def Plain.register? : Plain → Option Nat
  | writeRegister r => some r
  | consume _ | consumeAny | consumeClass _ | assertion _ => none

/-- Reading a byte of a set writes no register. -/
theorem Plain.register?_ofSet (set : RangeSet) : (ofSet set).register? = none := by
  unfold ofSet
  split <;> rfl

/-- Reading a character writes no register. -/
theorem Plain.register?_ofChar (c : Char) : (ofChar c).register? = none := by
  unfold ofChar
  split <;> rfl

/-- The registers that a word notes, in order. -/
def registers (w : List Plain) : List Nat := w.filterMap Plain.register?

/-- The words whose registers are balanced. -/
def brackets : Language Plain := {w | Balanced (registers w)}

/-- A language is bracketed if each of its words writes its registers in balance. -/
theorem le_brackets_iff {l : Language Plain} :
    l ≤ brackets ↔ ∀ w ∈ l, Balanced (registers w) := Iff.rfl

/-- Doing nothing is balanced. -/
theorem one_le_brackets : 1 ≤ brackets := by
  refine le_brackets_iff.mpr fun w none => ?_
  rw [Language.mem_one] at none
  rw [none]
  exact Balanced.nil

/-- Sequences of bracketed languages are bracketed. -/
theorem mul_brackets_le {l m : Language Plain} (first : l ≤ brackets) (second : m ≤ brackets) :
    l * m ≤ brackets := by
  refine le_brackets_iff.mpr fun w spelled => ?_
  obtain ⟨u, head, v, tail, rfl⟩ := Language.mem_mul.mp spelled
  rw [registers, List.filterMap_append]
  exact (le_brackets_iff.mp first u head).append (le_brackets_iff.mp second v tail)

/-- Repetitions of a bracketed language are bracketed. -/
theorem kstar_le_brackets {l : Language Plain} (le : l ≤ brackets) : l∗ ≤ brackets :=
  kstar_le_of_mul_le_left one_le_brackets (mul_brackets_le le_rfl le)

namespace Plan

/-- An instruction that writes no register is balanced. -/
theorem words_silent_le {i : Plain} (silent : i.register? = none) :
    (plain i).words ≤ brackets := by
  refine le_brackets_iff.mpr fun w spelled => ?_
  obtain rfl : w = [i] := spelled
  rw [registers, List.filterMap_cons_none silent]
  exact Balanced.nil

/-- Composing balanced plans keeps the balance. -/
theorem composes_brackets : Composes fun p _ => p.words ≤ brackets where
  nothing := one_le_brackets
  seq := mul_brackets_le
  option _ body := sup_le one_le_brackets body
  star _ := kstar_le_brackets
  plus _ body := mul_brackets_le body (kstar_le_brackets body)

variable {p : Plan} (le : p.words ≤ brackets)
include le

/-- A capture is a bracket around its body, if its registers can be told apart. -/
theorem words_capture_le (kept : Bool) {index : Nat} (small : 2 * index + 1 < UInt32.size) :
    (capture kept index p).words ≤ brackets := by
  cases kept with
  | false => exact le
  | true =>
    have opening : Emitter.register (2 * index) = 2 * index := Nat.mod_eq_of_lt (by omega)
    have closing : Emitter.register (2 * index + 1) = 2 * index + 1 := Nat.mod_eq_of_lt small
    refine le_brackets_iff.mpr fun w spelled => ?_
    obtain ⟨u, inside, rfl⟩ := exists_of_mem_words_capture spelled
    have notes : registers (.writeRegister (2 * index) :: (u ++ [.writeRegister (2 * index + 1)])) =
        2 * index :: (registers u ++ [2 * index + 1]) := by
      simp [registers, Plain.register?]
    rw [opening, closing, notes]
    exact .group index (le_brackets_iff.mp le u inside) .nil

end Plan

namespace Expr

/-- A text writes no register. -/
theorem words_ofChars_le (cs : List Char) : (Plan.ofChars cs).words ≤ brackets := by
  induction cs with
  | nil => exact one_le_brackets
  | cons c cs ih => exact mul_brackets_le (Plan.words_silent_le (Plain.register?_ofChar c)) ih

/-- A sequence is balanced if its items are. -/
theorem words_planAll_le {kept : Bool} {es : List Expr}
    (each : ∀ e ∈ es, (e.plan kept).words ≤ brackets) : (planAll kept es).words ≤ brackets := by
  induction es with
  | nil => exact one_le_brackets
  | cons e es ih =>
    rw [List.forall_mem_cons] at each
    exact mul_brackets_le each.1 (ih each.2)

/-- The walks through the code of an expression note registers in brackets. -/
theorem words_plan_le (kept : Bool) {e : Expr} (numbered : e.Each NodeNumbered) :
    (e.plan kept).words ≤ brackets := by
  induction e with
  | empty => exact one_le_brackets
  | literal bs => exact words_ofChars_le _
  | chars set => exact Plan.words_silent_le (Plain.register?_ofSet _)
  | bytes set => exact Plan.words_silent_le (Plain.register?_ofSet _)
  | look l => exact Plan.words_silent_le rfl
  | repetition min max greedy body ih =>
    have inner := ih (Each.repetition_iff.mp numbered).2
    exact Plan.composes_brackets.repetition (q := body.plan kept) inner min max greedy
  | capture index name body ih =>
    obtain ⟨small, inner⟩ := Each.capture_iff.mp numbered
    exact Plan.words_capture_le (ih inner) kept small
  | concat items ih =>
    exact words_planAll_le fun e mem => ih e mem ((Each.concat_iff.mp numbered).2 e mem)
  | alternation branches ih =>
    refine le_brackets_iff.mpr fun w spelled => ?_
    obtain ⟨e, mem, spelled⟩ := mem_words_alternation_iff.mp spelled
    exact le_brackets_iff.mp (ih e mem ((Each.alternation_iff.mp numbered).2 e mem)) w spelled

/-- What is put before a search writes no register. -/
theorem words_startPlan_le (e : Expr) : e.startPlan.words ≤ brackets := by
  unfold startPlan
  split
  · exact one_le_brackets
  · exact kstar_le_brackets (Plan.words_silent_le rfl)

end Expr

namespace Settings

/-- Along every walk from the first instruction of a program to its end, of any length, the notes of
registers are balanced: each start of a capture is closed by the end of the same capture, in proper
nesting, and none is left open. -/
theorem registers_balanced (s : Settings) (e : Expr) (numbered : e.Each Expr.NodeNumbered)
    (p : Program) (compiled : s.program e = .ok p) (passed : List Instruction) (stop : Nat)
    (walk : Walk p.code 0 passed stop) (accepts : p.code[stop]? = some .accept) :
    Balanced (registers (word passed)) := by
  rw [code_of_program compiled] at walk accepts
  have whole : (e.wholePlan (!s.neverCapture)).words ≤ brackets :=
    mul_brackets_le e.words_startPlan_le (Expr.words_plan_le _ numbered)
  exact le_brackets_iff.mp whole _ (Expr.word_mem_words walk accepts)

/-- The pattern `((b)*)+`, on a walk that goes around the outer loop twice and around the inner loop
in the first turn only. -/
theorem registers_balanced_loops :
    let s : Settings := { neverCapture := false }
    let e : Expr := .repetition 1 none true
      (.capture 1 none (.repetition 0 none true (.capture 2 none (.literal [0x62]))))
    e.Each Expr.NodeNumbered ∧
      ∃ p passed, s.program e = .ok p ∧ Walk p.code 0 passed 11 ∧ p.code[11]? = some .accept ∧
        registers (word passed) = [2, 4, 5, 3, 2, 3] ∧ Balanced (registers (word passed)) := by
  intro s e
  have numbered : e.Each Expr.NodeNumbered := by decide +kernel
  obtain ⟨p, compiled⟩ : ∃ p, s.program e = .ok p := exists_program (by decide +kernel)
  have code : p.code = [.fork2 3 1, .consumeAny, .jump 0, .writeRegister 2, .fork2 5 9,
      .writeRegister 4, .consume 0x62, .writeRegister 5, .jump 4, .writeRegister 3, .fork2 3 11,
      .accept] := by
    rw [code_of_program compiled]
    decide +kernel
  have again : Walk p.code 3 [.writeRegister 2, .fork2 5 9, .writeRegister 3, .fork2 3 11] 11 := by
    rw [code]
    exact .step rfl (by decide : 4 ∈ [4]) (.step rfl (by decide : 9 ∈ [5, 9])
      (.step rfl (by decide : 10 ∈ [10]) (.step rfl (by decide : 11 ∈ [3, 11]) (.stay 11))))
  have first : Walk p.code 0 [.fork2 3 1, .writeRegister 2, .fork2 5 9, .writeRegister 4,
      .consume 0x62, .writeRegister 5, .jump 4, .fork2 5 9, .writeRegister 3, .fork2 3 11] 3 := by
    rw [code]
    exact .step rfl (by decide : 3 ∈ [3, 1]) (.step rfl (by decide : 4 ∈ [4])
      (.step rfl (by decide : 5 ∈ [5, 9]) (.step rfl (by decide : 6 ∈ [6])
        (.step rfl (by decide : 7 ∈ [7]) (.step rfl (by decide : 8 ∈ [8])
          (.step rfl (by decide : 4 ∈ [4]) (.step rfl (by decide : 9 ∈ [5, 9])
            (.step rfl (by decide : 10 ∈ [10]) (.step rfl (by decide : 3 ∈ [3, 11])
              (.stay 3))))))))))
  have walk := first.trans again
  have accepts : p.code[11]? = some .accept := by rw [code]; rfl
  exact ⟨numbered, p, _, compiled, walk, accepts, rfl,
    registers_balanced s e numbered p compiled _ 11 walk accepts⟩

end Settings

end PatternGate
