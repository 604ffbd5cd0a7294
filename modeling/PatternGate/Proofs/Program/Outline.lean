import Mathlib.Algebra.GroupWithZero.Nat
import Mathlib.Data.List.Forall2
import PatternGate.Proofs.Expr.Sense
import PatternGate.Proofs.Program.Budget

/-!
# What of an expression its program depends on

Without captures, the program of an expression and its memory are settled by the outline of the
expression: its greatest length, whether it leads with the start of the text, and its code at every
place. Expressions of one outline have one answer under all settings
(`Settings.program_eq_of_outline`).

Outlines multiply as sequences do, and a repetition depends on its body only through the outline, so
that an outline passes from parts to wholes. A choice depends on its branches in the same way, but
building an alternation does not: whether branches are joined into a class or share their start
shows in the branches themselves, not in their code.
-/

namespace PatternGate

namespace Plan

/-- The cost of branches is that of their instructions, with the jumps between them. -/
theorem sum_cost_join (stop pc : Nat) (bs : List Plan)
    (each : ∀ b ∈ bs, ∀ pc, ((b.code pc).map Instruction.cost).sum = b.cost) :
    ((Branches.join stop (codes pc bs)).map Instruction.cost).sum = costBranches bs := by
  induction bs generalizing pc with
  | nil => rfl
  | cons b bs ih =>
    rw [List.forall_mem_cons] at each
    cases bs with
    | nil => simp [codes, Branches.join, costBranches, each.1]
    | cons c bs =>
      have rest := ih (pc + b.size + 1) each.2
      simp only [codes] at rest
      simp only [codes, Branches.join, costBranches, List.map_append, List.map_cons,
        List.sum_append, List.sum_cons, each.1, Instruction.cost]
      rw [rest, Nat.add_assoc]

/-- The memory of a plan is the cost of its instructions. -/
theorem sum_cost_code (p : Plan) (pc : Nat) : ((p.code pc).map Instruction.cost).sum = p.cost := by
  induction p generalizing pc with
  | nothing => rfl
  | plain i => simp [code, cost]
  | seq first second ihf ihs => simp [code, cost, ihf, ihs]
  | option greedy body ih => cases greedy <;> simp [code, cost, ih, Emitter.fork, Instruction.cost]
  | star greedy body ih =>
    cases greedy <;> simp [code, cost, ih, Emitter.fork, Instruction.cost, Nat.add_assoc]
  | plus greedy body ih => cases greedy <;> simp [code, cost, ih, Emitter.fork, Instruction.cost]
  | choice branches ih =>
    simp only [code, cost, List.map_cons, List.sum_cons, sum_cost_join _ _ branches ih,
      Instruction.cost, length_starts]
    omega

/-- Two plans have the same code at every place. -/
def Alike (p q : Plan) : Prop := ∀ pc, p.code pc = q.code pc

namespace Alike

variable {p q r t : Plan}

/-- A plan is like itself. -/
theorem refl (p : Plan) : p.Alike p := fun _ => rfl

/-- Plans of the same code take as much room. -/
theorem size_eq (alike : p.Alike q) : p.size = q.size := by
  rw [← length_code p 0, ← length_code q 0, alike 0]

/-- Plans of the same code cost as much. -/
theorem cost_eq (alike : p.Alike q) : p.cost = q.cost := by
  rw [← sum_cost_code p 0, ← sum_cost_code q 0, alike 0]

/-- Sequences of plans are alike part by part. -/
theorem seq (first : p.Alike q) (second : r.Alike t) : (p.seq r).Alike (q.seq t) := by
  intro pc
  rw [code, code, first pc, first.size_eq, second]

/-- Options are alike if their bodies are. -/
theorem option (greedy : Bool) (body : p.Alike q) :
    (Plan.option greedy p).Alike (.option greedy q) := by
  intro pc
  rw [code, code, body, body.size_eq]

/-- Loops are alike if their bodies are. -/
theorem star (greedy : Bool) (body : p.Alike q) : (p.star greedy).Alike (q.star greedy) := by
  intro pc
  rw [code, code, body, body.size_eq]

/-- Loops that are taken at least once are alike if their bodies are. -/
theorem plus (greedy : Bool) (body : p.Alike q) : (p.plus greedy).Alike (q.plus greedy) := by
  intro pc
  rw [code, code, body, body.size_eq]

/-- Plans that are composed of like plans in the same way are alike. -/
theorem composes : Composes Alike := ⟨.refl _, .seq, .option, .star, .plus⟩

/-- Branches that are alike one by one take as much room together. -/
theorem sizeBranches_eq {ps qs : List Plan} (each : List.Forall₂ Alike ps qs) :
    sizeBranches ps = sizeBranches qs := by
  induction each with
  | nil => rfl
  | cons head rest ih =>
    cases rest with
    | nil => exact head.size_eq
    | cons => simp only [sizeBranches, head.size_eq, ih]

/-- Branches that are alike one by one start at the same places. -/
theorem starts_eq {ps qs : List Plan} (each : List.Forall₂ Alike ps qs) (pc : Nat) :
    starts pc ps = starts pc qs := by
  induction each generalizing pc with
  | nil => rfl
  | cons head rest ih => rw [starts_cons, starts_cons, head.size_eq, ih]

/-- Branches that are alike one by one have the same code. -/
theorem codes_eq {ps qs : List Plan} (each : List.Forall₂ Alike ps qs) (pc : Nat) :
    codes pc ps = codes pc qs := by
  induction each generalizing pc with
  | nil => rfl
  | cons head rest ih => rw [codes, codes, head pc, head.size_eq, ih]

/-- A choice has the code that its branches give it. -/
theorem choice {ps qs : List Plan} (each : List.Forall₂ Alike ps qs) :
    (Plan.choice ps).Alike (.choice qs) := by
  intro pc
  rw [code, code, starts_eq each, codes_eq each, sizeBranches_eq each]

end Alike

/-- The code of a text is that of its parts, one behind the other. -/
theorem code_ofChars_append (cs ds : List Char) (pc : Nat) :
    (ofChars (cs ++ ds)).code pc =
      (ofChars cs).code pc ++ (ofChars ds).code (pc + ((ofChars cs).code pc).length) := by
  induction cs generalizing pc with
  | nil => simp [ofChars, code]
  | cons c cs ih =>
    simp [ofChars, code, ih, size, Nat.add_assoc, Nat.add_comm 1]

end Plan

/-- What of an expression its program depends on: its greatest length, whether it leads with the
start of the text, and its code at every place. -/
@[ext]
structure Outline where
  length : Option Nat
  leads : Bool
  code : Nat → List Instruction

namespace Outline

instance : One Outline where
  one := ⟨some 0, false, fun _ => []⟩

instance : Mul Outline where
  mul a b :=
    ⟨do return (← a.length) + (← b.length), a.leads || (a.length == some 0 && b.leads),
      fun pc => a.code pc ++ b.code (pc + (a.code pc).length)⟩

/-- The outline of nothing: no length, no anchor and no code. -/
theorem one_def : (1 : Outline) = ⟨some 0, false, fun _ => []⟩ := rfl

/-- The outline of a sequence: lengths are added, the first part leads, or the second if the first
is empty, and code follows code. -/
theorem mul_def (a b : Outline) : a * b =
    ⟨do return (← a.length) + (← b.length), a.leads || (a.length == some 0 && b.leads),
      fun pc => a.code pc ++ b.code (pc + (a.code pc).length)⟩ := rfl

/-- A sequence takes no bytes exactly if neither of its parts takes any. -/
theorem length_mul_eq_zero (a b : Outline) :
    ((a * b).length == some 0) = (a.length == some 0 && b.length == some 0) := by
  rw [mul_def, Bool.eq_iff_iff]
  cases a.length <;> cases b.length <;> simp

instance : Monoid Outline where
  one_mul a := by
    ext1 <;> simp [one_def, mul_def]
  mul_one a := by
    ext1 <;> simp [one_def, mul_def]
  mul_assoc a b c := by
    ext1
    · simp only [mul_def]
      cases a.length <;> cases b.length <;> cases c.length <;> simp [Nat.add_assoc]
    · show (a.leads || (a.length == some 0 && b.leads) || ((a * b).length == some 0 && c.leads)) =
        (a.leads || (a.length == some 0 && (b.leads || (b.length == some 0 && c.leads))))
      rw [length_mul_eq_zero]
      cases a.length == some 0 <;> simp [Bool.or_assoc]
    · simp [mul_def, Nat.add_assoc]

end Outline

namespace Expr

/-- The outline of an expression whose captures are not kept. -/
def outline (e : Expr) : Outline := ⟨e.maxLength, e.leadsWith .start, (e.plan false).code⟩

/-- A capture that is not kept does not show. -/
theorem outline_capture (index : Nat) (name : Option String) (e : Expr) :
    outline (.capture index name e) = outline e := by
  rw [outline, maxLength, leadsWith, plan]
  rfl

/-- A sequence has the product of the outlines of its items. -/
theorem outline_concat (es : List Expr) : outline (.concat es) = (es.map outline).prod := by
  induction es with
  | nil => rfl
  | cons e es ih =>
    rw [List.map_cons, List.prod_cons, ← ih, Outline.mul_def]
    ext1
    · simp only [outline, maxLength, sumLength]
    · simp only [outline, leadsWith, anyLeadsWith]
    · funext pc
      simp only [outline, plan, planAll, Plan.code, Plan.length_code]

/-- The code of joined literals is that of each, one after the other. -/
theorem outline_literal_append {a : List UInt8} (valid : Utf8.Valid a) (b : List UInt8) :
    outline (.literal (a ++ b)) = outline (.literal a) * outline (.literal b) := by
  have encoded : Utf8.encode (Utf8.decode a) = a := valid
  have decoded : Utf8.decode (a ++ b) = Utf8.decode a ++ Utf8.decode b := by
    rw [← Utf8.decode_encode_append, encoded]
  rw [Outline.mul_def]
  ext1
  · simp [outline, maxLength]
  · simp [outline, leadsWith]
  · funext pc
    simp only [outline, plan, decoded, Plan.code_ofChars_append]

/-- Outlines are a view of sequences: they do not depend on how items are grouped or texts are
joined. -/
theorem sequential_outline : Sequential outline where
  empty := rfl
  concat := outline_concat
  literal _ b valid := outline_literal_append valid b

/-- Repeating keeps what has one outline of one outline. -/
theorem outline_ofRepetition (min : Nat) (max : Option Nat) (greedy : Bool) {a b : Expr}
    (same : outline a = outline b) :
    outline (ofRepetition min max greedy a) = outline (ofRepetition min max greedy b) := by
  have length : a.maxLength = b.maxLength := congrArg Outline.length same
  have leads : a.leadsWith .start = b.leadsWith .start := congrArg Outline.leads same
  have code : (a.plan false).Alike (b.plan false) := congrFun (congrArg Outline.code same)
  rcases ofRepetition_cases min max greedy (a.maxLength == some 0) with
    none | one | ⟨min', max', -, some⟩
  · rw [none a rfl, none b (by rw [length])]
  · rw [one a rfl, one b (by rw [length]), same]
  · rw [some a rfl, some b (by rw [length])]
    ext1
    · simp only [outline, maxLength, length]
    · simp only [outline, leadsWith, leads]
    · simp only [outline, plan]
      exact funext (Plan.Alike.composes.repetition code min' max' greedy)

section Choices

variable {es ds : List Expr} (each : List.Forall₂ (fun e d => outline e = outline d) es ds)
include each

/-- Branches with the same outlines have the same greatest length. -/
theorem supLength_eq : supLength es = supLength ds := by
  induction each with
  | nil => rfl
  | cons head rest ih =>
    have length := congrArg Outline.length head
    simp only [outline] at length
    cases rest with
    | nil => exact length
    | cons => simp only [supLength, length, ih]

/-- Branches with the same outlines lead alike with an anchor. -/
theorem allLeadWith_eq : allLeadWith .start es = allLeadWith .start ds := by
  induction each with
  | nil => rfl
  | cons head rest ih =>
    have leads := congrArg Outline.leads head
    simp only [outline] at leads
    rw [allLeadWith, allLeadWith, leads, ih]

/-- Choices have one outline if their branches do, one by one. -/
theorem outline_alternation : outline (.alternation es) = outline (.alternation ds) := by
  have empty : es.isEmpty = ds.isEmpty := by cases each <;> rfl
  have plans : List.Forall₂ Plan.Alike (plans false es) (plans false ds) := by
    rw [plans_eq_map, plans_eq_map, List.forall₂_map_left_iff, List.forall₂_map_right_iff]
    exact each.imp fun _ _ same => congrFun (congrArg Outline.code same)
  ext1
  · simp only [outline, maxLength, supLength_eq each]
  · simp only [outline, leadsWith, empty, allLeadWith_eq each]
  · simp only [outline, plan]
    exact funext (Plan.Alike.choice plans)

end Choices

/-- Expressions of one outline have whole plans with the same code. -/
theorem wholePlan_alike {a b : Expr} (same : outline a = outline b) :
    (a.wholePlan false).Alike (b.wholePlan false) := by
  have leads : a.leadsWith .start = b.leadsWith .start := congrArg Outline.leads same
  have start : a.startPlan = b.startPlan := by rw [startPlan, leads, startPlan]
  rw [wholePlan, start, wholePlan]
  exact (Plan.Alike.refl _).seq (congrFun (congrArg Outline.code same))

end Expr

/-- Expressions of one outline have one answer under all settings that keep no captures. -/
theorem Settings.program_eq_of_outline {s : Settings} (never : s.neverCapture = true) {a b : Expr}
    (same : a.outline = b.outline) :
    (s.program a).mapError s.refusalOf = (s.program b).mapError s.refusalOf := by
  have alike := Expr.wholePlan_alike same
  rw [s.mapError_program a, s.mapError_program b, never, Bool.not_true, alike.cost_eq,
    Expr.instructions, alike 0, Expr.instructions]
  simp only [if_true]

end PatternGate
