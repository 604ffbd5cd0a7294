import PatternGate.Proofs.Program.Outline
import PatternGate.Proofs.Validator.Outcome

/-!
# Greed and code

Whether a repetition is greedy or lazy decides which target its forks prefer, and nothing else about
the program. `Expr.greeds` tells for each instruction of an expression of which repetition it is a
fork, by the greed of that repetition. The main statement, `Settings.program_regreeded`, compares
expressions that differ in greed alone: both are refused or neither is, and where the greed of a
fork's repetition differs, its targets are exchanged.

Two such expressions have one `leveled` form, in which every repetition is greedy, and the code of
each is compared with the code of that form. So each law is about one expression and needs one
induction, and two expressions meet only at the end (`LevelsTo.exchanged`).
-/

namespace PatternGate

/-- The instruction forks to two targets. -/
def Instruction.forks : Instruction → Bool
  | fork2 _ _ => true
  | consume _ | consumeAny | consumeClass _ | forkN _ | jump _ | writeRegister _ | assertion _
  | accept => false

/-- The first code becomes the second when every fork prefers to enter. For each instruction that is
a fork of two targets, `greeds` holds the greed that it has in the first. -/
inductive LevelsTo : List (Option Bool) → List Instruction → List Instruction → Prop
  | nil : LevelsTo [] [] []
  | keep {i : Instruction} {greeds : List (Option Bool)} {code level : List Instruction}
      (other : i.forks = false) (rest : LevelsTo greeds code level) :
      LevelsTo (none :: greeds) (i :: code) (i :: level)
  | fork (greedy : Bool) (enter leave : Nat) {greeds : List (Option Bool)}
      {code level : List Instruction} (rest : LevelsTo greeds code level) :
      LevelsTo (some greedy :: greeds) (Emitter.fork greedy enter leave :: code)
        (Emitter.fork true enter leave :: level)

namespace LevelsTo

variable {gs hs : List (Option Bool)} {code code' level level' : List Instruction}

/-- Code in two parts is leveled part by part. -/
theorem append (first : LevelsTo gs code level) (second : LevelsTo hs code' level') :
    LevelsTo (gs ++ hs) (code ++ code') (level ++ level') := by
  induction first with
  | nil => exact second
  | keep other _ ih => exact .keep other ih
  | fork greedy enter leave _ ih => exact .fork greedy enter leave ih

/-- Leveling neither adds nor removes instructions. -/
theorem length_eq (levels : LevelsTo gs code level) : code.length = level.length := by
  induction levels with
  | nil => rfl
  | keep _ _ ih => rw [List.length_cons, ih, List.length_cons]
  | fork _ _ _ _ ih => rw [List.length_cons, ih, List.length_cons]

/-- Which target a fork prefers does not change what it costs. -/
theorem map_cost (levels : LevelsTo gs code level) :
    code.map Instruction.cost = level.map Instruction.cost := by
  induction levels with
  | nil => rfl
  | keep _ _ ih => rw [List.map_cons, ih, List.map_cons]
  | fork greedy _ _ _ ih =>
    rw [List.map_cons, ih, List.map_cons]
    cases greedy <;> rfl

/-- Codes of one level agree wherever their greeds do. Where these differ, both hold a fork, and its
targets are exchanged. -/
theorem exchanged (levels : LevelsTo gs code level) (levels' : LevelsTo hs code' level) {pc : Nat}
    {i : Instruction} (here : code[pc]? = some i) :
    if gs[pc]? = hs[pc]? then code'[pc]? = some i
    else ∃ first second, i = .fork2 first second ∧ code'[pc]? = some (.fork2 second first) := by
  induction levels generalizing hs code' pc with
  | nil => cases here
  | @keep j gs code level other rest ih =>
    cases levels' with
    | keep _ rest' =>
      cases pc with
      | zero => exact (if_pos rfl).mpr here
      | succ pc => exact ih rest' here
    | fork => cases other
  | @fork greedy enter leave gs code level rest ih =>
    cases levels' with
    | keep other => cases other
    | fork greedy' _ _ rest' =>
      cases pc with
      | zero =>
        cases here
        cases greedy <;> cases greedy' <;> simp [Emitter.fork]
      | succ pc => exact ih rest' here

end LevelsTo

namespace Plan

/-- Wherever two plans stand, the code of the first levels to that of the second. -/
def LevelsTo (greeds : List (Option Bool)) (p q : Plan) : Prop :=
  ∀ pc, PatternGate.LevelsTo greeds (p.code pc) (q.code pc)

namespace LevelsTo

variable {gs hs : List (Option Bool)} {p q r t : Plan}

/-- Leveled plans take as much room. -/
theorem size_eq (levels : LevelsTo gs p q) : p.size = q.size := by
  rw [← length_code p 0, (levels 0).length_eq, length_code]

/-- Leveled plans cost as much: the order in a fork is for free. -/
theorem cost_eq (levels : LevelsTo gs p q) : p.cost = q.cost := by
  rw [← sum_cost_code p 0, (levels 0).map_cost, sum_cost_code]

/-- The empty plan has no forks to level. -/
theorem nothing : LevelsTo [] .nothing .nothing := fun _ => .nil

/-- A plain instruction is its own level. -/
theorem plain (i : Plain) : LevelsTo [none] (.plain i) (.plain i) := by
  intro pc
  exact .keep (by cases i <;> rfl) .nil

/-- A sequence is leveled part by part. -/
theorem seq (first : LevelsTo gs p q) (second : LevelsTo hs r t) :
    LevelsTo (gs ++ hs) (p.seq r) (q.seq t) := by
  intro pc
  rw [code, code, first.size_eq]
  exact (first pc).append (second _)

/-- An option has one fork in front, whose order is its greed. -/
theorem option (greedy : Bool) (body : LevelsTo gs p q) :
    LevelsTo (some greedy :: gs) (.option greedy p) (.option true q) := by
  intro pc
  rw [code, code, body.size_eq]
  exact .fork greedy _ _ (body _)

/-- A loop has one fork in front, whose order is its greed, and a jump behind its body. -/
theorem star (greedy : Bool) (body : LevelsTo gs p q) :
    LevelsTo (some greedy :: (gs ++ [none])) (.star greedy p) (.star true q) := by
  intro pc
  rw [code, code, body.size_eq]
  exact .fork greedy _ _ ((body _).append (.keep rfl .nil))

/-- A loop that is taken at least once has its fork behind the body. -/
theorem plus (greedy : Bool) (body : LevelsTo gs p q) :
    LevelsTo (gs ++ [some greedy]) (.plus greedy p) (.plus true q) := by
  intro pc
  rw [code, code, body.size_eq]
  exact (body _).append (.fork greedy _ _ .nil)

/-- Copies of a body have the greeds of the body, copy by copy. -/
theorem copies (body : LevelsTo gs p q) (n : Nat) :
    LevelsTo (List.replicate n gs).flatten (p.copies n) (q.copies n) := by
  induction n with
  | zero => exact nothing
  | succ n ih => exact body.seq ih

/-- Copies that may be left out have a fork of the same greed before each of them. -/
theorem options (greedy : Bool) (body : LevelsTo gs p q) (n : Nat) :
    LevelsTo (List.replicate n (some greedy :: gs)).flatten (p.options greedy n)
      (q.options true n) := by
  induction n with
  | zero => exact nothing
  | succ n ih => exact .option greedy (body.seq ih)

end LevelsTo

end Plan

/-- The greeds of a repetition, from those of its body. What may be left out has its fork before it,
what may be run again has it after itself. -/
def repetitionGreeds (min : Nat) (max : Option Nat) (greedy : Bool) (body : List (Option Bool)) :
    List (Option Bool) :=
  match max, min with
  | some max, min =>
    (List.replicate min body).flatten ++ (List.replicate (max - min) (some greedy :: body)).flatten
  | none, 0 => some greedy :: (body ++ [none])
  | none, min + 1 => (List.replicate min body).flatten ++ (body ++ [some greedy])

/-- A repetition levels to the greedy one of the same bounds. Its own greed stands at the forks that
it adds, and the greeds of its body at each copy. -/
theorem Plan.LevelsTo.repetition (min : Nat) (max : Option Nat) (greedy : Bool)
    {gs : List (Option Bool)} {p q : Plan} (body : LevelsTo gs p q) :
    LevelsTo (repetitionGreeds min max greedy gs) (p.repetition min max greedy)
      (q.repetition min max true) := by
  cases max with
  | some max => exact (body.copies min).seq (body.options greedy (max - min))
  | none =>
    cases min with
    | zero => exact body.star greedy
    | succ min => exact (body.copies min).seq (body.plus greedy)

/-- A text has no forks. -/
theorem Plan.levelsTo_ofChars (cs : List Char) :
    LevelsTo (List.replicate cs.length none) (ofChars cs) (ofChars cs) := by
  induction cs with
  | nil => exact .nothing
  | cons c cs ih => exact (LevelsTo.plain _).seq ih

namespace Expr

mutual

/-- The expression with every repetition greedy. Two expressions differ only in greed if they have
one leveled form. -/
def leveled : Expr → Expr
  | .empty => .empty
  | .literal bs => .literal bs
  | .chars set => .chars set
  | .bytes set => .bytes set
  | .look l => .look l
  | .repetition min max _ body => .repetition min max true body.leveled
  | .capture index name body => .capture index name body.leveled
  | .concat items => .concat (leveledAll items)
  | .alternation branches => .alternation (leveledAll branches)

/-- Expressions with every repetition greedy. -/
def leveledAll : List Expr → List Expr
  | [] => []
  | e :: es => e.leveled :: leveledAll es

end

mutual

/-- For each instruction of an expression that is a fork of two targets, the greed of the repetition
that it belongs to. Every copy of a body has forks of its own. -/
def greeds (kept : Bool) : Expr → List (Option Bool)
  | .empty => []
  | .literal bs => List.replicate (Utf8.decode bs).length none
  | .chars _ | .bytes _ | .look _ => [none]
  | .repetition min max greedy body => repetitionGreeds min max greedy (body.greeds kept)
  | .capture _ _ body => if kept then none :: (body.greeds kept ++ [none]) else body.greeds kept
  | .concat items => (greedsEach kept items).flatten
  | .alternation branches => none :: List.intercalate [none] (greedsEach kept branches)

/-- The greeds of each of several expressions. -/
def greedsEach (kept : Bool) : List Expr → List (List (Option Bool))
  | [] => []
  | e :: es => e.greeds kept :: greedsEach kept es

end

/-- The greeds of what stands before the code of an expression. The loop at the start is lazy. -/
def startGreeds (e : Expr) : List (Option Bool) :=
  if e.leadsWith .start then [] else [some false, none, none]

/-- For each instruction of a whole program that is a fork of two targets, the greed of the
repetition that it belongs to. -/
def programGreeds (kept : Bool) (e : Expr) : List (Option Bool) :=
  e.startGreeds ++ e.greeds kept ++ [none]

section Leveled

variable {es : List Expr}

/-- The lengths of sequences and alternations do not depend on greed, if those of their parts do
not. -/
theorem lengths_leveledAll (each : ∀ e ∈ es, e.leveled.maxLength = e.maxLength) :
    sumLength (leveledAll es) = sumLength es ∧ supLength (leveledAll es) = supLength es := by
  induction es with
  | nil => exact ⟨rfl, rfl⟩
  | cons e es ih =>
    rw [List.forall_mem_cons] at each
    obtain ⟨sum, sup⟩ := ih each.2
    constructor
    · simp only [leveledAll, sumLength, each.1, sum]
    · cases es with
      | nil => exact each.1
      | cons d es =>
        simp only [leveledAll, supLength, each.1] at sup ⊢
        rw [sup]

/-- How long a match can be does not depend on greed. -/
@[simp]
theorem maxLength_leveled (e : Expr) : e.leveled.maxLength = e.maxLength := by
  induction e with
  | repetition min max greedy body ih => simp only [leveled, maxLength, ih]
  | capture index name body ih => simp only [leveled, maxLength, ih]
  | concat items ih => simp only [leveled, maxLength, (lengths_leveledAll ih).1]
  | alternation branches ih => simp only [leveled, maxLength, (lengths_leveledAll ih).2]
  | _ => rfl

/-- Whether sequences and alternations lead with an anchor does not depend on greed, if it does not
for their parts. -/
theorem leads_leveledAll {l : Look} (each : ∀ e ∈ es, e.leveled.leadsWith l = e.leadsWith l) :
    anyLeadsWith l (leveledAll es) = anyLeadsWith l es ∧
      allLeadWith l (leveledAll es) = allLeadWith l es ∧
      (leveledAll es).isEmpty = es.isEmpty := by
  induction es with
  | nil => exact ⟨rfl, rfl, rfl⟩
  | cons e es ih =>
    rw [List.forall_mem_cons] at each
    obtain ⟨any, all, -⟩ := ih each.2
    refine ⟨?_, ?_, rfl⟩
    · simp only [leveledAll, anyLeadsWith, each.1, maxLength_leveled, any]
    · simp only [leveledAll, allLeadWith, each.1, all]

/-- Whether an expression leads with an anchor does not depend on greed. -/
@[simp]
theorem leadsWith_leveled (l : Look) (e : Expr) : e.leveled.leadsWith l = e.leadsWith l := by
  induction e with
  | repetition min max greedy body ih => simp only [leveled, leadsWith, ih]
  | capture index name body ih => simp only [leveled, leadsWith, ih]
  | concat items ih => simp only [leveled, leadsWith, (leads_leveledAll ih).1]
  | alternation branches ih =>
    obtain ⟨-, all, empty⟩ := leads_leveledAll ih
    simp only [leveled, leadsWith, all, empty]
  | _ => rfl

/-- The groups of many expressions are counted alike with and without greed, if those of each are.
-/
theorem captureCountAll_leveledAll
    (each : ∀ e ∈ es, e.leveled.captureCount = e.captureCount) :
    captureCountAll (leveledAll es) = captureCountAll es := by
  induction es with
  | nil => rfl
  | cons e es ih =>
    rw [List.forall_mem_cons] at each
    rw [leveledAll, captureCountAll, each.1, ih each.2, captureCountAll]

/-- The number of groups does not depend on greed. -/
@[simp]
theorem captureCount_leveled (e : Expr) : e.leveled.captureCount = e.captureCount := by
  induction e with
  | repetition min max greedy body ih => simp only [leveled, captureCount, ih]
  | capture index name body ih => simp only [leveled, captureCount, ih]
  | concat items ih => simp only [leveled, captureCount, captureCountAll_leveledAll ih]
  | alternation branches ih => simp only [leveled, captureCount, captureCountAll_leveledAll ih]
  | _ => rfl

end Leveled

/-- The code of an expression levels to the code of its leveled form. -/
def Levels (kept : Bool) (e : Expr) : Prop :=
  Plan.LevelsTo (e.greeds kept) (e.plan kept) (e.leveled.plan kept)

section Levels

variable {kept : Bool} {es : List Expr}

/-- A sequence levels to the sequence of its leveled items. -/
theorem levelsTo_planAll (each : ∀ e ∈ es, e.Levels kept) :
    Plan.LevelsTo (greedsEach kept es).flatten (planAll kept es)
      (planAll kept (leveledAll es)) := by
  induction es with
  | nil => exact .nothing
  | cons e es ih =>
    rw [List.forall_mem_cons] at each
    exact each.1.seq (ih each.2)

/-- Branches level one by one, and stand where those of the leveled form stand. -/
theorem levelsTo_branches (each : ∀ e ∈ es, e.Levels kept) (stop pc : Nat) :
    LevelsTo (List.intercalate [none] (greedsEach kept es))
        (Branches.join stop (Plan.codes pc (plans kept es)))
        (Branches.join stop (Plan.codes pc (plans kept (leveledAll es)))) ∧
      Plan.starts pc (plans kept es) = Plan.starts pc (plans kept (leveledAll es)) ∧
      Plan.sizeBranches (plans kept es) = Plan.sizeBranches (plans kept (leveledAll es)) := by
  induction es generalizing pc with
  | nil => exact ⟨.nil, rfl, rfl⟩
  | cons e es ih =>
    rw [List.forall_mem_cons] at each
    have size : (e.plan kept).size = (e.leveled.plan kept).size := each.1.size_eq
    obtain ⟨joined, started, sized⟩ := ih each.2 (pc + (e.plan kept).size + 1)
    refine ⟨?_, ?_, ?_⟩
    · cases es with
      | nil => simpa [greedsEach, plans, leveledAll, Plan.codes, Branches.join] using each.1 pc
      | cons d es =>
        rw [size] at joined
        simp only [greedsEach, plans, leveledAll, Plan.codes, Branches.join,
          List.intercalate_cons_cons, List.append_assoc, size] at joined ⊢
        exact (each.1 pc).append (.keep rfl joined)
    · rw [plans, leveledAll, plans, Plan.starts_cons, Plan.starts_cons, started, size]
    · cases es with
      | nil => exact size
      | cons d es =>
        simp only [plans, leveledAll, Plan.sizeBranches] at sized ⊢
        rw [size, sized]

/-- Every expression levels to its leveled form. -/
theorem levels (kept : Bool) (e : Expr) : e.Levels kept := by
  induction e with
  | empty => exact .nothing
  | literal bs => exact Plan.levelsTo_ofChars _
  | chars set => exact .plain _
  | bytes set => exact .plain _
  | look l => exact .plain _
  | repetition min max greedy body ih => exact ih.repetition min max greedy
  | capture index name body ih =>
    cases kept with
    | false => exact ih
    | true => exact (Plan.LevelsTo.plain _).seq (ih.seq (.plain _))
  | concat items ih => exact levelsTo_planAll ih
  | alternation branches ih =>
    intro pc
    obtain ⟨joined, started, sized⟩ := levelsTo_branches ih
      (pc + (Plan.sizeBranches (plans kept branches) + 1)) (pc + 1)
    rw [greeds, leveled, plan, plan, Plan.code, Plan.code, started, ← sized]
    exact .keep rfl joined

end Levels

/-- The plan of a whole program in which also the loop at the start is greedy. -/
def greedyPlan (kept : Bool) (e : Expr) : Plan :=
  Plan.seq (if e.leadsWith .start then .nothing else .star true (.plain .consumeAny)) (e.plan kept)

/-- The plan of a whole program levels to that of the leveled form. -/
theorem levelsTo_wholePlan (kept : Bool) (e : Expr) :
    Plan.LevelsTo (e.startGreeds ++ e.greeds kept) (e.wholePlan kept)
      (e.leveled.greedyPlan kept) := by
  rw [startGreeds, wholePlan, startPlan, greedyPlan, leadsWith_leveled]
  refine .seq ?_ (e.levels kept)
  split
  · exact .nothing
  · exact .star false (.plain .consumeAny)

/-- A whole program levels to the program of the greedy expression. The greeds of its forks are
listed in the order of the code. -/
theorem levelsTo_instructions (kept : Bool) (e : Expr) :
    LevelsTo (e.programGreeds kept) (e.instructions kept)
      ((e.leveled.greedyPlan kept).code 0 ++ [.accept]) :=
  (e.levelsTo_wholePlan kept 0).append (.keep rfl .nil)

end Expr

namespace Settings

/-- Greed changes neither the size of a program nor whether there is one. Of two expressions that
differ only in the greed of repetitions, both are too large or neither is, and their programs differ
only at the forks of the repetitions whose greed differs, where the targets are exchanged. -/
theorem program_regreeded (s : Settings) {a b : Expr} (same : a.leveled = b.leveled) :
    ((s.program a).mapError s.refusalOf = .error (.tooLarge s.maxMemory) ↔
      (s.program b).mapError s.refusalOf = .error (.tooLarge s.maxMemory)) ∧
    ∀ p, s.program a = .ok p → ∃ q, s.program b = .ok q ∧
      q.code.length = p.code.length ∧ q.memory = p.memory ∧ q.captureCount = p.captureCount ∧
      ∀ (pc : Nat) (i : Instruction), p.code[pc]? = some i →
        if (a.programGreeds (!s.neverCapture))[pc]? = (b.programGreeds (!s.neverCapture))[pc]? then
          q.code[pc]? = some i
        else
          ∃ first second, i = .fork2 first second ∧ q.code[pc]? = some (.fork2 second first) := by
  have cost : (a.wholePlan (!s.neverCapture)).cost = (b.wholePlan (!s.neverCapture)).cost := by
    rw [(a.levelsTo_wholePlan _).cost_eq, same, (b.levelsTo_wholePlan _).cost_eq]
  have captures : a.captureCount = b.captureCount := by
    rw [← a.captureCount_leveled, same, b.captureCount_leveled]
  have levels := a.levelsTo_instructions (!s.neverCapture)
  have levels' := b.levelsTo_instructions (!s.neverCapture)
  rw [same] at levels
  have answer := s.mapError_program b
  rw [← cost] at answer
  constructor
  · rw [answer, s.mapError_program a]
    split <;> simp
  · intro p compiled
    have fits := s.mapError_program a
    rw [compiled] at fits
    split at fits
    next within =>
      cases fits
      rw [if_pos within, mapError_eq_ok_iff] at answer
      refine ⟨_, answer, ?_, rfl, ?_, fun pc i here => levels.exchanged levels' here⟩
      · exact levels'.length_eq.trans levels.length_eq.symm
      · simp only [captures]
    next => cases fits

/-- In `(?:a{0,2}b)*` only the inner repetition is made lazy. Its two forks are exchanged, the fork
of the loop around it is not. -/
theorem program_regreeded_inner :
    let pattern (greedy : Bool) : Expr := .repetition 0 none true
      (.concat [.repetition 0 (some 2) greedy (.literal [0x61]), .literal [0x62]])
    (pattern true).leveled = (pattern false).leveled ∧
      ∃ p q, Settings.program {} (pattern true) = .ok p ∧
        Settings.program {} (pattern false) = .ok q ∧ q.memory = p.memory ∧
        p.code[3]? = some (.fork2 4 10) ∧ q.code[3]? = some (.fork2 4 10) ∧
        p.code[4]? = some (.fork2 5 8) ∧ q.code[4]? = some (.fork2 8 5) ∧
        p.code[6]? = some (.fork2 7 8) ∧ q.code[6]? = some (.fork2 8 7) := by
  intro pattern
  obtain ⟨p, compiled⟩ : ∃ p, Settings.program {} (pattern true) = .ok p :=
    exists_program (by decide +kernel)
  obtain ⟨q, compiled', -, memory, -, each⟩ :=
    (program_regreeded {} (a := pattern true) (b := pattern false) rfl).2 p compiled
  have code := code_of_program compiled
  have loop : p.code[3]? = some (.fork2 4 10) := by rw [code]; decide +kernel
  have outer : p.code[4]? = some (.fork2 5 8) := by rw [code]; decide +kernel
  have inner : p.code[6]? = some (.fork2 7 8) := by rw [code]; decide +kernel
  have loop' := each 3 _ loop
  have outer' := each 4 _ outer
  have inner' := each 6 _ inner
  rw [if_pos (by decide +kernel)] at loop'
  rw [if_neg (by decide +kernel)] at outer' inner'
  obtain ⟨_, _, eq, outer'⟩ := outer'
  obtain ⟨_, _, eq', inner'⟩ := inner'
  cases eq
  cases eq'
  exact ⟨rfl, p, q, compiled, compiled', memory, loop, loop', outer, outer', inner, inner'⟩

end Settings

end PatternGate
