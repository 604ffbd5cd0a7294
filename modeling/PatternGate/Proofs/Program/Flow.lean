import Mathlib.Logic.Relation
import PatternGate.Proofs.Expr.Built
import PatternGate.Proofs.Program.Budget
import PatternGate.Proofs.Program.Layout

/-!
# Programs as graphs

The instructions of a program are the vertices of a graph, with an edge to every place where a run
can go on. A stretch of code flows if each of its places lies on a way from its start to its end.
Stretches that flow one after another flow together (`Flows.trans`), and so does a loop around one
(`Flows.loop`), which is all that the shapes of a plan need, choices apart. A choice without
branches would be a dead end, so the law asks for plans whose choices are wide, and building an
expression sees to it that they are.

The main statement is `Settings.program_closed`: a program of a built expression is a closed graph,
in which every instruction is reached from the first one and reaches the last one, the only one that
accepts. It says nothing about bytes; which places of a haystack a run can pass is the matter of
`Proofs.Program.Acceptance`.
-/

namespace PatternGate

/-- The places where a run can go on after the instruction at `pc`. -/
def Instruction.successors (pc : Nat) : Instruction → List Nat
  | fork2 first second => [first, second]
  | forkN targets => targets
  | jump target => [target]
  | consume _ | consumeAny | consumeClass _ | writeRegister _ | assertion _ => [pc + 1]
  | accept => []

/-- A run can go on at `q` after the instruction at `pc`. -/
def Edge (code : List Instruction) (pc q : Nat) : Prop :=
  ∃ i, code[pc]? = some i ∧ q ∈ i.successors pc

/-- A run can come from `pc` to `q`, as far as the instructions tell. -/
abbrev Path (code : List Instruction) : Nat → Nat → Prop := Relation.ReflTransGen (Edge code)

namespace Edge

variable {code : List Instruction} {pc : Nat}

/-- A plain instruction leads to the next one. -/
theorem plain {i : Plain} (here : code[pc]? = some i.instruction) : Edge code pc (pc + 1) := by
  refine ⟨_, here, ?_⟩
  cases i <;> exact List.mem_singleton_self _

/-- A jump leads to its target. -/
theorem jump {target : Nat} (here : code[pc]? = some (.jump target)) : Edge code pc target :=
  ⟨_, here, List.mem_singleton_self _⟩

/-- A fork leads into its body. -/
theorem enter {greedy : Bool} {enter leave : Nat}
    (here : code[pc]? = some (Emitter.fork greedy enter leave)) : Edge code pc enter := by
  refine ⟨_, here, ?_⟩
  cases greedy <;> simp [Emitter.fork, Instruction.successors]

/-- A fork leads past its body. -/
theorem leave {greedy : Bool} {enter leave : Nat}
    (here : code[pc]? = some (Emitter.fork greedy enter leave)) : Edge code pc leave := by
  refine ⟨_, here, ?_⟩
  cases greedy <;> simp [Emitter.fork, Instruction.successors]

end Edge

/-- Every place of a stretch of code lies on a way from its start to its end. -/
structure Flows (code : List Instruction) (lo hi : Nat) : Prop where
  le : lo ≤ hi
  reached : ∀ q, lo ≤ q → q ≤ hi → Path code lo q
  onward : ∀ q, lo ≤ q → q ≤ hi → Path code q hi

namespace Flows

variable {code : List Instruction} {lo mid hi : Nat}

/-- A stretch without instructions flows. -/
theorem refl (pc : Nat) : Flows code pc pc where
  le := Nat.le_refl pc
  reached q above below := by
    rw [Nat.le_antisymm below above]
  onward q above below := by
    rw [Nat.le_antisymm below above]

/-- The way from the start of a stretch to its end. -/
theorem path (flows : Flows code lo hi) : Path code lo hi :=
  flows.reached hi flows.le (Nat.le_refl hi)

/-- Two stretches one after the other flow. -/
theorem trans (first : Flows code lo mid) (second : Flows code mid hi) : Flows code lo hi where
  le := Nat.le_trans first.le second.le
  reached q above below := by
    rcases Nat.le_total q mid with inFirst | inSecond
    · exact first.reached q above inFirst
    · exact first.path.trans (second.reached q inSecond below)
  onward q above below := by
    rcases Nat.le_total q mid with inFirst | inSecond
    · exact (first.onward q above inFirst).trans second.path
    · exact second.onward q inSecond below

/-- An instruction that goes on to the next one flows. -/
theorem next {pc : Nat} (edge : Edge code pc (pc + 1)) : Flows code pc (pc + 1) where
  le := Nat.le_succ pc
  reached q above below := by
    rcases Nat.le_or_eq_of_le_succ below with here | after
    · rw [Nat.le_antisymm here above]
    · exact after ▸ .single edge
  onward q above below := by
    rcases Nat.le_or_eq_of_le_succ below with here | after
    · rw [Nat.le_antisymm here above]
      exact .single edge
    · rw [after]

/-- A stretch whose last instruction goes back to its start, which can leave it, flows. -/
theorem loop {last : Nat} (body : Flows code lo last) (back : Edge code last lo)
    (leave : Edge code lo (last + 1)) : Flows code lo (last + 1) where
  le := Nat.le_succ_of_le body.le
  reached q above below := by
    rcases Nat.le_or_eq_of_le_succ below with inside | after
    · exact body.reached q above inside
    · exact after ▸ .single leave
  onward q above below := by
    rcases Nat.le_or_eq_of_le_succ below with inside | after
    · exact ((body.onward q above inside).tail back).tail leave
    · rw [after]

end Flows

namespace Plan

/-- Every choice of the plan is between two branches at least. -/
inductive Wide : Plan → Prop
  | nothing : Wide .nothing
  | plain (i : Plain) : Wide (.plain i)
  | seq {first second : Plan} (head : Wide first) (tail : Wide second) : Wide (first.seq second)
  | option (greedy : Bool) {body : Plan} (wide : Wide body) : Wide (.option greedy body)
  | star (greedy : Bool) {body : Plan} (wide : Wide body) : Wide (body.star greedy)
  | plus (greedy : Bool) {body : Plan} (wide : Wide body) : Wide (body.plus greedy)
  | choice {branches : List Plan} (two : 2 ≤ branches.length) (wide : ∀ b ∈ branches, Wide b) :
    Wide (.choice branches)

/-- The branches of a choice, with the jumps between them, leave no place out. -/
theorem exists_laid {bs : List Plan} (some : bs ≠ []) {pc q : Nat} (above : pc ≤ q)
    (below : q ≤ pc + sizeBranches bs) :
    ∃ start b, (start, b) ∈ laid pc bs ∧ start ≤ q ∧ q ≤ start + b.size := by
  induction bs generalizing pc with
  | nil => exact absurd rfl some
  | cons b bs ih =>
    cases bs with
    | nil => exact ⟨pc, b, List.mem_cons_self, above, by simpa [sizeBranches] using below⟩
    | cons c bs =>
      rcases Nat.lt_or_ge (pc + b.size) q with after | inside
      · have rest : q ≤ pc + b.size + 1 + sizeBranches (c :: bs) := by
          simp only [sizeBranches] at below ⊢
          omega
        obtain ⟨start, d, mem, bounds⟩ := ih (List.cons_ne_nil c bs) after rest
        exact ⟨start, d, List.mem_cons_of_mem _ mem, bounds⟩
      · exact ⟨pc, b, List.mem_cons_self, above, inside⟩

/-- A choice flows if it has branches and each of them flows. -/
theorem flows_choice {bs : List Plan} {code : List Instruction} {pc : Nat} (some : bs ≠ [])
    (stands : (choice bs).StandsIn code pc)
    (each : ∀ start b, (start, b) ∈ laid (pc + 1) bs → Flows code start (start + b.size)) :
    Flows code pc (pc + (choice bs).size) := by
  obtain ⟨fork, branches⟩ := stands.choice
  rw [size]
  have enter : ∀ start b, (start, b) ∈ laid (pc + 1) bs → Edge code pc start :=
    fun start b mem => ⟨_, fork, mem_starts_iff.mpr ⟨b, mem⟩⟩
  have leave : ∀ start b, (start, b) ∈ laid (pc + 1) bs →
      Path code (start + b.size) (pc + (sizeBranches bs + 1)) := by
    intro start b mem
    rcases (branches start b mem).leaves with falls | jump
    · rw [falls]
    · exact .single (.jump jump)
  have inner : ∀ q, pc + 1 ≤ q → q ≤ pc + (sizeBranches bs + 1) →
      Path code pc q ∧ Path code q (pc + (sizeBranches bs + 1)) := by
    intro q above below
    obtain ⟨start, b, mem, lower, upper⟩ := exists_laid some above (by omega)
    have flows := each start b mem
    exact ⟨.head (enter start b mem) (flows.reached q lower upper),
      (flows.onward q lower upper).trans (leave start b mem)⟩
  have whole := inner (pc + (sizeBranches bs + 1)) (by omega) (Nat.le_refl _)
  refine ⟨by omega, fun q above below => ?_, fun q above below => ?_⟩
  · rcases Nat.eq_or_lt_of_le above with rfl | after
    · exact .refl
    · exact (inner q after below).1
  · rcases Nat.eq_or_lt_of_le above with rfl | after
    · exact whole.1
    · exact (inner q after below).2

/-- The code of a plan flows if its choices are wide. -/
theorem Wide.flows {p : Plan} (wide : p.Wide) {code : List Instruction} {pc : Nat}
    (stands : p.StandsIn code pc) : Flows code pc (pc + p.size) := by
  induction wide generalizing pc with
  | nothing => exact .refl pc
  | plain i => exact .next (.plain (StandsIn.plain_iff.mp stands))
  | seq _ _ ihf ihs =>
    obtain ⟨first, second⟩ := StandsIn.seq_iff.mp stands
    rw [size, ← Nat.add_assoc]
    exact (ihf first).trans (ihs second)
  | option greedy _ ih =>
    obtain ⟨fork, body⟩ := StandsIn.option_iff.mp stands
    rw [size, Nat.add_comm _ 1, ← Nat.add_assoc]
    exact (Flows.next (.enter fork)).trans (ih body)
  | @star greedy body _ ih =>
    obtain ⟨fork, inner, jump⟩ := StandsIn.star_iff.mp stands
    have ends : pc + (body.size + 2) = pc + 1 + body.size + 1 := by omega
    rw [ends] at fork
    rw [size, ends]
    exact ((Flows.next (.enter fork)).trans (ih inner)).loop (.jump jump) (.leave fork)
  | plus greedy _ ih =>
    obtain ⟨body, fork⟩ := StandsIn.plus_iff.mp stands
    rw [size, ← Nat.add_assoc]
    rw [← Nat.add_assoc] at fork
    exact (ih body).trans (.next (.leave fork))
  | choice two _ ih =>
    refine flows_choice (List.ne_nil_of_length_pos (by omega)) stands fun start b mem => ?_
    exact ih b (mem_of_mem_laid mem) (stands.choice.2 start b mem).stands

/-- A wide fork in the code of a plan with wide choices has two targets at least, in increasing
order. -/
theorem Wide.forkN {p : Plan} (wide : p.Wide) {pc : Nat} {targets : List Nat}
    (mem : .forkN targets ∈ p.code pc) : 2 ≤ targets.length ∧ targets.Pairwise (· < ·) := by
  induction wide generalizing pc with
  | nothing => simp [code] at mem
  | plain i => cases i <;> simp [code, Plain.instruction] at mem
  | seq _ _ ihf ihs =>
    rw [code, List.mem_append] at mem
    exact mem.elim ihf ihs
  | option greedy _ ih =>
    rw [code, List.mem_cons] at mem
    rcases mem with fork | mem
    · cases greedy <;> cases fork
    · exact ih mem
  | star greedy _ ih =>
    rw [code, List.mem_cons, List.mem_append, List.mem_singleton] at mem
    rcases mem with fork | mem | jump
    · cases greedy <;> cases fork
    · exact ih mem
    · cases jump
  | plus greedy _ ih =>
    rw [code, List.mem_append, List.mem_singleton] at mem
    rcases mem with mem | fork
    · exact ih mem
    · cases greedy <;> cases fork
  | choice two _ ih =>
    rw [code, List.mem_cons] at mem
    rcases mem with fork | mem
    · cases fork
      exact ⟨by rwa [length_starts], starts_pairwise _ _⟩
    · rcases mem_join mem with jump | ⟨start, b, found, mem⟩
      · cases jump
      · exact ih b (mem_of_mem_laid found) mem

/-- Composing plans adds no choice, so all choices stay wide. -/
theorem composes_wide : Composes fun p _ => p.Wide where
  nothing := .nothing
  seq := .seq
  option greedy := .option greedy
  star greedy := .star greedy
  plus greedy := .plus greedy

/-- The code of a text has no choice. -/
theorem wide_ofChars (cs : List Char) : (Plan.ofChars cs).Wide := by
  induction cs with
  | nil => exact .nothing
  | cons c cs ih => exact .seq (.plain _) ih

/-- A group adds no choice to its body. -/
theorem wide_capture {p : Plan} (wide : p.Wide) (kept : Bool) (index : Nat) :
    (Plan.capture kept index p).Wide := by
  cases kept with
  | false => exact wide
  | true => exact .seq (.plain _) (.seq wide (.plain _))

end Plan

namespace Expr

/-- The choices of a sequence are wide if those of its items are. -/
theorem wide_planAll {kept : Bool} {es : List Expr} (wide : ∀ e ∈ es, (e.plan kept).Wide) :
    (planAll kept es).Wide := by
  induction es with
  | nil => exact .nothing
  | cons e es ih =>
    rw [List.forall_mem_cons] at wide
    exact .seq wide.1 (ih wide.2)

/-- The choices of a plan are those of its expression. -/
theorem wide_plan (kept : Bool) {e : Expr} (wide : e.Each NodeWide) : (e.plan kept).Wide := by
  induction e with
  | empty => exact .nothing
  | literal bs => exact Plan.wide_ofChars _
  | chars set => exact .plain _
  | bytes set => exact .plain _
  | look l => exact .plain _
  | repetition min max greedy body ih =>
    have inner := ih (Each.repetition_iff.mp wide).2
    exact Plan.composes_wide.repetition (q := body.plan kept) inner min max greedy
  | capture index name body ih =>
    exact Plan.wide_capture (ih (Each.capture_iff.mp wide).2) kept index
  | concat items ih =>
    have each := (Each.concat_iff.mp wide).2
    exact wide_planAll fun e mem => ih e mem (each e mem)
  | alternation branches ih =>
    obtain ⟨two, each⟩ := Each.alternation_iff.mp wide
    rw [plan, plans_eq_map]
    refine .choice (by rwa [List.length_map]) fun b mem => ?_
    obtain ⟨e, found, rfl⟩ := List.mem_map.mp mem
    exact ih e found (each e found)

/-- The choices of a program are wide if the alternations of its expression are. -/
theorem wide_wholePlan (kept : Bool) {e : Expr} (wide : e.Each NodeWide) :
    (e.wholePlan kept).Wide := by
  refine .seq ?_ (wide_plan kept wide)
  unfold startPlan
  split
  · exact .nothing
  · exact .star false (.plain .consumeAny)

end Expr

/-- A program whose instructions form a closed graph: it ends with its one accepting instruction,
every target is an instruction, a wide fork chooses between two at least, in order, and each
instruction lies on a way from the first to the last. -/
structure Closed (code : List Instruction) : Prop where
  last : code.getLast? = some .accept
  only : ∀ pc, code[pc]? = some .accept → pc + 1 = code.length
  inside : ∀ i ∈ code, ∀ t ∈ i.targets, t < code.length
  wide : ∀ targets, .forkN targets ∈ code → 2 ≤ targets.length ∧ targets.Pairwise (· < ·)
  reached : ∀ pc < code.length, Path code 0 pc
  leads : ∀ pc < code.length, Path code pc (code.length - 1)

/-- The program of an expression is a closed graph if each alternation is a real choice. -/
theorem Expr.closed_instructions (kept : Bool) {e : Expr} (wide : e.Each NodeWide) :
    Closed (e.instructions kept) := by
  have flows := (wide_wholePlan kept wide).flows (e.instructions_stand kept).1
  rw [Nat.zero_add] at flows
  have length := e.length_instructions kept
  refine ⟨by simp [instructions], fun pc here => ?_, fun i mem t target => ?_,
    fun targets mem => ?_, fun pc lt => ?_, fun pc lt => ?_⟩
  · rw [(e.accept_iff kept).mp here, length]
  · rw [instructions, List.mem_append, List.mem_singleton] at mem
    rcases mem with mem | rfl
    · have := ((Plan.confined_of_mem_code mem).inside t target).2
      omega
    · cases target
  · rw [instructions, List.mem_append, List.mem_singleton] at mem
    rcases mem with mem | accept
    · exact (wide_wholePlan kept wide).forkN mem
    · cases accept
  · exact flows.reached pc (Nat.zero_le pc) (by omega)
  · rw [length, Nat.add_sub_cancel]
    exact flows.onward pc (Nat.zero_le pc) (by omega)

namespace Settings

/-- Every program of a built expression is a closed graph. -/
theorem program_closed (s : Settings) (e : Expr) (built : e.Built) (p : Program)
    (compiled : s.program e = .ok p) : Closed p.code := by
  rw [code_of_program compiled]
  exact Expr.closed_instructions _ built.each_wide

/-- The pattern `(?:(a|bc){2,}?|^)*` nests a choice in a loop in a choice in a loop. -/
theorem program_closed_nested :
    let branches := [Expr.ofBytes [0x61], Expr.ofBytes [0x62, 0x63]]
    let inner := Expr.ofRepetition 2 none false (.capture 1 none (Expr.ofAlternation branches))
    let e := Expr.ofRepetition 0 none true (Expr.ofAlternation [inner, .look .start])
    e.Built ∧ ∃ p, ({ neverCapture := false } : Settings).program e = .ok p ∧ Closed p.code := by
  intro branches inner e
  have built : e.Built := by
    refine .repetition 0 none true (.alternation ?_)
    simp only [List.forall_mem_cons, List.not_mem_nil, false_imp_iff, implies_true, and_true]
    refine ⟨.repetition 2 none false (.capture 1 none (.alternation ?_)), .look .start⟩
    simp only [branches, List.forall_mem_cons, List.not_mem_nil, false_imp_iff, implies_true,
      and_true]
    exact ⟨.literal _, .literal _⟩
  obtain ⟨p, compiled⟩ : ∃ p, ({ neverCapture := false } : Settings).program e = .ok p :=
    exists_program (by decide +kernel)
  exact ⟨built, p, compiled, program_closed _ e built p compiled⟩

end Settings

end PatternGate
