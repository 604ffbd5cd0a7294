import PatternGate.Proofs.Expr.Matching
import PatternGate.Proofs.Program.Walks

/-!
# Programs that start at the start

The lazy loop before a program is left out if its expression leads with a check of the start. Such a
program checks the start on every walk, before it reads a byte and before it accepts
(`Settings.start_checked`): what the shape of the expression shows of its matches, the graph of the
program shows of its walks.

That a sequence leads with a look is seen through items of greatest length zero, and the greatest
length counts a repetition from one turn to none as empty, although its one turn is written out.
Bounds in this order cannot be read from a pattern, but an expression can be built with them
(`Settings.start_unchecked`). So a byte is read only after the check if such a repetition has a body
that reads nothing either (`Expr.NodeTurns`).
-/

namespace PatternGate

/-- The instruction reads a byte. -/
def Instruction.consumes : Instruction → Bool
  | consume _ | consumeAny | consumeClass _ => true
  | fork2 _ _ | forkN _ | jump _ | writeRegister _ | assertion _ | accept => false

theorem Instruction.exists_plain {i : Instruction} (reads : i.consumes = true) :
    ∃ p : Plain, i = p.instruction := by
  cases i with
  | consume b => exact ⟨.consume b, rfl⟩
  | consumeAny => exact ⟨.consumeAny, rfl⟩
  | consumeClass set => exact ⟨.consumeClass set, rfl⟩
  | _ => cases reads

/-- The word checks a look, and reads no byte before that if `first` holds. -/
def Checks (l : Look) (first : Prop) (w : List Plain) : Prop :=
  ∃ before after, w = before ++ .assertion l :: after ∧
    (first → ∀ i ∈ before, i.instruction.consumes = false)

namespace Checks

variable {l : Look} {first first' : Prop} {u v w : List Plain}

theorem mono (checks : Checks l first w) (imp : first' → first) : Checks l first' w := by
  obtain ⟨before, after, eq, silent⟩ := checks
  exact ⟨before, after, eq, fun holds => silent (imp holds)⟩

theorem append (checks : Checks l first u) (v : List Plain) : Checks l first (u ++ v) := by
  obtain ⟨before, after, rfl, silent⟩ := checks
  exact ⟨before, after ++ v, by simp, silent⟩

theorem prepend (silent : first → ∀ i ∈ u, i.instruction.consumes = false)
    (checks : Checks l first v) : Checks l first (u ++ v) := by
  obtain ⟨before, after, rfl, silent'⟩ := checks
  refine ⟨u ++ before, after, by simp, fun holds => ?_⟩
  exact List.forall_mem_append.mpr ⟨silent holds, silent' holds⟩

theorem mem (checks : Checks l first w) : .assertion l ∈ w := by
  obtain ⟨before, after, rfl, -⟩ := checks
  exact List.mem_append_right before List.mem_cons_self

/-- A word that checks the look has checked it before it reads a byte. -/
theorem mem_before {i : Plain} (checks : Checks l first (u ++ i :: v)) (holds : first)
    (reads : i.instruction.consumes = true) : .assertion l ∈ u := by
  obtain ⟨before, after, eq, silent⟩ := checks
  have here : i ≠ .assertion l := fun same => by
    rw [same] at reads
    cases reads
  rcases List.append_eq_append_iff.mp eq with ⟨mid, earlier, later⟩ | ⟨mid, earlier, later⟩
  · cases mid with
    | nil => exact absurd (List.cons.inj later).1 here
    | cons j mid =>
      obtain rfl : i = j := (List.cons.inj later).1
      have quiet := silent holds i (by simp [earlier])
      rw [reads] at quiet
      cases quiet
  · cases mid with
    | nil => exact absurd (List.cons.inj later).1.symm here
    | cons j mid =>
      obtain rfl : .assertion l = j := (List.cons.inj later).1
      simp [earlier]

end Checks

/-- A repetition with a turn at least starts with one. -/
theorem Plan.exists_turn {min : Nat} (turns : 0 < min) {max : Option Nat} {greedy : Bool} {p : Plan}
    {w : List Plain} (spelled : w ∈ (repetition min max greedy p).words) :
    ∃ u ∈ p.words, ∃ v, w = u ++ v := by
  obtain ⟨n, rfl⟩ := Nat.exists_eq_add_one.mpr turns
  have copied {m : Nat} {l : Language Plain} (spelled : w ∈ (p.copies (m + 1)).words * l) :
      ∃ u ∈ p.words, ∃ v, w = u ++ v := by
    rw [copies, words, mul_assoc] at spelled
    obtain ⟨u, head, v, -, rfl⟩ := Language.mem_mul.mp spelled
    exact ⟨u, head, v, rfl⟩
  cases max with
  | some m => exact copied spelled
  | none =>
    cases n with
    | succ n => exact copied spelled
    | zero =>
      rw [repetition, words, copies, words, words, one_mul] at spelled
      obtain ⟨u, head, v, -, rfl⟩ := Language.mem_mul.mp spelled
      exact ⟨u, head, v, rfl⟩

namespace Expr

/-- A repetition up to no turn has a body that matches no byte. -/
def NodeTurns : Expr → Prop
  | .repetition _ max _ body => max = some 0 → body.maxLength = some 0
  | _ => True

instance : DecidablePred NodeTurns
  | .repetition _ max _ body => inferInstanceAs (Decidable (max = some 0 → body.maxLength = some 0))
  | .empty | .literal _ | .chars _ | .bytes _ | .look _ | .capture _ _ _ | .concat _
  | .alternation _ => inferInstanceAs (Decidable True)

/-- A repetition has length zero if its body has, or if it is up to no turn. -/
theorem maxLength_of_repetition {min : Nat} {max : Option Nat} {greedy : Bool} {body : Expr}
    (zero : (Expr.repetition min max greedy body).maxLength = some 0) :
    body.maxLength = some 0 ∨ max = some 0 := by
  rw [maxLength] at zero
  obtain ⟨count, counted, measured⟩ := Option.bind_eq_some_iff.mp zero
  obtain ⟨length, eq, product⟩ := Option.bind_eq_some_iff.mp measured
  rcases Nat.mul_eq_zero.mp (Option.some.inj product) with rfl | rfl
  · exact .inl eq
  · exact .inr counted

variable {kept : Bool} {l : Look}

/-- What has length zero is written without an instruction that reads a byte. -/
theorem consumes_of_maxLength {e : Expr} (turns : e.Each NodeTurns) (zero : e.maxLength = some 0)
    {i : Plain} (mem : i ∈ (e.plan kept).plains) : i.instruction.consumes = false := by
  induction e with
  | empty => cases mem
  | literal bs =>
    rw [maxLength, Option.some.injEq, List.length_eq_zero_iff] at zero
    subst zero
    cases mem
  | chars set =>
    rw [maxLength] at zero
    obtain ⟨n, -, length⟩ := Option.map_eq_some_iff.mp zero
    exact absurd length (Nat.ne_of_gt (utf8Length_pos n))
  | bytes set =>
    rw [maxLength] at zero
    split at zero <;> cases zero
  | look k =>
    rw [plan, Plan.plains, List.mem_singleton] at mem
    subst mem
    rfl
  | repetition min max greedy body ih =>
    obtain ⟨here, inside⟩ := Each.repetition_iff.mp turns
    have shorter := (maxLength_of_repetition zero).elim id here
    exact ih inside shorter (Plan.mem_plains_of_repetition mem)
  | capture index name body ih =>
    have inner := ih (Each.capture_iff.mp turns).2 zero
    cases kept with
    | false => exact inner mem
    | true =>
      simp only [plan, Plan.capture, if_true, Plan.plains, List.mem_append,
        List.mem_singleton] at mem
      rcases mem with rfl | mem | rfl
      · rfl
      · exact inner mem
      · rfl
  | concat items ih =>
    obtain ⟨e, among, mem⟩ := mem_plains_planAll_iff.mp mem
    exact ih e among ((Each.concat_iff.mp turns).2 e among) (sumLength_eq_zero_iff.mp zero e among)
      mem
  | alternation branches ih =>
    obtain ⟨e, among, mem⟩ := mem_plains_alternation_iff.mp mem
    exact ih e among ((Each.alternation_iff.mp turns).2 e among)
      ((supLength_eq_zero_iff.mp zero).2 e among) mem

theorem checks_of_anyLeadsWith {es : List Expr}
    (each : ∀ e ∈ es, leadsWith l e = true → ∀ w ∈ (e.plan kept).words,
      Checks l (e.Each NodeTurns) w)
    (leads : anyLeadsWith l es = true) {w : List Plain} (spelled : w ∈ (planAll kept es).words) :
    Checks l (∀ e ∈ es, e.Each NodeTurns) w := by
  induction es generalizing w with
  | nil =>
    rw [anyLeadsWith] at leads
    cases leads
  | cons e es ih =>
    rw [planAll, Plan.words] at spelled
    obtain ⟨u, head, v, tail, rfl⟩ := Language.mem_mul.mp spelled
    rw [List.forall_mem_cons] at each
    rw [anyLeadsWith, Bool.or_eq_true, Bool.and_eq_true, beq_iff_eq] at leads
    rcases leads with leads | ⟨zero, leads⟩
    · exact ((each.1 leads u head).append v).mono fun turns => turns e List.mem_cons_self
    · refine .prepend (fun turns i mem => ?_) ((ih each.2 leads tail).mono fun turns d mem => ?_)
      · exact consumes_of_maxLength (turns e List.mem_cons_self) zero
          (Plan.mem_plains_of_mem_words head mem)
      · exact turns d (List.mem_cons_of_mem e mem)

/-- The walks through the code of an expression that leads with a look check it. -/
theorem checks_of_leadsWith {e : Expr} (leads : leadsWith l e = true) {w : List Plain}
    (spelled : w ∈ (e.plan kept).words) : Checks l (e.Each NodeTurns) w := by
  induction e generalizing w with
  | empty | literal _ | chars _ | bytes _ =>
    rw [leadsWith] at leads
    cases leads
  | look k =>
    rw [leadsWith, beq_iff_eq] at leads
    rw [plan, Plan.words, leads] at spelled
    exact ⟨[], [], spelled, fun _ => List.forall_mem_nil _⟩
  | repetition min max greedy body ih =>
    rw [leadsWith, Bool.and_eq_true, decide_eq_true_eq] at leads
    obtain ⟨u, first, v, rfl⟩ := Plan.exists_turn leads.1 spelled
    exact ((ih leads.2 first).append v).mono fun turns => (Each.repetition_iff.mp turns).2
  | capture index name body ih =>
    rw [leadsWith] at leads
    refine .mono ?_ fun turns => (Each.capture_iff.mp turns).2
    cases kept with
    | false => exact ih leads spelled
    | true =>
      obtain ⟨u, inside, rfl⟩ := Plan.exists_of_mem_words_capture spelled
      exact .prepend (u := [_]) (fun _ => List.forall_mem_singleton.mpr rfl)
        ((ih leads inside).append _)
  | concat items ih =>
    rw [leadsWith] at leads
    exact (checks_of_anyLeadsWith (fun e mem leads _ => ih e mem leads) leads spelled).mono
      fun turns => (Each.concat_iff.mp turns).2
  | alternation branches ih =>
    rw [leadsWith, Bool.and_eq_true, allLeadWith_iff] at leads
    obtain ⟨e, mem, spelled⟩ := mem_words_alternation_iff.mp spelled
    exact (ih e mem (leads.2 e mem) spelled).mono fun turns =>
      (Each.alternation_iff.mp turns).2 e mem

/-- The walks through a program that leads with the start check it. -/
theorem checks_start {e : Expr} (leads : e.leadsWith .start = true) {passed : List Instruction}
    {stop : Nat} (walk : Walk (e.instructions kept) 0 passed stop)
    (accepts : (e.instructions kept)[stop]? = some .accept) :
    Checks .start (e.Each NodeTurns) (word passed) := by
  have spelled := word_mem_words walk accepts
  rw [wholePlan, startPlan, if_pos leads, Plan.words, Plan.words, one_mul] at spelled
  exact checks_of_leadsWith leads spelled

end Expr

/-- A walk to an instruction that reads a byte can go on and end with the program. -/
theorem Closed.exists_rest {code : List Instruction} (closed : Closed code)
    {passed : List Instruction} {pc stop : Nat} (walk : Walk code pc passed stop) {i : Instruction}
    (here : code[stop]? = some i) (reads : i.consumes = true) :
    ∃ rest last, Walk code pc (passed ++ i :: rest) last ∧ code[last]? = some .accept := by
  have inside : stop < code.length := (List.getElem?_eq_some_iff.mp here).1
  have accepts : code[code.length - 1]? = some .accept := by
    rw [← List.getLast?_eq_getElem?, closed.last]
  obtain ⟨onward, more⟩ := exists_walk (closed.leads stop inside)
  obtain ⟨next, rest, -, rfl, -⟩ := more.first_step here fun ends => by
    rw [ends, here] at accepts
    cases accepts
    cases reads
  exact ⟨rest, _, walk.trans more, accepts⟩

namespace Settings

/-- A program whose expression leads with the start has no lazy loop before it, and it cannot
advance before the start is checked: every walk from its first instruction to its end passes the
check, and so does every walk to an instruction that reads a byte, unless the expression repeats
what matches a byte up to no turn. -/
theorem start_checked (s : Settings) (e : Expr) (built : e.Built)
    (leads : e.leadsWith .start = true) (p : Program) (compiled : s.program e = .ok p)
    (passed : List Instruction) (stop : Nat) (walk : Walk p.code 0 passed stop) (i : Instruction)
    (here : p.code[stop]? = some i)
    (advances : i = .accept ∨ i.consumes = true ∧ e.Each Expr.NodeTurns) :
    .assertion .start ∈ passed := by
  rw [code_of_program compiled] at walk here
  rcases advances with rfl | ⟨reads, turns⟩
  · exact mem_word_iff.mp (Expr.checks_start leads walk here).mem
  · obtain ⟨rest, last, whole, accepts⟩ :=
      (Expr.closed_instructions _ built.each_wide).exists_rest walk here reads
    obtain ⟨k, rfl⟩ := Instruction.exists_plain reads
    have checks := Expr.checks_start leads whole accepts
    rw [word_append, word_cons_plain] at checks
    exact mem_word_iff.mp (checks.mem_before turns reads)

/-- The pattern `(^|(\b)?^b)c` checks the start before it reads `b`, also on the walk that notes its
second group and checks the boundary before. -/
theorem start_checked_second :
    let s : Settings := { neverCapture := false }
    let boundary := Expr.ofRepetition 0 (some 1) true (.capture 2 none (.look .wordAscii))
    let second := Expr.ofConcat [boundary, .look .start, .ofBytes [0x62]]
    let e := Expr.ofConcat
      [.capture 1 none (.ofAlternation [.look .start, second]), .ofBytes [0x63]]
    e.Built ∧ e.leadsWith .start = true ∧ e.Each Expr.NodeTurns ∧
      ∃ p, s.program e = .ok p ∧ p.code[9]? = some (.consume 0x62) ∧
        Walk p.code 0 [.writeRegister 2, .forkN [2, 4], .fork2 5 8, .writeRegister 4,
          .assertion .wordAscii, .writeRegister 5, .assertion .start] 9 ∧
        ∀ passed, Walk p.code 0 passed 9 → .assertion .start ∈ passed := by
  intro s boundary second e
  have built : e.Built := by
    have inner : second.Built := by
      refine .concat ?_
      simp only [List.forall_mem_cons, List.not_mem_nil, false_imp_iff, implies_true, and_true]
      exact ⟨.repetition _ _ _ (.capture _ _ (.look _)), .look _, .literal _⟩
    refine .concat ?_
    simp only [List.forall_mem_cons, List.not_mem_nil, false_imp_iff, implies_true, and_true]
    refine ⟨.capture _ _ (.alternation ?_), .literal _⟩
    simp only [List.forall_mem_cons, List.not_mem_nil, false_imp_iff, implies_true, and_true]
    exact ⟨.look _, inner⟩
  have leads : e.leadsWith .start = true := by decide +kernel
  have turns : e.Each Expr.NodeTurns := by decide +kernel
  obtain ⟨p, compiled⟩ : ∃ p, s.program e = .ok p := exists_program (by decide +kernel)
  have code : p.code = [.writeRegister 2, .forkN [2, 4], .assertion .start, .jump 10, .fork2 5 8,
      .writeRegister 4, .assertion .wordAscii, .writeRegister 5, .assertion .start, .consume 0x62,
      .writeRegister 3, .consume 0x63, .accept] := by
    rw [code_of_program compiled]
    decide +kernel
  have here : p.code[9]? = some (.consume 0x62) := by rw [code]; rfl
  refine ⟨built, leads, turns, p, compiled, here, ?_, fun passed walk => ?_⟩
  · rw [code]
    exact .step rfl (by decide : 1 ∈ [1]) (.step rfl (by decide : 4 ∈ [2, 4])
      (.step rfl (by decide : 5 ∈ [5, 8]) (.step rfl (by decide : 6 ∈ [6])
        (.step rfl (by decide : 7 ∈ [7]) (.step rfl (by decide : 8 ∈ [8])
          (.step rfl (by decide : 9 ∈ [9]) (.stay 9)))))))
  · exact start_checked s e built leads p compiled passed 9 walk _ here (.inr ⟨rfl, turns⟩)

/-- A letter repeated from one turn to none counts as empty, so that a check of the start after it
leads the sequence. The letter is written, and nothing stands before it. -/
theorem start_unchecked :
    let e := Expr.ofConcat [.ofRepetition 1 (some 0) true (.ofBytes [0x61]), .look .start]
    let code : List Instruction := [.consume 0x61, .assertion .start, .accept]
    e.Built ∧ e.leadsWith .start = true ∧
      (({} : Settings).program e).toOption.map Program.code = some code ∧
      code[0]? = some (.consume 0x61) ∧
      ∃ passed, Walk code 0 passed 0 ∧ .assertion .start ∉ passed := by
  intro e code
  have built : e.Built := by
    refine .concat ?_
    simp only [List.forall_mem_cons, List.not_mem_nil, false_imp_iff, implies_true, and_true]
    exact ⟨.repetition _ _ _ (.literal _), .look _⟩
  exact ⟨built, by decide +kernel, by decide +kernel, rfl, [], .stay 0, List.not_mem_nil⟩

end Settings

end PatternGate
