import PatternGate.Proofs.Pattern.Meaning
import PatternGate.Proofs.Program.Watch
import PatternGate.Validator.Verdict

/-!
# What decides the outcome for a pattern

Compiling a pattern finds its expression and then the program of that expression, and the first
refusal is the outcome. The two stages refuse for different reasons: a refusal for the form of a
pattern comes from the first, a refusal for its size from the second. So an outcome is read off the
stages (`Settings.result_eq_error_iff`, `ValidatorLimits.verdict_eq_syntaxError_iff`).

The first stage reads the bound on nesting and whether case counts, and no other setting. Case does
change what is built from every literal and class, but it has no say in whether there is anything to
build: only a property that does not exist leaves a tree without a meaning, and it does so in all
modes. `FailsAlike` carries this through the tree. The main statement, `syntax_settled`, follows: a
refusal for form is settled by the pattern and the bound on nesting in force, so that no memory
limit can hide it.
-/

namespace PatternGate

section Errors

variable {ε ε' α β : Type}

/-- A computation that fails has failed at its first step or after it. -/
theorem bind_eq_error_iff {x : Except ε α} {f : α → Except ε β} {e : ε} :
    (x >>= f) = .error e ↔ x = .error e ∨ ∃ a, x = .ok a ∧ f a = .error e := by
  cases x with
  | error e' =>
    constructor
    · intro failed
      cases failed
      exact .inl rfl
    · rintro (failed | ⟨a, none, -⟩)
      · cases failed
        rfl
      · cases none
  | ok a =>
    constructor
    · exact fun rest => .inr ⟨a, rfl, rest⟩
    · rintro (failed | ⟨_, ⟨⟩, rest⟩)
      · cases failed
      · exact rest

theorem mapError_eq_error_iff {x : Except ε α} {f : ε → ε'} {e' : ε'} :
    x.mapError f = .error e' ↔ ∃ e, x = .error e ∧ f e = e' := by
  cases x <;> simp [Except.mapError]

theorem mapError_eq_ok_iff {x : Except ε α} {f : ε → ε'} {a : α} :
    x.mapError f = .ok a ↔ x = .ok a := by
  cases x <;> simp [Except.mapError]

end Errors

/-- Two computations fail together, and then for the same reason. -/
def FailsAlike {ε α β : Type} (x : Except ε α) (y : Except ε β) : Prop :=
  ∀ e, x = .error e ↔ y = .error e

namespace FailsAlike

variable {ε α β α' β' : Type}

theorem refl (x : Except ε α) : FailsAlike x x := fun _ => Iff.rfl

theorem ok (a : α) (b : β) : FailsAlike (.ok a : Except ε α) (.ok b : Except ε β) := by
  intro e
  constructor <;> intro failed <;> cases failed

theorem error (e : ε) : FailsAlike (.error e : Except ε α) (.error e : Except ε β) := by
  intro e'
  constructor <;> intro failed <;> cases failed <;> rfl

/-- Two computations that fail alike either fail with one error or both succeed. -/
theorem cases {x : Except ε α} {y : Except ε β} (alike : FailsAlike x y) :
    (∃ e, x = .error e ∧ y = .error e) ∨ ∃ a b, x = .ok a ∧ y = .ok b := by
  cases x with
  | error e => exact .inl ⟨e, rfl, (alike e).mp rfl⟩
  | ok a =>
    cases y with
    | error e =>
      have failed := (alike e).mpr rfl
      cases failed
    | ok b => exact .inr ⟨a, b, rfl, rfl⟩

/-- Computations that fail alike do so, too, when they are followed by such computations. -/
theorem bind {x : Except ε α} {y : Except ε β} {f : α → Except ε α'} {g : β → Except ε β'}
    (first : FailsAlike x y) (next : ∀ a b, FailsAlike (f a) (g b)) :
    FailsAlike (x >>= f) (y >>= g) := by
  obtain ⟨e, rfl, rfl⟩ | ⟨a, b, rfl, rfl⟩ := first.cases
  · exact error e
  · exact next a b

theorem mapError {ε' : Type} (f : ε → ε') {x : Except ε α} {y : Except ε β}
    (alike : FailsAlike x y) : FailsAlike (x.mapError f) (y.mapError f) := by
  obtain ⟨e, rfl, rfl⟩ | ⟨a, b, rfl, rfl⟩ := alike.cases
  · exact error (f e)
  · exact ok a b

end FailsAlike

section Modes

/-- A property exists or not, whether or not case is ignored. -/
theorem propertySet_failsAlike (ignore ignore' : Bool) (span : Span) (negated : Bool)
    (query : Unicode.Query) :
    FailsAlike (propertySet ignore span negated query)
      (propertySet ignore' span negated query) := by
  unfold propertySet
  cases query.set with
  | ok set => exact .ok _ _
  | error cause => cases cause <;> exact .refl _

mutual

/-- Whether a class has members to name does not depend on case. -/
theorem ClassTree.set_failsAlike (ignore ignore' : Bool) :
    (t : ClassTree) → FailsAlike (t.set ignore) (t.set ignore')
  | .empty _ | .literal _ _ | .range _ _ _ | .ascii _ _ _ | .letter _ _ _ => by
    simp only [ClassTree.set]
    exact .ok _ _
  | .property span negated query => by
    simp only [ClassTree.set]
    exact propertySet_failsAlike ignore ignore' span negated query
  | .bracket _ _ body => by
    simp only [ClassTree.set]
    exact (ClassTree.set_failsAlike ignore ignore' body).bind fun _ _ => .ok _ _
  | .union _ items => by
    simp only [ClassTree.set]
    exact ClassTree.setAll_failsAlike ignore ignore' items [] []
  | .binary _ _ lhs rhs => by
    simp only [ClassTree.set]
    refine (ClassTree.set_failsAlike ignore ignore' lhs).bind fun _ _ => ?_
    exact (ClassTree.set_failsAlike ignore ignore' rhs).bind fun _ _ => .ok _ _

theorem ClassTree.setAll_failsAlike (ignore ignore' : Bool) :
    (ts : List ClassTree) → (acc acc' : RangeSet) →
      FailsAlike (ClassTree.setAll ignore ts acc) (ClassTree.setAll ignore' ts acc')
  | [], acc, acc' => .ok acc acc'
  | t :: ts, acc, acc' => by
    simp only [ClassTree.setAll]
    refine (ClassTree.set_failsAlike ignore ignore' t).bind fun set set' => ?_
    exact ClassTree.setAll_failsAlike ignore ignore' ts _ _

end

namespace Tree

theorem meanings_failsAlike {ts : List Tree}
    (each : ∀ t ∈ ts, ∀ m m' : Modes, FailsAlike (t.meaning m) (t.meaning m')) (m m' : Modes) :
    FailsAlike (meanings ts m) (meanings ts m') := by
  induction ts generalizing m m' with
  | nil =>
    rw [meanings, meanings]
    exact .ok _ _
  | cons t ts ih =>
    rw [List.forall_mem_cons] at each
    rw [meanings, meanings]
    refine (each.1 m m').bind fun first first' => ?_
    exact (ih each.2 first.2 first'.2).bind fun _ _ => .ok _ _

/-- Whether a tree has a meaning, and if not, why, does not depend on the modes. -/
theorem meaning_failsAlike (t : Tree) (m m' : Modes) :
    FailsAlike (t.meaning m) (t.meaning m') := by
  induction t generalizing m m' with
  | empty | flags | literal | dot | assertion | letter =>
    rw [meaning, meaning]
    exact .ok _ _
  | property span negated query =>
    rw [meaning, meaning]
    exact (propertySet_failsAlike _ _ span negated query).bind fun _ _ => .ok _ _
  | bracket span negated body =>
    rw [meaning, meaning]
    exact (ClassTree.set_failsAlike _ _ body).bind fun _ _ => .ok _ _
  | repetition span bounds greedy body ih =>
    rw [meaning, meaning]
    exact (ih m m').bind fun _ _ => .ok _ _
  | group span kind body ih =>
    rw [meaning, meaning]
    exact (ih (m.inside kind) (m'.inside kind)).bind fun _ _ => .ok _ _
  | alternation span branches ih =>
    rw [meaning, meaning]
    exact (meanings_failsAlike ih m m').bind fun _ _ => .ok _ _
  | concat span items ih =>
    rw [meaning, meaning]
    exact (meanings_failsAlike ih m m').bind fun _ _ => .ok _ _

end Tree

end Modes

namespace Settings

/-- The program that is found under watch is that of the expression. -/
theorem result_watchProgram (s : Settings) (e : Expr) :
    (s.watchProgram e).result = s.program e := by
  rw [watchProgram, program, Watched.result_bind, Expr.result_watchLower]
  rfl

/-- The result of compiling a pattern, without what happened on the way: an expression is found, and
then its program, and the first refusal is the answer. -/
theorem result_compile (s : Settings) (pattern : String) :
    (s.compile pattern).result =
      s.expression (Latin1.decode pattern) >>= fun e => (s.program e).mapError s.refusalOf := by
  unfold compile
  cases s.expression (Latin1.decode pattern) with
  | error e => rfl
  | ok e =>
    show _ = (s.program e).mapError s.refusalOf
    rw [← result_watchProgram]
    dsimp only
    cases (s.watchProgram e).result <;> rfl

/-- Once a pattern has an expression, lowering alone decides. -/
theorem result_of_expression {s : Settings} {pattern : String} {e : Expr}
    (found : s.expression (Latin1.decode pattern) = .ok e) :
    (s.compile pattern).result = (s.program e).mapError s.refusalOf := by
  rw [result_compile, found]
  rfl

/-- A pattern is compiled to a program exactly if it has an expression and that has the program. -/
theorem result_eq_ok_iff {s : Settings} {pattern : String} {p : Program} :
    (s.compile pattern).result = .ok p ↔
      ∃ e, s.expression (Latin1.decode pattern) = .ok e ∧ s.program e = .ok p := by
  simp only [result_compile, bind_eq_ok_iff, mapError_eq_ok_iff]

/-- A decoded pattern has an expression exactly if it can be read, belongs to the dialect and has a
meaning. -/
theorem expression_eq_ok_iff {s : Settings} {decoded : String} {e : Expr} :
    s.expression decoded = .ok e ↔
      ∃ t m, Tree.parseWithin s.effectiveNestLimit.toNat decoded = .ok t ∧
        t.checkDialect = .ok () ∧ t.meaning s.modes = .ok (e, m) := by
  rw [expression, tree]
  constructor
  · intro found
    obtain ⟨t, gated, found⟩ := bind_eq_ok_iff.mp found
    obtain ⟨⟨e', m⟩, meant, same⟩ := bind_eq_ok_iff.mp found
    obtain ⟨t', parsed, gated⟩ := bind_eq_ok_iff.mp gated
    obtain ⟨_, passed, here⟩ := bind_eq_ok_iff.mp gated
    cases here
    cases same
    exact ⟨t, m, mapError_eq_ok_iff.mp parsed, mapError_eq_ok_iff.mp passed,
      mapError_eq_ok_iff.mp meant⟩
  · rintro ⟨t, m, parsed, passed, meant⟩
    refine bind_eq_ok_iff.mpr ⟨t, bind_eq_ok_iff.mpr ⟨t, mapError_eq_ok_iff.mpr parsed, ?_⟩, ?_⟩
    · exact bind_eq_ok_iff.mpr ⟨(), mapError_eq_ok_iff.mpr passed, rfl⟩
    · exact bind_eq_ok_iff.mpr ⟨(e, m), mapError_eq_ok_iff.mpr meant, rfl⟩

/-- A decoded pattern has no expression if it cannot be read, if it holds a construct outside the
dialect, or if it has no meaning; the first of these that is the case is the reason. -/
theorem expression_eq_error_iff {s : Settings} {decoded : String} {e : CompileError} :
    s.expression decoded = .error e ↔
      (∃ fault, Tree.parseWithin s.effectiveNestLimit.toNat decoded = .error fault ∧
        e = .unreadable fault) ∨
      ∃ t, Tree.parseWithin s.effectiveNestLimit.toNat decoded = .ok t ∧
        ((∃ f, t.checkDialect = .error f ∧
          e = .dialect { f with offset := Latin1.patternOffset decoded f.offset }) ∨
        (t.checkDialect = .ok () ∧
          ∃ fault, t.meaning s.modes = .error fault ∧ e = .meaningless fault)) := by
  rw [expression, tree]
  cases Tree.parseWithin s.effectiveNestLimit.toNat decoded with
  | error fault => simp [Except.mapError, bind, Except.bind, eq_comm]
  | ok t =>
    cases passed : t.checkDialect with
    | error f => simp [passed, Except.mapError, bind, Except.bind, eq_comm]
    | ok u =>
      cases meant : t.meaning s.modes with
      | error fault =>
        simp [passed, meant, Except.mapError, bind, Except.bind, pure, Except.pure, eq_comm]
      | ok found =>
        simp [passed, meant, Except.mapError, bind, Except.bind, pure, Except.pure]

/-- No pattern lacks an expression for its size. -/
theorem isSizeLimit_of_expression {s : Settings} {decoded : String} {e : CompileError}
    (refused : s.expression decoded = .error e) : e.isSizeLimit = false := by
  rcases expression_eq_error_iff.mp refused with
    ⟨_, -, rfl⟩ | ⟨_, -, ⟨_, -, rfl⟩ | ⟨-, _, -, rfl⟩⟩ <;> rfl

/-- A pattern is refused for its form exactly if it has no expression. -/
theorem result_eq_error_iff {s : Settings} {pattern : String} {e : CompileError}
    (form : e.isSizeLimit = false) :
    (s.compile pattern).result = .error e ↔
      s.expression (Latin1.decode pattern) = .error e := by
  rw [result_compile, bind_eq_error_iff, or_iff_left]
  rintro ⟨x, -, refused⟩
  obtain ⟨overrun, -, rfl⟩ := mapError_eq_error_iff.mp refused
  cases form

/-- Looking for the expression of a pattern fails alike under settings with one bound on nesting. -/
theorem expression_failsAlike {s s' : Settings}
    (limit : s.effectiveNestLimit = s'.effectiveNestLimit) (decoded : String) :
    FailsAlike (s.expression decoded) (s'.expression decoded) := by
  have gate : s.tree decoded = s'.tree decoded := by rw [tree, limit, tree]
  rw [expression, expression, gate]
  cases s'.tree decoded with
  | error e => exact .error e
  | ok t =>
    have alike := (t.meaning_failsAlike s.modes s'.modes).mapError CompileError.meaningless
    exact alike.bind fun _ _ => .ok _ _

end Settings

/-- A verdict blames the form of a pattern exactly if the refusal does. -/
theorem Verdict.ofResult_eq_syntaxError_iff {result : Except CompileError Program} :
    ofResult result = .unsupported .syntaxError ↔
      ∃ e, result = .error e ∧ e.isSizeLimit = false := by
  cases result with
  | ok p => simp [ofResult]
  | error e => cases blame : e.isSizeLimit <;> simp [ofResult, blame]

theorem Verdict.ofResult_eq_supported_iff {result : Except CompileError Program} :
    ofResult result = .supported ↔ ∃ p, result = .ok p := by
  cases result <;> simp [ofResult]

namespace ValidatorLimits

/-- A validator supports a pattern exactly if the engine compiles it. -/
theorem verdict_eq_supported_iff {l : ValidatorLimits} {r : Request} :
    (l.validate r).verdict = .supported ↔
      ∃ e p, (l.settings r).expression (Latin1.decode r.pattern) = .ok e ∧
        (l.settings r).program e = .ok p := by
  rw [validate, Verdict.ofResult_eq_supported_iff, exists_comm]
  exact exists_congr fun p => Settings.result_eq_ok_iff

/-- A validator reports a syntax error exactly if the pattern has no expression. -/
theorem verdict_eq_syntaxError_iff {l : ValidatorLimits} {r : Request} :
    (l.validate r).verdict = .unsupported .syntaxError ↔
      ∃ e, (l.settings r).expression (Latin1.decode r.pattern) = .error e := by
  rw [validate, Verdict.ofResult_eq_syntaxError_iff]
  constructor
  · rintro ⟨e, refused, form⟩
    exact ⟨e, (Settings.result_eq_error_iff form).mp refused⟩
  · rintro ⟨e, refused⟩
    have form := Settings.isSizeLimit_of_expression refused
    exact ⟨e, (Settings.result_eq_error_iff form).mpr refused, form⟩

end ValidatorLimits

/-- Whether a pattern is refused for its form, and with which error, is settled by the pattern and
the bound on nesting in force. Whatever else two settings differ in, they agree on it, and so do two
validators on whether to report a syntax error. -/
theorem syntax_settled :
    (∀ (pattern : String) (s s' : Settings), s.effectiveNestLimit = s'.effectiveNestLimit →
      ∀ e : CompileError, e.isSizeLimit = false →
        ((s.compile pattern).result = .error e ↔ (s'.compile pattern).result = .error e)) ∧
    (∀ (l l' : ValidatorLimits) (r r' : Request), r.pattern = r'.pattern →
      (l.settings r).effectiveNestLimit = (l'.settings r').effectiveNestLimit →
        ((l.validate r).verdict = .unsupported .syntaxError ↔
          (l'.validate r').verdict = .unsupported .syntaxError)) := by
  constructor
  · intro pattern s s' limit e form
    have alike := Settings.expression_failsAlike limit (Latin1.decode pattern)
    rw [Settings.result_eq_error_iff form, Settings.result_eq_error_iff form]
    exact alike e
  · intro l l' r r' pattern limit
    have alike := Settings.expression_failsAlike limit (Latin1.decode r.pattern)
    rw [ValidatorLimits.verdict_eq_syntaxError_iff, ValidatorLimits.verdict_eq_syntaxError_iff,
      ← pattern]
    exact exists_congr alike

/-- The pattern `a{900}(?x)` is outside the dialect, and too large besides. Where case does not
count, captures are kept and there is no memory at all, it is refused for its form all the same, at
the same place. -/
theorem syntax_settled_oversized :
    let pattern := "a\x7b900\x7d(?x)"
    let s : Settings := { nestLimit := 1000 }
    let s' : Settings :=
      { caseSensitive := false, neverCapture := false, logErrors := true, maxMemory := 0,
        nestLimit := 4000 }
    let outside : CompileError := .dialect ⟨.blankFlag, 8⟩
    (s.effectiveNestLimit = s'.effectiveNestLimit ∧ (s.compile pattern).result = .error outside) ∧
      (s'.compile pattern).result = .error outside ∧
      ((ValidatorLimits.mk 2048 1000).validate ⟨pattern, true, false⟩).verdict =
        .unsupported .syntaxError ∧
      ((ValidatorLimits.mk 0 4000).validate ⟨pattern, false, true⟩).verdict =
        .unsupported .syntaxError := by
  intro pattern s s' outside
  have limit : s.effectiveNestLimit = s'.effectiveNestLimit := by decide
  have refused : (s.compile pattern).result = .error outside := by decide +kernel
  have verdict : ((ValidatorLimits.mk 2048 1000).validate ⟨pattern, true, false⟩).verdict =
      .unsupported .syntaxError := by decide +kernel
  exact ⟨⟨limit, refused⟩, (syntax_settled.1 pattern s s' limit outside rfl).mp refused, verdict,
    (syntax_settled.2 _ _ ⟨pattern, true, false⟩ ⟨pattern, false, true⟩ rfl (by decide)).mp verdict⟩

end PatternGate
