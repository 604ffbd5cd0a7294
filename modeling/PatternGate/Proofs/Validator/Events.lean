import PatternGate.Proofs.Program.Charges
import PatternGate.Proofs.Program.Deeds
import PatternGate.Proofs.Validator.Outcome
import PatternGate.Validator.Events

/-!
# What can be seen of an outcome

Those who watch see events, and the outcome settles which: a budget that is exhausted shows when a
pattern is refused for its size and never else, a refusal shows if it is to be reported, and a
verdict shows always. The main statement, `events_outcome`, lists the events of a compilation and of
a validation, in their order and as they are shown. What an exhausted budget shows is the first
charge that did not fit: it is found among the charges of the expression (`Settings.Exhausts`), and
those before it did fit.

The event is raised in the midst of lowering, by the charge that is refused. That it is raised once
if lowering fails, and not at all if it does not, is read off the log of the run
(`Settings.raised_watchProgram`): no charge is made after a refused one.
-/

namespace PatternGate

namespace EventRecord

/-- An exhausted budget, as it is shown. -/
def exhausted (used budget : Nat) : EventRecord :=
  ⟨.trace, [("used", toString used), ("budget", toString budget),
    ("message", "program budget exhausted")]⟩

/-- A refusal, as it is shown. -/
def failed (pattern error : String) : EventRecord :=
  ⟨.error, [("pattern", pattern), ("error", error), ("message", "failed to compile pattern")]⟩

/-- A verdict, as it is shown. -/
def verdict (pattern supported reason : String) : EventRecord :=
  ⟨.debug, [("pattern", pattern), ("supported", supported), ("reason", reason),
    ("message", "validated pattern")]⟩

end EventRecord

namespace Settings

/-- While the pattern is lowered, a charge is refused that would have brought its program to `used`:
what was paid before the charge is within the budget, and `used` is beyond it. -/
def Exhausts (s : Settings) (pattern : String) (used : Nat) : Prop :=
  ∃ e paid cost rest, s.expression (Latin1.decode pattern) = .ok e ∧
    e.charges (!s.neverCapture) = paid ++ cost :: rest ∧ used = paid.sum + cost ∧
      s.programBudget.toNat < used ∧ used - cost ≤ s.programBudget.toNat

/-- What is reported of a result. -/
def reported (s : Settings) (pattern : String) :
    Except CompileError Program → List EventRecord
  | .ok _ => []
  | .error e =>
    if s.logErrors then [.failed pattern (e.message (Latin1.decode pattern))] else []

theorem map_record_refusal (s : Settings) (pattern : String) (e : CompileError) :
    (s.refusal pattern e).map CompileEvent.record = s.reported pattern (.error e) := by
  rw [refusal, reported]
  split <;> rfl

/-- Lowering raises one event if it fails, with the overrun that it fails with, and none else. -/
theorem raised_watchProgram (s : Settings) (e : Expr) :
    (s.watchProgram e).log.filterMap s.event? =
      match s.program e with
      | .ok _ => []
      | .error o => [.budgetExhausted o] := by
  have event : s.event? = fun d => (d.overrun? s.limits).map .budgetExhausted := rfl
  rw [watchProgram, Watched.log_bind_pure, event, ← List.map_filterMap, e.overruns_watchLower,
    program]
  cases e.lower s.limits <;> rfl

/-- A pattern without an expression shows what is reported of its result. -/
theorem records_of_error {s : Settings} {pattern : String} {e : CompileError}
    (refused : s.expression (Latin1.decode pattern) = .error e) :
    (s.compile pattern).events.map CompileEvent.record =
      s.reported pattern (s.compile pattern).result := by
  unfold compile
  rw [refused]
  exact s.map_record_refusal pattern e

/-- A pattern with an expression shows what lowering raised, and then what is reported of its
result. -/
theorem records_of_ok {s : Settings} {pattern : String} {e : Expr}
    (found : s.expression (Latin1.decode pattern) = .ok e) :
    (s.compile pattern).events.map CompileEvent.record =
      ((s.watchProgram e).log.filterMap s.event?).map CompileEvent.record ++
        s.reported pattern (s.compile pattern).result := by
  unfold compile
  rw [found]
  dsimp only
  cases (s.watchProgram e).result with
  | ok p => exact (List.append_nil _).symm
  | error o => rw [List.map_append, map_record_refusal]

/-- A pattern that is not refused for its size shows what is reported of its result. -/
theorem records_of_fits {s : Settings} {pattern : String}
    (fits : ∀ m, (s.compile pattern).result ≠ .error (.tooLarge m)) :
    (s.compile pattern).events.map CompileEvent.record =
      s.reported pattern (s.compile pattern).result := by
  cases expression : s.expression (Latin1.decode pattern) with
  | error e => exact records_of_error expression
  | ok e =>
    rw [records_of_ok expression, raised_watchProgram]
    cases lowered : s.program e with
    | ok p => exact List.nil_append _
    | error o =>
      rw [result_of_expression expression, lowered] at fits
      exact absurd rfl (fits s.maxMemory)

/-- A pattern that is refused for its size shows the charge that was refused, and then what is
reported of its result. -/
theorem records_of_tooLarge {s : Settings} {pattern : String} {m : UInt64}
    (large : (s.compile pattern).result = .error (.tooLarge m)) :
    ∃ used, s.Exhausts pattern used ∧
      (s.compile pattern).events.map CompileEvent.record =
        .exhausted used s.programBudget.toNat ::
          s.reported pattern (s.compile pattern).result := by
  cases expression : s.expression (Latin1.decode pattern) with
  | error e =>
    rw [result_compile, expression] at large
    cases large
    cases isSizeLimit_of_expression expression
  | ok e =>
    rw [records_of_ok expression, raised_watchProgram]
    cases lowered : s.program e with
    | ok p =>
      rw [result_of_expression expression, lowered] at large
      cases large
    | error o =>
      obtain ⟨paid, cost, rest, charges, before, after, rfl⟩ := program_eq_error_iff.mp lowered
      refine ⟨paid.sum + cost, ⟨e, paid, cost, rest, expression, charges, rfl, after, ?_⟩, ?_⟩
      · rwa [Nat.add_sub_cancel]
      · exact List.singleton_append

/-- Whether refusals are reported has no effect on the result. -/
theorem result_logErrors (s : Settings) (log : Bool) (pattern : String) :
    (compile { s with logErrors := log } pattern).result = (s.compile pattern).result := by
  rw [result_compile, result_compile]
  rfl

end Settings

namespace ValidatorLimits

/-- The verdict is that of the result of compiling the pattern. -/
theorem verdict_validate (l : ValidatorLimits) (r : Request) :
    (l.validate r).verdict = .ofResult ((l.settings r).compile r.pattern).result := by
  simp only [validate]

/-- The words that an event shows for each verdict: whether it is supported, and the reason. -/
def verdictWords : List (Verdict × String × String) :=
  [(.supported, "true", "None"),
    (.unsupported .memoryLimitExceeded, "false", "Some(MemoryLimitExceeded)"),
    (.unsupported .syntaxError, "false", "Some(SyntaxError)")]

/-- A validation shows what the compilation of its pattern shows, and then the verdict. -/
theorem records_validate (l : ValidatorLimits) (r : Request) :
    ∃ supported reason, ((l.validate r).verdict, supported, reason) ∈ verdictWords ∧
      (l.validate r).events.map ValidateEvent.record =
        ((l.settings r).compile r.pattern).events.map CompileEvent.record ++
          [EventRecord.verdict r.pattern supported reason] := by
  obtain ⟨supported, reason, words, shown⟩ : ∃ supported reason,
      ((l.validate r).verdict, supported, reason) ∈ verdictWords ∧
        (ValidateEvent.validated r.pattern (l.validate r).verdict).record =
          .verdict r.pattern supported reason := by
    rcases (l.validate r).verdict with _ | _ | _
    · exact ⟨"true", "None", by decide, rfl⟩
    · exact ⟨"false", "Some(MemoryLimitExceeded)", by decide, rfl⟩
    · exact ⟨"false", "Some(SyntaxError)", by decide, rfl⟩
  have inner : ValidateEvent.record ∘ ValidateEvent.compile = CompileEvent.record := rfl
  refine ⟨supported, reason, words, ?_⟩
  rw [← shown, validate, List.map_append, List.map_map, inner, List.map_singleton]

/-- Nothing is reported while a pattern is validated. -/
theorem reported_settings (l : ValidatorLimits) (r : Request)
    (result : Except CompileError Program) :
    (l.settings r).reported r.pattern result = [] := by
  cases result <;> rfl

end ValidatorLimits

/-- The events of an outcome. Compiling a pattern shows an exhausted budget exactly if the pattern
is refused for its size: the first charge that does not fit. Then it shows the refusal, with the
pattern as it was given, if there is one and refusals are to be reported; that they are has no
effect on the result. Validating a pattern shows an exhausted budget in the same case, never a
refusal, and at last the verdict that is returned, in the words that belong to it. -/
theorem events_outcome :
    (∀ (s : Settings) (pattern : String),
      let c := s.compile pattern
      ((∀ m, c.result ≠ .error (.tooLarge m)) →
        c.events.map CompileEvent.record = s.reported pattern c.result) ∧
      (∀ m, c.result = .error (.tooLarge m) → ∃ used, s.Exhausts pattern used ∧
        c.events.map CompileEvent.record =
          .exhausted used s.programBudget.toNat :: s.reported pattern c.result) ∧
      ∀ log, (Settings.compile { s with logErrors := log } pattern).result = c.result) ∧
    (∀ (l : ValidatorLimits) (r : Request),
      let c := (l.settings r).compile r.pattern
      let v := l.validate r
      ∃ supported reason,
        (v.verdict, supported, reason) ∈ [(.supported, "true", "None"),
          (.unsupported .memoryLimitExceeded, "false", "Some(MemoryLimitExceeded)"),
          (.unsupported .syntaxError, "false", "Some(SyntaxError)")] ∧
        ((∀ m, c.result ≠ .error (.tooLarge m)) →
          v.events.map ValidateEvent.record = [.verdict r.pattern supported reason]) ∧
        (∀ m, c.result = .error (.tooLarge m) →
          ∃ used, (l.settings r).Exhausts r.pattern used ∧
            v.events.map ValidateEvent.record =
              [.exhausted used (l.settings r).programBudget.toNat,
                .verdict r.pattern supported reason])) := by
  constructor
  · intro s pattern c
    exact ⟨Settings.records_of_fits, fun m => Settings.records_of_tooLarge,
      fun log => s.result_logErrors log pattern⟩
  · intro l r c v
    obtain ⟨supported, reason, words, last⟩ := l.records_validate r
    refine ⟨supported, reason, words, ?_, ?_⟩
    · intro fits
      refine last.trans ?_
      rw [Settings.records_of_fits fits, l.reported_settings, List.nil_append]
    · intro m large
      obtain ⟨used, exhausts, shown⟩ := Settings.records_of_tooLarge large
      refine ⟨used, exhausts, last.trans ?_⟩
      rw [shown, l.reported_settings, List.cons_append, List.nil_append]

/-- The pattern `a{100}` has 104 instructions, 12 of which fit in the budget of 200 bytes. Compiling
it shows the exhausted budget and the refusal, validating it the exhausted budget and the
verdict. -/
theorem events_outcome_exhausted :
    let s : Settings := { logErrors := true, maxMemory := 300 }
    let l : ValidatorLimits := { maxMemory := 300 }
    let pattern := "a\x7b100\x7d"
    (s.compile pattern).result = .error (.tooLarge 300) ∧
      (∃ used, s.Exhausts pattern used ∧
        (s.compile pattern).events.map CompileEvent.record =
          [.exhausted used 200, .failed pattern
            "pattern too large: compiled program exceeds the 300-byte memory limit"]) ∧
      ∃ used, (l.settings { pattern }).Exhausts pattern used ∧
        (l.validate { pattern }).events.map ValidateEvent.record =
          [.exhausted used 200, .verdict pattern "false" "Some(MemoryLimitExceeded)"] := by
  intro s l pattern
  have large : (s.compile pattern).result = .error (.tooLarge 300) := by
    rw [Settings.result_compile]
    decide +kernel
  have large' : ((l.settings { pattern }).compile pattern).result = .error (.tooLarge 300) := by
    have silent : l.settings { pattern } = { s with logErrors := false } := by decide
    rw [silent, Settings.result_logErrors, large]
  have budget : s.programBudget.toNat = 200 := by decide
  have budget' : (l.settings { pattern }).programBudget.toNat = 200 := by decide
  have reported : s.reported pattern (.error (.tooLarge 300)) = [.failed pattern
      "pattern too large: compiled program exceeds the 300-byte memory limit"] := by decide +kernel
  refine ⟨large, ?_, ?_⟩
  · obtain ⟨used, exhausts, shown⟩ := (events_outcome.1 s pattern).2.1 300 large
    rw [large, reported, budget] at shown
    exact ⟨used, exhausts, shown⟩
  · obtain ⟨supported, reason, words, -, refused⟩ := events_outcome.2 l { pattern }
    have verdict : (l.validate { pattern }).verdict = .unsupported .memoryLimitExceeded := by
      rw [ValidatorLimits.verdict_validate, large']
      rfl
    rw [verdict] at words
    obtain ⟨used, exhausts, shown⟩ := refused 300 large'
    have spelled : supported = "false" ∧ reason = "Some(MemoryLimitExceeded)" := by
      simpa using words
    rw [budget', spelled.1, spelled.2] at shown
    exact ⟨used, exhausts, shown⟩

end PatternGate
