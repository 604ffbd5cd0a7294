import PatternGate.Validator.Verdict

/-!
# Events as text

How events look to those who watch: a level and named fields, all of them text.
-/

namespace PatternGate

/-- How much an event matters. -/
inductive Level where
  | trace
  | debug
  | error
  deriving DecidableEq

namespace Level

/-- The name of a level. -/
def text : Level → String
  | trace => "TRACE"
  | debug => "DEBUG"
  | error => "ERROR"

end Level

/-- An event as it is shown. -/
structure EventRecord where
  level : Level
  fields : List (String × String)
  deriving DecidableEq

namespace CompileEvent

/-- How an event of a compilation is shown. -/
def record : CompileEvent → EventRecord
  | budgetExhausted o =>
    ⟨.trace, [("used", toString o.used), ("budget", toString o.budget),
      ("message", "program budget exhausted")]⟩
  | refused pattern message =>
    ⟨.error, [("pattern", pattern), ("error", message), ("message", "failed to compile pattern")]⟩

end CompileEvent

namespace Verdict

/-- The reason of a verdict as events show it. -/
def reasonText : Verdict → String
  | supported => "None"
  | unsupported .memoryLimitExceeded => "Some(MemoryLimitExceeded)"
  | unsupported .syntaxError => "Some(SyntaxError)"

end Verdict

namespace ValidateEvent

/-- How an event of a validation is shown. -/
def record : ValidateEvent → EventRecord
  | compile e => e.record
  | validated pattern verdict =>
    ⟨.debug, [("pattern", pattern), ("supported", if verdict = .supported then "true" else "false"),
      ("reason", verdict.reasonText), ("message", "validated pattern")]⟩

end ValidateEvent

end PatternGate
