import PatternGate.Program.Compile
import PatternGate.Validator.Request

/-!
# Verdicts

A validator says of a pattern whether the engine supports it, and if not, whether for its size or
for its form. Requests come as records, as JSON values or as JSON text, and verdicts go out as JSON
text.
-/

namespace PatternGate

/-- Whether a pattern is supported. -/
inductive Verdict where
  | supported
  | unsupported (reason : Reason)
  deriving DecidableEq

namespace Verdict

/-- The reason of a verdict that has one. -/
def reason? : Verdict → Option Reason
  | supported => none
  | unsupported r => some r

/-- The verdict of a compilation. -/
def ofResult : Except CompileError Program → Verdict
  | .ok _ => supported
  | .error e => unsupported (if e.isSizeLimit then .memoryLimitExceeded else .syntaxError)

/-- The JSON text of a verdict. -/
def text : Verdict → String
  | supported => String.ofList (JsonText.object [("isSupported", JsonText.bool true)])
  | unsupported r =>
    String.ofList (JsonText.object [
      ("isSupported", JsonText.bool false), ("reason", JsonText.string r.name)])

end Verdict

/-- What happens while a pattern is validated. -/
inductive ValidateEvent where
  | compile (event : CompileEvent)
  | validated (pattern : String) (verdict : Verdict)
  deriving DecidableEq

/-- A verdict, and what happened on the way to it. -/
structure Validation where
  verdict : Verdict
  events : List ValidateEvent

/-- Why a request is refused. -/
inductive RequestError where
  | notAnObject
  | wrongArguments (fault : JsonFault)

namespace RequestError

/-- The wording of an error. -/
def message : RequestError → String
  | notAnObject => "Wrong arguments: expected an object"
  | wrongArguments f => "Wrong arguments: " ++ f.message

end RequestError

namespace ValidatorLimits

/-- The settings of the engine for a request. -/
def settings (l : ValidatorLimits) (r : Request) : Settings where
  caseSensitive := r.caseSensitive
  neverCapture := !r.requireCapturing
  logErrors := false
  maxMemory := l.maxMemory
  nestLimit := l.nestLimit

/-- Validates a pattern. -/
def validate (l : ValidatorLimits) (r : Request) : Validation :=
  let c := (l.settings r).compile r.pattern
  let verdict := Verdict.ofResult c.result
  ⟨verdict, c.events.map .compile ++ [.validated r.pattern verdict]⟩

/-- Validates the pattern of a request that is given as a JSON value. -/
def validateValue (l : ValidatorLimits) (v : Json) : Except RequestError Validation :=
  match v with
  | .object _ =>
    match Request.ofJson v with
    | .ok r => .ok (l.validate r)
    | .error f => .error (.wrongArguments f)
  | _ => .error .notAnObject

/-- Validates the pattern of a request that is given as JSON text, and writes the verdict. -/
def validateText (l : ValidatorLimits) (text : String) : Except RequestError String :=
  match Json.parse text with
  | .error f => .error (.wrongArguments f)
  | .ok v => (l.validateValue v).map fun validation => validation.verdict.text

end ValidatorLimits

end PatternGate
