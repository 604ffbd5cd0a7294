import PatternGate.Expr.Meaning
import PatternGate.Pattern.Dialect
import PatternGate.Pattern.Nesting
import PatternGate.Pattern.Report
import PatternGate.Program.Watch

/-!
# Compiling a pattern

From the text of a pattern to a program, under settings: decode, read, check the dialect, find the
meaning, lower. Each step can refuse the pattern, and the first refusal is the answer. What happens
on the way is reported as a list of events, which is part of the answer: lowering is run under
watch, and a charge that is refused raises an event where it is made.
-/

namespace PatternGate

/-- Settings of the engine. -/
structure Settings where
  caseSensitive : Bool := true
  /-- Groups are compiled as if they captured nothing. -/
  neverCapture : Bool := true
  /-- A refusal is reported as an event. -/
  logErrors : Bool := false
  /-- The memory in bytes that the engine may take. -/
  maxMemory : UInt64 := 2048
  nestLimit : UInt32 := 250
  deriving DecidableEq

namespace Settings

/-- The greatest bound on nesting that is honoured. -/
def nestLimitMax : UInt32 := 1000

/-- The bound on nesting that is in force. -/
def effectiveNestLimit (s : Settings) : UInt32 := min s.nestLimit nestLimitMax

/-- The memory that a program may take: two thirds of all, rounded down. The quotient and the
remainder are scaled apart, so that no product exceeds 64 bits. -/
def programBudget (s : Settings) : UInt64 := s.maxMemory / 3 * 2 + s.maxMemory % 3 * 2 / 3

/-- The limits of lowering. -/
def limits (s : Settings) : Limits := ⟨s.programBudget.toNat, !s.neverCapture⟩

end Settings

/-- Why a pattern has no program. -/
inductive CompileError where
  /-- The pattern cannot be read. -/
  | unreadable (fault : Fault)
  /-- The pattern holds a construct outside the dialect. -/
  | dialect (fault : DialectFault)
  /-- The pattern names a property that there is none of. -/
  | meaningless (fault : Fault)
  /-- The program would take more memory than it may. -/
  | tooLarge (maxMemory : UInt64)
  deriving DecidableEq

namespace CompileError

/-- The program was refused for its size. -/
def isSizeLimit : CompileError → Bool
  | tooLarge _ => true
  | unreadable _ | dialect _ | meaningless _ => false

/-- The wording of an error of a pattern, given the decoded text. -/
def message (decoded : String) : CompileError → String
  | unreadable f | meaningless f => Report.text decoded f
  | dialect f => f.message
  | tooLarge m =>
    "pattern too large: compiled program exceeds the " ++ toString m.toNat ++ "-byte memory limit"

end CompileError

/-- A compiled pattern. -/
structure Program where
  code : List Instruction
  memory : Nat
  captureCount : Nat
  deriving DecidableEq

/-- What happens while a pattern is compiled. -/
inductive CompileEvent where
  /-- A charge exceeded the budget. -/
  | budgetExhausted (overrun : Overrun)
  /-- A pattern was refused. -/
  | refused (pattern message : String)
  deriving DecidableEq

/-- The result of compiling a pattern, and what happened on the way. -/
structure Compilation where
  result : Except CompileError Program
  events : List CompileEvent

namespace Settings

/-- The tree of a decoded pattern, if it belongs to the dialect. A construct outside is named with
its offset in the pattern before decoding. -/
def tree (s : Settings) (decoded : String) : Except CompileError Tree := do
  let tree ← (Tree.parseWithin s.effectiveNestLimit.toNat decoded).mapError .unreadable
  tree.checkDialect.mapError fun f =>
    .dialect { f with offset := Latin1.patternOffset decoded f.offset }
  return tree

/-- The modes that a pattern starts with. -/
def modes (s : Settings) : Modes := { ignoreCase := !s.caseSensitive }

/-- The expression of a decoded pattern. -/
def expression (s : Settings) (decoded : String) : Except CompileError Expr := do
  let tree ← s.tree decoded
  let (e, _) ← (tree.meaning s.modes).mapError .meaningless
  return e

/-- The program that the code of an expression makes. -/
def finish (s : Settings) (e : Expr) (stretch : Stretch) : Program :=
  ⟨stretch.code, stretch.used, if s.neverCapture then 0 else e.captureCount⟩

/-- The program of an expression. -/
def program (s : Settings) (e : Expr) : Except Overrun Program := do
  let stretch ← e.lower s.limits
  return s.finish e stretch

/-- The program of an expression, lowered under watch. -/
def watchProgram (s : Settings) (e : Expr) : Watched Program := do
  let stretch ← e.watchLower s.limits
  return s.finish e stretch

/-- The event that a deed of lowering raises: a charge that is refused raises one. -/
def event? (s : Settings) (d : Deed) : Option CompileEvent :=
  (d.overrun? s.limits).map .budgetExhausted

/-- Why an overrun leaves an expression without a program. -/
def refusalOf (s : Settings) (_ : Overrun) : CompileError := .tooLarge s.maxMemory

/-- The event of a refusal, if refusals are reported. -/
def refusal (s : Settings) (pattern : String) (e : CompileError) : List CompileEvent :=
  if s.logErrors then [.refused pattern (e.message (Latin1.decode pattern))] else []

/-- Compiles a pattern. -/
def compile (s : Settings) (pattern : String) : Compilation :=
  match s.expression (Latin1.decode pattern) with
  | .error e => ⟨.error e, s.refusal pattern e⟩
  | .ok expr =>
    let run := s.watchProgram expr
    let raised := run.log.filterMap s.event?
    match run.result with
    | .ok p => ⟨.ok p, raised⟩
    | .error overrun =>
      let e := s.refusalOf overrun
      ⟨.error e, raised ++ s.refusal pattern e⟩

end Settings

end PatternGate
