import PatternGate.Program.Instruction
import PatternGate.Text.Latin1

/-!
# Lowering an expression to a program

Each expression becomes a stretch of code, a list of instructions with its targets, written for the
place where the stretch starts. Its memory is charged before it is written, and lowering stops at
the first charge that exceeds the budget: a large repetition count costs no more time than the
budget allows. Bytes are read as Latin-1, so a character above `U+00FF` matches no byte.
-/

namespace PatternGate

/-- A charge that exceeded the budget: the memory it would have brought the program to. -/
structure Overrun where
  used : Nat
  budget : Nat
  deriving DecidableEq

/-- What lowering depends on besides the expression. -/
structure Limits where
  /-- The greatest memory of a program. -/
  budget : Nat
  /-- Captures are kept. -/
  captures : Bool
  deriving DecidableEq

namespace Limits

/-- Charges `cost` on top of `used`. -/
def charge (l : Limits) (used cost : Nat) : Except Overrun Nat :=
  if used + cost ≤ l.budget then .ok (used + cost) else .error ⟨used + cost, l.budget⟩

end Limits

/-- A stretch of code, the place after it, and the memory used when it is written. -/
structure Stretch where
  code : List Instruction
  stop : Nat
  used : Nat
  deriving DecidableEq

/-- Writes code at a place, given the memory used so far. -/
abbrev Emitter := Nat → Nat → Except Overrun Stretch

namespace Emitter

/-- Writes nothing. -/
def nothing : Emitter := fun pc used => .ok ⟨[], pc, used⟩

/-- Writes one instruction. -/
def one (l : Limits) (i : Instruction) : Emitter := fun pc used => do
  let used ← l.charge used i.cost
  return ⟨[i], pc + 1, used⟩

/-- Writes one stretch after another. -/
def seq (a b : Emitter) : Emitter := fun pc used => do
  let s ← a pc used
  let t ← b s.stop s.used
  return ⟨s.code ++ t.code, t.stop, t.used⟩

/-- Writes `n` copies. -/
def copies (a : Emitter) : Nat → Emitter
  | 0 => nothing
  | n + 1 => a.seq (copies a n)

/-- A fork that prefers `enter` if it is greedy and `leave` if it is lazy. -/
def fork (greedy : Bool) (enter leave : Nat) : Instruction :=
  if greedy then .fork2 enter leave else .fork2 leave enter

/-- Writes up to `n` copies, each of which may be left out with those after it. -/
def options (l : Limits) (greedy : Bool) (a : Emitter) : Nat → Emitter
  | 0 => nothing
  | n + 1 => fun pc used => do
    let used ← l.charge used Instruction.baseCost
    let s ← a.seq (options l greedy a n) (pc + 1) used
    return ⟨fork greedy (pc + 1) s.stop :: s.code, s.stop, s.used⟩

/-- Writes any number of copies. -/
def star (l : Limits) (greedy : Bool) (a : Emitter) : Emitter := fun pc used => do
  let used ← l.charge used Instruction.baseCost
  let s ← a.seq (one l (.jump pc)) (pc + 1) used
  return ⟨fork greedy (pc + 1) s.stop :: s.code, s.stop, s.used⟩

/-- Writes a copy that may be run again after itself. -/
def plus (l : Limits) (greedy : Bool) (a : Emitter) : Emitter := fun pc used => do
  let s ← a pc used
  let t ← one l (fork greedy pc (s.stop + 1)) s.stop s.used
  return ⟨s.code ++ t.code, t.stop, t.used⟩

/-- Writes a repetition. -/
def repetition (l : Limits) (min : Nat) (max : Option Nat) (greedy : Bool) (a : Emitter) :
    Emitter :=
  match max, min with
  | some max, min => (a.copies min).seq (a.options l greedy (max - min))
  | none, 0 => a.star l greedy
  | none, min + 1 => (a.copies min).seq (a.plus l greedy)

/-- The registers of a capture are 32-bit numbers. -/
def register (n : Nat) : Nat := n % UInt32.size

/-- Writes a capture between the notes of its two registers. -/
def capture (l : Limits) (index : Nat) (a : Emitter) : Emitter :=
  if l.captures then
    (one l (.writeRegister (register (2 * index)))).seq
      (a.seq (one l (.writeRegister (register (2 * index + 1)))))
  else a

/-- The instruction for a set of bytes. -/
def classInstruction (set : RangeSet) : Instruction :=
  if set = [⟨0, 0xFF⟩] then .consumeAny else .consumeClass set

/-- The instruction for a character. -/
def charInstruction (c : Char) : Instruction :=
  match Latin1.byte? c with
  | some b => .consume b
  | none => .consumeClass []

/-- Writes the characters of a literal. -/
def literal (l : Limits) : List Char → Emitter
  | [] => nothing
  | c :: cs => (one l (charInstruction c)).seq (literal l cs)

end Emitter

/-- The branches of an alternation: their starts, their code, and the place after them, where all
but the last jump. -/
structure Branches where
  starts : List Nat
  codes : List (List Instruction)
  stop : Nat
  used : Nat

namespace Branches

/-- The code of branches. All but the last end in a jump to `stop`. -/
def join (stop : Nat) : List (List Instruction) → List Instruction
  | [] => []
  | [code] => code
  | code :: rest => code ++ .jump stop :: join stop rest

end Branches

namespace Expr

mutual

/-- Writes the code of an expression. -/
def emit (l : Limits) : Expr → Emitter
  | .empty => .nothing
  | .literal bs => .literal l (Utf8.decode bs)
  | .chars set => .one l (Emitter.classInstruction (RangeSet.clip set))
  | .bytes set => .one l (Emitter.classInstruction set)
  | .look k => .one l (.assertion k)
  | .repetition min max greedy body => .repetition l min max greedy (body.emit l)
  | .capture index _ body => .capture l index (body.emit l)
  | .concat items => emitAll l items
  | .alternation branches => fun pc used => do
    let used ← l.charge used Instruction.baseCost
    let bs ← emitBranches l branches (pc + 1) used
    let used ← l.charge bs.used (Instruction.targetCost * bs.starts.length)
    return ⟨.forkN bs.starts :: Branches.join bs.stop bs.codes, bs.stop, used⟩

/-- Writes the code of expressions in a sequence. -/
def emitAll (l : Limits) : List Expr → Emitter
  | [] => .nothing
  | e :: es => (e.emit l).seq (emitAll l es)

/-- Writes the branches of an alternation, each but the last with room for its jump. -/
def emitBranches (l : Limits) : List Expr → Nat → Nat → Except Overrun Branches
  | [], pc, used => .ok ⟨[], [], pc, used⟩
  | [e], pc, used => do
    let s ← e.emit l pc used
    return ⟨[pc], [s.code], s.stop, s.used⟩
  | e :: es, pc, used => do
    let s ← e.emit l pc used
    let used ← l.charge s.used Instruction.baseCost
    let bs ← emitBranches l es (s.stop + 1) used
    return ⟨pc :: bs.starts, s.code :: bs.codes, bs.stop, bs.used⟩

end

/-- Passes over any bytes before a match, as few as possible first. -/
def lazyStart (l : Limits) : Emitter :=
  (Emitter.one l (.fork2 3 1)).seq ((Emitter.one l .consumeAny).seq (Emitter.one l (.jump 0)))

/-- The whole program: it may start anywhere, unless every match starts at the start of the text. -/
def lower (l : Limits) (e : Expr) : Except Overrun Stretch :=
  let start := if e.leadsWith .start then Emitter.nothing else lazyStart l
  start.seq ((e.emit l).seq (.one l .accept)) 0 0

end Expr

end PatternGate
