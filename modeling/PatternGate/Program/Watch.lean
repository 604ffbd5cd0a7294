import PatternGate.Program.Lowering

/-!
# Lowering under watch

What lowering gives back says little about the way to it: how often it came to a part of the
expression, which charges it made, and what it had done when the budget ran out. Here it is run
under watch, and keeps a log of its deeds on the side, also of a run that is refused in the end.
Each step of writing code has its watched form, which takes the same step and notes what it does.
-/

namespace PatternGate

/-- A completed turn of a repetition that is written out: the bounds of the repetition, and the
places and the memory between which the turn was written. -/
structure Turn where
  min : Nat
  max : Option Nat
  start : Nat
  stop : Nat
  before : Nat
  after : Nat
  deriving DecidableEq

/-- What lowering does on its way. -/
inductive Deed where
  /-- It comes to the expression at a path. Paths lead from an expression outwards. -/
  | enter (path : List Nat)
  /-- It charges an instruction, on top of the memory used so far. -/
  | push (used : Nat) (i : Instruction)
  /-- It charges the targets of a wide fork. -/
  | targets (used count : Nat)
  /-- It completes a turn. -/
  | turn (t : Turn)
  deriving DecidableEq

namespace Deed

/-- The charge that a deed makes: the memory used before it, and what it costs. -/
def charge? : Deed → Option (Nat × Nat)
  | push used i => some (used, i.cost)
  | targets used count => some (used, Instruction.targetCost * count)
  | enter _ | turn _ => none

/-- The overrun of a deed whose charge is refused. -/
def overrun? (l : Limits) (d : Deed) : Option Overrun :=
  match d.charge? with
  | none => none
  | some (used, cost) =>
    match l.charge used cost with
    | .ok _ => none
    | .error o => some o

end Deed

/-- A charged computation under watch. The log of a refused one ends with the refusal. -/
structure Watched (α : Type) where
  log : List Deed
  result : Except Overrun α

namespace Watched

instance : Monad Watched where
  pure a := ⟨[], .ok a⟩
  bind w next :=
    match w.result with
    | .ok a =>
      let rest := next a
      ⟨w.log ++ rest.log, rest.result⟩
    | .error o => ⟨w.log, .error o⟩

/-- Takes a deed down. -/
def note (d : Deed) : Watched Unit := ⟨[d], .ok ()⟩

/-- Charges an instruction. -/
def push (l : Limits) (used : Nat) (i : Instruction) : Watched Nat :=
  ⟨[.push used i], l.charge used i.cost⟩

/-- Charges targets of a wide fork. -/
def targets (l : Limits) (used count : Nat) : Watched Nat :=
  ⟨[.targets used count], l.charge used (Instruction.targetCost * count)⟩

end Watched

/-- Writes code at a place, given the memory used so far, under watch. -/
abbrev Watcher := Nat → Nat → Watched Stretch

namespace Watcher

/-- Writes nothing. -/
def nothing : Watcher := fun pc used => pure ⟨[], pc, used⟩

/-- Writes one instruction. -/
def one (l : Limits) (i : Instruction) : Watcher := fun pc used => do
  let used ← .push l used i
  return ⟨[i], pc + 1, used⟩

/-- Writes one stretch after another. -/
def seq (a b : Watcher) : Watcher := fun pc used => do
  let s ← a pc used
  let t ← b s.stop s.used
  return ⟨s.code ++ t.code, t.stop, t.used⟩

/-- Comes to an expression, and writes its code. -/
def enter (path : List Nat) (a : Watcher) : Watcher := fun pc used => do
  .note (.enter path)
  a pc used

/-- Writes a turn, which started at a place and with the memory used before. -/
def turn (min : Nat) (max : Option Nat) (start before : Nat) (a : Watcher) : Watcher :=
  fun pc used => do
    let s ← a pc used
    .note (.turn ⟨min, max, start, s.stop, before, s.used⟩)
    return s

/-- Writes `n` copies, each of them a turn. -/
def copies (min : Nat) (max : Option Nat) (a : Watcher) : Nat → Watcher
  | 0 => nothing
  | n + 1 => fun pc used => (a.turn min max pc used).seq (copies min max a n) pc used

/-- Writes up to `n` turns, each of which may be left out with those after it. The fork of a turn is
charged first, and filled in last. -/
def options (l : Limits) (min : Nat) (max : Option Nat) (greedy : Bool) (a : Watcher) :
    Nat → Watcher
  | 0 => nothing
  | n + 1 => fun pc used => do
    let charged ← .push l used (.fork2 0 0)
    let s ← (a.turn min max pc used).seq (options l min max greedy a n) (pc + 1) charged
    return ⟨Emitter.fork greedy (pc + 1) s.stop :: s.code, s.stop, s.used⟩

/-- Writes any number of copies. They are one loop, so no turn is written out. -/
def star (l : Limits) (greedy : Bool) (a : Watcher) : Watcher := fun pc used => do
  let used ← .push l used (.fork2 0 0)
  let s ← a.seq (one l (.jump pc)) (pc + 1) used
  return ⟨Emitter.fork greedy (pc + 1) s.stop :: s.code, s.stop, s.used⟩

/-- Writes a turn that may be run again after itself. -/
def plus (l : Limits) (min : Nat) (max : Option Nat) (greedy : Bool) (a : Watcher) : Watcher :=
  fun pc used => do
    let s ← a.turn min max pc used pc used
    let t ← one l (Emitter.fork greedy pc (s.stop + 1)) s.stop s.used
    return ⟨s.code ++ t.code, t.stop, t.used⟩

/-- Writes a repetition. -/
def repetition (l : Limits) (min : Nat) (max : Option Nat) (greedy : Bool) (a : Watcher) :
    Watcher :=
  match max, min with
  | some max, min => (a.copies min max min).seq (a.options l min max greedy (max - min))
  | none, 0 => a.star l greedy
  | none, min + 1 => (a.copies (min + 1) none min).seq (a.plus l (min + 1) none greedy)

/-- Writes a capture between the notes of its two registers. -/
def capture (l : Limits) (index : Nat) (a : Watcher) : Watcher :=
  if l.captures then
    (one l (.writeRegister (Emitter.register (2 * index)))).seq
      (a.seq (one l (.writeRegister (Emitter.register (2 * index + 1)))))
  else a

/-- Writes the characters of a literal. -/
def literal (l : Limits) : List Char → Watcher
  | [] => nothing
  | c :: cs => (one l (Emitter.charInstruction c)).seq (literal l cs)

end Watcher

namespace Expr

mutual

/-- Writes the code of the expression at a path. -/
def watch (l : Limits) : Expr → List Nat → Watcher
  | .empty, path => .enter path .nothing
  | .literal bs, path => .enter path (.literal l (Utf8.decode bs))
  | .chars set, path => .enter path (.one l (Emitter.classInstruction (RangeSet.clip set)))
  | .bytes set, path => .enter path (.one l (Emitter.classInstruction set))
  | .look k, path => .enter path (.one l (.assertion k))
  | .repetition min max greedy body, path =>
    .enter path (.repetition l min max greedy (body.watch l (0 :: path)))
  | .capture index _ body, path => .enter path (.capture l index (body.watch l (0 :: path)))
  | .concat items, path => .enter path (watchAll l items 0 path)
  | .alternation branches, path => .enter path fun pc used => do
    let used ← .push l used (.forkN [])
    let bs ← watchBranches l branches 0 path (pc + 1) used
    let used ← .targets l bs.used bs.starts.length
    return ⟨.forkN bs.starts :: Branches.join bs.stop bs.codes, bs.stop, used⟩

/-- Writes the code of items, the first of which is item `k` of the expression at a path. -/
def watchAll (l : Limits) : List Expr → Nat → List Nat → Watcher
  | [], _, _ => .nothing
  | e :: es, k, path => (e.watch l (k :: path)).seq (watchAll l es (k + 1) path)

/-- Writes branches, the first of which is branch `k` of the expression at a path. -/
def watchBranches (l : Limits) : List Expr → Nat → List Nat → Nat → Nat → Watched Branches
  | [], _, _, pc, used => pure ⟨[], [], pc, used⟩
  | [e], k, path, pc, used => do
    let s ← e.watch l (k :: path) pc used
    return ⟨[pc], [s.code], s.stop, s.used⟩
  | e :: es, k, path, pc, used => do
    let s ← e.watch l (k :: path) pc used
    let used ← .push l s.used (.jump 0)
    let bs ← watchBranches l es (k + 1) path (s.stop + 1) used
    return ⟨pc :: bs.starts, s.code :: bs.codes, bs.stop, bs.used⟩

end

/-- Writes the loop before a program that may start anywhere. -/
def watchStart (l : Limits) (e : Expr) : Watcher :=
  if e.leadsWith .start then .nothing
  else (Watcher.one l (.fork2 3 1)).seq ((Watcher.one l .consumeAny).seq (.one l (.jump 0)))

/-- Writes the whole program. -/
def watchLower (l : Limits) (e : Expr) : Watched Stretch :=
  (e.watchStart l).seq ((e.watch l []).seq (.one l .accept)) 0 0

end Expr

end PatternGate
