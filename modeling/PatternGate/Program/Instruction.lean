import PatternGate.Expr.Basic

/-!
# Instructions

The engine runs a program over the bytes of a haystack. An instruction consumes one byte, goes to
one of several instructions, checks a place, notes a position in a register, or accepts. Each
instruction has a cost in bytes of memory: the same for all, more for each range of a class and for
each target of a wide fork.
-/

namespace PatternGate

/-- One instruction. Targets are indices of instructions; earlier targets of a fork are
preferred. -/
inductive Instruction where
  | consume (b : UInt8)
  | consumeAny
  | consumeClass (set : RangeSet)
  | fork2 (first second : Nat)
  | forkN (targets : List Nat)
  | jump (target : Nat)
  | writeRegister (register : Nat)
  | assertion (l : Look)
  | accept
  deriving DecidableEq

namespace Instruction

/-- The cost of an instruction without a list. -/
def baseCost : Nat := 16

/-- The cost of a range of a class. -/
def rangeCost : Nat := 2

/-- The cost of a target of a wide fork. -/
def targetCost : Nat := 4

/-- The cost of an instruction. -/
def cost : Instruction → Nat
  | consumeClass set => baseCost + rangeCost * set.length
  | forkN targets => baseCost + targetCost * targets.length
  | consume _ | consumeAny | fork2 _ _ | jump _ | writeRegister _ | assertion _ | accept => baseCost

end Instruction

end PatternGate
