import PatternGate.CharSet

/-!
# Expressions

What a pattern means, without the ways in which it can be written: no flags, no groups that capture
nothing, classes as sets. The functions of `Expr.Build` are the only ones that make expressions, and
they keep them simple: a literal and a class have members, a sequence and an alternation have at
least two items, and neither stands directly in one of its own kind.
-/

namespace PatternGate

/-- Conditions on a place of the haystack. -/
inductive Look where
  | start
  | stop
  | startLine
  | endLine
  | startCrlf
  | endCrlf
  | wordAscii
  | wordAsciiNegate
  | wordUnicode
  | wordUnicodeNegate
  | wordStartAscii
  | wordEndAscii
  | wordStartUnicode
  | wordEndUnicode
  | wordStartHalfAscii
  | wordEndHalfAscii
  | wordStartHalfUnicode
  | wordEndHalfUnicode
  deriving DecidableEq

/-- What a pattern means. -/
inductive Expr where
  | empty
  | literal (bytes : List UInt8)
  | chars (set : RangeSet)
  | bytes (set : RangeSet)
  | look (l : Look)
  | repetition (min : Nat) (max : Option Nat) (greedy : Bool) (body : Expr)
  | capture (index : Nat) (name : Option String) (body : Expr)
  | concat (items : List Expr)
  | alternation (branches : List Expr)
  deriving Inhabited

namespace Expr

/-- The expression that matches nothing. -/
def fail : Expr := .bytes []

mutual

/-- Equality of expressions. -/
def same : Expr → Expr → Bool
  | .empty, .empty => true
  | .literal a, .literal b => a == b
  | .chars a, .chars b => a == b
  | .bytes a, .bytes b => a == b
  | .look a, .look b => a == b
  | .repetition m n g a, .repetition m' n' g' b => m == m' && n == n' && g == g' && same a b
  | .capture i n a, .capture i' n' b => i == i' && n == n' && same a b
  | .concat as, .concat bs => sameAll as bs
  | .alternation as, .alternation bs => sameAll as bs
  | _, _ => false

/-- Equality of lists of expressions. -/
def sameAll : List Expr → List Expr → Bool
  | [], [] => true
  | a :: as, b :: bs => same a b && sameAll as bs
  | _, _ => false

end

/-- The number of bytes of the UTF-8 of a code point. -/
def utf8Length (n : Nat) : Nat :=
  if n < 0x80 then 1 else if n < 0x800 then 2 else if n < 0x10000 then 3 else 4

mutual

/-- The greatest number of bytes that an expression matches in UTF-8, if there is one. An expression
without matches has none. -/
def maxLength : Expr → Option Nat
  | .empty => some 0
  | .literal bs => some bs.length
  | .chars set => (RangeSet.max? set).map utf8Length
  | .bytes set => if set.isEmpty then none else some 1
  | .look _ => some 0
  | .repetition _ max _ body => do
    let count ← max
    let length ← body.maxLength
    return length * count
  | .capture _ _ body => body.maxLength
  | .concat items => sumLength items
  | .alternation branches => supLength branches

/-- The sum of the greatest lengths. -/
def sumLength : List Expr → Option Nat
  | [] => some 0
  | e :: es => do
    let a ← e.maxLength
    let b ← sumLength es
    return a + b

/-- The greatest of the greatest lengths, if each item has one. -/
def supLength : List Expr → Option Nat
  | [] => none
  | [e] => e.maxLength
  | e :: es => do
    let a ← e.maxLength
    let b ← supLength es
    return Nat.max a b

end

mutual

/-- Every match of the expression satisfies the look `l` where it starts, as far as the shape of the
expression shows. -/
def leadsWith (l : Look) : Expr → Bool
  | .look k => k == l
  | .repetition min _ _ body => 0 < min && leadsWith l body
  | .capture _ _ body => leadsWith l body
  | .concat items => anyLeadsWith l items
  | .alternation branches => !branches.isEmpty && allLeadWith l branches
  | .empty | .literal _ | .chars _ | .bytes _ => false

/-- Some item of a sequence leads with the look, up to the first one that can match a byte. -/
def anyLeadsWith (l : Look) : List Expr → Bool
  | [] => false
  | e :: es => leadsWith l e || (e.maxLength == some 0 && anyLeadsWith l es)

/-- All branches lead with the look. -/
def allLeadWith (l : Look) : List Expr → Bool
  | [] => true
  | e :: es => leadsWith l e && allLeadWith l es

end

mutual

/-- The number of captures in an expression. -/
def captureCount : Expr → Nat
  | .repetition _ _ _ body => body.captureCount
  | .capture _ _ body => body.captureCount + 1
  | .concat items => captureCountAll items
  | .alternation branches => captureCountAll branches
  | .empty | .literal _ | .chars _ | .bytes _ | .look _ => 0

/-- The number of captures in a list of expressions. -/
def captureCountAll : List Expr → Nat
  | [] => 0
  | e :: es => e.captureCount + captureCountAll es

end

end Expr

end PatternGate
