import PatternGate.Expr.Basic
import PatternGate.Text.Utf8

/-!
# Building expressions

One function for each kind of expression, which keeps expressions simple: a class of one character
is a literal, a repetition of what matches only the empty text happens at most once, sequences and
alternations are flat, literals side by side are one, an alternation of characters or of classes is
a class, and what all branches of an alternation start with is written once before it.
-/

namespace PatternGate.Expr

/-- The literal of the given bytes. -/
def ofBytes (bs : List UInt8) : Expr := if bs.isEmpty then .empty else .literal bs

/-- The literal of one code point. -/
def ofScalar (n : Nat) : Expr := .literal (Utf8.encode [Char.ofNat n])

/-- The expression for a set of code points. A number that is no code point stays in its class. -/
def ofChars (set : RangeSet) : Expr :=
  if set.isEmpty then fail
  else
    match RangeSet.single? set with
    | some n => if n.isValidChar then ofScalar n else .chars set
    | none => .chars set

/-- The expression for a set of bytes. -/
def ofByteSet (set : RangeSet) : Expr :=
  if set.isEmpty then fail
  else
    match RangeSet.single? set with
    | some n => .literal [UInt8.ofNat n]
    | none => .bytes set

/-- Repeats an expression. More than one repetition of what matches no byte adds nothing. -/
def ofRepetition (min : Nat) (max : Option Nat) (greedy : Bool) (body : Expr) : Expr :=
  let once := body.maxLength == some 0
  let min := if once then Nat.min min 1 else min
  let max := if once then some (max.elim 1 (Nat.min · 1)) else max
  if min = 0 ∧ max = some 0 then .empty
  else if min = 1 ∧ max = some 1 then body
  else .repetition min max greedy body

/-- Puts one item before a simple sequence; literals that meet become one. -/
def consItem (e : Expr) (items : List Expr) : List Expr :=
  match e, items with
  | .empty, items => items
  | .literal a, .literal b :: rest => .literal (a ++ b) :: rest
  | e, items => e :: items

/-- The items of an expression in a sequence. -/
def items : Expr → List Expr
  | .concat es => es
  | e => [e]

/-- The items of a sequence, flat and with literals joined. -/
def flatItems (es : List Expr) : List Expr := (es.flatMap items).foldr consItem []

/-- Puts expressions in a sequence. -/
def ofConcat (es : List Expr) : Expr :=
  match flatItems es with
  | [] => .empty
  | [e] => e
  | es => .concat es

/-- The branches of an expression in an alternation. -/
def branches : Expr → List Expr
  | .alternation es => es
  | e => [e]

/-- The code point of a literal of one character. -/
def char? : Expr → Option Nat
  | .literal bs =>
    match Utf8.decode bs with
    | [c] => if Utf8.encode [c] = bs then some c.toNat else none
    | _ => none
  | _ => none

/-- The byte of a literal of one byte. -/
def byte? : Expr → Option Nat
  | .literal [b] => some b.toNat
  | _ => none

/-- The code points of a class, if it has no byte beyond ASCII. -/
def charSet? : Expr → Option RangeSet
  | .chars set => some set
  | .bytes set => if RangeSet.isAscii set then some set else none
  | _ => none

/-- The bytes of a class, if it has no code point beyond ASCII. -/
def byteSet? : Expr → Option RangeSet
  | .chars set => if RangeSet.isAscii set then some set else none
  | .bytes set => some set
  | _ => none

/-- The union of sets. -/
def unionAll (sets : List RangeSet) : RangeSet := sets.foldl RangeSet.union []

/-- An alternation of single characters, of single bytes or of classes as one class. -/
def ofAlternatives? (es : List Expr) : Option Expr :=
  (es.mapM char?).map (fun cs => ofChars (RangeSet.ofRanges (cs.map Range.single))) <|>
    (es.mapM byte?).map (fun bs => ofByteSet (RangeSet.ofRanges (bs.map Range.single))) <|>
    (es.mapM charSet?).map (fun sets => ofChars (unionAll sets)) <|>
    (es.mapM byteSet?).map (fun sets => ofByteSet (unionAll sets))

/-- The items of a sequence, if the expression is one. -/
def concatItems? : Expr → Option (List Expr)
  | .concat es => some es
  | _ => none

/-- How many items two sequences have in common at their start. -/
def commonLength : List Expr → List Expr → Nat
  | a :: as, b :: bs => if same a b then commonLength as bs + 1 else 0
  | _, _ => 0

/-- How many items all sequences have in common at their start. -/
def commonLengthAll : List (List Expr) → Nat
  | [] => 0
  | first :: rest => rest.foldl (fun n es => Nat.min n (commonLength first es)) first.length

/-- The items that all branches start with and what is left of each, if the branches are sequences
that share their first item. -/
def sharedStart? (es : List Expr) : Option (List Expr × List (List Expr)) := do
  let sequences ← es.mapM concatItems?
  let n := commonLengthAll sequences
  if n = 0 then none
  else some ((sequences.headD []).take n, sequences.map (·.drop n))

/-- Chooses between expressions, unless they are better written otherwise. -/
def choose (otherwise? : List Expr → Option Expr) (es : List Expr) : Expr :=
  match es.flatMap branches with
  | [] => fail
  | [e] => e
  | flat => (ofAlternatives? flat <|> otherwise? flat).getD (.alternation flat)

/-- Writes what all branches start with once before the choice between their rests. The rests have
no common start, so that there is nothing more to lift from them. -/
def liftShared? (es : List Expr) : Option Expr :=
  (sharedStart? es).map fun (start, rests) =>
    ofConcat (start ++ [choose (fun _ => none) (rests.map ofConcat)])

/-- Chooses between expressions. -/
def ofAlternation (es : List Expr) : Expr := choose liftShared? es

end PatternGate.Expr
