import PatternGate.Expr.Build
import PatternGate.Pattern.Fault
import PatternGate.Pattern.Tree
import PatternGate.Unicode.Folding

/-!
# The meaning of a pattern

Turns a tree into an expression. The flags are a state: a directive changes them for what follows it
in the innermost group, and a group's own flags hold inside it. Classes are sets of code points;
ignoring case closes a set under simple case folding before it is negated. Only an unknown property
makes this fail.
-/

namespace PatternGate

/-- The flags that bear on the meaning of a pattern of the dialect. -/
structure Modes where
  ignoreCase : Bool := false
  multiLine : Bool := false
  dotMatchesLineFeed : Bool := false
  swapGreed : Bool := false
  deriving DecidableEq

namespace Modes

/-- Sets one flag. Flags outside the dialect have no mode. -/
def set (m : Modes) (on : Bool) : Flag → Modes
  | .ignoreCase => { m with ignoreCase := on }
  | .multiLine => { m with multiLine := on }
  | .dotMatchesLineFeed => { m with dotMatchesLineFeed := on }
  | .swapGreed => { m with swapGreed := on }
  | .unicode | .crlf | .ignoreBlank => m

/-- Sets the flags of a list, on up to a negation and off after it. -/
def apply (m : Modes) : Bool → List FlagItem → Modes
  | _, [] => m
  | on, item :: rest =>
    match item.mark with
    | .negation => m.apply false rest
    | .flag f => (m.set on f).apply on rest

/-- The modes inside a group. -/
def inside (m : Modes) : GroupKind → Modes
  | .plain items => m.apply true items
  | .capture _ | .named _ _ => m

end Modes

/-- Closes a set under case folding if case is ignored, then negates it. -/
def foldAndNegate (ignoreCase negated : Bool) (set : RangeSet) : RangeSet :=
  let folded := if ignoreCase then Unicode.foldClosure set else set
  if negated then RangeSet.complement folded else folded

/-- The members of an ASCII class. -/
def AsciiClass.set : AsciiClass → RangeSet
  | .alnum => [⟨0x30, 0x39⟩, ⟨0x41, 0x5A⟩, ⟨0x61, 0x7A⟩]
  | .alpha => [⟨0x41, 0x5A⟩, ⟨0x61, 0x7A⟩]
  | .ascii => [⟨0x00, 0x7F⟩]
  | .blank => [⟨0x09, 0x09⟩, ⟨0x20, 0x20⟩]
  | .cntrl => [⟨0x00, 0x1F⟩, ⟨0x7F, 0x7F⟩]
  | .digit => [⟨0x30, 0x39⟩]
  | .graph => [⟨0x21, 0x7E⟩]
  | .lower => [⟨0x61, 0x7A⟩]
  | .print => [⟨0x20, 0x7E⟩]
  | .punct => [⟨0x21, 0x2F⟩, ⟨0x3A, 0x40⟩, ⟨0x5B, 0x60⟩, ⟨0x7B, 0x7E⟩]
  | .space => [⟨0x09, 0x0D⟩, ⟨0x20, 0x20⟩]
  | .upper => [⟨0x41, 0x5A⟩]
  | .word => [⟨0x30, 0x39⟩, ⟨0x41, 0x5A⟩, ⟨0x5F, 0x5F⟩, ⟨0x61, 0x7A⟩]
  | .xdigit => [⟨0x30, 0x39⟩, ⟨0x41, 0x46⟩, ⟨0x61, 0x66⟩]

/-- The members of a class of one letter. These sets are closed under case folding. -/
def LetterClass.set (negated : Bool) (kind : LetterClass) : RangeSet :=
  let set := match kind with
    | .digit => Unicode.digit
    | .space => Unicode.space
    | .word => Unicode.word
  if negated then RangeSet.complement set else set

/-- The members of a property class. -/
def propertySet (ignoreCase : Bool) (span : Span) (negated : Bool) (query : Unicode.Query) :
    Except Fault RangeSet :=
  match query.set with
  | .ok set => .ok (foldAndNegate ignoreCase negated set)
  | .error .propertyNotFound => .error ⟨.propertyNotFound, span⟩
  | .error .valueNotFound => .error ⟨.propertyValueNotFound, span⟩

/-- Combines two operands, each closed under case folding if case is ignored. -/
def SetOperator.apply (ignoreCase : Bool) (op : SetOperator) (lhs rhs : RangeSet) : RangeSet :=
  let lhs := foldAndNegate ignoreCase false lhs
  let rhs := foldAndNegate ignoreCase false rhs
  match op with
  | .intersection => RangeSet.inter lhs rhs
  | .difference => RangeSet.diff lhs rhs
  | .symmetricDifference => RangeSet.symmDiff lhs rhs

mutual

/-- The members of a class. -/
def ClassTree.set (ignoreCase : Bool) : ClassTree → Except Fault RangeSet
  | .empty _ => .ok []
  | .literal _ c => .ok [⟨c.toNat, c.toNat⟩]
  | .range _ lo hi => .ok [⟨lo.toNat, hi.toNat⟩]
  | .ascii _ negated kind => .ok (foldAndNegate ignoreCase negated kind.set)
  | .property span negated query => propertySet ignoreCase span negated query
  | .letter _ negated kind => .ok (kind.set negated)
  | .bracket _ negated body => do
    let set ← body.set ignoreCase
    return foldAndNegate ignoreCase negated set
  | .union _ items => ClassTree.setAll ignoreCase items []
  | .binary _ op lhs rhs => do
    let l ← lhs.set ignoreCase
    let r ← rhs.set ignoreCase
    return op.apply ignoreCase l r

/-- The members of any of the classes, together with those of a set. -/
def ClassTree.setAll (ignoreCase : Bool) : List ClassTree → RangeSet → Except Fault RangeSet
  | [], acc => .ok acc
  | t :: ts, acc => do
    let set ← t.set ignoreCase
    ClassTree.setAll ignoreCase ts (RangeSet.union acc set)

end

/-- A literal. A character with other cases stands for all of them if case is ignored. -/
def Modes.literal (m : Modes) (c : Char) : Expr :=
  if m.ignoreCase && Unicode.folds c.toNat then
    Expr.ofChars (Unicode.foldClosure [⟨c.toNat, c.toNat⟩])
  else Expr.ofScalar c.toNat

/-- The dot: any character, or any but the line feed. -/
def Modes.dot (m : Modes) : Expr :=
  if m.dotMatchesLineFeed then Expr.ofChars [⟨0, scalarMax⟩]
  else Expr.ofChars [⟨0, 9⟩, ⟨11, scalarMax⟩]

/-- The look of an assertion. -/
def Modes.look (m : Modes) : AssertionKind → Look
  | .startLine => if m.multiLine then .startLine else .start
  | .endLine => if m.multiLine then .endLine else .stop
  | .startText => .start
  | .endText => .stop
  | .wordBoundary => .wordUnicode
  | .notWordBoundary => .wordUnicodeNegate
  | .wordStart | .wordStartAngle => .wordStartUnicode
  | .wordEnd | .wordEndAngle => .wordEndUnicode
  | .wordStartHalf => .wordStartHalfUnicode
  | .wordEndHalf => .wordEndHalfUnicode

/-- The expression of a group with the given body. -/
def GroupKind.wrap (kind : GroupKind) (body : Expr) : Expr :=
  match kind with
  | .capture index => .capture index none body
  | .named index name => .capture index (some name) body
  | .plain _ => body

mutual

/-- The expression of a tree, and the modes after it. -/
def Tree.meaning : Tree → Modes → Except Fault (Expr × Modes)
  | .empty _, m => .ok (.empty, m)
  | .flags _ items, m => .ok (.empty, m.apply true items)
  | .literal _ c, m => .ok (m.literal c, m)
  | .dot _, m => .ok (m.dot, m)
  | .assertion _ kind, m => .ok (.look (m.look kind), m)
  | .property span negated query, m => do
    let set ← propertySet m.ignoreCase span negated query
    return (Expr.ofChars set, m)
  | .letter _ negated kind, m => .ok (Expr.ofChars (kind.set negated), m)
  | .bracket _ negated body, m => do
    let set ← body.set m.ignoreCase
    return (Expr.ofChars (foldAndNegate m.ignoreCase negated set), m)
  | .repetition _ bounds greedy body, m => do
    let (e, m) ← body.meaning m
    return (Expr.ofRepetition bounds.min bounds.max (greedy != m.swapGreed) e, m)
  | .group _ kind body, m => do
    let (e, _) ← body.meaning (m.inside kind)
    return (kind.wrap e, m)
  | .concat _ items, m => do
    let (es, m) ← Tree.meanings items m
    return (Expr.ofConcat es, m)
  | .alternation _ branches, m => do
    let (es, m) ← Tree.meanings branches m
    return (Expr.ofAlternation es, m)

/-- The expressions of trees from left to right, and the modes after them. -/
def Tree.meanings : List Tree → Modes → Except Fault (List Expr × Modes)
  | [], m => .ok ([], m)
  | t :: ts, m => do
    let (e, m) ← t.meaning m
    let (es, m) ← Tree.meanings ts m
    return (e :: es, m)

end

end PatternGate
