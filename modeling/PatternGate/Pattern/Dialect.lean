import PatternGate.Pattern.Tree

/-!
# The dialect

The engine works on bytes and offers fewer constructs than patterns can say: the flags `u`, `x` and
`R`, set or negated, and the word boundaries that look at one side only are outside its dialect. The
check names the first such construct in reading order, a group's own flags before its body.
-/

namespace PatternGate

/-- A construct outside the dialect. -/
inductive Construct where
  | unicodeFlag
  | blankFlag
  | crlfFlag
  | angleStart
  | angleEnd
  | specialBoundary
  deriving DecidableEq

namespace Construct

/-- The construct as messages name it. -/
def text : Construct → String
  | unicodeFlag => "flag 'u'"
  | blankFlag => "flag 'x'"
  | crlfFlag => "flag 'R'"
  | angleStart => "word boundary '\\<'"
  | angleEnd => "word boundary '\\>'"
  | specialBoundary => "word boundary '\\b\x7b...\x7d'"

/-- The construct that a flag is, if it is outside the dialect. -/
def ofFlag? : Flag → Option Construct
  | .unicode => some unicodeFlag
  | .ignoreBlank => some blankFlag
  | .crlf => some crlfFlag
  | .ignoreCase | .multiLine | .dotMatchesLineFeed | .swapGreed => none

/-- The construct that an assertion is, if it is outside the dialect. -/
def ofAssertion? : AssertionKind → Option Construct
  | .wordStartAngle => some angleStart
  | .wordEndAngle => some angleEnd
  | .wordStart | .wordEnd | .wordStartHalf | .wordEndHalf => some specialBoundary
  | .startLine | .endLine | .startText | .endText | .wordBoundary | .notWordBoundary => none

end Construct

/-- A construct outside the dialect, and the byte offset where it starts. -/
structure DialectFault where
  construct : Construct
  offset : Nat
  deriving DecidableEq

namespace DialectFault

/-- The wording of the fault. -/
def message (e : DialectFault) : String :=
  e.construct.text ++ " is not supported (at offset " ++ toString e.offset ++ ")"

end DialectFault

/-- The construct that an item of a list of flags is. -/
def FlagItem.construct? (item : FlagItem) : Option Construct :=
  match item.mark with
  | .negation => none
  | .flag f => Construct.ofFlag? f

/-- Checks a list of flags. -/
def checkFlags : List FlagItem → Except DialectFault Unit
  | [] => .ok ()
  | item :: rest =>
    match item.construct? with
    | some construct => .error ⟨construct, item.span.start.offset⟩
    | none => checkFlags rest

/-- Checks an assertion. -/
def checkAssertion (span : Span) (kind : AssertionKind) : Except DialectFault Unit :=
  match Construct.ofAssertion? kind with
  | some construct => .error ⟨construct, span.start.offset⟩
  | none => .ok ()

mutual

/-- Checks that a tree holds no construct outside the dialect. -/
def Tree.checkDialect : Tree → Except DialectFault Unit
  | .flags _ items => checkFlags items
  | .assertion span kind => checkAssertion span kind
  | .repetition _ _ _ body => body.checkDialect
  | .group _ (.plain items) body => do
    checkFlags items
    body.checkDialect
  | .group _ (.capture _) body => body.checkDialect
  | .group _ (.named _ _) body => body.checkDialect
  | .alternation _ branches => Tree.checkDialectAll branches
  | .concat _ items => Tree.checkDialectAll items
  | .empty _ | .literal _ _ | .dot _ | .property _ _ _ | .letter _ _ _ | .bracket _ _ _ => .ok ()

/-- Checks trees from left to right. -/
def Tree.checkDialectAll : List Tree → Except DialectFault Unit
  | [] => .ok ()
  | t :: ts => do
    t.checkDialect
    Tree.checkDialectAll ts

end

end PatternGate
