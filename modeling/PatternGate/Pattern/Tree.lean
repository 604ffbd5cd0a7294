import PatternGate.Text.Position
import PatternGate.Unicode.Property

/-!
# Pattern trees

What a pattern says, with the span of every part. `ClassTree` is what stands between brackets and
`Tree` is the rest. A sequence of fewer than two items is that item or an empty tree, and an
alternation has at least two branches.
-/

namespace PatternGate

/-- A letter that turns a way of reading on or off. -/
inductive Flag where
  | ignoreCase
  | multiLine
  | dotMatchesLineFeed
  | swapGreed
  | unicode
  | crlf
  | ignoreBlank
  deriving DecidableEq

/-- One item of a list of flags: a flag, or the sign that turns the flags after it off. -/
inductive FlagMark where
  | negation
  | flag (f : Flag)
  deriving DecidableEq

/-- An item of a list of flags and where it stands. -/
structure FlagItem where
  span : Span
  mark : FlagMark
  deriving DecidableEq

/-- Conditions on a place of the haystack, as they are written. -/
inductive AssertionKind where
  | startLine
  | endLine
  | startText
  | endText
  | wordBoundary
  | notWordBoundary
  | wordStart
  | wordEnd
  | wordStartAngle
  | wordEndAngle
  | wordStartHalf
  | wordEndHalf
  deriving DecidableEq

/-- The classes written with one letter. -/
inductive LetterClass where
  | digit
  | space
  | word
  deriving DecidableEq

/-- The classes of ASCII characters with a name of their own. -/
inductive AsciiClass where
  | alnum
  | alpha
  | ascii
  | blank
  | cntrl
  | digit
  | graph
  | lower
  | print
  | punct
  | space
  | upper
  | word
  | xdigit
  deriving DecidableEq

/-- How two operands of a bracketed class are combined. -/
inductive SetOperator where
  | intersection
  | difference
  | symmetricDifference
  deriving DecidableEq

/-- What stands between brackets. -/
inductive ClassTree where
  | empty (span : Span)
  | literal (span : Span) (c : Char)
  | range (span : Span) (lo hi : Char)
  | ascii (span : Span) (negated : Bool) (kind : AsciiClass)
  | property (span : Span) (negated : Bool) (query : Unicode.Query)
  | letter (span : Span) (negated : Bool) (kind : LetterClass)
  | bracket (span : Span) (negated : Bool) (body : ClassTree)
  | union (span : Span) (items : List ClassTree)
  | binary (span : Span) (op : SetOperator) (lhs rhs : ClassTree)

/-- Where a part of a class stands. -/
def ClassTree.span : ClassTree → Span
  | .empty s | .literal s _ | .range s _ _ | .ascii s _ _ | .property s _ _ | .letter s _ _
  | .bracket s _ _ | .union s _ | .binary s _ _ _ => s

/-- The bounds of a repetition. -/
structure Bounds where
  min : Nat
  max : Option Nat
  deriving DecidableEq

/-- The ways a group can be opened. -/
inductive GroupKind where
  | capture (index : Nat)
  | named (index : Nat) (name : String)
  | plain (flags : List FlagItem)
  deriving DecidableEq

/-- A pattern as a tree. -/
inductive Tree where
  | empty (span : Span)
  | flags (span : Span) (items : List FlagItem)
  | literal (span : Span) (c : Char)
  | dot (span : Span)
  | assertion (span : Span) (kind : AssertionKind)
  | property (span : Span) (negated : Bool) (query : Unicode.Query)
  | letter (span : Span) (negated : Bool) (kind : LetterClass)
  | bracket (span : Span) (negated : Bool) (body : ClassTree)
  | repetition (span : Span) (bounds : Bounds) (greedy : Bool) (body : Tree)
  | group (span : Span) (kind : GroupKind) (body : Tree)
  | alternation (span : Span) (branches : List Tree)
  | concat (span : Span) (items : List Tree)

/-- Where a part of a pattern stands. -/
def Tree.span : Tree → Span
  | .empty s | .flags s _ | .literal s _ | .dot s | .assertion s _ | .property s _ _ | .letter s _ _
  | .bracket s _ _ | .repetition s _ _ _ | .group s _ _ | .alternation s _ | .concat s _ => s

/-- What a list of flags says about a flag: on, off, or nothing. -/
def flagState (f : Flag) : Bool → List FlagItem → Option Bool
  | _, [] => none
  | on, item :: rest =>
    match item.mark with
    | .negation => flagState f false rest
    | .flag g => if g = f then some on else flagState f on rest

end PatternGate
