import PatternGate.Pattern.Number
import PatternGate.Pattern.Tree

/-!
# Escapes

What a backslash and the characters after it stand for: a literal, a class of one letter, a property
class or an assertion. Escapes mean the same inside and outside brackets, where only the assertions
have no place.
-/

namespace PatternGate

/-- A part of a pattern without parts of its own. -/
inductive Primitive where
  | literal (span : Span) (c : Char)
  | assertion (span : Span) (kind : AssertionKind)
  | dot (span : Span)
  | letter (span : Span) (negated : Bool) (kind : LetterClass)
  | property (span : Span) (negated : Bool) (query : Unicode.Query)
  deriving DecidableEq

namespace Primitive

/-- Where a primitive stands. -/
def span : Primitive → Span
  | literal s _ | assertion s _ | dot s | letter s _ _ | property s _ _ => s

/-- A primitive as a pattern. -/
def toTree : Primitive → Tree
  | literal s c => .literal s c
  | assertion s k => .assertion s k
  | dot s => .dot s
  | letter s n k => .letter s n k
  | property s n q => .property s n q

/-- A primitive as an item of a class. -/
def toClass : Primitive → Except Fault ClassTree
  | literal s c => .ok (.literal s c)
  | letter s n k => .ok (.letter s n k)
  | property s n q => .ok (.property s n q)
  | assertion s _ | dot s => .error ⟨.classEscapeInvalid, s⟩

/-- A primitive as the end of a range. -/
def toRangeEnd : Primitive → Except Fault Char
  | literal _ c => .ok c
  | p => .error ⟨.classRangeLiteral, p.span⟩

end Primitive

/-- The characters that stand for themselves after a backslash: ASCII without letters, digits and
the two angles. -/
def isEscapable (c : Char) : Bool :=
  c.toNat < 0x80 && !c.isAlphanum && c != '<' && c != '>'

/-- The control characters with a letter of their own. -/
def controlEscape? : Char → Option Char
  | 'a' => some '\x07'
  | 'f' => some '\x0C'
  | 't' => some '\t'
  | 'n' => some '\n'
  | 'r' => some '\r'
  | 'v' => some '\x0B'
  | _ => none

/-- The assertions written with one character, apart from the boundary `b`. -/
def assertionEscape? : Char → Option AssertionKind
  | 'A' => some .startText
  | 'z' => some .endText
  | 'B' => some .notWordBoundary
  | '<' => some .wordStartAngle
  | '>' => some .wordEndAngle
  | _ => none

/-- The classes written with one letter; a capital negates. -/
def letterClass? : Char → Option (Bool × LetterClass)
  | 'd' => some (false, .digit)
  | 'D' => some (true, .digit)
  | 's' => some (false, .space)
  | 'S' => some (true, .space)
  | 'w' => some (false, .word)
  | 'W' => some (true, .word)
  | _ => none

/-- How many digits a code point has without braces. -/
def hexWidth? : Char → Option Nat
  | 'x' => some 2
  | 'u' => some 4
  | 'U' => some 8
  | _ => none

/-- Characters of the names of special boundaries. -/
def isBoundaryNameChar (c : Char) : Bool := c.isAlpha || c = '-'

/-- The special boundaries by name. -/
def specialBoundary? (name : List Char) : Option AssertionKind :=
  if name = "start".toList then some .wordStart
  else if name = "end".toList then some .wordEnd
  else if name = "start-half".toList then some .wordStartHalf
  else if name = "end-half".toList then some .wordEndHalf
  else none

/-- Splits at the first place where a separator stands. -/
def splitAt? (sep : List Char) : List Char → Option (List Char × List Char)
  | [] => none
  | c :: cs =>
    if sep.isPrefixOf (c :: cs) then some ([], (c :: cs).drop sep.length)
    else (splitAt? sep cs).map fun (a, b) => (c :: a, b)

/-- The query that stands between the braces of a property class, and whether it negates: the sign
`!=` does, a colon and `=` do not. -/
def propertyQuery (text : List Char) : Bool × Unicode.Query :=
  match splitAt? ['!', '='] text with
  | some (name, value) => (true, .value (String.ofList name) (String.ofList value))
  | none =>
    match splitAt? [':'] text <|> splitAt? ['='] text with
    | some (name, value) => (false, .value (String.ofList name) (String.ofList value))
    | none => (false, .name (String.ofList text))

/-- Reads the name of a property class, from the character after `p` on. -/
def readProperty (x : Bool) (c : Cursor) : Except Fault (Bool × Unicode.Query × Cursor) :=
  match c.rest with
  | [] => .error ⟨.escapeUnexpectedEnd, c.here⟩
  | '{' :: _ =>
    let (name, stop) := (c.next x).takeWhile (· ≠ '}') x
    if stop.atEnd then .error ⟨.escapeUnexpectedEnd, stop.here⟩
    else
      let (negated, query) := propertyQuery name
      .ok (negated, query, stop.bump)
  | '\\' :: _ => .error ⟨.propertyEscapeInvalid, c.charSpan⟩
  | ch :: _ => .ok (false, .name (String.ofList [ch]), c.next x)

/-- Reads a code point, from the character after its letter on. -/
def readHex (x : Bool) (width : Nat) (c : Cursor) : Except Fault (Char × Cursor) :=
  match c.rest with
  | [] => .error ⟨.escapeUnexpectedEnd, c.here⟩
  | '{' :: _ => readBracedHex x c
  | _ => readFixedHex x width c

/-- Reads the name of a special boundary, from the brace after `b` on. A brace that no letter and no
hyphen follows opens a repetition instead, and is left alone. -/
def readBoundary (x : Bool) (start : Position) (c : Cursor) :
    Except Fault (AssertionKind × Cursor) :=
  let inner := c.next x
  match inner.rest with
  | [] => .error ⟨.wordBoundaryUnexpectedEnd, ⟨start, inner.pos⟩⟩
  | ch :: _ =>
    if isBoundaryNameChar ch then
      let (name, stop) := inner.takeWhile isBoundaryNameChar x
      match stop.rest with
      | '}' :: _ =>
        match specialBoundary? name with
        | some kind => .ok (kind, stop.bump)
        | none => .error ⟨.wordBoundaryUnrecognized, ⟨inner.pos, stop.pos⟩⟩
      | _ => .error ⟨.wordBoundaryUnclosed, ⟨c.pos, stop.pos⟩⟩
    else .ok (.wordBoundary, c)

/-- Reads the boundary `b`, with the cursor after that letter. -/
def readWordBoundary (x : Bool) (start : Position) (c : Cursor) :
    Except Fault (Primitive × Cursor) := do
  match c.rest with
  | '{' :: _ =>
    let (kind, stop) ← readBoundary x start c
    return (.assertion ⟨start, stop.pos⟩ kind, stop)
  | _ => return (.assertion ⟨start, c.pos⟩ .wordBoundary, c)

/-- Reads an escape that is one character long. -/
def readShortEscape (x : Bool) (start : Position) (ch : Char) (after : Cursor) :
    Except Fault (Primitive × Cursor) :=
  let span : Span := ⟨start, after.pos⟩
  if isEscapable ch then .ok (.literal span ch, after)
  else if ch = 'b' then readWordBoundary x start after
  else
    match controlEscape? ch, assertionEscape? ch with
    | some c, _ => .ok (.literal span c, after)
    | none, some kind => .ok (.assertion span kind, after)
    | none, none => .error ⟨.escapeUnrecognized, span⟩

/-- Reads an escape, from its backslash on. -/
def readEscape (x : Bool) (c : Cursor) : Except Fault (Primitive × Cursor) :=
  let start := c.pos
  let c := c.bump
  match c.rest with
  | [] => .error ⟨.escapeUnexpectedEnd, ⟨start, c.pos⟩⟩
  | ch :: _ =>
    if ch.isDigit then .error ⟨.backreference, ⟨start, c.charSpan.stop⟩⟩
    else if ch = 'p' ∨ ch = 'P' then do
      let (negated, query, stop) ← readProperty x (c.next x)
      return (.property ⟨start, stop.pos⟩ ((ch = 'P') != negated) query, stop)
    else
      match hexWidth? ch, letterClass? ch with
      | some width, _ => do
        let (v, stop) ← readHex x width (c.next x)
        return (.literal ⟨start, stop.pos⟩ v, stop)
      | none, some (negated, kind) => .ok (.letter ⟨start, c.bump.pos⟩ negated kind, c.bump)
      | none, none => readShortEscape x start ch c.bump

/-- Reads a primitive outside brackets. -/
def readPrimitive (x : Bool) (ch : Char) (c : Cursor) : Except Fault (Primitive × Cursor) :=
  match ch with
  | '\\' => readEscape x c
  | '.' => .ok (.dot c.charSpan, c.bump)
  | '^' => .ok (.assertion c.charSpan .startLine, c.bump)
  | '$' => .ok (.assertion c.charSpan .endLine, c.bump)
  | ch => .ok (.literal c.charSpan ch, c.bump)

end PatternGate
