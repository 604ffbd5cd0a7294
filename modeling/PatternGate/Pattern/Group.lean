import PatternGate.Pattern.Cursor
import PatternGate.Pattern.Tree

/-!
# Opening a group

What can follow an opening parenthesis: the name of a capture, flags for the group, a directive that
sets flags for the rest of the group around it, or nothing. Look-around is recognised and refused.
-/

namespace PatternGate

namespace Flag

/-- The flag of a letter. -/
def ofChar? : Char → Option Flag
  | 'i' => some .ignoreCase
  | 'm' => some .multiLine
  | 's' => some .dotMatchesLineFeed
  | 'U' => some .swapGreed
  | 'u' => some .unicode
  | 'R' => some .crlf
  | 'x' => some .ignoreBlank
  | _ => none

end Flag

/-- The earlier item of a list of flags with the same mark. -/
def sameMark? (mark : FlagMark) (items : List FlagItem) : Option Span :=
  (items.find? fun i => i.mark = mark).map (·.span)

/-- Reads flags up to the colon or the parenthesis after them. The items read so far come in reverse
order, with the span of the negation if that was the last of them. -/
def readFlags (items : List FlagItem) (negation : Option Span) :
    List Char → Position → Except Fault (List FlagItem × Cursor)
  | [], pos => .error ⟨.flagUnexpectedEnd, .empty pos⟩
  | ch :: rest, pos =>
    if ch = ':' ∨ ch = ')' then
      match negation with
      | some span => .error ⟨.flagDanglingNegation, span⟩
      | none => .ok (items.reverse, ⟨ch :: rest, pos⟩)
    else
      let span : Span := ⟨pos, pos.after ch⟩
      if ch = '-' then
        match sameMark? .negation items with
        | some first => .error ⟨.flagRepeatedNegation first, span⟩
        | none => readFlags (⟨span, .negation⟩ :: items) (some span) rest (pos.after ch)
      else
        match Flag.ofChar? ch with
        | none => .error ⟨.flagUnrecognized, span⟩
        | some f =>
          match sameMark? (.flag f) items with
          | some first => .error ⟨.flagDuplicate first, span⟩
          | none => readFlags (⟨span, .flag f⟩ :: items) none rest (pos.after ch)

/-- The characters of capture names; the first one is a letter or an underscore. -/
def isNameChar (c : Char) (first : Bool) : Bool :=
  c = '_' || RangeSet.contains Unicode.alphabetic c.toNat ||
    (!first && (c = '.' || c = '[' || c = ']' || RangeSet.contains Unicode.numeric c.toNat))

/-- Reads the name of a capture up to the angle that closes it. -/
def readName (name : List Char) : List Char → Position → Except Fault (List Char × Cursor)
  | [], pos => .error ⟨.groupNameUnexpectedEnd, .empty pos⟩
  | ch :: rest, pos =>
    if ch = '>' then .ok (name.reverse, ⟨ch :: rest, pos⟩)
    else if isNameChar ch name.isEmpty then readName (ch :: name) rest (pos.after ch)
    else .error ⟨.groupNameInvalid, ⟨pos, pos.after ch⟩⟩

/-- How a group opens. -/
inductive GroupHead where
  | directive (items : List FlagItem)
  | plain (items : List FlagItem)
  | capture
  | named (name : String) (span : Span)

/-- The signs of look-around. -/
def lookAroundSigns : List (List Char) := ["?=".toList, "?!".toList, "?<=".toList, "?<!".toList]

/-- Passes over the sign of a look-around, if one comes next. -/
def lookAround? (c : Cursor) : Option Cursor := lookAroundSigns.findSome? fun sign => c.bumpIf? sign

/-- Reads the flags of a group or of a directive. Without any flag a directive would be a question
mark with nothing to repeat. -/
def readFlagHead (inner : Position) (c : Cursor) : Except Fault (GroupHead × Cursor) := do
  let (items, c) ← readFlags [] none c.rest c.pos
  if c.rest.head? = some ')' then
    if items.isEmpty then throw ⟨.repetitionMissing, .empty inner⟩
    else return (.directive items, c.bump)
  else return (.plain items, c.bump)

/-- Reads a capture name with its closing angle. -/
def readNameHead (c : Cursor) : Except Fault (GroupHead × Cursor) := do
  let start := c.pos
  let (name, c) ← readName [] c.rest c.pos
  if name.isEmpty then throw ⟨.groupNameEmpty, .empty start⟩
  else return (.named (String.ofList name) ⟨start, c.pos⟩, c.bump)

/-- Reads how a group opens, from its parenthesis on. -/
def readGroupHead (x : Bool) (c : Cursor) : Except Fault (GroupHead × Cursor) :=
  let opened := c.charSpan
  let c := c.next x
  match lookAround? c with
  | some stop => .error ⟨.lookAround, ⟨opened.start, stop.pos⟩⟩
  | none =>
    match c.bumpIf? "?P<".toList <|> c.bumpIf? "?<".toList with
    | some name => readNameHead name
    | none =>
      match c.bumpIf? ['?'] with
      | some flags =>
        if flags.atEnd then .error ⟨.groupUnclosed, opened⟩ else readFlagHead c.pos flags
      | none => .ok (.capture, c)

end PatternGate
