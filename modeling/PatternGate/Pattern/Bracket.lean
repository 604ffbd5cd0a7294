import PatternGate.Pattern.Escape

/-!
# Bracketed classes

Reads what stands between brackets. Items side by side form a union, which binds more tightly than
the three operators; these bind equally and to the left. A hyphen first in a class and a bracket `]`
right after the opening one are literals. `[:name:]` is an ASCII class if the name is known, else a
class within the class. Open brackets are kept on a stack, so nesting costs no recursion.
-/

namespace PatternGate

/-- Items of a union in reverse order, and the span they cover. -/
structure ItemList where
  span : Span
  items : List ClassTree

namespace ItemList

/-- No items at a place. -/
def empty (p : Position) : ItemList := ⟨.empty p, []⟩

/-- One more item. The span starts with the first item and stops with the last. -/
def push (l : ItemList) (item : ClassTree) : ItemList :=
  match l.items with
  | [] => ⟨item.span, [item]⟩
  | items => ⟨⟨l.span.start, item.span.stop⟩, item :: items⟩

/-- The union of the items; one item is itself. -/
def toClass (l : ItemList) : ClassTree :=
  match l.items with
  | [] => .empty l.span
  | [item] => item
  | items => .union l.span items.reverse

end ItemList

/-- What was open before the current union: a bracket with the items before it, or an operator with
its left operand. -/
inductive BracketFrame where
  | bracket (outer : ItemList) (span : Span) (negated : Bool)
  | operand (op : SetOperator) (lhs : ClassTree)

/-- The fault of a class that is not closed: it points at the innermost open bracket. -/
def unclosedClass (fallback : Position) : List BracketFrame → Fault
  | [] => ⟨.classUnclosed, .empty fallback⟩
  | .bracket _ span _ :: _ => ⟨.classUnclosed, span⟩
  | .operand _ _ :: rest => unclosedClass fallback rest

/-- Joins an operand with the operator that waits for it. -/
def joinOperand (rhs : ClassTree) : List BracketFrame → ClassTree × List BracketFrame
  | .operand op lhs :: rest => (.binary ⟨lhs.span.start, rhs.span.stop⟩ op lhs rhs, rest)
  | stack => (rhs, stack)

/-- The ASCII class of a name. -/
def asciiClass? (name : List Char) : Option AsciiClass :=
  match String.ofList name with
  | "alnum" => some .alnum
  | "alpha" => some .alpha
  | "ascii" => some .ascii
  | "blank" => some .blank
  | "cntrl" => some .cntrl
  | "digit" => some .digit
  | "graph" => some .graph
  | "lower" => some .lower
  | "print" => some .print
  | "punct" => some .punct
  | "space" => some .space
  | "upper" => some .upper
  | "word" => some .word
  | "xdigit" => some .xdigit
  | _ => none

/-- Reads `[:name:]` or `[:^name:]`, if that is what comes next. -/
def readAscii? (c : Cursor) : Option (ClassTree × Cursor) := do
  let inner ← c.bumpIf? ['[', ':']
  let negated := inner.rest.head? = some '^'
  let inner := if negated then inner.bump else inner
  let (name, stop) := inner.takeWhile (· ≠ ':') false
  let stop ← stop.bumpIf? [':', ']']
  let kind ← asciiClass? name
  return (.ascii ⟨c.pos, stop.pos⟩ negated kind, stop)

/-- Reads the hyphens that open a class, for at most `fuel` of them. -/
def readHyphens (x : Bool) (start : Position) : Nat → ItemList → Cursor →
    Except Fault (ItemList × Cursor)
  | 0, items, c => .ok (items, c)
  | fuel + 1, items, c =>
    match c.rest with
    | '-' :: _ =>
      let items := items.push (.literal c.charSpan '-')
      let c := c.next x
      if c.atEnd then .error ⟨.classUnclosed, .empty start⟩ else readHyphens x start fuel items c
    | _ => .ok (items, c)

/-- A bracket that was just opened: its span so far, whether it negates, and its first items. -/
structure OpenBracket where
  span : Span
  negated : Bool
  items : ItemList
  cursor : Cursor

/-- Reads an opening bracket with the sign `^`, at most `fuel` hyphens and the bracket `]` that may
follow it. -/
def readOpenBracket (x : Bool) (fuel : Nat) (c : Cursor) : Except Fault OpenBracket := do
  let start := c.pos
  let unclosed (c : Cursor) : Fault := ⟨.classUnclosed, ⟨start, c.pos⟩⟩
  let c := c.next x
  if c.atEnd then throw (unclosed c)
  let negated : Bool := c.rest.head? = some '^'
  let c := if negated then c.next x else c
  if c.atEnd then throw (unclosed c)
  let (items, c) ← readHyphens x start fuel (.empty c.pos) c
  if items.items.isEmpty ∧ c.rest.head? = some ']' then
    let items := items.push (.literal c.charSpan ']')
    let c := c.next x
    if c.atEnd then throw (unclosed c)
    return ⟨⟨start, c.pos⟩, negated, items, c⟩
  else
    return ⟨⟨start, c.pos⟩, negated, items, c⟩

/-- Reads one end of a range, or a whole item. -/
def readClassPrimitive (x : Bool) (c : Cursor) : Except Fault (Primitive × Cursor) :=
  match c.rest with
  | '\\' :: _ => readEscape x c
  | ch :: _ => .ok (.literal c.charSpan ch, c.bump)
  | [] => .error ⟨.classUnclosed, c.here⟩

/-- Reads an item of a class: a range, if a hyphen follows that neither ends the class nor starts an
operator. -/
def readClassItem (x : Bool) (stack : List BracketFrame) (c : Cursor) :
    Except Fault (ClassTree × Cursor) := do
  let (first, c) ← readClassPrimitive x c
  let c := c.skipBlank x
  if c.atEnd then throw (unclosedClass c.pos stack)
  let follower := c.secondVisible? x
  if c.rest.head? ≠ some '-' ∨ follower = some ']' ∨ follower = some '-' then
    return (← first.toClass, c)
  else
    let c := c.next x
    if c.atEnd then throw (unclosedClass c.pos stack)
    let (last, c) ← readClassPrimitive x c
    let span : Span := ⟨first.span.start, last.span.stop⟩
    let lo ← first.toRangeEnd
    let hi ← last.toRangeEnd
    if lo ≤ hi then return (.range span lo hi, c)
    else throw ⟨.classRangeInvalid, span⟩

/-- The operator written with a character twice. -/
def setOperator? : Char → Option SetOperator
  | '&' => some .intersection
  | '-' => some .difference
  | '~' => some .symmetricDifference
  | _ => none

/-- The operator that comes next. -/
def nextOperator? (ch : Char) (c : Cursor) : Option SetOperator :=
  if c.second? = some ch then setOperator? ch else none

/-- Reads the rest of a bracketed class, given the open brackets and the current items. -/
def readBracketRest (x : Bool) : Nat → List BracketFrame → ItemList → Cursor →
    Except Fault (Span × Bool × ClassTree × Cursor)
  | 0, stack, _, c => .error (unclosedClass c.pos stack)
  | fuel + 1, stack, items, c =>
    let c := c.skipBlank x
    match c.rest with
    | [] => .error (unclosedClass c.pos stack)
    | ch :: _ =>
      if ch = '[' then
        match readAscii? c with
        | some (item, c) => readBracketRest x fuel stack (items.push item) c
        | none => do
          let b ← readOpenBracket x fuel c
          readBracketRest x fuel (.bracket items b.span b.negated :: stack) b.items b.cursor
      else if ch = ']' then
        let (body, stack) := joinOperand items.toClass stack
        match stack with
        | .bracket outer span negated :: rest =>
          let c := c.bump
          let span : Span := ⟨span.start, c.pos⟩
          if rest.isEmpty then .ok (span, negated, body, c)
          else readBracketRest x fuel rest (outer.push (.bracket span negated body)) c
        | _ => .error (unclosedClass c.pos stack)
      else
        match nextOperator? ch c with
        | some op =>
          let (lhs, stack) := joinOperand items.toClass stack
          let c := c.bump.bump
          readBracketRest x fuel (.operand op lhs :: stack) (.empty c.pos) c
        | none => do
          let (item, c) ← readClassItem x stack c
          readBracketRest x fuel stack (items.push item) c

/-- Reads a bracketed class, from its opening bracket on. -/
def readBracket (x : Bool) (c : Cursor) : Except Fault (Tree × Cursor) := do
  let b ← readOpenBracket x c.rest.length c
  let (span, negated, body, c) ←
    readBracketRest x c.rest.length [.bracket (.empty c.pos) b.span b.negated] b.items b.cursor
  return (.bracket span negated body, c)

end PatternGate
