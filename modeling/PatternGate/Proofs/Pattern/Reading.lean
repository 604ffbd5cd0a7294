import PatternGate.Pattern.Parser
import PatternGate.Proofs.Pattern.Meaning

/-!
# How a pattern is read

A cursor only moves forward: whatever is read, the cursor after it stands behind some characters of
the rest of the pattern, and its position is the one behind them (`Cursor.Passes`). Every reading
function has a law of this form, so that positions and text never drift apart.

The reader takes one step for each item. `Reader.Advances` lists what a step can do, and
`Reader.advances_of_step` is the only place where the step is taken apart. What holds at the start
and is kept in each of these cases holds when the pattern has been read (`Reader.of_readAll`).
-/

namespace PatternGate

/-! ## Cursors -/

namespace Cursor

/-- The second cursor stands some characters behind the first one. -/
def Passes (c d : Cursor) : Prop :=
  ∃ read, c.rest = read ++ d.rest ∧ d.pos = read.foldl Position.after c.pos

namespace Passes

/-- A cursor that stays where it is has passed over no text. -/
theorem refl (c : Cursor) : c.Passes c := ⟨[], rfl, rfl⟩

/-- Texts that are passed over one after the other are passed over together. -/
theorem trans {c d e : Cursor} (first : c.Passes d) (second : d.Passes e) : c.Passes e := by
  obtain ⟨read, rest, pos⟩ := first
  obtain ⟨read', rest', pos'⟩ := second
  refine ⟨read ++ read', ?_, ?_⟩
  · rw [rest, rest', List.append_assoc]
  · rw [pos', pos, List.foldl_append]

/-- Passing over one character moves the position behind it. -/
theorem cons (ch : Char) (rest : List Char) (p : Position) :
    Passes ⟨ch :: rest, p⟩ ⟨rest, p.after ch⟩ :=
  ⟨[ch], rfl, rfl⟩

/-- What is passed over is gone: the text that is left never grows. -/
theorem length_le {c d : Cursor} (passes : c.Passes d) : d.rest.length ≤ c.rest.length := by
  obtain ⟨read, rest, -⟩ := passes
  rw [rest, List.length_append]
  exact Nat.le_add_left _ _

end Passes

/-- Passing over the next character is a passing, also at the end, where nothing is left. -/
theorem bump_passes (c : Cursor) : c.Passes c.bump := by
  obtain ⟨rest, pos⟩ := c
  cases rest with
  | nil => exact .refl _
  | cons ch rest => exact .cons ch rest pos

/-- Before the end, passing over a character leaves less text. This is what lets the loops of the
reader end. -/
theorem length_bump_lt {c : Cursor} (more : c.rest ≠ []) :
    c.bump.rest.length < c.rest.length := by
  obtain ⟨rest, pos⟩ := c
  cases rest with
  | nil => exact absurd rfl more
  | cons ch rest => exact Nat.lt_succ_self rest.length

/-- White space and comments are passed over, whichever of the two the scan starts in. -/
theorem skipComments_passes (inComment : Bool) (rest : List Char) (pos : Position) :
    Passes ⟨rest, pos⟩ (skipComments inComment rest pos) := by
  induction rest generalizing inComment pos with
  | nil => exact .refl _
  | cons ch rest ih =>
    have one := Passes.cons ch rest pos
    rw [skipComments]
    split
    · exact one.trans (ih _ _)
    · split
      · exact one.trans (ih _ _)
      · split
        · exact one.trans (ih _ _)
        · exact .refl _

/-- Blank text is passed over in the mode that ignores it; in the other mode the cursor stays. -/
theorem skipBlank_passes (x : Bool) (c : Cursor) : c.Passes (c.skipBlank x) := by
  rw [skipBlank]
  split
  · exact skipComments_passes false c.rest c.pos
  · exact .refl c

/-- Going on to the next character takes the blank text behind it along. -/
theorem next_passes (x : Bool) (c : Cursor) : c.Passes (c.next x) :=
  c.bump_passes.trans (skipBlank_passes x c.bump)

/-- A text that is looked for and found has been passed over. -/
theorem bumpIf?_passes {text : List Char} {c d : Cursor} (found : bumpIf? text c = some d) :
    c.Passes d := by
  induction text generalizing c with
  | nil =>
    rw [bumpIf?] at found
    cases found
    exact .refl _
  | cons t ts ih =>
    unfold bumpIf? at found
    split at found
    next none => cases none
    next ch rest same next =>
      cases same
      split at found
      · exact c.bump_passes.trans (ih found)
      · cases found
    next => cases found

/-- Collecting characters while they satisfy a test passes over what is collected. -/
theorem takeUpTo_passes (p : Char → Bool) (x : Bool) (fuel : Nat) (c : Cursor) :
    c.Passes (takeUpTo p x fuel c).2 := by
  induction fuel generalizing c with
  | zero => exact .refl c
  | succ fuel ih =>
    rw [takeUpTo]
    split
    · exact .refl c
    · split
      · exact (next_passes x c).trans (ih _)
      · exact .refl c

/-- The same for the whole run of characters that satisfy a test. -/
theorem takeWhile_passes (p : Char → Bool) (x : Bool) (c : Cursor) :
    c.Passes (c.takeWhile p x).2 :=
  takeUpTo_passes p x c.rest.length c

end Cursor

/-- A reader that goes on past a check did not fail there. -/
theorem eq_ok_of_checked {ε α β : Type} {p : Prop} [Decidable p] {e : ε} {f : β → Except ε α}
    {go : Except ε α} {a : α} (read : (if p then throw e >>= f else go) = .ok a) : go = .ok a := by
  split at read
  · cases read
  · exact read

open Cursor (bump_passes next_passes skipBlank_passes takeWhile_passes bumpIf?_passes)

/-! ## Numbers and escapes -/

section Escapes

variable {x : Bool} {c d : Cursor}

/-- A decimal count is passed over with the blank text around it. -/
theorem readCount_passes (x : Bool) (c : Cursor) : c.Passes (readCount x c).2 := by
  have digits := (takeWhile_passes isBlank false c).trans (takeWhile_passes Char.isDigit x _)
  have all := digits.trans (takeWhile_passes isBlank x _)
  unfold readCount
  dsimp only
  split
  · exact all
  · split <;> exact all

/-- A given number of hexadecimal digits is passed over digit by digit. -/
theorem readHexDigits_passes {n : Nat} {digits : List Char}
    (read : readHexDigits x n c = .ok (digits, d)) : c.Passes d := by
  induction n generalizing c digits with
  | zero =>
    rw [readHexDigits] at read
    cases read
    exact .refl _
  | succ n ih =>
    rw [readHexDigits] at read
    split at read
    · cases read
    · split at read
      · obtain ⟨⟨more, stop⟩, rest, done⟩ := bind_eq_ok_iff.mp read
        cases done
        exact (next_passes x c).trans (ih rest)
      · cases read

/-- An escape with a fixed number of digits ends behind the last of them. -/
theorem readFixedHex_passes {width : Nat} {v : Char} (read : readFixedHex x width c = .ok (v, d)) :
    c.Passes d := by
  obtain ⟨⟨digits, stop⟩, first, rest⟩ := bind_eq_ok_iff.mp read
  dsimp only at rest
  split at rest
  · cases rest
    exact readHexDigits_passes first
  · cases rest

/-- An escape with its digits in braces ends behind the closing brace. -/
theorem readBracedHex_passes {v : Char} (read : readBracedHex x c = .ok (v, d)) : c.Passes d := by
  have digits := (next_passes x c).trans (takeWhile_passes isHexDigit x (c.next x))
  have closed := digits.trans (next_passes x _)
  unfold readBracedHex at read
  dsimp only at read
  split at read
  · cases read
  · split at read
    · cases read
    · split at read
      · cases read
      · split at read
        · cases read
          exact closed
        · cases read

/-- A hexadecimal escape moves the cursor on, with braces or without. -/
theorem readHex_passes {width : Nat} {v : Char} (read : readHex x width c = .ok (v, d)) :
    c.Passes d := by
  unfold readHex at read
  split at read
  · cases read
  · exact readBracedHex_passes read
  · exact readFixedHex_passes read

/-- A class of Unicode characters is passed over from its letter on, in each of its three forms. -/
theorem readProperty_passes {negated : Bool} {query : Unicode.Query}
    (read : readProperty x c = .ok (negated, query, d)) : c.Passes d := by
  have name := (next_passes x c).trans (takeWhile_passes (· ≠ '}') x (c.next x))
  unfold readProperty at read
  split at read
  · cases read
  · dsimp only at read
    split at read
    · cases read
    · cases read
      exact name.trans (bump_passes _)
  · cases read
  · cases read
    exact next_passes x c

/-- The name of a word boundary in braces is passed over. -/
theorem readBoundary_passes {start : Position} {kind : AssertionKind}
    (read : readBoundary x start c = .ok (kind, d)) : c.Passes d := by
  have name := (next_passes x c).trans (takeWhile_passes isBoundaryNameChar x (c.next x))
  unfold readBoundary at read
  dsimp only at read
  split at read
  · cases read
  · split at read
    · split at read
      · split at read
        · cases read
          exact name.trans (bump_passes _)
        · cases read
      · cases read
    · cases read
      exact .refl _

/-- A word boundary is passed over, with the name in braces that may follow it. -/
theorem readWordBoundary_passes {start : Position} {item : Primitive}
    (read : readWordBoundary x start c = .ok (item, d)) : c.Passes d := by
  unfold readWordBoundary at read
  split at read
  · obtain ⟨⟨kind, stop⟩, named, done⟩ := bind_eq_ok_iff.mp read
    cases done
    exact readBoundary_passes named
  · cases read
    exact .refl _

/-- An escape of one letter moves the cursor on, whatever its letter introduces. -/
theorem readShortEscape_passes {start : Position} {ch : Char} {item : Primitive}
    (read : readShortEscape x start ch c = .ok (item, d)) : c.Passes d := by
  unfold readShortEscape at read
  dsimp only at read
  split at read
  · cases read
    exact .refl _
  · split at read
    · exact readWordBoundary_passes read
    · split at read <;> cases read <;> exact .refl _

/-- An escape is passed over from its backslash on. -/
theorem readEscape_passes {item : Primitive} (read : readEscape x c = .ok (item, d)) :
    c.Passes d := by
  have letter := (bump_passes c).trans (next_passes x c.bump)
  have short := (bump_passes c).trans (bump_passes c.bump)
  unfold readEscape at read
  dsimp only at read
  split at read
  · cases read
  · split at read
    · cases read
    · split at read
      · obtain ⟨⟨negated, query, stop⟩, named, done⟩ := bind_eq_ok_iff.mp read
        cases done
        exact letter.trans (readProperty_passes named)
      · split at read
        · obtain ⟨⟨v, stop⟩, digits, done⟩ := bind_eq_ok_iff.mp read
          cases done
          exact letter.trans (readHex_passes digits)
        · cases read
          exact short
        · exact short.trans (readShortEscape_passes read)

/-- An item of one character, or an escape for one, is passed over. -/
theorem readPrimitive_passes {ch : Char} {item : Primitive}
    (read : readPrimitive x ch c = .ok (item, d)) : c.Passes d := by
  unfold readPrimitive at read
  split at read
  · exact readEscape_passes read
  all_goals
    cases read
    exact bump_passes c

end Escapes

/-! ## Brackets -/

section Brackets

variable {x : Bool} {c d : Cursor}

/-- A class that is given by its name inside a bracket is passed over with its colons. -/
theorem readAscii?_passes {item : ClassTree} (read : readAscii? c = some (item, d)) :
    c.Passes d := by
  obtain ⟨inner, opened, read⟩ := Option.bind_eq_some_iff.mp read
  obtain ⟨stop, closed, read⟩ := Option.bind_eq_some_iff.mp read
  obtain ⟨kind, -, read⟩ := Option.bind_eq_some_iff.mp read
  cases read
  have sign : inner.Passes (if (inner.rest.head? = some '^') then inner.bump else inner) := by
    split
    · exact bump_passes inner
    · exact .refl inner
  exact (((bumpIf?_passes opened).trans sign).trans (takeWhile_passes _ _ _)).trans
    (bumpIf?_passes closed)

/-- The hyphens at the start of a bracket are passed over, and each of them is an item. -/
theorem readHyphens_passes {start : Position} {fuel : Nat} {items items' : ItemList}
    (read : readHyphens x start fuel items c = .ok (items', d)) : c.Passes d := by
  induction fuel generalizing items c with
  | zero =>
    cases read
    exact .refl _
  | succ fuel ih =>
    unfold readHyphens at read
    split at read
    · dsimp only at read
      split at read
      · cases read
      · exact (next_passes x c).trans (ih read)
    · cases read
      exact .refl _

/-- The start of a bracket is passed over, with its negation and the items that only count there. -/
theorem readOpenBracket_passes {fuel : Nat} {b : OpenBracket}
    (read : readOpenBracket x fuel c = .ok b) : c.Passes b.cursor := by
  have first := next_passes x c
  unfold readOpenBracket at read
  dsimp only at read
  have read := eq_ok_of_checked (eq_ok_of_checked read)
  obtain ⟨⟨items, stop⟩, hyphens, read⟩ := bind_eq_ok_iff.mp read
  have sign : c.Passes
      (if decide ((c.next x).rest.head? = some '^') then (c.next x).next x else c.next x) := by
    split
    · exact first.trans (next_passes x _)
    · exact first
  have opened := sign.trans (readHyphens_passes hyphens)
  dsimp only at read
  split at read
  · cases eq_ok_of_checked read
    exact opened.trans (next_passes x stop)
  · cases read
    exact opened

/-- An end of a range is passed over, as a character or as an escape. -/
theorem readClassPrimitive_passes {item : Primitive}
    (read : readClassPrimitive x c = .ok (item, d)) : c.Passes d := by
  unfold readClassPrimitive at read
  split at read
  · exact readEscape_passes read
  · cases read
    exact bump_passes c
  · cases read

/-- An item of a bracket is passed over: a range, or a single character or class. -/
theorem readClassItem_passes {stack : List BracketFrame} {item : ClassTree}
    (read : readClassItem x stack c = .ok (item, d)) : c.Passes d := by
  obtain ⟨⟨first, c₁⟩, one, read⟩ := bind_eq_ok_iff.mp read
  have before := (readClassPrimitive_passes one).trans (skipBlank_passes x c₁)
  dsimp only at read
  have read := eq_ok_of_checked read
  split at read
  · obtain ⟨item, -, done⟩ := bind_eq_ok_iff.mp read
    cases done
    exact before
  · have read := eq_ok_of_checked read
    obtain ⟨⟨last, c₂⟩, two, read⟩ := bind_eq_ok_iff.mp read
    obtain ⟨lo, -, read⟩ := bind_eq_ok_iff.mp read
    obtain ⟨hi, -, read⟩ := bind_eq_ok_iff.mp read
    split at read
    · cases read
      exact (before.trans (next_passes x _)).trans (readClassPrimitive_passes two)
    · cases read

/-- From the first item on, a bracket is passed over up to the one that closes it. The induction is
on the fuel, so brackets inside and operators are one step each. -/
theorem readBracketRest_passes {fuel : Nat} {stack : List BracketFrame} {items : ItemList}
    {span : Span} {negated : Bool} {body : ClassTree}
    (read : readBracketRest x fuel stack items c = .ok (span, negated, body, d)) :
    c.Passes d := by
  induction fuel generalizing stack items c with
  | zero => cases read
  | succ fuel ih =>
    have visible := skipBlank_passes x c
    unfold readBracketRest at read
    dsimp only at read
    split at read
    · cases read
    · split at read
      · split at read
        next item stop ascii =>
          exact (visible.trans (readAscii?_passes ascii)).trans (ih read)
        next =>
          obtain ⟨b, opened, read⟩ := bind_eq_ok_iff.mp read
          exact (visible.trans (readOpenBracket_passes opened)).trans (ih read)
      · split at read
        · split at read
          · split at read
            · cases read
              exact visible.trans (bump_passes _)
            · exact (visible.trans (bump_passes _)).trans (ih read)
          · cases read
        · split at read
          · exact ((visible.trans (bump_passes _)).trans (bump_passes _)).trans (ih read)
          · obtain ⟨⟨item, stop⟩, one, read⟩ := bind_eq_ok_iff.mp read
            exact (visible.trans (readClassItem_passes one)).trans (ih read)

/-- A bracket is read as a bracketed class. -/
theorem readBracket_passes {tree : Tree} (read : readBracket x c = .ok (tree, d)) :
    (∃ span negated body, tree = .bracket span negated body) ∧ c.Passes d := by
  obtain ⟨b, opened, read⟩ := bind_eq_ok_iff.mp read
  obtain ⟨⟨span, negated, body, stop⟩, rest, read⟩ := bind_eq_ok_iff.mp read
  cases read
  exact ⟨⟨span, negated, body, rfl⟩,
    (readOpenBracket_passes opened).trans (readBracketRest_passes rest)⟩

end Brackets

/-! ## Repetition operators -/

section Repetitions

variable {x : Bool} {c d : Cursor}

/-- The question mark behind a repetition is passed over if it is there. -/
theorem readGreed_passes (bounds : Bounds) (c : Cursor) : c.Passes (readGreed bounds c).cursor := by
  unfold readGreed
  split
  · exact bump_passes c
  · exact .refl c

/-- The bounds of a counted repetition are passed over, with the brace that closes them. -/
theorem readBounds_passes {start : Position} {bounds : Bounds}
    (read : readBounds x start c = .ok (bounds, d)) : c.Passes d := by
  have first := readCount_passes x c
  unfold readBounds at read
  dsimp only at read
  have read := eq_ok_of_checked read
  split at read
  · cases read
  · have comma := first.trans (next_passes x _)
    split at read
    · cases read
    · obtain ⟨min, -, read⟩ := bind_eq_ok_iff.mp read
      cases read
      exact comma
    · obtain ⟨min, -, read⟩ := bind_eq_ok_iff.mp read
      obtain ⟨max, -, read⟩ := bind_eq_ok_iff.mp read
      cases read
      exact comma.trans (readCount_passes x _)
  · obtain ⟨count, -, read⟩ := bind_eq_ok_iff.mp read
    cases read
    exact first

/-- A counted repetition is passed over, from its brace up to the mark of its greed. -/
theorem readCounted_passes {mark : RepetitionMark} (read : readCounted x c = .ok mark) :
    c.Passes mark.cursor := by
  obtain ⟨⟨bounds, stop⟩, inner, read⟩ := bind_eq_ok_iff.mp read
  dsimp only at read
  have read := eq_ok_of_checked read
  have closed := ((next_passes x c).trans (readBounds_passes inner)).trans (next_passes x stop)
  split at read
  · cases read
    exact closed.trans (readGreed_passes bounds _)
  · cases read

end Repetitions

/-! ## Groups -/

section Groups

variable {x : Bool} {c d : Cursor}

/-- Items of a list of flags that are written between two cursors, each as one character. -/
inductive FlagsRead : Cursor → Cursor → List FlagItem → Prop
  | nil (c : Cursor) : FlagsRead c c []
  | cons {ch : Char} {rest : List Char} {pos : Position} {d : Cursor} {mark : FlagMark}
      {items : List FlagItem} (written : ∀ f, mark = .flag f → Flag.ofChar? ch = some f)
      (more : FlagsRead ⟨rest, pos.after ch⟩ d items) :
      FlagsRead ⟨ch :: rest, pos⟩ d (⟨⟨pos, pos.after ch⟩, mark⟩ :: items)

/-- The flags of a group are passed over one by one. -/
theorem FlagsRead.passes {items : List FlagItem} (read : FlagsRead c d items) : c.Passes d := by
  induction read with
  | nil c => exact .refl c
  | cons _ _ ih => exact (Cursor.Passes.cons _ _ _).trans ih

/-- What is read behind the items that were read before is written between the cursors. -/
theorem flagsRead_of_readFlags {items read : List FlagItem} {negation : Option Span}
    {rest : List Char} {pos : Position} (done : readFlags items negation rest pos = .ok (read, d)) :
    ∃ new, read = items.reverse ++ new ∧ FlagsRead ⟨rest, pos⟩ d new := by
  induction rest generalizing items negation pos with
  | nil => cases done
  | cons ch rest ih =>
    -- Any character but the last one adds one item, and the rest is read behind it.
    have step {mark : FlagMark} {negation : Option Span}
        (written : ∀ f, mark = .flag f → Flag.ofChar? ch = some f)
        (done : readFlags (⟨⟨pos, pos.after ch⟩, mark⟩ :: items) negation rest (pos.after ch) =
          .ok (read, d)) :
        ∃ new, read = items.reverse ++ new ∧ FlagsRead ⟨ch :: rest, pos⟩ d new := by
      obtain ⟨new, all, more⟩ := ih done
      rw [List.reverse_cons, List.append_assoc] at all
      exact ⟨_, all, .cons written more⟩
    unfold readFlags at done
    split at done
    · split at done
      · cases done
      · cases done
        exact ⟨[], (List.append_nil _).symm, .nil _⟩
    · dsimp only at done
      split at done
      · split at done
        · cases done
        · exact step (fun f same => by cases same) done
      · split at done
        · cases done
        next flag found =>
          split at done
          · cases done
          · refine step (fun f same => ?_) done
            cases same
            exact found

/-- The name of a group is passed over with the bracket that closes it. -/
theorem readName_passes {name read : List Char} {rest : List Char} {pos : Position}
    (done : readName name rest pos = .ok (read, d)) : Cursor.Passes ⟨rest, pos⟩ d := by
  induction rest generalizing name pos with
  | nil => cases done
  | cons ch rest ih =>
    unfold readName at done
    split at done
    · cases done
      exact .refl _
    · split at done
      · exact (Cursor.Passes.cons ch rest pos).trans (ih done)
      · cases done

/-- What a group opens with comes after its parenthesis, and its flags are read from behind the
question mark. -/
theorem readGroupHead_cases {head : GroupHead} (read : readGroupHead x c = .ok (head, d)) :
    c.Passes d ∧
      ((∃ name span, head = .named name span) ∨ head = .capture ∨
        ∃ start stop items, c.Passes start ∧ stop.bump = d ∧ FlagsRead start stop items ∧
          (head = .directive items ∨ head = .plain items)) := by
  have opened := next_passes x c
  unfold readGroupHead at read
  dsimp only at read
  split at read
  · cases read
  · split at read
    next name found =>
      obtain ⟨⟨text, stop⟩, named, read⟩ := bind_eq_ok_iff.mp read
      dsimp only at read
      split at read
      · cases read
      · cases read
        have sign : (c.next x).Passes name := by
          have found := Option.orElse_eq_or.symm.trans found
          obtain found | ⟨-, found⟩ := Option.or_eq_some_iff.mp found
          · exact bumpIf?_passes found
          · exact bumpIf?_passes found
        have all := ((opened.trans sign).trans (readName_passes named)).trans (bump_passes stop)
        exact ⟨all, .inl ⟨_, _, rfl⟩⟩
    next =>
      split at read
      next flags found =>
        split at read
        · cases read
        · have start := opened.trans (bumpIf?_passes found)
          obtain ⟨⟨items, stop⟩, listed, read⟩ := bind_eq_ok_iff.mp read
          obtain ⟨_, rfl, listed⟩ := flagsRead_of_readFlags listed
          have all := (start.trans listed.passes).trans (bump_passes stop)
          dsimp only at read
          split at read
          · split at read
            · cases read
            · cases read
              exact ⟨all, .inr (.inr ⟨flags, stop, _, start, rfl, listed, .inl rfl⟩)⟩
          · cases read
            exact ⟨all, .inr (.inr ⟨flags, stop, _, start, rfl, listed, .inr rfl⟩)⟩
      next =>
        cases read
        exact ⟨opened, .inr (.inl rfl)⟩

end Groups

/-! ## Steps of the reader -/

/-- The number of a group that captures. -/
def GroupKind.index? : GroupKind → Option Nat
  | .capture index | .named index _ => some index
  | .plain _ => none

/-- Not both frames are alternations. -/
def Frame.Apart : Frame → Frame → Prop
  | .alternation _ _, .alternation _ _ => False
  | _, _ => True

namespace Reader

/-- A tree of all that was read since the innermost open group, and what is open around it. -/
inductive Inner (r : Reader) : Tree → List Frame → Prop
  | sequence {rest : List Frame} (top : r.stack = rest) :
      Inner r (r.current.toTree r.cursor.pos) rest
  | choice {start : Position} {branches : List Tree} {rest : List Frame}
      (top : r.stack = .alternation start branches :: rest) :
      Inner r
        (.alternation ⟨start, r.cursor.pos⟩
          (r.current.toTree r.cursor.pos :: branches).reverse)
        rest

/-- What one step can do. -/
inductive Advances (r : Reader) (ch : Char) : Reader → Prop
  | directive {items : List FlagItem} {cursor : Cursor} (blank : Bool)
      (head : readGroupHead r.blank r.cursor = .ok (.directive items, cursor)) :
      Advances r ch { r with
        cursor, blank
        current := r.current.push (.flags ⟨r.cursor.charSpan.start, cursor.pos⟩ items) }
  | plain {items : List FlagItem} {cursor : Cursor} (blank : Bool)
      (head : readGroupHead r.blank r.cursor = .ok (.plain items, cursor)) :
      Advances r ch (r.openGroup r.cursor.charSpan (.plain items) cursor blank)
  | capture {opens : GroupHead} {kind : GroupKind} {cursor : Cursor}
      (names : List (String × Span)) (head : readGroupHead r.blank r.cursor = .ok (opens, cursor))
      (numbered : kind.index? = some (r.captures + 1)) :
      Advances r ch { r.openGroup r.cursor.charSpan kind cursor r.blank with
        captures := r.captures + 1, names }
  | close {body : Tree} {outer : Sequence} {opened : Span} {kind : GroupKind} {blank : Bool}
      {rest : List Frame} (inner : r.Inner body (.group outer opened kind blank :: rest)) :
      Advances r ch (r.finishGroup body outer opened kind blank rest)
  | branch : Advances r ch r.branch
  | bracket {span : Span} {negated : Bool} {body : ClassTree} {cursor : Cursor}
      (read : readBracket r.blank r.cursor = .ok (.bracket span negated body, cursor)) :
      Advances r ch { r with cursor, current := r.current.push (.bracket span negated body) }
  | repetition {span : Span} {bounds : Bounds} {greedy : Bool} {body : Tree} {items : List Tree}
      {cursor : Cursor} (last : r.current.items = body :: items)
      (passes : r.cursor.Passes cursor) :
      Advances r ch { r with
        cursor
        current := { r.current with items := .repetition span bounds greedy body :: items } }
  | primitive {item : Primitive} {cursor : Cursor}
      (read : readPrimitive r.blank ch r.cursor = .ok (item, cursor)) :
      Advances r ch { r with cursor, current := r.current.push item.toTree }

/-- A capturing group takes the number after the last one. -/
theorem eq_of_nextCapture {r : Reader} {opened : Span} {index : Nat}
    (next : r.nextCapture opened = .ok index) : index = r.captures + 1 := by
  unfold nextCapture at next
  split at next
  · exact (Except.ok.inj next).symm
  · cases next

/-- Opening a group, or setting flags, is a step of the reader. -/
theorem advances_of_readGroup {r r' : Reader} {ch : Char} (read : r.readGroup = .ok r') :
    r.Advances ch r' := by
  obtain ⟨⟨head, cursor⟩, opens, read⟩ := bind_eq_ok_iff.mp read
  cases head with
  | directive items =>
    cases read
    exact .directive _ opens
  | plain items =>
    cases read
    exact .plain _ opens
  | capture =>
    obtain ⟨index, next, read⟩ := bind_eq_ok_iff.mp read
    cases read
    cases eq_of_nextCapture next
    exact .capture r.names opens rfl
  | named name span =>
    obtain ⟨index, next, read⟩ := bind_eq_ok_iff.mp read
    cases eq_of_nextCapture next
    dsimp only at read
    split at read
    · cases read
    · cases read
      exact .capture _ opens rfl

/-- Closing a group is a step of the reader: the group becomes an item of what was open around it.
-/
theorem advances_of_closeGroup {r r' : Reader} {ch : Char} (read : r.closeGroup = .ok r') :
    r.Advances ch r' := by
  unfold closeGroup at read
  dsimp only at read
  split at read
  next outer opened kind blank rest top =>
    cases read
    exact .close (.sequence top)
  next start branches outer opened kind blank rest top =>
    cases read
    exact .close (.choice top)
  next => cases read

/-- Repeating the last item is a step of the reader, if its mark was read from where the reader
stands. -/
theorem advances_of_repeatLast {r r' : Reader} {ch : Char} {mark : Except Fault RepetitionMark}
    (passes : ∀ m, mark = .ok m → r.cursor.Passes m.cursor) (read : r.repeatLast mark = .ok r') :
    r.Advances ch r' := by
  obtain ⟨⟨items, cursor⟩, applied, read⟩ := bind_eq_ok_iff.mp read
  cases read
  unfold applyRepetition at applied
  split at applied
  · cases applied
  next body rest last =>
    split at applied
    · obtain ⟨m, found, applied⟩ := bind_eq_ok_iff.mp applied
      cases applied
      exact .repetition last (passes m found)
    · cases applied

/-- Each step of the reader is one of those that `Advances` lists. All that holds of whole runs is
derived from this case analysis and not from the reader itself. -/
theorem advances_of_step {r r' : Reader} {ch : Char} (read : r.step ch = .ok r') :
    r.Advances ch r' := by
  unfold step at read
  split at read
  · exact advances_of_readGroup read
  split at read
  · exact advances_of_closeGroup read
  split at read
  · cases read
    exact .branch
  split at read
  · obtain ⟨⟨tree, cursor⟩, bracket, read⟩ := bind_eq_ok_iff.mp read
    cases read
    obtain ⟨⟨span, negated, body, rfl⟩, -⟩ := readBracket_passes bracket
    exact .bracket bracket
  split at read
  · exact advances_of_repeatLast (fun _ => readCounted_passes) read
  split at read
  next bounds _ =>
    refine advances_of_repeatLast (fun m found => ?_) read
    cases found
    exact (bump_passes r.cursor).trans (readGreed_passes bounds _)
  next =>
    obtain ⟨⟨item, cursor⟩, primitive, read⟩ := bind_eq_ok_iff.mp read
    cases read
    exact .primitive primitive

/-- A step of the reader only moves forward in the pattern. -/
theorem Advances.passes {r r' : Reader} {ch : Char} (step : r.Advances ch r') :
    r.cursor.Passes r'.cursor := by
  cases step with
  | directive _ head => exact (readGroupHead_cases head).1
  | plain _ head => exact (readGroupHead_cases head).1
  | capture _ head => exact (readGroupHead_cases head).1
  | close => exact bump_passes r.cursor
  | branch => exact bump_passes r.cursor
  | bracket read => exact (readBracket_passes read).2
  | repetition _ passes => exact passes
  | primitive read => exact readPrimitive_passes read

/-! ## Runs of the reader -/

/-- What the reader never loses: it survives passing over blanks, and each step. -/
structure Kept (P : Reader → Prop) : Prop where
  skip : ∀ r cursor, r.cursor.Passes cursor → P r → P { r with cursor }
  step : ∀ r r' ch rest, r.cursor.rest = ch :: rest → r.Advances ch r' → P r → P r'

/-- No alternation is open directly in another one. -/
def Stacked (r : Reader) : Prop := r.stack.IsChain Frame.Apart

/-- Starting a new branch leaves the groups that are open as they are. -/
theorem stacked_branch {r : Reader} (stacked : r.Stacked) : r.branch.Stacked := by
  unfold Stacked branch
  dsimp only
  split
  next start branches rest top =>
    rw [Stacked, top] at stacked
    cases rest with
    | nil => exact .singleton _
    | cons frame rest =>
      obtain ⟨apart, stacked⟩ := List.isChain_cons_cons.mp stacked
      refine List.isChain_cons_cons.mpr ⟨?_, stacked⟩
      cases frame with
      | alternation => exact apart
      | group => trivial
  next stack other =>
    cases top : r.stack with
    | nil => exact .singleton _
    | cons frame rest =>
      refine List.isChain_cons_cons.mpr ⟨?_, top ▸ stacked⟩
      cases frame with
      | alternation start branches => exact absurd top (other start branches rest)
      | group => trivial

/-- What is open alternates as it should, in every state of a run. -/
theorem kept_stacked : Kept Stacked where
  skip _ _ _ stacked := stacked
  step r r' ch rest _ step stacked := by
    have opened (outer opened kind blank) :
        (Frame.group outer opened kind blank :: r.stack).IsChain Frame.Apart := by
      cases top : r.stack with
      | nil => exact .singleton _
      | cons frame rest => exact List.isChain_cons_cons.mpr ⟨trivial, top ▸ stacked⟩
    cases step with
    | directive | bracket | repetition | primitive => exact stacked
    | plain | capture => exact opened _ _ _ _
    | branch => exact stacked_branch stacked
    | close inner =>
      cases inner with
      | sequence top =>
        rw [Stacked, top] at stacked
        exact stacked.of_cons
      | choice top =>
        rw [Stacked, top] at stacked
        exact stacked.of_cons.of_cons

/-- A pattern that was read to its end leaves nothing open. -/
theorem inner_of_finish {r : Reader} {t : Tree} (stacked : r.Stacked) (done : r.finish = .ok t) :
    r.Inner t [] := by
  unfold finish at done
  dsimp only at done
  split at done
  next top =>
    cases done
    exact .sequence top
  next => cases done
  next start branches rest top =>
    split at done
    · cases done
    next closed =>
      cases done
      rw [Stacked, top] at stacked
      cases rest with
      | nil => exact .choice top
      | cons frame rest =>
        cases frame with
        | alternation => exact (List.isChain_cons_cons.mp stacked).1.elim
        | group outer opened kind blank => exact absurd rfl (closed outer opened kind blank rest)

variable {P : Reader → Prop}

/-- What is kept holds when the pattern has been read. -/
theorem Kept.of_readAll (kept : Kept P) {fuel : Nat} {r : Reader} {t : Tree} (start : P r)
    (stacked : r.Stacked) (read : readAll fuel r = .ok t) : ∃ r', P r' ∧ r'.Inner t [] := by
  induction fuel generalizing r with
  | zero => exact ⟨r, start, inner_of_finish stacked read⟩
  | succ fuel ih =>
    have visible := skipBlank_passes r.blank r.cursor
    have start := kept.skip r _ visible start
    unfold readAll at read
    dsimp only at read
    split at read
    · exact ⟨_, start, inner_of_finish stacked read⟩
    next ch rest next =>
      obtain ⟨r', step, read⟩ := bind_eq_ok_iff.mp read
      have step := advances_of_step step
      exact ih (kept.step _ r' ch rest next step start)
        (kept_stacked.step _ r' ch rest next step stacked) read

/-- What holds at first and is kept by each step holds at the end of a run, where the reader has the
whole tree in its hands. -/
theorem Kept.of_parse (kept : Kept P) {pattern : String} {t : Tree}
    (start : P (.ofString pattern)) (read : Tree.parse pattern = .ok t) :
    ∃ r, P r ∧ r.Inner t [] :=
  kept.of_readAll start .nil read

end Reader

end PatternGate
