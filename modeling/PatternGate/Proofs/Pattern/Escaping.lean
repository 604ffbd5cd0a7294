import Mathlib.Data.List.Forall2
import PatternGate.Proofs.Expr.Choices
import PatternGate.Proofs.Text.Latin1
import PatternGate.Proofs.Validator.Outcome

/-!
# Escaped text

Any text becomes a pattern that matches just this text: a backslash goes before each character that
means something else in a pattern. The main statement, `Settings.compile_escape`, follows an escaped
text through the whole engine. Its bytes are read as characters, each of these is read as one
literal, the literals become one, and that is lowered to one instruction for each byte that the
text had at first.

The text is encoded and decoded twice on the way. Escaping commutes with the first decoding, since
every metacharacter is ASCII and no byte of another character is (`decode_escape`). So what is read
is again an escaped text, of the bytes as characters, and the reader is followed by induction over
it: each escaped character takes one step and pushes one literal (`Reader.readAll_escapeChar`).
-/

namespace PatternGate

/-- The characters that mean something else than themselves in some place of a pattern. -/
def metacharacters : List Char :=
  ['\\', '.', '+', '*', '?', '(', ')', '|', '[', ']', '{', '}', '^', '$', '#', '&', '-', '~']

/-- A character as a pattern. -/
def escapeChar (c : Char) : List Char := if c ∈ metacharacters then ['\\', c] else [c]

/-- A text as a pattern. -/
def escape (text : String) : String := String.ofList (text.toList.flatMap escapeChar)

section Decoding

theorem lt_of_mem_metacharacters : ∀ c ∈ metacharacters, c.toNat < 0x80 := by
  have checked : metacharacters.all (·.toNat < 0x80) = true := by decide
  simpa only [List.all_eq_true, decide_eq_true_eq] using checked

/-- A character beyond ASCII stands for itself. -/
theorem escapeChar_of_ge {c : Char} (high : 0x80 ≤ c.toNat) : escapeChar c = [c] := by
  have other : c ∉ metacharacters := by
    intro mem
    have low := lt_of_mem_metacharacters c mem
    omega
  rw [escapeChar, if_neg other]

theorem flatMap_escapeChar_of_ge {cs : List Char} (high : ∀ c ∈ cs, 0x80 ≤ c.toNat) :
    cs.flatMap escapeChar = cs := by
  induction cs with
  | nil => rfl
  | cons c cs ih =>
    rw [List.forall_mem_cons] at high
    rw [List.flatMap_cons, escapeChar_of_ge high.1, ih high.2]
    rfl

/-- What is written for an ASCII character is ASCII. -/
theorem lt_of_mem_escapeChar {c : Char} (low : c.toNat < 0x80) :
    ∀ d ∈ escapeChar c, d.toNat < 0x80 := by
  unfold escapeChar
  split
  · simp only [List.forall_mem_cons]
    exact ⟨by decide, low, by simp⟩
  · simpa using low

/-- Whether a text is escaped before or after its bytes are read as characters makes no
difference. -/
theorem map_ofByte_encode_escape (cs : List Char) :
    (Utf8.encode (cs.flatMap escapeChar)).map Latin1.ofByte =
      ((Utf8.encode cs).map Latin1.ofByte).flatMap escapeChar := by
  induction cs with
  | nil => rfl
  | cons c cs ih =>
    have head : (Utf8.encode (escapeChar c)).map Latin1.ofByte =
        ((String.utf8EncodeChar c).map Latin1.ofByte).flatMap escapeChar := by
      by_cases low : c.toNat < 0x80
      · have one : (String.utf8EncodeChar c).map Latin1.ofByte = [c] := by
          have same := Latin1.map_ofByte_encode (List.forall_mem_singleton.mpr low)
          rwa [Utf8.encode, List.flatMap_singleton] at same
        rw [Latin1.map_ofByte_encode (lt_of_mem_escapeChar low), one, List.flatMap_singleton]
      · have high : 0x80 ≤ c.toNat := Nat.le_of_not_lt low
        have bytes : ∀ d ∈ (String.utf8EncodeChar c).map Latin1.ofByte, 0x80 ≤ d.toNat := by
          rw [List.forall_mem_map]
          intro b mem
          rw [Latin1.toNat_ofByte]
          exact Latin1.ge_of_mem_utf8EncodeChar high b mem
        rw [escapeChar_of_ge high, flatMap_escapeChar_of_ge bytes]
        simp [Utf8.encode]
    have whole : Utf8.encode (c :: cs) = String.utf8EncodeChar c ++ Utf8.encode cs := rfl
    rw [List.flatMap_cons, Utf8.encode_append, List.map_append, head, ih, whole, List.map_append,
      List.flatMap_append]

/-- Decoding an escaped text gives the bytes of the text as characters, escaped. -/
theorem decode_escape (text : String) :
    Latin1.decode (escape text) =
      String.ofList (((Utf8.encode text.toList).map Latin1.ofByte).flatMap escapeChar) := by
  rw [Latin1.decode, escape, String.toList_ofList, map_ofByte_encode_escape]

end Decoding

/-- The tree is the literal of a character. -/
def Tree.IsLiteral (t : Tree) (c : Char) : Prop := ∃ span, t = .literal span c

/-- The characters that open, close, divide or repeat. -/
def structureCharacters : List Char := ['(', ')', '|', '[', '{', '?', '*', '+']

theorem mem_metacharacters_of_structure : ∀ c ∈ structureCharacters, c ∈ metacharacters := by
  have checked : structureCharacters.all (· ∈ metacharacters) = true := by decide
  simpa only [List.all_eq_true, decide_eq_true_eq] using checked

namespace Reader

/-- A character that neither opens, closes, divides nor repeats starts a primitive. -/
theorem step_of_ordinary {c : Char} (ordinary : c ∉ structureCharacters) (r : Reader) :
    r.step c = do
      let (item, cursor) ← readPrimitive r.blank c r.cursor
      return { r with cursor, current := r.current.push item.toTree } := by
  simp only [structureCharacters, List.mem_cons, List.not_mem_nil, or_false, not_or] at ordinary
  obtain ⟨opens, closes, divides, bracket, counts, once, star, plus⟩ := ordinary
  have operator : operatorBounds? c = none := by
    unfold operatorBounds?
    split <;> first | rfl | contradiction
  rw [step, if_neg opens, if_neg closes, if_neg divides, if_neg bracket, if_neg counts, operator]

/-- A character that is no metacharacter is a literal. -/
theorem readPrimitive_of_not_mem {c : Char} (other : c ∉ metacharacters) (x : Bool) (k : Cursor) :
    readPrimitive x c k = .ok (.literal k.charSpan c, k.bump) := by
  unfold readPrimitive
  split
  case h_5 => rfl
  all_goals exact absurd (by decide) other

theorem escapable_of_mem : ∀ c ∈ metacharacters, c.isDigit = false ∧ ¬ (c = 'p' ∨ c = 'P') ∧
    hexWidth? c = none ∧ letterClass? c = none ∧ isEscapable c = true := by
  have checked : metacharacters.all (fun c => c.isDigit = false ∧ ¬ (c = 'p' ∨ c = 'P') ∧
      hexWidth? c = none ∧ letterClass? c = none ∧ isEscapable c = true) = true := by decide
  simpa only [List.all_eq_true, decide_eq_true_eq] using checked

/-- A metacharacter after a backslash is a literal. -/
theorem readPrimitive_of_mem {c : Char} (mem : c ∈ metacharacters) (x : Bool) (rest : List Char)
    (pos : Position) :
    readPrimitive x '\\' ⟨'\\' :: c :: rest, pos⟩ =
      .ok (.literal ⟨pos, (pos.after '\\').after c⟩ c, ⟨rest, (pos.after '\\').after c⟩) := by
  obtain ⟨digit, property, hex, letter, escapable⟩ := escapable_of_mem c mem
  show readEscape x ⟨'\\' :: c :: rest, pos⟩ = _
  simp only [readEscape, Cursor.bump, digit, property, hex, letter, readShortEscape, escapable]
  rfl

/-- Where nothing is invisible, reading goes on after the step for the next character. -/
theorem readAll_of_step {r r' : Reader} (visible : r.blank = false) {c : Char} {rest : List Char}
    (next : r.cursor.rest = c :: rest) (stepped : r.step c = .ok r') (fuel : Nat) :
    readAll (fuel + 1) r = readAll fuel r' := by
  have skipped : r.cursor.skipBlank r.blank = r.cursor := by
    rw [visible]
    rfl
  rw [readAll, skipped]
  simp only [next, stepped]
  rfl

/-- An escaped character takes one step of the reader, and is one literal. -/
theorem readAll_escapeChar {r : Reader} (visible : r.blank = false) {c : Char} {rest : List Char}
    (next : r.cursor.rest = escapeChar c ++ rest) (fuel : Nat) :
    ∃ pos t, t.IsLiteral c ∧ readAll (fuel + 1) r =
      readAll fuel { r with cursor := ⟨rest, pos⟩, current := r.current.push t } := by
  obtain ⟨⟨chars, pos⟩, blank, current, stack, captures, names⟩ := r
  dsimp only at visible next
  subst next
  -- Both ways lead to one step; they differ in how many characters it reads.
  by_cases mem : c ∈ metacharacters
  · have written : escapeChar c ++ rest = '\\' :: c :: rest := by rw [escapeChar, if_pos mem]; rfl
    have stepped := step_of_ordinary (show '\\' ∉ structureCharacters by decide)
      ⟨⟨escapeChar c ++ rest, pos⟩, blank, current, stack, captures, names⟩
    simp only [written, readPrimitive_of_mem mem] at stepped ⊢
    exact ⟨_, _, ⟨_, rfl⟩, readAll_of_step visible rfl stepped fuel⟩
  · have written : escapeChar c ++ rest = c :: rest := by rw [escapeChar, if_neg mem]; rfl
    have ordinary : c ∉ structureCharacters := mt (mem_metacharacters_of_structure c) mem
    have stepped := step_of_ordinary ordinary
      ⟨⟨escapeChar c ++ rest, pos⟩, blank, current, stack, captures, names⟩
    simp only [written, readPrimitive_of_not_mem mem] at stepped ⊢
    exact ⟨_, _, ⟨_, rfl⟩, readAll_of_step visible rfl stepped fuel⟩

/-- What a writer writes for one thing takes one step of the reader, and is the literal of a
character. -/
structure Writes {α : Type} (write : α → List Char) (char : α → Char) : Prop where
  some : ∀ a, write a ≠ []
  step : ∀ (a : α) {r : Reader} {rest : List Char}, r.blank = false →
    r.cursor.rest = write a ++ rest → ∀ fuel, ∃ pos t, t.IsLiteral (char a) ∧
      readAll (fuel + 1) r =
        readAll fuel { r with cursor := ⟨rest, pos⟩, current := r.current.push t }

theorem writes_escapeChar : Writes escapeChar id where
  some c := by
    unfold escapeChar
    split <;> simp
  step _ _ _ visible next := readAll_escapeChar visible next

namespace Writes

variable {α : Type} {write : α → List Char} {char : α → Char}

/-- A written text is read to its end, and pushes one literal for each thing in it. -/
theorem readAll (writes : Writes write char) (as : List α) {r : Reader} (visible : r.blank = false)
    (next : r.cursor.rest = as.flatMap write) {fuel : Nat} (enough : as.length ≤ fuel) :
    ∃ pos ts, List.Forall₂ Tree.IsLiteral ts (as.map char) ∧ r.readAll fuel =
      finish { r with
        cursor := ⟨[], pos⟩
        current := { r.current with items := ts.reverse ++ r.current.items } } := by
  -- The reader is general in the induction: what was read before stays below the new literals.
  induction as generalizing r fuel with
  | nil =>
    obtain ⟨⟨chars, pos⟩, blank, current, stack, captures, names⟩ := r
    dsimp only at visible next
    subst visible next
    refine ⟨pos, [], .nil, ?_⟩
    cases fuel <;> rfl
  | cons a as ih =>
    obtain _ | fuel := fuel
    · cases enough
    rw [List.flatMap_cons] at next
    obtain ⟨pos, t, literal, stepped⟩ := writes.step a visible next fuel
    obtain ⟨stop, ts, literals, done⟩ := ih (r := { r with
      cursor := ⟨as.flatMap write, pos⟩, current := r.current.push t }) visible rfl
      (Nat.le_of_succ_le_succ enough)
    refine ⟨stop, t :: ts, .cons literal literals, ?_⟩
    rw [stepped, done, List.reverse_cons, List.append_assoc]
    rfl

theorem length_le (writes : Writes write char) (as : List α) :
    as.length ≤ (as.flatMap write).length := by
  induction as with
  | nil => exact Nat.le_refl 0
  | cons a as ih =>
    have some := List.length_pos_iff.mpr (writes.some a)
    rw [List.flatMap_cons, List.length_append, List.length_cons]
    omega

end Writes

end Reader

/-- The tree is made of the literals of a text, in a sequence if there is more than one. -/
inductive Tree.Spells : Tree → List Char → Prop
  | empty (span : Span) : Spells (.empty span) []
  | literal (span : Span) (c : Char) : Spells (.literal span c) [c]
  | concat (span : Span) {ts : List Tree} {cs : List Char} (several : 2 ≤ cs.length)
    (literals : List.Forall₂ Tree.IsLiteral ts cs) : Spells (.concat span ts) cs

/-- A sequence of literals, as a tree. -/
theorem Sequence.spells_toTree {ts : List Tree} {cs : List Char}
    (literals : List.Forall₂ Tree.IsLiteral ts cs) (start stop : Position) :
    Tree.Spells (Sequence.toTree ⟨start, ts.reverse⟩ stop) cs := by
  unfold toTree
  dsimp only
  split
  next none =>
    rw [List.reverse_eq_nil_iff] at none
    subst none
    cases literals
    exact .empty _
  next t one =>
    have single : ts = [t] := by rw [← List.reverse_reverse ts, one]; rfl
    subst single
    obtain _ | ⟨⟨span, rfl⟩, none⟩ := literals
    cases none
    exact .literal span _
  next not_none not_one =>
    have several : 2 ≤ ts.length := by
      rw [← List.length_reverse]
      match ts.reverse, not_none, not_one with
      | [], not_none, _ => exact absurd rfl not_none
      | [t], _, not_one => exact absurd rfl (not_one t)
      | _ :: _ :: _, _, _ => exact Nat.le_add_left 2 _
    rw [List.reverse_reverse]
    exact .concat _ (literals.length_eq ▸ several) literals

/-- A written text is read as the literals of its characters. -/
theorem Reader.Writes.parse {α : Type} {write : α → List Char} {char : α → Char}
    (writes : Writes write char) (as : List α) :
    ∃ t, Tree.parse (String.ofList (as.flatMap write)) = .ok t ∧ t.Spells (as.map char) := by
  have next : (Reader.ofString (String.ofList (as.flatMap write))).cursor.rest = as.flatMap write :=
    String.toList_ofList
  obtain ⟨pos, ts, literals, done⟩ :=
    writes.readAll as rfl next (Nat.le_succ_of_le (writes.length_le as))
  refine ⟨_, ?_, Sequence.spells_toTree literals .start pos⟩
  rw [Tree.parse, String.toList_ofList, done]
  simp [Reader.ofString, Reader.finish, Sequence.empty]

namespace Tree.Spells

variable {t : Tree} {cs : List Char}

theorem checkDialect (spells : t.Spells cs) : t.checkDialect = .ok () := by
  cases spells with
  | empty span => rfl
  | literal span c => rfl
  | concat span several literals =>
    clear several
    rw [Tree.checkDialect]
    induction literals with
    | nil => rfl
    | cons literal _ ih =>
      obtain ⟨span, rfl⟩ := literal
      exact ih

/-- Literals nest one level deep at most. -/
theorem checkNesting (spells : t.Spells cs) {limit : Nat} (one : 1 ≤ limit) :
    t.checkNesting limit 0 = .ok () := by
  cases spells with
  | empty span => rfl
  | literal span c => rfl
  | concat span several literals =>
    clear several
    have level : enterLevel limit 0 span = .ok () := if_pos one
    rw [Tree.checkNesting, level]
    show Tree.checkNestingAll limit _ 1 = .ok ()
    induction literals with
    | nil => rfl
    | cons literal _ ih =>
      obtain ⟨span, rfl⟩ := literal
      exact ih

end Tree.Spells

/-- A literal is no sequence, so that alone in one it stays what it is. -/
theorem Modes.ofConcat_literal (m : Modes) (c : Char) :
    Expr.ofConcat [m.literal c] = m.literal c := by
  have leaf : (m.literal c).isLeaf = true := by
    unfold Modes.literal
    split
    · exact Expr.isLeaf_ofChars _
    · rfl
  cases shape : m.literal c <;> first | rfl | (rw [shape] at leaf; cases leaf)

/-- The literals of a text mean what each of its characters means, in sequence. -/
theorem Tree.Spells.meaning_literals {t : Tree} {cs : List Char} (spells : t.Spells cs)
    (m : Modes) : t.meaning m = .ok (Expr.ofConcat (cs.map m.literal), m) := by
  cases spells with
  | empty span => rfl
  | literal span c => rw [Tree.meaning, List.map_singleton, m.ofConcat_literal]
  | @concat span ts cs several literals =>
    clear several
    have each : Tree.meanings ts m = .ok (cs.map m.literal, m) := by
      induction literals with
      | nil => rfl
      | cons literal _ ih =>
        obtain ⟨span, rfl⟩ := literal
        rw [Tree.meanings]
        exact bind_eq_ok_iff.mpr ⟨_, Tree.meaning.eq_def .., bind_eq_ok_iff.mpr ⟨_, ih, rfl⟩⟩
    rw [Tree.meaning, each]
    rfl

/-- Where case counts, literals mean the bytes of their text. -/
theorem Tree.Spells.meaning {t : Tree} {cs : List Char} (spells : t.Spells cs) {m : Modes}
    (counts : m.ignoreCase = false) : t.meaning m = .ok (Expr.ofBytes (Utf8.encode cs), m) := by
  have one : m.literal = fun c => Expr.ofScalar c.toNat := by
    funext c
    rw [Modes.literal, counts]
    rfl
  rw [spells.meaning_literals, one, Expr.ofConcat_ofScalar]

namespace Expr

/-- The literal of a text has the plan of its characters. -/
theorem plan_ofBytes (kept : Bool) (cs : List Char) :
    (ofBytes (Utf8.encode cs)).plan kept = .ofChars cs := by
  cases cs with
  | nil => rfl
  | cons c cs => rw [ofBytes_encode_cons, plan, Utf8.decode_encode]

/-- The literal of a text may start anywhere, and captures nothing. -/
theorem ofBytes_unanchored (cs : List Char) :
    (ofBytes (Utf8.encode cs)).leadsWith .start = false ∧
      (ofBytes (Utf8.encode cs)).captureCount = 0 := by
  cases cs with
  | nil => exact ⟨rfl, rfl⟩
  | cons c cs =>
    rw [ofBytes_encode_cons, leadsWith, captureCount]
    exact ⟨rfl, rfl⟩

end Expr

/-- The characters of bytes are read by one instruction for each byte. -/
theorem Plan.code_ofChars_ofByte (bs : List UInt8) (pc : Nat) :
    (ofChars (bs.map Latin1.ofByte)).code pc = bs.map Instruction.consume := by
  induction bs generalizing pc with
  | nil => rfl
  | cons b bs ih =>
    rw [List.map_cons, ofChars, code, code, ih, Plain.ofChar, Latin1.byte?_ofByte]
    rfl

namespace Settings

/-- The expression of an escaped text is the literal of its bytes, read as characters. -/
theorem expression_escape {s : Settings} (counts : s.caseSensitive = true)
    (level : 1 ≤ s.effectiveNestLimit) (text : String) :
    s.expression (Latin1.decode (escape text)) =
      .ok (Expr.ofBytes (Utf8.encode ((Utf8.encode text.toList).map Latin1.ofByte))) := by
  have limit : 1 ≤ s.effectiveNestLimit.toNat := UInt32.le_iff_toNat_le.mp level
  have sensitive : s.modes.ignoreCase = false := by rw [modes, counts]; rfl
  obtain ⟨t, parsed, spells⟩ :=
    Reader.writes_escapeChar.parse ((Utf8.encode text.toList).map Latin1.ofByte)
  rw [List.map_id] at spells
  rw [decode_escape, expression_eq_ok_iff]
  refine ⟨t, s.modes, ?_, spells.checkDialect, spells.meaning sensitive⟩
  rw [Tree.parseWithin]
  exact bind_eq_ok_iff.mpr ⟨t, parsed, bind_eq_ok_iff.mpr ⟨(), spells.checkNesting limit, rfl⟩⟩

/-- Escaped text is compiled byte for byte: to the loop that lets a match start anywhere, one
instruction for each byte of the text, and the accepting instruction. It is refused only if these do
not fit in the budget. -/
theorem compile_escape (text : String) (s : Settings) (counts : s.caseSensitive = true)
    (level : 1 ≤ s.effectiveNestLimit) :
    let bytes := Utf8.encode text.toList
    (s.compile (escape text)).result =
      if 16 * (bytes.length + 4) ≤ s.programBudget.toNat then
        .ok ⟨[.fork2 3 1, .consumeAny, .jump 0] ++ bytes.map .consume ++ [.accept],
          16 * (bytes.length + 4), 0⟩
      else .error (.tooLarge s.maxMemory) := by
  intro bytes
  let e := Expr.ofBytes (Utf8.encode (bytes.map Latin1.ofByte))
  obtain ⟨unanchored, none⟩ := Expr.ofBytes_unanchored (bytes.map Latin1.ofByte)
  have start : e.startPlan = .star false (.plain .consumeAny) := by
    rw [Expr.startPlan, unanchored]
    rfl
  have plan : ∀ kept, e.plan kept = .ofChars (bytes.map Latin1.ofByte) :=
    fun kept => Expr.plan_ofBytes kept _
  have code : ∀ kept, e.instructions kept =
      [.fork2 3 1, .consumeAny, .jump 0] ++ bytes.map .consume ++ [.accept] := by
    intro kept
    rw [Expr.instructions, Expr.wholePlan, start, plan, Plan.code, Plan.code_ofChars_ofByte]
    rfl
  have cost : ∀ kept, (e.wholePlan kept).cost + Instruction.baseCost =
      16 * (bytes.length + 4) := by
    intro kept
    rw [Expr.wholePlan, start, plan, Plan.cost, Plan.cost_ofChars, List.length_map]
    simp only [Plan.cost, Plain.instruction, Instruction.cost, Instruction.baseCost]
    omega
  have found : s.expression (Latin1.decode (escape text)) = .ok e :=
    expression_escape counts level text
  rw [result_of_expression found, mapError_program, code, cost, none, ite_self]

/-- The text `é.` has three bytes, one of which is a metacharacter. -/
theorem compile_escape_accent :
    escape "é." = "é\\." ∧
      (Settings.compile {} (escape "é.")).result =
        .ok ⟨[.fork2 3 1, .consumeAny, .jump 0,
          .consume 0xC3, .consume 0xA9, .consume 0x2E, .accept], 112, 0⟩ := by
  refine ⟨by decide, ?_⟩
  rw [compile_escape "é." {} rfl (by decide)]
  decide +kernel

end Settings

end PatternGate
