import Mathlib.Algebra.BigOperators.Group.List.Basic
import Mathlib.Algebra.Group.TypeTags.Basic
import PatternGate.Proofs.Pattern.Escaping
import PatternGate.Proofs.Pattern.Nesting
import PatternGate.Proofs.Program.Outline
import PatternGate.Proofs.Unicode.Folding

/-!
# Patterns of wide code points

A code point beyond `U+00FF` can be written in a pattern by its number, though no byte is that code
point. Where case counts it takes an instruction that matches nothing. Where case is ignored it
stands for its closure under folding, and takes the same instruction with the bytes of the closure.
So the two cases differ in size exactly by the bytes that `Unicode.byteFolds` counts, and
`wideEscapes_case` says under which limits the difference is seen in the verdict.

A pattern of such code points is followed through the engine in three parts. Sequences join literals
that meet, so the memory of a sequence is not read off its items; that it is the sum over them all
the same is `Expr.cost_ofConcat`. Each escape is read as one literal (`WideEscape.writes_text`), and
that makes one level of nesting if there are two or more (`Tree.Spells.levels`).
-/

namespace PatternGate

/-! ## Memory -/

namespace Expr

/-- The memory of an expression, as a view that turns sequences into sums. -/
def weight (kept : Bool) (e : Expr) : Multiplicative Nat := .ofAdd (e.plan kept).cost

/-- The weight of a sequence is the product of the weights of its items, which adds their memory. -/
theorem weight_concat (kept : Bool) (es : List Expr) :
    weight kept (.concat es) = (es.map (weight kept)).prod := by
  rw [weight, plan]
  induction es with
  | nil => rfl
  | cons e es ih =>
    rw [planAll, Plan.cost, ofAdd_add, ih, List.map_cons, List.prod_cons]
    rfl

/-- Weights can be taken item by item. -/
theorem sequential_weight (kept : Bool) : Sequential (weight kept) where
  empty := rfl
  concat := weight_concat kept
  literal a b valid := by
    have decoded : Utf8.decode (a ++ b) = Utf8.decode a ++ Utf8.decode b := by
      have encoded : Utf8.encode (Utf8.decode a) = a := valid
      have apart := Utf8.decode_encode_append (Utf8.decode a) b
      rwa [encoded] at apart
    simp only [weight, plan, Plan.cost_ofChars, decoded, List.length_append, Nat.mul_add, ofAdd_add]

/-- Expressions in a sequence take the memory of each. -/
theorem cost_ofConcat (kept : Bool) {es : List Expr} (text : ∀ e ∈ es, e.Each NodeText) :
    ((ofConcat es).plan kept).cost = (es.map fun e => (e.plan kept).cost).sum := by
  have sum : ∀ es : List Expr, (es.map (weight kept)).prod =
      .ofAdd (es.map fun e => (e.plan kept).cost).sum := by
    intro es
    induction es with
    | nil => rfl
    | cons e es ih =>
      rw [List.map_cons, List.prod_cons, ih, List.map_cons, List.sum_cons, ofAdd_add]
      rfl
  have product := (sequential_weight kept).ofConcat text
  rw [sum] at product
  exact product

/-- A sequence leads with the start of the text only if one of its items does. -/
theorem leadsWith_ofConcat {es : List Expr} (text : ∀ e ∈ es, e.Each NodeText)
    (none : ∀ e ∈ es, e.leadsWith .start = false) : (ofConcat es).leadsWith .start = false := by
  have leads : ∀ es : List Expr, (∀ e ∈ es, e.leadsWith .start = false) →
      (es.map outline).prod.leads = false := by
    intro es none
    induction es with
    | nil => rfl
    | cons e es ih =>
      rw [List.forall_mem_cons] at none
      have head : e.outline.leads = false := none.1
      rw [List.map_cons, List.prod_cons, Outline.mul_def, head, ih none.2, Bool.and_false]
      rfl
  have product := congrArg Outline.leads (sequential_outline.ofConcat text)
  rw [leads es none] at product
  exact product

/-- A set of characters starts with no assertion. -/
theorem leadsWith_ofChars (l : Look) (set : RangeSet) : (ofChars set).leadsWith l = false := by
  unfold ofChars
  split
  · simp [fail, leadsWith]
  · split
    · split <;> simp [ofScalar, leadsWith]
    · simp [leadsWith]

/-- A character costs one instruction, however many bytes it has. -/
theorem cost_ofScalar (kept : Bool) (n : Nat) : ((ofScalar n).plan kept).cost = 16 := by
  rw [ofScalar, plan, Utf8.decode_encode, Plan.cost_ofChars]
  rfl

/-- A class that holds no byte takes one instruction without ranges. -/
theorem cost_ofChars_of_wide (kept : Bool) {set : RangeSet} (wide : set.Wide) :
    ((ofChars set).plan kept).cost = 16 := by
  unfold ofChars
  split
  · rfl
  · split
    · split
      · exact cost_ofScalar kept _
      · rw [plan, wide.clip_eq_nil]
        rfl
    · rw [plan, wide.clip_eq_nil]
      rfl

end Expr

namespace Modes

/-- A literal does not start with an anchor, in any mode. -/
theorem leadsWith_literal (m : Modes) (c : Char) : (m.literal c).leadsWith .start = false := by
  unfold literal
  split
  · exact Expr.leadsWith_ofChars _ _
  · rw [Expr.ofScalar, Expr.leadsWith]

/-- The memory of a wide literal: one instruction, with a range for every byte that it folds with if
case is ignored. -/
theorem cost_literal_of_wide (m : Modes) (kept : Bool) {c : Char} (wide : 0xFF < c.toNat) :
    ((m.literal c).plan kept).cost =
      16 + if m.ignoreCase then 2 * Unicode.byteFolds c.toNat else 0 := by
  unfold literal
  cases m.ignoreCase with
  | false => exact Expr.cost_ofScalar kept _
  | true =>
    rw [Bool.true_and, if_pos rfl]
    by_cases alone : Unicode.byteFolds c.toNat = 0
    · rw [alone]
      split
      · exact Expr.cost_ofChars_of_wide kept (Unicode.wide_foldClosure wide alone)
      · exact Expr.cost_ofScalar kept _
    · have listed := (Unicode.byteFolds_eq_zero_or c.toNat).resolve_left alone
      rw [if_pos (Unicode.folds_of_counted alone), Unicode.foldClosure_single,
        Unicode.filter_contains_of_counted alone]
      generalize Unicode.byteFolds c.toNat = count at listed
      generalize c.toNat = n at listed
      have checked : ∀ entry ∈ Unicode.byteFoldTable, ∀ kept,
          ((Expr.ofChars ((Unicode.byteOrbits.filter (·.contains entry.1)).flatten.foldl
            (fun acc m => if m = entry.1 then acc else RangeSet.insert ⟨m, m⟩ acc)
            [⟨entry.1, entry.1⟩])).plan kept).cost = 16 + 2 * entry.2 := by
        decide +kernel
      exact checked _ listed kept

end Modes

/-! ## Reading -/

/-- The longest run of characters that satisfy `p` ends before one that does not. -/
theorem Cursor.takeWhile_append {p : Char → Bool} {cs : List Char} (all : ∀ c ∈ cs, p c = true)
    {d : Char} (stops : p d = false) (rest : List Char) (pos : Position) :
    takeWhile p false ⟨cs ++ d :: rest, pos⟩ = (cs, ⟨d :: rest, cs.foldl Position.after pos⟩) := by
  rw [takeWhile]
  dsimp only
  -- A run is cut off by its fuel only after all characters.
  generalize enough : (cs ++ d :: rest).length = fuel
  induction cs generalizing pos fuel with
  | nil =>
    subst enough
    rw [List.nil_append, List.length_cons, takeUpTo]
    dsimp only
    rw [stops]
    rfl
  | cons c cs ih =>
    subst enough
    obtain ⟨first, others⟩ := List.forall_mem_cons.mp all
    rw [List.cons_append, List.length_cons, takeUpTo]
    dsimp only
    have later : takeUpTo p false (cs ++ d :: rest).length
        (next false ⟨c :: (cs ++ d :: rest), pos⟩) =
        (cs, ⟨d :: rest, cs.foldl Position.after (pos.after c)⟩) := ih others _ _ rfl
    rw [if_pos first, later]
    rfl

/-- A code point beyond the bytes, written by its number between braces. -/
structure WideEscape where
  digits : List Char
  hex : ∀ d ∈ digits, isHexDigit d = true
  scalar : (digitsValue 16 digits).isValidChar
  wide : 0xFF < digitsValue 16 digits

namespace WideEscape

/-- The code point that is written. -/
def value (w : WideEscape) : Nat := digitsValue 16 w.digits

/-- The character that is written. -/
def char (w : WideEscape) : Char := Char.ofNat w.value

/-- How the code point is written. -/
def text (w : WideEscape) : List Char := '\\' :: 'x' :: '{' :: (w.digits ++ ['}'])

/-- The pattern that is made of the given escapes. -/
def pattern (ws : List WideEscape) : String := String.ofList (ws.flatMap text)

/-- A wide escape names the character of its value. -/
theorem toNat_char (w : WideEscape) : w.char.toNat = w.value := by
  have valid : w.value.isValidChar := w.scalar
  rw [char, Char.ofNat, dif_pos valid]
  rfl

/-- The digits in braces are read as the character that they name. -/
theorem readBracedHex_text (w : WideEscape) (rest : List Char) (pos : Position) :
    ∃ stop, readBracedHex false ⟨'{' :: (w.digits ++ '}' :: rest), pos⟩ =
      .ok (w.char, ⟨rest, stop⟩) := by
  have written : w.digits.isEmpty = false := by
    cases none : w.digits with
    | nil =>
      have wide := w.wide
      rw [none] at wide
      cases wide
    | cons => rfl
  have value : scalar? (digitsValue 16 w.digits) = some w.char := if_pos w.scalar
  have taken := Cursor.takeWhile_append w.hex (d := '}') (by decide) rest (pos.after '{')
  unfold readBracedHex
  simp only [Cursor.next, Cursor.bump, Cursor.skipBlank, Bool.false_eq_true, if_false, taken, ne_eq,
    not_true_eq_false, written, value]
  exact ⟨_, rfl⟩

/-- A wide escape is read as the literal of its character. -/
theorem readPrimitive_text (w : WideEscape) (rest : List Char) (pos : Position) :
    ∃ span stop, readPrimitive false '\\' ⟨w.text ++ rest, pos⟩ =
      .ok (.literal span w.char, ⟨rest, stop⟩) := by
  obtain ⟨stop, hex⟩ := w.readBracedHex_text rest ((pos.after '\\').after 'x')
  have written : w.text ++ rest = '\\' :: 'x' :: '{' :: (w.digits ++ '}' :: rest) := by simp [text]
  refine ⟨⟨pos, stop⟩, stop, ?_⟩
  show readEscape false ⟨w.text ++ rest, pos⟩ = _
  rw [written]
  exact bind_eq_ok_iff.mpr ⟨_, hex, rfl⟩

/-- Wide escapes are written in a way that the reader takes back. -/
theorem writes_text : Reader.Writes text char where
  some _ := List.cons_ne_nil _ _
  step w r rest visible next fuel := by
    obtain ⟨⟨chars, pos⟩, blank, current, stack, captures, names⟩ := r
    dsimp only at visible next
    subst visible next
    obtain ⟨span, stop, read⟩ := w.readPrimitive_text rest pos
    have stepped := Reader.step_of_ordinary (show '\\' ∉ structureCharacters by decide)
      ⟨⟨w.text ++ rest, pos⟩, false, current, stack, captures, names⟩
    simp only [read] at stepped
    exact ⟨stop, _, ⟨span, rfl⟩, Reader.readAll_of_step rfl rfl stepped fuel⟩

/-- Hexadecimal digits are ASCII. -/
theorem lt_of_isHexDigit {c : Char} (hex : isHexDigit c = true) : c.toNat < 0x80 := by
  simp only [isHexDigit, Char.isDigit, Bool.or_eq_true, Bool.and_eq_true, decide_eq_true_eq,
    Char.le_def, UInt32.le_iff_toNat_le] at hex
  have value : c.val.toNat = c.toNat := rfl
  have bounds : '9'.val.toNat = 57 ∧ 'f'.val.toNat = 102 ∧ 'F'.val.toNat = 70 := by decide
  omega

/-- Escapes are ASCII, so that their bytes are their characters. -/
theorem decode_pattern (ws : List WideEscape) : Latin1.decode (pattern ws) = pattern ws := by
  have ascii : ∀ c ∈ ws.flatMap text, c.toNat < 0x80 := by
    intro c mem
    obtain ⟨w, -, own⟩ := List.mem_flatMap.mp mem
    simp only [text, List.mem_cons, List.mem_append, List.not_mem_nil, or_false] at own
    obtain rfl | rfl | rfl | digit | rfl := own
    case inr.inr.inr.inl => exact lt_of_isHexDigit (w.hex c digit)
    all_goals decide
  rw [Latin1.decode, pattern, String.toList_ofList, Latin1.map_ofByte_encode ascii]

end WideEscape

/-- Literals nest one level deep if there is more than one. -/
theorem Tree.Spells.levels {t : Tree} {cs : List Char} (spells : t.Spells cs) :
    t.levels = if 2 ≤ cs.length then 1 else 0 := by
  cases spells with
  | empty span => rfl
  | literal span c => rfl
  | concat span several literals =>
    rw [if_pos several, Tree.levels]
    clear several
    induction literals with
    | nil => rfl
    | cons literal _ ih =>
      obtain ⟨span, rfl⟩ := literal
      rw [Tree.levelsAll, Tree.levels, Nat.zero_max]
      exact ih

/-! ## The verdict -/

namespace WideEscape

/-- The memory of a pattern of wide escapes: four instructions around one for each escape, which
grow by the bytes that the code points fold with if case is ignored. -/
def memory (ws : List WideEscape) (caseSensitive : Bool) : Nat :=
  16 * (ws.length + 4) +
    if caseSensitive then 0 else 2 * (ws.map fun w => Unicode.byteFolds w.value).sum

/-- What the escapes mean, in sequence. -/
def meanings (m : Modes) (ws : List WideEscape) : List Expr := ws.map fun w => m.literal w.char

/-- The program of a text of wide escapes has the memory that is counted for them. -/
theorem cost_wholePlan (m : Modes) (kept : Bool) (ws : List WideEscape) :
    ((Expr.ofConcat (meanings m ws)).wholePlan kept).cost + Instruction.baseCost =
      memory ws (!m.ignoreCase) := by
  have text : ∀ e ∈ meanings m ws, e.Each Expr.NodeText := by
    refine List.forall_mem_map.mpr fun w _ d node => ?_
    exact ((patternStable_text True).each_literal m w.char d node).1
  have anywhere : (Expr.ofConcat (meanings m ws)).leadsWith .start = false :=
    Expr.leadsWith_ofConcat text (List.forall_mem_map.mpr fun w _ => m.leadsWith_literal w.char)
  have each : (meanings m ws).map (fun e => (e.plan kept).cost) =
      ws.map fun w => 16 + if m.ignoreCase then 2 * Unicode.byteFolds w.value else 0 := by
    rw [meanings, List.map_map]
    refine List.map_congr_left fun w _ => ?_
    have wide : 0xFF < w.char.toNat := by rw [toNat_char]; exact w.wide
    rw [Function.comp_apply, m.cost_literal_of_wide kept wide, toNat_char]
  have start : (Expr.ofConcat (meanings m ws)).startPlan = .star false (.plain .consumeAny) := by
    rw [Expr.startPlan, anywhere]
    rfl
  have loop : (Plan.star false (.plain .consumeAny)).cost + Instruction.baseCost = 64 := rfl
  have sum : ∀ ws : List WideEscape,
      (ws.map fun w => 16 + if m.ignoreCase then 2 * Unicode.byteFolds w.value else 0).sum + 64 =
        memory ws (!m.ignoreCase) := by
    intro ws
    induction ws with
    | nil => cases m.ignoreCase <;> rfl
    | cons w ws ih =>
      rw [List.map_cons, List.sum_cons, Nat.add_assoc, ih, memory, memory]
      cases m.ignoreCase <;>
        simp only [Bool.not_true, Bool.not_false, Bool.false_eq_true, if_true, if_false,
          List.map_cons, List.sum_cons, List.length_cons] <;> omega
  rw [Expr.wholePlan, start, Plan.cost, Expr.cost_ofConcat kept text, each, ← sum]
  omega

/-- Escapes are read as the literals of their code points. -/
theorem parse_pattern (ws : List WideEscape) :
    ∃ t, Tree.parse (pattern ws) = .ok t ∧ t.checkDialect = .ok () ∧
      t.levels = (if 2 ≤ ws.length then 1 else 0) ∧
      ∀ m, t.meaning m = .ok (Expr.ofConcat (meanings m ws), m) := by
  obtain ⟨t, parsed, spells⟩ := writes_text.parse ws
  refine ⟨t, parsed, spells.checkDialect, ?_, fun m => ?_⟩
  · rw [spells.levels, List.length_map]
  · rw [spells.meaning_literals, List.map_map]
    rfl

end WideEscape

namespace ValidatorLimits

/-- The bound on nesting leaves no level to a sequence. -/
theorem toNat_effectiveNestLimit_eq_zero_iff (l : ValidatorLimits) (r : Request) :
    (l.settings r).effectiveNestLimit.toNat = 0 ↔ l.nestLimit = 0 := by
  have capped := (l.settings r).effectiveNestLimit_withNestLimit l.nestLimit
  have own : (l.settings r).withNestLimit l.nestLimit = l.settings r := rfl
  rw [own] at capped
  rw [capped, ← UInt32.toNat_inj, UInt32.toNat_zero]
  omega

/-- The verdict on a pattern of wide escapes: it is refused for its form only if it is a sequence
and no level is allowed, and for its size if it takes more than the budget. -/
theorem verdict_wideEscapes (l : ValidatorLimits) (ws : List WideEscape)
    (caseSensitive requireCapturing : Bool) :
    (l.validate ⟨WideEscape.pattern ws, caseSensitive, requireCapturing⟩).verdict =
      if l.nestLimit = 0 ∧ 2 ≤ ws.length then .unsupported .syntaxError
      else if WideEscape.memory ws caseSensitive ≤ 2 * l.maxMemory.toNat / 3 then .supported
      else .unsupported .memoryLimitExceeded := by
  let r : Request := ⟨WideEscape.pattern ws, caseSensitive, requireCapturing⟩
  obtain ⟨t, parsed, accepted, levels, meant⟩ := WideEscape.parse_pattern ws
  have decoded : Latin1.decode r.pattern = WideEscape.pattern ws := WideEscape.decode_pattern ws
  have limit := l.toNat_effectiveNestLimit_eq_zero_iff r
  by_cases deep : l.nestLimit = 0 ∧ 2 ≤ ws.length
  · rw [if_pos deep]
    refine verdict_eq_syntaxError_iff.mpr ?_
    cases found : (l.settings r).expression (Latin1.decode r.pattern) with
    | error e => exact ⟨e, rfl⟩
    | ok e =>
      obtain ⟨t', m, read, -⟩ := Settings.expression_eq_ok_iff.mp found
      rw [decoded] at read
      obtain ⟨again, within⟩ := Tree.parseWithin_eq_ok_iff.mp read
      cases parsed.symm.trans again
      rw [levels, if_pos deep.2, limit.mpr deep.1] at within
      cases within
  · have within : t.levels ≤ (l.settings r).effectiveNestLimit.toNat := by
      rw [levels]
      split
      next several =>
        have some := mt limit.mp fun none => deep ⟨none, several⟩
        omega
      next => exact Nat.zero_le _
    have found : (l.settings r).expression (Latin1.decode r.pattern) =
        .ok (Expr.ofConcat (WideEscape.meanings (l.settings r).modes ws)) := by
      rw [decoded]
      exact Settings.expression_eq_ok_iff.mpr
        ⟨t, _, Tree.parseWithin_eq_ok_iff.mpr ⟨parsed, within⟩, accepted, meant _⟩
    have counts : (!(l.settings r).modes.ignoreCase) = caseSensitive := Bool.not_not caseSensitive
    have budget : (l.settings r).programBudget.toNat = 2 * l.maxMemory.toNat / 3 :=
      (l.settings r).toNat_programBudget
    rw [if_neg deep, validate]
    dsimp only
    rw [Settings.result_of_expression found, Settings.mapError_program, WideEscape.cost_wholePlan,
      counts, budget]
    split <;> rfl

end ValidatorLimits

/-- Where no character folds to a byte, ignoring case costs nothing. -/
theorem WideEscape.memory_eq_of_alone {ws : List WideEscape}
    (alone : ∀ w ∈ ws, Unicode.byteFolds w.value = 0) : memory ws false = memory ws true := by
  have none : (ws.map fun w => Unicode.byteFolds w.value).sum = 0 :=
    List.sum_eq_zero (List.forall_mem_map.mpr alone)
  rw [memory, memory, none]
  rfl

/-- Whether case counts has no say in the verdict on a pattern of wide escapes, except where it is
the bytes that fold with its code points that take the pattern over the budget. It has none under
any limits if no code point of the pattern is one of the seven that bytes fold with. -/
theorem wideEscapes_case (l : ValidatorLimits) (ws : List WideEscape) (requireCapturing : Bool) :
    let verdict (caseSensitive : Bool) : Verdict :=
      (l.validate ⟨WideEscape.pattern ws, caseSensitive, requireCapturing⟩).verdict
    let budget := 2 * l.maxMemory.toNat / 3
    (∀ caseSensitive, verdict caseSensitive =
      if l.nestLimit = 0 ∧ 2 ≤ ws.length then .unsupported .syntaxError
      else if WideEscape.memory ws caseSensitive ≤ budget then .supported
      else .unsupported .memoryLimitExceeded) ∧
    (verdict true = verdict false ↔
      (l.nestLimit = 0 ∧ 2 ≤ ws.length) ∨ budget < WideEscape.memory ws true ∨
        WideEscape.memory ws false ≤ budget) ∧
    ((∀ w ∈ ws, Unicode.byteFolds w.value = 0) → verdict true = verdict false) := by
  intro verdict budget
  have law : ∀ caseSensitive, verdict caseSensitive =
      if l.nestLimit = 0 ∧ 2 ≤ ws.length then .unsupported .syntaxError
      else if WideEscape.memory ws caseSensitive ≤ budget then .supported
      else .unsupported .memoryLimitExceeded :=
    fun caseSensitive => l.verdict_wideEscapes ws caseSensitive requireCapturing
  have more : WideEscape.memory ws true ≤ WideEscape.memory ws false := Nat.le_add_right _ _
  refine ⟨law, ?_, fun alone => ?_⟩
  · rw [law, law]
    by_cases deep : l.nestLimit = 0 ∧ 2 ≤ ws.length
    · rw [if_pos deep, if_pos deep]
      exact iff_of_true rfl (.inl deep)
    rw [if_neg deep, if_neg deep, or_iff_right deep]
    obtain small | fits := Nat.lt_or_ge budget (WideEscape.memory ws true)
    · rw [if_neg (Nat.not_le_of_gt small),
        if_neg (Nat.not_le_of_gt (Nat.lt_of_lt_of_le small more))]
      exact iff_of_true rfl (.inl small)
    rw [if_pos fits, or_iff_right (Nat.not_lt_of_ge fits)]
    by_cases folded : WideEscape.memory ws false ≤ budget
    · rw [if_pos folded]
      exact iff_of_true rfl folded
    · rw [if_neg folded]
      exact iff_of_false nofun folded
  · rw [law, law, WideEscape.memory_eq_of_alone alone]

/-- No byte folds with the letter A with macron, nor with the smiling face. Two thirds of 144 bytes
are just enough for both, whether or not case counts. -/
theorem wideEscapes_case_macron :
    let l : ValidatorLimits := { maxMemory := 144 }
    let ws : List WideEscape := [⟨['1', '0', '0'], List.all_eq_true.mp rfl, by decide, by decide⟩,
      ⟨['2', '6', '3', 'a'], List.all_eq_true.mp rfl, by decide, by decide⟩]
    (∀ w ∈ ws, Unicode.byteFolds w.value = 0) ∧ WideEscape.memory ws false = 96 ∧
      (l.validate ⟨WideEscape.pattern ws, true, false⟩).verdict =
        (l.validate ⟨WideEscape.pattern ws, false, false⟩).verdict :=
  ⟨by decide, by decide, (wideEscapes_case _ _ false).2.2 (by decide)⟩

/-- The Kelvin sign. -/
def WideEscape.kelvin : WideEscape where
  digits := ['2', '1', '2', 'A']
  hex := List.all_eq_true.mp rfl
  scalar := by decide
  wide := by decide

/-- With 120 bytes of memory the Kelvin sign is supported where case counts, and too large where it
does not: both letters K come in. -/
theorem wideEscapes_case_kelvin :
    WideEscape.pattern [.kelvin] = "\\x\x7b212A\x7d" ∧
      ¬ ∀ (l : ValidatorLimits) (ws : List WideEscape) (requireCapturing : Bool),
        (l.validate ⟨WideEscape.pattern ws, true, requireCapturing⟩).verdict =
          (l.validate ⟨WideEscape.pattern ws, false, requireCapturing⟩).verdict := by
  refine ⟨by decide, fun same => ?_⟩
  have alike := same { maxMemory := 120 } [.kelvin] false
  rw [ValidatorLimits.verdict_wideEscapes, ValidatorLimits.verdict_wideEscapes] at alike
  revert alike
  decide

end PatternGate
