import PatternGate.Proofs.Pattern.Depth
import PatternGate.Proofs.Pattern.Escaping

/-!
# Patterns of the greatest height

The patterns `tower` reach the height that `heightBound` allows: every third level of them is an
alternation of two sequences that start alike, with the rest of the tower in a group inside the
first. They are followed through the reader, item by item (`Reader.reads_tower`), and through their
meaning, where the common start is lifted each time (`Tree.Tower.meaning`).

So the bound cannot be improved, and `Settings.height_expression` draws the line: heights stay
within two of the bound on nesting exactly if that is at most four.
-/

namespace PatternGate

/-! ## Towers -/

/-- The pattern of so many levels whose expression is as high as can be. -/
def tower : Nat → List Char
  | 0 => ['.']
  | 1 => ['(', '.', ')']
  | 2 => ['.', '^', '$', '|', '.', '$', '^']
  | n + 3 => '.' :: '^' :: '(' :: (tower n ++ [')', '|', '.', '$', '^'])

/-- What such a pattern is read as. -/
inductive Tree.Tower : Nat → Tree → Prop
  | dot {s : Span} : Tower 0 (.dot s)
  | group {s s₁ : Span} {i : Nat} : Tower 1 (.group s (.capture i) (.dot s₁))
  | choice {s s₁ s₂ s₃ s₄ s₅ s₆ s₇ s₈ : Span} :
      Tower 2 (.alternation s [
        .concat s₁ [.dot s₂, .assertion s₃ .startLine, .assertion s₄ .endLine],
        .concat s₅ [.dot s₆, .assertion s₇ .endLine, .assertion s₈ .startLine]])
  | nested {n : Nat} {t : Tree} {s s₁ s₂ s₃ s₄ s₅ s₆ s₇ s₈ : Span} {i : Nat} (inner : Tower n t) :
      Tower (n + 3) (.alternation s [
        .concat s₁ [.dot s₂, .assertion s₃ .startLine, .group s₄ (.capture i) t],
        .concat s₅ [.dot s₆, .assertion s₇ .endLine, .assertion s₈ .startLine]])

namespace Reader

/-- So many items are read on the way from one reader to another. -/
def Runs (k : Nat) (r r' : Reader) : Prop := ∀ fuel, readAll (fuel + k) r = readAll fuel r'

/-- Runs of the reader follow one another. -/
theorem Runs.trans {j k : Nat} {r r' r'' : Reader} (first : Runs j r r') (second : Runs k r' r'') :
    Runs (j + k) r r'' := by
  intro fuel
  rw [← second fuel, ← first (fuel + k), Nat.add_assoc, Nat.add_comm k j]

/-- One step is a run, where no blank text is to be passed over first. -/
theorem Runs.step {r r' : Reader} (visible : r.blank = false) {ch : Char} {rest : List Char}
    (next : r.cursor.rest = ch :: rest) (stepped : r.step ch = .ok r') : Runs 1 r r' :=
  fun fuel => readAll_of_step visible next stepped fuel

/-- A group can be closed if what is open inside it has a tree. -/
theorem closeGroup_of_inner {r : Reader} {body : Tree} {outer : Sequence} {opened : Span}
    {kind : GroupKind} {blank : Bool} {rest : List Frame}
    (inner : r.Inner body (.group outer opened kind blank :: rest)) :
    r.closeGroup = .ok (r.finishGroup body outer opened kind blank rest) := by
  cases inner with
  | sequence top =>
    unfold closeGroup
    rw [top]
  | choice top =>
    unfold closeGroup
    rw [top]

/-- The reader ends with the tree of all that is open. -/
theorem finish_of_inner {r : Reader} {t : Tree} (inner : r.Inner t []) : r.finish = .ok t := by
  cases inner with
  | sequence top =>
    unfold finish
    rw [top]
  | choice top =>
    unfold finish
    rw [top]

variable {rest : List Char} {pos : Position} {current : Sequence} {stack : List Frame}
  {captures : Nat} {names : List (String × Span)}

/-- A dot is one step, and one item more. -/
theorem runs_dot : ∃ p s,
    Runs 1 ⟨⟨'.' :: rest, pos⟩, false, current, stack, captures, names⟩
      ⟨⟨rest, p⟩, false, current.push (.dot s), stack, captures, names⟩ :=
  ⟨_, _, .step rfl rfl rfl⟩

/-- An assertion is one step, and one item more. -/
theorem runs_assertion {ch : Char} {kind : AssertionKind}
    (sign : ch = '^' ∧ kind = .startLine ∨ ch = '$' ∧ kind = .endLine) : ∃ p s,
    Runs 1 ⟨⟨ch :: rest, pos⟩, false, current, stack, captures, names⟩
      ⟨⟨rest, p⟩, false, current.push (.assertion s kind), stack, captures, names⟩ := by
  rcases sign with ⟨rfl, rfl⟩ | ⟨rfl, rfl⟩
  · exact ⟨_, _, .step rfl rfl rfl⟩
  · exact ⟨_, _, .step rfl rfl rfl⟩

/-- A tower starts with a character that says nothing about the group around it. -/
theorem tower_eq_cons (n : Nat) : ∃ ch cs, tower n = ch :: cs ∧ (ch = '.' ∨ ch = '(') := by
  match n with
  | 0 => exact ⟨_, _, rfl, .inl rfl⟩
  | 1 => exact ⟨_, _, rfl, .inr rfl⟩
  | 2 => exact ⟨_, _, rfl, .inl rfl⟩
  | n + 3 => exact ⟨_, _, rfl, .inl rfl⟩

/-- A parenthesis before a tower opens a capture. -/
theorem runs_open (n : Nat) (room : captures < countMax) : ∃ p s,
    Runs 1 ⟨⟨'(' :: (tower n ++ rest), pos⟩, false, current, stack, captures, names⟩
      ⟨⟨tower n ++ rest, p⟩, false, .empty p,
        .group current s (.capture (captures + 1)) false :: stack, captures + 1, names⟩ := by
  obtain ⟨ch, cs, starts, sign⟩ := tower_eq_cons n
  have index (opened : Span) : nextCapture
      ⟨⟨'(' :: (tower n ++ rest), pos⟩, false, current, stack, captures, names⟩ opened =
        .ok (captures + 1) := if_pos room
  have head : readGroupHead false ⟨'(' :: (tower n ++ rest), pos⟩ =
      .ok (.capture, ⟨tower n ++ rest, pos.after '('⟩) := by
    rw [starts]
    rcases sign with rfl | rfl <;> rfl
  refine ⟨pos.after '(', ⟨pos, pos.after '('⟩, .step rfl rfl ?_⟩
  show readGroup _ = _
  unfold readGroup
  dsimp only
  rw [head]
  show (nextCapture _ _ >>= _) = _
  rw [index]
  rfl

/-- A parenthesis closes the group around what was read. -/
theorem runs_close {r : Reader} {body : Tree} {outer : Sequence} {opened : Span}
    {kind : GroupKind} {around : List Frame} (visible : r.blank = false)
    (next : r.cursor.rest = ')' :: rest)
    (inner : r.Inner body (.group outer opened kind false :: around)) : ∃ p s,
    Runs 1 r ⟨⟨rest, p⟩, false, outer.push (.group s kind body), around, r.captures, r.names⟩ := by
  obtain ⟨⟨chars, pos⟩, blank, current, stack, captures, names⟩ := r
  dsimp only at next
  subst next
  exact ⟨_, _, .step visible rfl (closeGroup_of_inner inner)⟩

/-- The second branch of a tower ends an alternation that was not open before. -/
theorem runs_second (apart : ∀ start branches rest, stack ≠ .alternation start branches :: rest) :
    ∃ r p s s₁ s₂ s₃ s₄,
      Runs 4
        ⟨⟨'|' :: '.' :: '$' :: '^' :: rest, pos⟩, false, current, stack, captures, names⟩ r ∧
      r.blank = false ∧ r.cursor.rest = rest ∧ r.captures = captures ∧
      r.Inner (.alternation s [current.toTree p,
        .concat s₁ [.dot s₂, .assertion s₃ .endLine, .assertion s₄ .startLine]]) stack := by
  have opened : Runs 1
      ⟨⟨'|' :: '.' :: '$' :: '^' :: rest, pos⟩, false, current, stack, captures, names⟩
      ⟨⟨'.' :: '$' :: '^' :: rest, pos.after '|'⟩, false, .empty (pos.after '|'),
        .alternation current.start [current.toTree pos] :: stack, captures, names⟩ := by
    refine .step rfl rfl ?_
    show Except.ok (branch _) = _
    unfold branch
    cases stack with
    | nil => rfl
    | cons frame stack =>
      cases frame with
      | alternation start branches => exact absurd rfl (apart start branches stack)
      | group => rfl
  obtain ⟨p₁, s₁, dot⟩ := runs_dot
  obtain ⟨p₂, s₂, stop⟩ := runs_assertion (.inr ⟨rfl, rfl⟩)
  obtain ⟨p₃, s₃, start⟩ := runs_assertion (.inl ⟨rfl, rfl⟩)
  have inner := Inner.choice (r := ⟨⟨rest, p₃⟩, false,
    (((Sequence.empty (pos.after '|')).push (.dot s₁)).push (.assertion s₂ .endLine)).push
      (.assertion s₃ .startLine),
    .alternation current.start [current.toTree pos] :: stack, captures, names⟩) rfl
  have run := ((opened.trans dot).trans stop).trans start
  exact ⟨_, pos, _, _, s₁, s₂, s₃, run, rfl, rfl, rfl, inner⟩

/-- A tower is read item by item, wherever no alternation is open and there are captures left. -/
def ReadsTower (n : Nat) : Prop :=
  ∀ (rest : List Char) (pos start : Position) (stack : List Frame) (captures : Nat)
    (names : List (String × Span)),
    (∀ start branches rest, stack ≠ .alternation start branches :: rest) →
    captures + n < countMax →
    ∃ r t, Runs (tower n).length
        ⟨⟨tower n ++ rest, pos⟩, false, .empty start, stack, captures, names⟩ r ∧
      r.blank = false ∧ r.cursor.rest = rest ∧ t.Tower n ∧ r.Inner t stack

/-- A tower in parentheses is a group. -/
theorem runs_group {n : Nat} (reads : ReadsTower n) (room : captures + n + 1 < countMax) :
    ∃ p s i t captures' names', t.Tower n ∧
      Runs (1 + (tower n).length + 1)
        ⟨⟨'(' :: (tower n ++ ')' :: rest), pos⟩, false, current, stack, captures, names⟩
        ⟨⟨rest, p⟩, false, current.push (.group s (.capture i) t), stack, captures', names'⟩ := by
  have few : captures < countMax := by omega
  obtain ⟨p, s, opened⟩ := runs_open n few
  obtain ⟨r, t, body, visible, left, towers, inner⟩ :=
    reads (')' :: rest) p p (.group current s (.capture (captures + 1)) false :: stack)
      (captures + 1) names (fun _ _ _ same => by cases same) (by omega)
  obtain ⟨p', s', closed⟩ := runs_close visible left inner
  exact ⟨p', s', _, t, _, _, towers, (opened.trans body).trans closed⟩

/-- The tower without storeys is a dot, and read in one step. -/
theorem reads_tower_zero : ReadsTower 0 := by
  intro rest pos start stack captures names _ _
  obtain ⟨p, s, dot⟩ := runs_dot
  exact ⟨_, _, dot, rfl, rfl, .dot, .sequence rfl⟩

/-- Every tower is read. Three storeys less are the tower inside its one group, so the induction
goes down by three. -/
theorem reads_tower (n : Nat) : ReadsTower n := by
  induction n using tower.induct with
  | case1 => exact reads_tower_zero
  | case2 =>
    intro rest pos start stack captures names _ room
    obtain ⟨p, s, i, t, captures', names', towers, group⟩ := runs_group reads_tower_zero room
    cases towers
    exact ⟨_, _, group, rfl, rfl, .group, .sequence rfl⟩
  | case3 =>
    intro rest pos start stack captures names apart _
    obtain ⟨p, s, dot⟩ := runs_dot
    obtain ⟨p₁, s₁, first⟩ := runs_assertion (.inl ⟨rfl, rfl⟩)
    obtain ⟨p₂, s₂, last⟩ := runs_assertion (.inr ⟨rfl, rfl⟩)
    obtain ⟨r, p₃, _, _, _, _, _, second, visible, left, -, inner⟩ := runs_second apart
    exact ⟨r, _, ((dot.trans first).trans last).trans second, visible, left, .choice, inner⟩
  | case4 n ih =>
    intro rest pos start stack captures names apart room
    have written : tower (n + 3) ++ rest =
        '.' :: '^' :: '(' :: (tower n ++ (')' :: '|' :: '.' :: '$' :: '^' :: rest)) := by
      rw [tower]
      simp only [List.cons_append, List.append_assoc, List.nil_append]
    have length : (tower (n + 3)).length = 1 + 1 + (1 + (tower n).length + 1) + 4 := by
      rw [tower]
      simp only [List.length_cons, List.length_append, List.length_nil]
      omega
    obtain ⟨p, s, dot⟩ := runs_dot
    obtain ⟨p₁, s₁, sign⟩ := runs_assertion (.inl ⟨rfl, rfl⟩)
    have few : captures + n + 1 < countMax := by omega
    obtain ⟨p₂, s₂, i, t, captures', names', towers, group⟩ := runs_group ih few
    obtain ⟨r, p₃, _, _, _, _, _, second, visible, left, -, inner⟩ := runs_second apart
    rw [written, length]
    exact ⟨r, _, ((dot.trans sign).trans group).trans second, visible, left, .nested towers, inner⟩

end Reader

namespace Tree

/-- A tower is a pattern, as long as its groups can be numbered. -/
theorem parse_tower {n : Nat} (room : n < countMax) :
    ∃ t, Tree.parse (String.ofList (tower n)) = .ok t ∧ t.Tower n := by
  have few : 0 + n < countMax := by omega
  obtain ⟨r, t, run, visible, left, towers, inner⟩ :=
    Reader.reads_tower n [] .start .start [] 0 [] (fun _ _ _ same => by cases same) few
  refine ⟨t, ?_, towers⟩
  have text : Reader.ofString (String.ofList (tower n)) =
      ⟨⟨tower n ++ [], .start⟩, false, .empty .start, [], 0, []⟩ := by
    rw [Reader.ofString, Cursor.ofString, String.toList_ofList, List.append_nil]
  have skipped : r.cursor.skipBlank r.blank = r.cursor := by
    rw [visible]
    rfl
  rw [Tree.parse, String.toList_ofList, text, Nat.add_comm, run 1, Reader.readAll, skipped]
  simp only [left]
  exact Reader.finish_of_inner inner

/-- Trees that leave the modes as they are have their meanings side by side. -/
theorem meanings_of_forall₂ {m : Modes} {ts : List Tree} {es : List Expr}
    (each : List.Forall₂ (fun t e => t.meaning m = .ok (e, m)) ts es) :
    meanings ts m = .ok (es, m) := by
  induction each with
  | nil => rfl
  | cons first _ ih =>
    exact meanings_cons_iff.mpr ⟨_, m, _, first, ih, rfl⟩

/-- A sequence means the sequence of what its items mean, if none of them changes modes. -/
theorem meaning_concat {m : Modes} {ts : List Tree} {es : List Expr} (span : Span)
    (each : List.Forall₂ (fun t e => t.meaning m = .ok (e, m)) ts es) :
    (Tree.concat span ts).meaning m = .ok (Expr.ofConcat es, m) :=
  meaning_concat_iff.mpr ⟨es, meanings_of_forall₂ each, rfl⟩

/-- An alternation means the alternation of what its branches mean, if none of them changes modes.
-/
theorem meaning_alternation {m : Modes} {ts : List Tree} {es : List Expr} (span : Span)
    (each : List.Forall₂ (fun t e => t.meaning m = .ok (e, m)) ts es) :
    (Tree.alternation span ts).meaning m = .ok (Expr.ofAlternation es, m) :=
  meaning_alternation_iff.mpr ⟨es, meanings_of_forall₂ each, rfl⟩

namespace Tower

variable {n : Nat} {t : Tree}

/-- A tower has as many levels as storeys. -/
theorem levels (towers : t.Tower n) : t.levels = n := by
  induction towers with
  | dot => rfl
  | group => rfl
  | choice => rfl
  | nested _ ih => simp [Tree.levels, Tree.levelsAll, ih]

/-- A tower is inside the dialect. -/
theorem checkDialect (towers : t.Tower n) : t.checkDialect = .ok () := by
  induction towers with
  | dot => rfl
  | group => rfl
  | choice => rfl
  | nested _ ih =>
    simp only [Tree.checkDialect, Tree.checkDialectAll, ih]
    rfl

/-- The height of a tower is the greatest that its levels allow. -/
theorem meaning (towers : t.Tower n) (m : Modes) :
    ∃ e, t.meaning m = .ok (e, m) ∧ e.height = heightBound n := by
  obtain ⟨set, dot⟩ : ∃ set, ∀ s, (Tree.dot s).meaning m = .ok (.chars set, m) := by
    simp only [Tree.meaning, Modes.dot]
    split <;> exact ⟨_, fun _ => rfl⟩
  have look (s : Span) (kind : AssertionKind) :
      (Tree.assertion s kind).meaning m = .ok (.look (m.look kind), m) := by rw [Tree.meaning]
  have capture {t : Tree} {e : Expr} (meant : t.meaning m = .ok (e, m)) (s : Span) (i : Nat) :
      (Tree.group s (.capture i) t).meaning m = .ok (.capture i none e, m) := by
    rw [Tree.meaning, Modes.inside, meant]
    rfl
  have differ : m.look .startLine ≠ m.look .endLine := by
    unfold Modes.look
    cases m.multiLine <;> decide
  -- The two branches differ from each other only behind the dot, so the dot is lifted.
  have choice {t : Tree} {x : Expr} (meant : t.meaning m = .ok (x, m))
      (alone : (∃ l, x = .look l) ∨ ∃ i name body, x = .capture i name body)
      (s s₁ s₂ s₃ s₅ s₆ s₇ s₈ : Span) :
      (Tree.alternation s [.concat s₁ [.dot s₂, .assertion s₃ .startLine, t],
        .concat s₅ [.dot s₆, .assertion s₇ .endLine, .assertion s₈ .startLine]]).meaning m =
          .ok (.concat [.chars set, .alternation [.concat [.look (m.look .startLine), x],
            .concat [.look (m.look .endLine), .look (m.look .startLine)]]], m) := by
    rw [← Expr.ofAlternation_lifted set differ alone]
    refine meaning_alternation s (.cons (meaning_concat s₁ ?_) (.cons (meaning_concat s₅ ?_) .nil))
    · exact .cons (dot s₂) (.cons (look s₃ _) (.cons meant .nil))
    · exact .cons (dot s₆) (.cons (look s₇ _) (.cons (look s₈ _) .nil))
  induction towers with
  | dot => exact ⟨_, dot _, rfl⟩
  | group => exact ⟨_, capture (dot _) _ _, rfl⟩
  | choice => exact ⟨_, choice (look _ _) (.inl ⟨_, rfl⟩) _ _ _ _ _ _ _ _, rfl⟩
  | nested _ ih =>
    obtain ⟨e, meant, high⟩ := ih
    refine ⟨_, choice (capture meant _ _) (.inr ⟨_, _, _, rfl⟩) _ _ _ _ _ _ _ _, ?_⟩
    simp only [Expr.height, Expr.heightAll, high]
    unfold heightBound
    omega

end Tower

end Tree

/-- A tower is ASCII, so it is decoded to itself. -/
theorem decode_tower (n : Nat) :
    Latin1.decode (String.ofList (tower n)) = String.ofList (tower n) := by
  have checked : (tower n).all (·.toNat < 0x80) = true := by
    induction n using tower.induct with
    | case1 | case2 | case3 => rfl
    | case4 n ih =>
      rw [tower, List.all_cons, List.all_cons, List.all_cons, List.all_append, ih]
      rfl
  have ascii : ∀ c ∈ tower n, c.toNat < 0x80 := by
    simpa only [List.all_eq_true, decide_eq_true_eq] using checked
  rw [Latin1.decode, String.toList_ofList, Latin1.map_ofByte_encode ascii]

namespace Settings

/-- No settings allow more than a thousand levels. -/
theorem effectiveNestLimit_le (s : Settings) : s.effectiveNestLimit.toNat ≤ 1000 :=
  (s.effectiveNestLimit_withNestLimit s.nestLimit).trans_le (Nat.min_le_right _ _)

/-- Some pattern has an expression as high as that. -/
theorem exists_height_eq_heightBound (s : Settings) :
    ∃ pattern e, s.expression (Latin1.decode pattern) = .ok e ∧
      e.height = heightBound s.effectiveNestLimit.toNat := by
  have capped := s.effectiveNestLimit_le
  have room : s.effectiveNestLimit.toNat < countMax := by unfold countMax; omega
  obtain ⟨t, parsed, towers⟩ := Tree.parse_tower room
  obtain ⟨e, meant, high⟩ := towers.meaning s.modes
  have read := Tree.parseWithin_eq_ok_iff.mpr ⟨parsed, Nat.le_of_eq towers.levels⟩
  rw [← decode_tower] at read
  exact ⟨_, e, expression_eq_ok_iff.mpr ⟨t, s.modes, read, towers.checkDialect, meant⟩, high⟩

/-- The greatest height of the expression of a pattern is that of the bound on nesting in force,
which is four nodes for every three levels. So heights stay within two of that bound exactly if it
is at most four. -/
theorem height_expression (s : Settings) :
    (∀ pattern e, s.expression (Latin1.decode pattern) = .ok e →
      e.height ≤ heightBound s.effectiveNestLimit.toNat) ∧
    (∃ pattern e, s.expression (Latin1.decode pattern) = .ok e ∧
      e.height = heightBound s.effectiveNestLimit.toNat) ∧
    ((∀ pattern e, s.expression (Latin1.decode pattern) = .ok e →
      e.height ≤ s.effectiveNestLimit.toNat + 2) ↔ s.effectiveNestLimit.toNat ≤ 4) := by
  refine ⟨fun pattern e => height_le_heightBound, s.exists_height_eq_heightBound, ?_, ?_⟩
  · intro within
    obtain ⟨pattern, e, found, high⟩ := s.exists_height_eq_heightBound
    have below := within pattern e found
    unfold heightBound at high
    omega
  · intro few pattern e found
    have below := height_le_heightBound found
    unfold heightBound at below
    omega

/-- An expression whose height is known is there. -/
theorem exists_of_map_height {s : Settings} {decoded : String} {n : Nat}
    (high : (s.expression decoded).map Expr.height = .ok n) :
    ∃ e, s.expression decoded = .ok e ∧ e.height = n := by
  cases found : s.expression decoded with
  | error f =>
    rw [found] at high
    cases high
  | ok e =>
    rw [found] at high
    exact ⟨e, rfl, Except.ok.inj high⟩

/-- Under a bound of three, the pattern `(.^$|.$^)` has an expression of height five. -/
theorem height_expression_group :
    let s : Settings := { nestLimit := 3 }
    let pattern := "(.^$|.$^)"
    ∃ e, s.expression (Latin1.decode pattern) = .ok e ∧ e.height = 5 ∧
      e.height ≤ heightBound s.effectiveNestLimit.toNat ∧
      e.height ≤ s.effectiveNestLimit.toNat + 2 := by
  intro s pattern
  obtain ⟨e, found, high⟩ : ∃ e, s.expression (Latin1.decode pattern) = .ok e ∧ e.height = 5 :=
    exists_of_map_height (by decide +kernel)
  obtain ⟨bound, -, within⟩ := s.height_expression
  exact ⟨e, found, high, bound pattern e found, within.mpr (by decide) pattern e found⟩

/-- Under a bound of five, the pattern `.^(.^$|.$^)|.$^` is compiled, and its expression is of
height eight: more than two above the bound. -/
theorem height_exceeds_nestLimit :
    let s : Settings := { nestLimit := 5 }
    let pattern := ".^(.^$|.$^)|.$^"
    (s.compile pattern).result.toBool = true ∧
      ∃ e, s.expression (Latin1.decode pattern) = .ok e ∧
        ¬ e.height ≤ s.effectiveNestLimit.toNat + 2 := by
  intro s pattern
  obtain ⟨e, found, high⟩ : ∃ e, s.expression (Latin1.decode pattern) = .ok e ∧ e.height = 8 :=
    exists_of_map_height (by decide +kernel)
  have limit : s.effectiveNestLimit.toNat = 5 := by decide
  exact ⟨by decide +kernel, e, found, by omega⟩

end Settings

end PatternGate
