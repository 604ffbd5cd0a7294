import PatternGate.Proofs.Json.Spelling

/-!
# Strings of a spelling

Two ways lead over a string: it is read, or it is only passed over. Both stop at the same place
behind it. Passing over looks at the form alone and always succeeds (`skipString_spelled`). Reading
gives the string that is spelled, and fails if a surrogate in it stands alone
(`readString_spelled`).
-/

namespace PatternGate

namespace HexUnit

theorem isTrailing_iff {u : HexUnit} :
    u.isTrailing = true ↔ 0xDC00 ≤ u.code ∧ u.code ≤ 0xDFFF := by
  simp [isTrailing]

theorem isLeading_iff {u : HexUnit} :
    u.isLeading = true ↔ 0xD800 ≤ u.code ∧ u.code ≤ 0xDBFF := by
  simp [isLeading]

end HexUnit

namespace Scanner

/-- Each form of a hexadecimal digit is known. -/
theorem hexValue?_char (d : HexDigit) : hexValue? d.char = some d.value.val := by
  have known : ∀ (v : Fin 16) (capital : Bool),
      hexValue? (HexDigit.mk v capital).char = some v.val := by decide
  exact known d.value d.capital

/-- Each escape of one letter is known. -/
theorem shortEscape?_letter (e : ShortEscape) : shortEscape? e.letter = some e.char := by
  cases e <;> rfl

theorem letter_ne_u (e : ShortEscape) : e.letter ≠ 'u' := by
  cases e <;> decide

theorem readHexFour_unit (u : HexUnit) (rest : List Char) (p : Place) :
    readHexFour ⟨u.text ++ rest, p⟩ = .ok (u.code, ⟨rest, p.afterAll u.text⟩) := by
  have digits : hexFour? (u.text ++ rest) = some u.code := by
    simp only [HexUnit.text, List.cons_append, hexFour?, hexValue?_char]
    refine congrArg some ?_
    unfold HexUnit.code
    omega
  rw [readHexFour]
  dsimp only
  rw [digits]
  rfl

theorem readCodePoint_unit (u : HexUnit) (rest : List Char) (p : Place) :
    let s : Scanner := ⟨rest, p.afterAll u.text⟩
    readCodePoint ⟨u.text ++ rest, p⟩ =
      if 0xDC00 ≤ u.code ∧ u.code ≤ 0xDFFF then s.faultHere .loneSurrogate
      else if u.code < 0xD800 ∨ 0xDBFF < u.code then .ok (Char.ofNat u.code, s)
      else do
        let s ← s.readPairMark '\\'
        let s ← s.readPairMark 'u'
        let (m, s) ← s.readHexFour
        if m < 0xDC00 ∨ 0xDFFF < m then s.faultHere .loneSurrogate
        else return (Char.ofNat ((u.code - 0xD800) * 0x400 + (m - 0xDC00) + 0x10000), s) := by
  rw [readCodePoint, readHexFour_unit]
  rfl

section Surrogates

variable {u : HexUnit} (rest : List Char) (p : Place)

/-- A trailing surrogate has nothing to follow. -/
theorem readCodePoint_trailing (trailing : u.isTrailing = true) :
    readCodePoint ⟨u.text ++ rest, p⟩ =
      faultHere ⟨rest, p.afterAll u.text⟩ .loneSurrogate := by
  rw [readCodePoint_unit]
  exact if_pos (HexUnit.isTrailing_iff.mp trailing)

/-- An escape that is no surrogate stands for a character. -/
theorem readCodePoint_alone (low : ¬ u.isTrailing = true) (high : ¬ u.isLeading = true) :
    readCodePoint ⟨u.text ++ rest, p⟩ =
      .ok (Char.ofNat u.code, ⟨rest, p.afterAll u.text⟩) := by
  rw [HexUnit.isTrailing_iff] at low
  rw [HexUnit.isLeading_iff] at high
  rw [readCodePoint_unit]
  dsimp only
  rw [if_neg low, if_pos (by omega)]

/-- A leading surrogate is read on. -/
theorem readCodePoint_leading (leading : u.isLeading = true) :
    readCodePoint ⟨u.text ++ rest, p⟩ = (do
      let s ← readPairMark '\\' ⟨rest, p.afterAll u.text⟩
      let s ← s.readPairMark 'u'
      let (m, s) ← s.readHexFour
      if m < 0xDC00 ∨ 0xDFFF < m then s.faultHere .loneSurrogate
      else return (Char.ofNat ((u.code - 0xD800) * 0x400 + (m - 0xDC00) + 0x10000), s)) := by
  rw [HexUnit.isLeading_iff] at leading
  rw [readCodePoint_unit]
  dsimp only
  rw [if_neg (by omega), if_neg (by omega)]

/-- Two escapes of which the first is a leading surrogate are one, if the second is a trailing one.
-/
theorem readCodePoint_pair (leading : u.isLeading = true) (v : HexUnit) :
    let s : Scanner := ⟨rest, p.afterAll (u.text ++ '\\' :: 'u' :: v.text)⟩
    readCodePoint ⟨u.text ++ '\\' :: 'u' :: (v.text ++ rest), p⟩ =
      if v.isTrailing then
        .ok (Char.ofNat ((u.code - 0xD800) * 0x400 + (v.code - 0xDC00) + 0x10000), s)
      else s.faultHere .loneSurrogate := by
  intro s
  have place : s.place = ((p.afterAll u.text).afterAll ['\\', 'u']).afterAll v.text := by
    rw [← Place.afterAll_append, ← Place.afterAll_append]
    rfl
  have second := readHexFour_unit v rest ((p.afterAll u.text).afterAll ['\\', 'u'])
  rw [← place] at second
  rw [readCodePoint_leading _ _ leading]
  show (readHexFour ⟨v.text ++ rest, (p.afterAll u.text).afterAll ['\\', 'u']⟩ >>= _) = _
  rw [second]
  show (if v.code < 0xDC00 ∨ 0xDFFF < v.code then faultHere s .loneSurrogate else _) = _
  by_cases pair : v.isTrailing = true
  · rw [if_pos pair, if_neg (by rw [HexUnit.isTrailing_iff] at pair; omega)]
    rfl
  · rw [if_neg pair, if_pos (by rw [HexUnit.isTrailing_iff] at pair; omega)]

end Surrogates

/-- A leading surrogate asks for another escape of its kind. -/
theorem readPairMark_other {ps : List StringPiece}
    (other : ∀ u rest, ps = .unit u :: rest → False) (rest : List Char) (p : Place) {α : Type}
    (next : Scanner → Except JsonFault α) :
    ∃ f, (do
      let s ← readPairMark '\\' ⟨ps.flatMap StringPiece.text ++ '"' :: rest, p⟩
      let s ← readPairMark 'u' s
      next s) = .error f ∧ f.cause = .hexEscapeEnd := by
  cases ps with
  | nil => exact ⟨_, rfl, rfl⟩
  | cons piece ps =>
    cases piece with
    | plain c visible unquoted unescaped =>
      have mark : readPairMark '\\' ⟨c :: (ps.flatMap StringPiece.text ++ '"' :: rest), p⟩ =
          faultNext _ .hexEscapeEnd := if_neg unescaped
      exact ⟨⟨.hexEscapeEnd, _⟩, congrArg (· >>= _) mark, rfl⟩
    | short e =>
      have mark : readPairMark 'u' ⟨e.letter :: (ps.flatMap StringPiece.text ++ '"' :: rest),
          p.after '\\'⟩ = faultNext _ .hexEscapeEnd := if_neg (letter_ne_u e)
      exact ⟨⟨.hexEscapeEnd, _⟩, congrArg (· >>= _) mark, rfl⟩
    | unit u => exact (other u ps rfl).elim

/-- A character that is written as it is is read, and the rest of the string after it. -/
theorem readStringRest_plain {c : Char} (visible : 0x20 ≤ c.toNat) (unquoted : c ≠ '"')
    (unescaped : c ≠ '\\') {v : Option (List Char)} {fuel : Nat} {text : List Char} {p : Place}
    {stop : Scanner} (more : Reads (readStringRest fuel ⟨text, p.after c⟩) v stop) :
    Reads (readStringRest (fuel + 1) ⟨c :: text, p⟩) (v.map (c :: ·)) stop := by
  rw [readStringRest]
  simp only [if_neg unquoted, if_neg unescaped, if_neg (Nat.not_lt_of_ge visible)]
  exact more.map fun _ => rfl

/-- An escape is read, and the rest of the string after it. -/
theorem readStringRest_escape {c : Option Char} {v : Option (List Char)} {fuel : Nat}
    {text : List Char} {p : Place} {s stop : Scanner}
    (escape : Reads (readEscape ⟨text, p.after '\\'⟩) c s)
    (more : Reads (readStringRest fuel s) v stop) :
    Reads (readStringRest (fuel + 1) ⟨'\\' :: text, p⟩) (c.bind fun c => v.map (c :: ·)) stop :=
  escape.bind fun _ => more.map fun _ => rfl

/-- A string is read as what its pieces stand for. -/
theorem readStringRest_pieces (ps : List StringPiece) {fuel : Nat} (enough : ps.length < fuel)
    (rest : List Char) (p : Place) :
    Reads (readStringRest fuel ⟨ps.flatMap StringPiece.text ++ '"' :: rest, p⟩)
      (StringPiece.decode ps) ⟨rest, p.afterAll (ps.flatMap StringPiece.text ++ ['"'])⟩ := by
  obtain _ | fuel := fuel
  · cases enough
  -- The cases are those of decoding: a pair of surrogates is two pieces and takes one turn.
  fun_induction StringPiece.decode ps generalizing fuel p with
  | case1 => exact rfl
  | case2 c visible unquoted unescaped ps ih =>
    obtain _ | fuel := fuel
    · cases Nat.lt_of_succ_lt_succ enough
    exact readStringRest_plain visible unquoted unescaped (ih _ _ (Nat.lt_of_succ_lt_succ enough))
  | case3 e ps ih =>
    obtain _ | fuel := fuel
    · cases Nat.lt_of_succ_lt_succ enough
    have escape : ∀ text q,
        readEscape ⟨e.letter :: text, q⟩ = .ok (e.char, ⟨text, q.after e.letter⟩) := by
      intro text q
      rw [readEscape]
      simp only [if_neg (letter_ne_u e), shortEscape?_letter]
      rfl
    exact readStringRest_escape (c := some e.char) (escape _ _)
      (ih _ _ (Nat.lt_of_succ_lt_succ enough))
  | case4 u ps trailing =>
    have escape := readCodePoint_trailing (ps.flatMap StringPiece.text ++ '"' :: rest)
      ((p.after '\\').after 'u') trailing
    exact ⟨_, congrArg (· >>= _) escape, rfl⟩
  | case5 u low high v ps trailing ih =>
    obtain _ | fuel := fuel
    · cases Nat.lt_of_succ_lt_succ enough
    have escape := readCodePoint_pair (ps.flatMap StringPiece.text ++ '"' :: rest)
      ((p.after '\\').after 'u') high v
    dsimp only at escape
    rw [if_pos trailing] at escape
    exact readStringRest_escape (c := some _) escape
      (ih _ _ (Nat.lt_of_succ_lt (Nat.lt_of_succ_lt_succ enough)))
  | case6 u low high v ps other =>
    have escape := readCodePoint_pair (ps.flatMap StringPiece.text ++ '"' :: rest)
      ((p.after '\\').after 'u') high v
    dsimp only at escape
    rw [if_neg other] at escape
    exact ⟨_, congrArg (· >>= _) escape, rfl⟩
  | case7 u ps low high other =>
    have escape := readCodePoint_leading (ps.flatMap StringPiece.text ++ '"' :: rest)
      ((p.after '\\').after 'u') high
    obtain ⟨f, failed, cause⟩ := readPairMark_other other rest _ _
    exact ⟨f, congrArg (· >>= _) (escape.trans failed), congrArg _ cause⟩
  | case8 u ps low high ih =>
    obtain _ | fuel := fuel
    · cases Nat.lt_of_succ_lt_succ enough
    have escape := readCodePoint_alone (ps.flatMap StringPiece.text ++ '"' :: rest)
      ((p.after '\\').after 'u') low high
    exact readStringRest_escape (c := some _) escape (ih _ _ (Nat.lt_of_succ_lt_succ enough))

/-- A string is passed over, whatever its pieces stand for. -/
theorem skipStringRest_pieces (ps : List StringPiece) {fuel : Nat} (enough : ps.length < fuel)
    (rest : List Char) (p : Place) :
    skipStringRest fuel ⟨ps.flatMap StringPiece.text ++ '"' :: rest, p⟩ =
      .ok ⟨rest, p.afterAll (ps.flatMap StringPiece.text ++ ['"'])⟩ := by
  induction ps generalizing fuel p with
  | nil =>
    obtain _ | fuel := fuel
    · cases enough
    rfl
  | cons piece ps ih =>
    obtain _ | fuel := fuel
    · cases enough
    have more := fun q => ih (Nat.lt_of_succ_lt_succ enough) q
    cases piece with
    | plain c visible unquoted unescaped =>
      show skipStringRest (fuel + 1) ⟨c :: (ps.flatMap StringPiece.text ++ '"' :: rest), p⟩ = _
      rw [skipStringRest]
      simp only [if_neg unquoted, if_neg unescaped, if_neg (Nat.not_lt_of_ge visible)]
      exact more (p.after c)
    | short e =>
      have escape : ∀ text q, skipEscape ⟨e.letter :: text, q⟩ = .ok ⟨text, q.after e.letter⟩ := by
        intro text q
        rw [skipEscape]
        simp only [if_neg (letter_ne_u e), shortEscape?_letter]
        rfl
      exact (congrArg (· >>= _) (escape _ _)).trans (more _)
    | unit u =>
      have escape : ∀ text q, skipEscape ⟨'u' :: (u.text ++ text), q⟩ =
          .ok ⟨text, (q.after 'u').afterAll u.text⟩ := by
        intro text q
        exact congrArg (· >>= _) (readHexFour_unit u text (q.after 'u'))
      exact (congrArg (· >>= _) (escape _ _)).trans (more _)

/-- A string has no more pieces than characters. -/
theorem length_pieces_lt (s : StringSpelling) (rest : List Char) :
    s.pieces.length < (s.text ++ rest).length + 1 := by
  have pieces : ∀ ps : List StringPiece, ps.length ≤ (ps.flatMap StringPiece.text).length := by
    intro ps
    induction ps with
    | nil => exact Nat.le_refl 0
    | cons piece ps ih =>
      have some : 0 < piece.text.length := by cases piece <;> exact Nat.zero_lt_succ _
      rw [List.flatMap_cons, List.length_append, List.length_cons]
      omega
  have fits := pieces s.pieces
  rw [StringSpelling.text, List.length_append, List.length_append]
  omega

theorem text_append (s : StringSpelling) (rest : List Char) :
    s.text ++ rest = s.pieces.flatMap StringPiece.text ++ '"' :: rest := by
  rw [StringSpelling.text, List.append_assoc, List.singleton_append]

/-- A string is read as the value that it spells. -/
theorem readString_spelled (s : StringSpelling) (rest : List Char) (p : Place) :
    Reads (readString ⟨s.text ++ rest, p⟩) s.value? ⟨rest, p.afterAll s.text⟩ := by
  have pieces := readStringRest_pieces s.pieces (length_pieces_lt s rest) rest p
  rw [← text_append] at pieces
  exact pieces.map fun _ => rfl

/-- A string is passed over, whether or not it has a value. -/
theorem skipString_spelled (s : StringSpelling) (rest : List Char) (p : Place) :
    skipString ⟨s.text ++ rest, p⟩ = .ok ⟨rest, p.afterAll s.text⟩ := by
  have pieces := skipStringRest_pieces s.pieces (length_pieces_lt s rest) rest p
  rwa [← text_append] at pieces

end Scanner

end PatternGate
