import Mathlib.Algebra.GroupWithZero.Nat
import PatternGate.Proofs.Text.Utf8
import PatternGate.Text.Latin1

/-!
# Bytes and their characters

A byte and the character that stands for it say the same (`byte?_ofByte`). Decoding leaves ASCII as
it is, and turns every other character into characters beyond ASCII, so that what is special about
an ASCII character is never met by chance in the bytes of another.

Three lengths meet in a decoded pattern: the bytes of the pattern, as many characters, and the bytes
of their UTF-8, in which a byte beyond ASCII counts twice. The main statement, `decode_lossless`,
says that the characters give back the bytes, and that an offset in the third length is mapped to
the first.
-/

namespace PatternGate.Latin1

theorem toNat_ofByte (b : UInt8) : (ofByte b).toNat = b.toNat := by
  have small := b.toNat_lt
  have valid : b.toNat.isValidChar := Or.inl (by omega)
  rw [ofByte, Char.ofNat, dif_pos valid]
  rfl

/-- A byte is the byte of its character. -/
theorem byte?_ofByte (b : UInt8) : byte? (ofByte b) = some b := by
  have small := b.toNat_lt
  rw [byte?, toNat_ofByte, if_pos (by omega), UInt8.ofNat_toNat]

/-- ASCII characters are one byte each, and that byte stands for them. -/
theorem map_ofByte_encode {cs : List Char} (ascii : ∀ c ∈ cs, c.toNat < 0x80) :
    (Utf8.encode cs).map ofByte = cs := by
  induction cs with
  | nil => rfl
  | cons c cs ih =>
    rw [List.forall_mem_cons] at ascii
    have value : c.val.toNat = c.toNat := rfl
    have byte : String.utf8EncodeChar c = [UInt8.ofNat c.toNat] := by
      simp only [String.utf8EncodeChar, value]
      rw [if_pos (by omega)]
    have back : ofByte (UInt8.ofNat c.toNat) = c := by
      rw [ofByte, UInt8.toNat_ofNat', Nat.mod_eq_of_lt (by omega), Char.ofNat_toNat]
    have rest := ih ascii.2
    rw [Utf8.encode] at rest
    rw [Utf8.encode, List.flatMap_cons, List.map_append, byte, List.map_singleton, back, rest]
    rfl

/-- The bytes of a character beyond ASCII are beyond ASCII. -/
theorem ge_of_mem_utf8EncodeChar {c : Char} (high : 0x80 ≤ c.toNat) :
    ∀ b ∈ String.utf8EncodeChar c, 0x80 ≤ b.toNat := by
  have value : c.val.toNat = c.toNat := rfl
  have wide : ∀ b n, 0x80 ≤ n → n < 256 → b = UInt8.ofNat n → 0x80 ≤ b.toNat := by
    rintro _ n lower upper rfl
    rwa [UInt8.toNat_ofNat', Nat.mod_eq_of_lt upper]
  intro b mem
  simp only [String.utf8EncodeChar, value] at mem
  rw [if_neg (by omega)] at mem
  split at mem
  next =>
    simp only [List.mem_cons, List.not_mem_nil, or_false] at mem
    rcases mem with mem | mem <;> exact wide _ _ (by omega) (by omega) mem
  next =>
    split at mem
    next =>
      simp only [List.mem_cons, List.not_mem_nil, or_false] at mem
      rcases mem with mem | mem | mem <;> exact wide _ _ (by omega) (by omega) mem
    next =>
      simp only [List.mem_cons, List.not_mem_nil, or_false] at mem
      rcases mem with mem | mem | mem | mem <;> exact wide _ _ (by omega) (by omega) mem

/-- Text whose bytes are ASCII is unchanged. -/
theorem decode_of_ascii {s : String} (ascii : ∀ b ∈ Utf8.encode s.toList, b < 0x80) :
    decode s = s := by
  have chars : ∀ c ∈ s.toList, c.toNat < 0x80 := by
    refine fun c mem => Nat.lt_of_not_le fun high => ?_
    have some : String.utf8EncodeChar c ≠ [] :=
      List.ne_nil_of_length_pos (String.length_utf8EncodeChar c ▸ c.utf8Size_pos)
    obtain ⟨b, first⟩ := List.exists_mem_of_ne_nil _ some
    have low := UInt8.lt_iff_toNat_lt.mp (ascii b (List.mem_flatMap.mpr ⟨c, mem, first⟩))
    exact absurd low (Nat.not_lt_of_ge (ge_of_mem_utf8EncodeChar high b first))
  rw [decode, map_ofByte_encode chars, String.ofList_toList]

theorem toList_decode (s : String) : (decode s).toList = (Utf8.encode s.toList).map ofByte :=
  String.toList_ofList

/-! ## Offsets -/

theorem length_encode (cs : List Char) :
    (Utf8.encode cs).length = (cs.map Char.utf8Size).sum := by
  simp only [Utf8.encode, List.length_flatMap, String.length_utf8EncodeChar]

/-- The offset behind a part of a text is the number of its characters. -/
theorem charsBefore?_append (read rest : List Char) :
    charsBefore? (read ++ rest) (read.map Char.utf8Size).sum = some read.length := by
  induction read with
  | nil => cases rest <;> rfl
  | cons ch read ih =>
    have pos := ch.utf8Size_pos
    obtain ⟨n, size⟩ : ∃ n, ch.utf8Size + (read.map Char.utf8Size).sum = n + 1 :=
      ⟨ch.utf8Size + (read.map Char.utf8Size).sum - 1, by omega⟩
    rw [List.map_cons, List.sum_cons, size, List.cons_append, charsBefore?, if_pos (by omega),
      ← size, Nat.add_sub_cancel_left, ih]
    rfl

/-- The boundary before the character `i` of a text is mapped to `i`. -/
theorem patternOffset_boundary (text : String) {i : Nat} (inside : i ≤ text.toList.length) :
    patternOffset text (Utf8.encode (text.toList.take i)).length = i := by
  have before := charsBefore?_append (text.toList.take i) (text.toList.drop i)
  rw [List.take_append_drop, ← length_encode, List.length_take_of_le inside] at before
  rw [patternOffset, before]
  rfl

/-- The character of a byte beyond ASCII takes two bytes itself. -/
theorem utf8Size_ofByte (b : UInt8) :
    (ofByte b).utf8Size = 1 + if 0x80 ≤ b then 1 else 0 := by
  have value : (ofByte b).val.toNat = b.toNat := toNat_ofByte b
  have small := b.toNat_lt
  by_cases high : 0x80 ≤ b
  · rw [if_pos high, Char.utf8Size_eq_two_iff]
    rw [UInt8.le_iff_toNat_le] at high
    simp only [UInt32.lt_iff_toNat_lt, UInt32.le_iff_toNat_le, value]
    exact ⟨high, Nat.le_of_lt (Nat.lt_of_lt_of_le small (by decide))⟩
  · rw [if_neg high, Char.utf8Size_eq_one_iff]
    rw [UInt8.le_iff_toNat_le, Nat.not_le] at high
    simp only [UInt32.le_iff_toNat_le, value]
    exact Nat.le_of_lt_succ high

/-- The characters of bytes take one byte each, and one more for each byte beyond ASCII. -/
theorem length_encode_map_ofByte (bytes : List UInt8) :
    (Utf8.encode (bytes.map ofByte)).length = bytes.length + bytes.countP (0x80 ≤ ·) := by
  induction bytes with
  | nil => rfl
  | cons b bytes ih =>
    rw [length_encode] at ih
    rw [length_encode, List.map_cons, List.map_cons, List.sum_cons, ih, utf8Size_ofByte,
      List.length_cons, List.countP_cons]
    simp only [decide_eq_true_eq]
    omega

/-- The bytes of a text in UTF-8. -/
def utf8 (s : String) : List UInt8 := s.toUTF8.data.toList

/-- Decoding loses nothing: there is one character for each byte of the text, from which the byte is
read back, and ASCII text is left as it is. The boundary before character `i` has the offset `i` and
as much again as there are bytes beyond ASCII before it, and it is mapped back to `i`. -/
theorem decode_lossless (s : String) :
    (decode s).toList.length = (utf8 s).length ∧
      (decode s).toList.map byte? = (utf8 s).map some ∧
      decode s = (if (utf8 s).all (· < 0x80) then s else String.ofList ((utf8 s).map ofByte)) ∧
      ∀ i ≤ (utf8 s).length,
        let offset := (Utf8.encode ((decode s).toList.take i)).length
        offset = i + ((utf8 s).take i).countP (0x80 ≤ ·) ∧ patternOffset (decode s) offset = i := by
  have same : Utf8.encode s.toList = utf8 s := Utf8.encode_toList s
  have chars : (decode s).toList = (utf8 s).map ofByte := same ▸ toList_decode s
  have length : (decode s).toList.length = (utf8 s).length := by rw [chars, List.length_map]
  refine ⟨length, ?_, ?_, ?_⟩
  · rw [chars, List.map_map]
    exact List.map_congr_left fun b _ => byte?_ofByte b
  · split
    next ascii =>
      refine decode_of_ascii fun b mem => ?_
      simpa using List.all_eq_true.mp ascii b (same ▸ mem)
    next => rw [decode, same]
  · intro i inside
    have inText : i ≤ (decode s).toList.length := Nat.le_trans inside (Nat.le_of_eq length.symm)
    refine ⟨?_, patternOffset_boundary (decode s) inText⟩
    rw [chars, ← List.map_take, length_encode_map_ofByte, List.length_take_of_le inside]

/-- In `é(` the parenthesis is the third byte. The accented letter is decoded to two characters of
two bytes each, so the offset 4 of the decoded text is mapped to 2. -/
theorem decode_lossless_accent :
    2 ≤ (utf8 "é(").length ∧ (Utf8.encode ((decode "é(").toList.take 2)).length = 4 ∧
      patternOffset (decode "é(") 4 = 2 := by
  have inside : 2 ≤ (utf8 "é(").length := by decide
  have offset : (Utf8.encode ((decode "é(").toList.take 2)).length = 4 := by decide
  obtain ⟨-, -, -, boundaries⟩ := decode_lossless "é("
  exact ⟨inside, offset, offset ▸ (boundaries 2 inside).2⟩

end PatternGate.Latin1
