import PatternGate.Text.Utf8

/-!
# Decoding what was encoded

Decoding undoes encoding, and on the bytes of a text it does so whatever follows them
(`Utf8.decode_encode_append`). The first byte of a character says how many bytes are due and gives
the upper bits; each further byte adds six bits. The narrow bounds on some second bytes shut out no
character: they are the values that would spell a shorter encoding, a surrogate or a number beyond
`U+10FFFF`.
-/

namespace PatternGate.Utf8

/-- A further byte of a character adds its six bits. -/
theorem decodeFrom_some_cons {p : Partial} {k : Nat} (small : k < 64)
    (lower : p.lo.toNat ≤ k + 0x80) (upper : k + 0x80 ≤ p.hi.toNat) (bs : List UInt8) :
    decodeFrom (some p) (UInt8.ofNat (k + 0x80) :: bs) =
      if p.due ≤ 1 then Char.ofNat (p.bits * 64 + k) :: decodeFrom none bs
      else decodeFrom (some ⟨p.due - 1, 0x80, 0xBF, p.bits * 64 + k⟩) bs := by
  have value : (UInt8.ofNat (k + 0x80)).toNat = k + 0x80 := by
    rw [UInt8.toNat_ofNat']
    omega
  have bounds : p.lo ≤ UInt8.ofNat (k + 0x80) ∧ UInt8.ofNat (k + 0x80) ≤ p.hi := by
    simp only [UInt8.le_iff_toNat_le, value]
    exact ⟨lower, upper⟩
  rw [decodeFrom, feed, if_pos bounds, value, Nat.add_sub_cancel]
  by_cases last : p.due ≤ 1
  · simp [last]
  · simp [last]

/-- The last byte of a character completes it. -/
theorem decodeFrom_last {lo hi : UInt8} {bits k : Nat} (small : k < 64)
    (lower : lo.toNat ≤ k + 0x80) (upper : k + 0x80 ≤ hi.toNat) (bs : List UInt8) :
    decodeFrom (some ⟨1, lo, hi, bits⟩) (UInt8.ofNat (k + 0x80) :: bs) =
      Char.ofNat (bits * 64 + k) :: decodeFrom none bs :=
  decodeFrom_some_cons small lower upper bs

/-- A byte before the last leaves one less to be read. -/
theorem decodeFrom_more {due : Nat} {lo hi : UInt8} {bits k : Nat} (small : k < 64)
    (lower : lo.toNat ≤ k + 0x80) (upper : k + 0x80 ≤ hi.toNat) (bs : List UInt8) :
    decodeFrom (some ⟨due + 2, lo, hi, bits⟩) (UInt8.ofNat (k + 0x80) :: bs) =
      decodeFrom (some ⟨due + 1, 0x80, 0xBF, bits * 64 + k⟩) bs :=
  (decodeFrom_some_cons small lower upper bs).trans
    (if_neg (Nat.not_le_of_gt (Nat.lt_add_left due Nat.one_lt_two)))

/-- A byte that opens a character leaves the rest of it to be read. -/
theorem decodeFrom_none_cons {b : UInt8} {p : Partial} (opens : lead b = ([], some p))
    (bs : List UInt8) : decodeFrom none (b :: bs) = decodeFrom (some p) bs := by
  rw [decodeFrom, feed, opens]
  rfl

theorem lead_two : ∀ m < 32, 2 ≤ m →
    lead (UInt8.ofNat (m + 0xC0)) = ([], some ⟨1, 0x80, 0xBF, m⟩) := by
  decide

theorem lead_three : ∀ m < 16, lead (UInt8.ofNat (m + 0xE0)) =
    ([], some ⟨2, if m = 0 then 0xA0 else 0x80, if m = 13 then 0x9F else 0xBF, m⟩) := by
  decide

theorem lead_four : ∀ m < 5, lead (UInt8.ofNat (m + 0xF0)) =
    ([], some ⟨3, if m = 0 then 0x90 else 0x80, if m = 4 then 0x8F else 0xBF, m⟩) := by
  decide

theorem lead_one : ∀ m < 128, lead (UInt8.ofNat m) = ([Char.ofNat m], none) := by
  decide

theorem decodeFrom_two {a b : Nat} (lower : 2 ≤ a) (upper : a < 32) (hb : b < 64)
    (bs : List UInt8) :
    decodeFrom none (UInt8.ofNat (a + 0xC0) :: UInt8.ofNat (b + 0x80) :: bs) =
      Char.ofNat (a * 64 + b) :: decodeFrom none bs := by
  rw [decodeFrom_none_cons (lead_two a upper lower),
    decodeFrom_last hb (by simp) (by simp; omega)]

theorem decodeFrom_three {a b c : Nat} (ha : a < 16) (hb : b < 64) (hc : c < 64)
    (overlong : a = 0 → 32 ≤ b) (surrogate : a = 13 → b < 32) (bs : List UInt8) :
    decodeFrom none
        (UInt8.ofNat (a + 0xE0) :: UInt8.ofNat (b + 0x80) :: UInt8.ofNat (c + 0x80) :: bs) =
      Char.ofNat ((a * 64 + b) * 64 + c) :: decodeFrom none bs := by
  rw [decodeFrom_none_cons (lead_three a ha), decodeFrom_more hb,
    decodeFrom_last hc (by simp) (by simp; omega)]
  · by_cases zero : a = 0
    · have := overlong zero
      simp [zero]
      omega
    · simp [zero]
  · by_cases last : a = 13
    · have := surrogate last
      simp [last]
      omega
    · simp [last]
      omega

theorem decodeFrom_four {a b c d : Nat} (ha : a < 5) (hb : b < 64) (hc : c < 64) (hd : d < 64)
    (overlong : a = 0 → 16 ≤ b) (beyond : a = 4 → b < 16) (bs : List UInt8) :
    decodeFrom none (UInt8.ofNat (a + 0xF0) :: UInt8.ofNat (b + 0x80) :: UInt8.ofNat (c + 0x80) ::
        UInt8.ofNat (d + 0x80) :: bs) =
      Char.ofNat (((a * 64 + b) * 64 + c) * 64 + d) :: decodeFrom none bs := by
  rw [decodeFrom_none_cons (lead_four a ha), decodeFrom_more hb,
    decodeFrom_more hc (by simp) (by simp; omega), decodeFrom_last hd (by simp) (by simp; omega)]
  · by_cases zero : a = 0
    · have := overlong zero
      simp [zero]
      omega
    · simp [zero]
  · by_cases last : a = 4
    · have := beyond last
      simp [last]
      omega
    · simp [last]
      omega

/-- Decoding the bytes of one character gives the character, whatever follows. -/
theorem decodeFrom_utf8EncodeChar (c : Char) (bs : List UInt8) :
    decodeFrom none (String.utf8EncodeChar c ++ bs) = c :: decodeFrom none bs := by
  have scalar : c.toNat < 0xD800 ∨ 0xDFFF < c.toNat ∧ c.toNat < 0x110000 := c.valid
  have back : Char.ofNat c.toNat = c := Char.ofNat_toNat c
  have same : c.val.toNat = c.toNat := rfl
  unfold String.utf8EncodeChar
  rw [same]
  generalize c.toNat = n at scalar back
  simp only
  split
  next =>
    rw [List.singleton_append, decodeFrom, feed, lead_one n (by omega), back]
    rfl
  next =>
    split
    next =>
      rw [Nat.mod_eq_of_lt (by omega : n / 64 < 32)]
      have bits : n / 64 * 64 + n % 64 = n := by omega
      exact (decodeFrom_two (by omega) (by omega) (by omega) bs).trans (by rw [bits, back])
    next =>
      split
      next =>
        rw [Nat.mod_eq_of_lt (by omega : n / 4096 < 16)]
        have bits : (n / 4096 * 64 + n / 64 % 64) * 64 + n % 64 = n := by omega
        exact (decodeFrom_three (by omega) (by omega) (by omega) (by omega) (by omega) bs).trans
          (by rw [bits, back])
      next =>
        rw [Nat.mod_eq_of_lt (by omega : n / 262144 < 8)]
        have bits : ((n / 262144 * 64 + n / 4096 % 64) * 64 + n / 64 % 64) * 64 + n % 64 = n := by
          omega
        exact (decodeFrom_four (by omega) (by omega) (by omega) (by omega) (by omega) (by omega)
          bs).trans (by rw [bits, back])

/-- Decoding the bytes of a text gives the text, whatever follows. -/
theorem decode_encode_append (cs : List Char) (bs : List UInt8) :
    decode (encode cs ++ bs) = cs ++ decode bs := by
  induction cs with
  | nil => rfl
  | cons c cs ih =>
    rw [encode, List.flatMap_cons, List.append_assoc, decode, decodeFrom_utf8EncodeChar]
    exact congrArg (c :: ·) ih

/-- Decoding undoes encoding. -/
theorem decode_encode (cs : List Char) : decode (encode cs) = cs := by
  have undone := decode_encode_append cs []
  rwa [List.append_nil, show decode [] = [] from rfl, List.append_nil] at undone

/-- The bytes are those of a text. -/
def Valid (bs : List UInt8) : Prop := encode (decode bs) = bs

instance (bs : List UInt8) : Decidable (Valid bs) :=
  inferInstanceAs (Decidable (encode (decode bs) = bs))

theorem valid_encode (cs : List Char) : Valid (encode cs) := by
  rw [Valid, decode_encode]

/-- The bytes of a text are those of its UTF-8. -/
theorem encode_toList (s : String) : encode s.toList = s.toUTF8.data.toList := by
  conv => rhs; rw [← String.ofList_toList (s := s), String.toUTF8_eq_toByteArray]
  exact List.toList_data_toByteArray.symm

theorem encode_append (cs ds : List Char) : encode (cs ++ ds) = encode cs ++ encode ds :=
  List.flatMap_append

/-- A byte completes a character or leaves one open. -/
theorem feed_yields (p : Option Partial) (b : UInt8) :
    (feed p b).1 ≠ [] ∨ (feed p b).2.isSome = true := by
  have lead : (lead b).1 ≠ [] ∨ (lead b).2.isSome = true := by
    unfold lead
    grind
  cases p with
  | none => exact lead
  | some p =>
    unfold feed
    grind

/-- Bytes stand for some character, and so does what was left open. -/
theorem decodeFrom_ne_nil {p : Option Partial} {bs : List UInt8}
    (some : p.isSome = true ∨ bs ≠ []) : decodeFrom p bs ≠ [] := by
  induction bs generalizing p with
  | nil =>
    obtain ⟨q, rfl⟩ := Option.isSome_iff_exists.mp (some.resolve_right (absurd rfl))
    exact List.cons_ne_nil _ _
  | cons b bs ih =>
    rw [decodeFrom]
    intro nothing
    obtain ⟨out, rest⟩ := List.append_eq_nil_iff.mp nothing
    exact ih (.inl ((feed_yields p b).resolve_left (absurd out))) rest

/-- Only no bytes stand for no characters. -/
theorem decode_eq_nil_iff {bs : List UInt8} : decode bs = [] ↔ bs = [] := by
  cases bs with
  | nil => exact ⟨fun _ => rfl, fun _ => rfl⟩
  | cons b bs =>
    have some : decode (b :: bs) ≠ [] := decodeFrom_ne_nil (.inr (List.cons_ne_nil b bs))
    exact ⟨fun none => absurd none some, fun none => absurd none (List.cons_ne_nil b bs)⟩

/-- One byte stands for one character. -/
theorem length_decode_singleton (b : UInt8) : (decode [b]).length = 1 := by
  have one : (lead b).1.length + (lead b).2.toList.length = 1 := by
    unfold lead
    grind
  rw [decode, decodeFrom, feed, List.length_append]
  cases opened : (lead b).2 with
  | none => simpa [decodeFrom, opened] using one
  | some p => simpa [decodeFrom, opened] using one

end PatternGate.Utf8
