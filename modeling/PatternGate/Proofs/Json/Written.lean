import Mathlib.Data.List.Forall2
import PatternGate.Json.Printer
import PatternGate.Json.Reader

/-!
# Reading what was written

What the printer writes is read back, whatever follows it in the text. A string comes back character
by character: each of them takes one turn of the reader, however it was escaped
(`readStringRest_escapeChar`). A number comes back while 64 bits hold it, and an object member by
member. The laws name the place where reading stops, so that they compose: the rest of a text starts
behind what was written.
-/

namespace PatternGate

namespace Place

theorem afterAll_cons (p : Place) (c : Char) (cs : List Char) :
    p.afterAll (c :: cs) = (p.after c).afterAll cs := rfl

/-- The place behind two texts is reached one after the other. -/
theorem afterAll_append (p : Place) (cs ds : List Char) :
    p.afterAll (cs ++ ds) = (p.afterAll cs).afterAll ds :=
  List.foldl_append

end Place

namespace Scanner

open JsonText

/-- White space is passed over up to the first other character. -/
theorem skipSpace_of_visible {c : Char}
    (visible : (c = ' ' || c = '\n' || c = '\t' || c = '\r') = false) (rest : List Char)
    (p : Place) : skipSpace ⟨c :: rest, p⟩ = ⟨c :: rest, p⟩ := by
  rw [skipSpace, dropWhile, dropWhile.go, visible]
  rfl

/-! ## Strings -/

/-- The digits that are written are read back. -/
theorem hexValue?_hexDigit : ∀ n < 16, hexValue? (hexDigit n) = some n := by
  decide

/-- What is written of a control character behind its backslash, if it has no letter. -/
def controlText (c : Char) : List Char :=
  ['u', '0', '0', hexDigit (c.toNat / 16), hexDigit (c.toNat % 16)]

/-- The code point of a control character comes back from its two digits. -/
theorem readEscape_controlText {c : Char} (control : c.toNat < 0x20) (rest : List Char)
    (p : Place) :
    readEscape ⟨controlText c ++ rest, p⟩ = .ok (c, ⟨rest, p.afterAll (controlText c)⟩) := by
  have high := hexValue?_hexDigit (c.toNat / 16) (by omega)
  have low := hexValue?_hexDigit (c.toNat % 16) (by omega)
  have zero : hexValue? '0' = some 0 := by decide
  have value : ((0 * 16 + 0) * 16 + c.toNat / 16) * 16 + c.toNat % 16 = c.toNat := by omega
  have digits : hexFour? ((controlText c).tail ++ rest) = some c.toNat := by
    simp only [controlText, List.tail_cons, List.cons_append, hexFour?, zero, high, low]
    exact congrArg some value
  have read : readHexFour ⟨(controlText c).tail ++ rest, p.after 'u'⟩ =
      .ok (c.toNat, ⟨rest, p.afterAll (controlText c)⟩) := by
    rw [readHexFour, digits]
    rfl
  show readCodePoint ⟨(controlText c).tail ++ rest, p.after 'u'⟩ = _
  rw [readCodePoint, read]
  show (if 0xDC00 ≤ c.toNat ∧ c.toNat ≤ 0xDFFF then _
    else if c.toNat < 0xD800 ∨ 0xDBFF < c.toNat then _ else _) = _
  rw [if_neg (by omega), if_pos (by omega), Char.ofNat_toNat]
  rfl

/-- A character of a string is written by its letter, by its number, or as it is. -/
theorem escapeChar_cases (c : Char) :
    (∃ e, escapeChar c = ['\\', e] ∧ e ≠ 'u' ∧ shortEscape? e = some c) ∨
    (c.toNat < 0x20 ∧ escapeChar c = '\\' :: controlText c) ∨
    (c ≠ '"' ∧ c ≠ '\\' ∧ ¬ c.toNat < 0x20 ∧ escapeChar c = [c]) := by
  by_cases short : c ∈ ['"', '\\', '\x08', '\x0C', '\n', '\r', '\t']
  · refine .inl ?_
    simp only [List.mem_cons, List.not_mem_nil, or_false] at short
    rcases short with rfl | rfl | rfl | rfl | rfl | rfl | rfl <;> exact ⟨_, rfl, by decide, rfl⟩
  · refine .inr ?_
    simp only [List.mem_cons, List.not_mem_nil, or_false, not_or] at short
    obtain ⟨quote, backslash, b, f, n, r, t⟩ := short
    rw [escapeChar, if_neg (not_or.mpr ⟨quote, backslash⟩), if_neg b, if_neg f, if_neg n, if_neg r,
      if_neg t]
    by_cases control : c.toNat < 0x20
    · exact .inl ⟨control, if_pos control⟩
    · exact .inr ⟨quote, backslash, control, if_neg control⟩

/-- A character of a string takes one turn of the reader, however it was written. -/
theorem readStringRest_escapeChar (fuel : Nat) (c : Char) (rest : List Char) (p : Place) :
    readStringRest (fuel + 1) ⟨escapeChar c ++ rest, p⟩ = do
      let (cs, s) ← readStringRest fuel ⟨rest, p.afterAll (escapeChar c)⟩
      return (c :: cs, s) := by
  rcases escapeChar_cases c with
    ⟨e, written, letter, value⟩ | ⟨control, written⟩ | ⟨quote, backslash, visible, written⟩
  · have read : readEscape ⟨e :: rest, p.after '\\'⟩ =
        .ok (c, ⟨rest, (p.after '\\').after e⟩) := by
      simp only [readEscape, if_neg letter, value]
      rfl
    rw [written]
    show ((readEscape ⟨e :: rest, p.after '\\'⟩ : Except JsonFault _) >>= _) = _
    rw [read]
    rfl
  · rw [written]
    show ((readEscape ⟨controlText c ++ rest, p.after '\\'⟩ : Except JsonFault _) >>= _) = _
    rw [readEscape_controlText control]
    rfl
  · rw [written, List.singleton_append, readStringRest]
    simp only [if_neg quote, if_neg backslash, if_neg visible]
    rfl

/-- A string is read back, from behind its opening quote up to what follows it. -/
theorem readStringRest_written {fuel : Nat} (cs rest : List Char) (p : Place)
    (enough : cs.length < fuel) :
    readStringRest fuel ⟨cs.flatMap escapeChar ++ '"' :: rest, p⟩ =
      .ok (cs, ⟨rest, p.afterAll (cs.flatMap escapeChar ++ ['"'])⟩) := by
  induction cs generalizing fuel p with
  | nil =>
    obtain _ | fuel := fuel
    · cases enough
    rfl
  | cons c cs ih =>
    obtain _ | fuel := fuel
    · cases enough
    rw [List.flatMap_cons, List.append_assoc, readStringRest_escapeChar,
      ih _ (Nat.lt_of_succ_lt_succ enough), List.append_assoc, Place.afterAll_append p]
    rfl

/-- Escaping never makes a text shorter, so the fuel that its length gives is enough. -/
theorem length_le_flatMap_escapeChar (cs : List Char) :
    cs.length ≤ (cs.flatMap escapeChar).length := by
  induction cs with
  | nil => exact Nat.le_refl 0
  | cons c cs ih =>
    have some : 0 < (escapeChar c).length := by
      rcases escapeChar_cases c with ⟨e, written, -⟩ | ⟨-, written⟩ | ⟨-, -, -, written⟩ <;>
        simp [written]
    rw [List.flatMap_cons, List.length_append, List.length_cons]
    omega

/-- What is written of a string behind its opening quote. -/
def afterQuote (s : String) : List Char := s.toList.flatMap escapeChar ++ ['"']

theorem string_eq (s : String) : string s = '"' :: afterQuote s := rfl

/-- A string is read back. -/
theorem readString_written (s : String) (rest : List Char) (p : Place) :
    readString ⟨afterQuote s ++ rest, p⟩ = .ok (s, ⟨rest, p.afterAll (afterQuote s)⟩) := by
  have text : afterQuote s ++ rest = s.toList.flatMap escapeChar ++ '"' :: rest := by
    rw [afterQuote, List.append_assoc, List.singleton_append]
  have enough : s.toList.length < (s.toList.flatMap escapeChar ++ '"' :: rest).length + 1 := by
    have fits := length_le_flatMap_escapeChar s.toList
    rw [List.length_append]
    omega
  rw [readString, text]
  simp only [readStringRest_written s.toList rest p enough]
  show Except.ok (String.ofList s.toList, _) = _
  rw [String.ofList_toList]
  rfl

/-! ## Numbers -/

/-- What can follow a value of an object. -/
def EndsValue (rest : List Char) : Prop := rest.head? = some ',' ∨ rest.head? = some '}'

/-- Behind a written value there is a comma or the end of its object. -/
theorem EndsValue.cases {rest : List Char} (ends : EndsValue rest) :
    ∃ c tail, rest = c :: tail ∧ (c = ',' ∨ c = '}') := by
  cases rest with
  | nil => rcases ends with ends | ends <;> cases ends
  | cons c tail => exact ⟨c, tail, rfl, ends.imp Option.some.inj Option.some.inj⟩

/-- A digit is none of the other characters that the reader looks for. -/
theorem ne_of_isDigit {c d : Char} (digit : c.isDigit = true) (other : d.isDigit = false) :
    c ≠ d := by
  rintro rfl
  rw [digit] at other
  cases other

/-- Adding digits never makes a number smaller. -/
theorem le_ofDigitChars (ds : List Char) (n : Nat) : n ≤ Nat.ofDigitChars 10 ds n := by
  induction ds generalizing n with
  | nil => exact Nat.le_refl n
  | cons d ds ih =>
    rw [Nat.ofDigitChars_cons]
    exact Nat.le_trans (by omega) (ih _)

/-- Digits are added up to the character after them, if the number stays within bounds. -/
theorem addDigits_go_written {max : Nat} {ds : List Char} (digits : ∀ d ∈ ds, d.isDigit = true)
    {value : Nat} (small : Nat.ofDigitChars 10 ds value ≤ max) (count : Nat) {rest : List Char}
    (ends : EndsValue rest) (p : Place) :
    addDigits.go max value count (ds ++ rest) p =
      ⟨Nat.ofDigitChars 10 ds value, count + ds.length, ⟨rest, p.afterAll ds⟩⟩ := by
  induction ds generalizing value count p with
  | nil =>
    obtain ⟨c, tail, rfl, stop⟩ := ends.cases
    have other : c.isDigit = false := by rcases stop with rfl | rfl <;> rfl
    rw [List.nil_append, addDigits.go, other]
    rfl
  | cons d ds ih =>
    rw [List.forall_mem_cons] at digits
    have zero : '0'.toNat = 48 := rfl
    have next : 10 * value + (d.toNat - '0'.toNat) = value * 10 + (d.toNat - 48) := by
      rw [zero, Nat.mul_comm]
    rw [Nat.ofDigitChars_cons, next] at small ⊢
    have within : value * 10 + (d.toNat - 48) ≤ max := Nat.le_trans (le_ofDigitChars ds _) small
    rw [List.cons_append, addDigits.go]
    simp only [digits.1, within, decide_true, Bool.and_self, if_true]
    rw [ih digits.2 small, List.length_cons, Place.afterAll_cons, Nat.add_right_comm, Nat.add_assoc]

/-- A number is written in decimal digits. -/
theorem nat_eq_toDigits (n : Nat) : nat n = Nat.toDigits 10 n := by
  rw [nat, Nat.toString_eq_ofList_toDigits, String.toList_ofList]

/-- Nothing but digits is written of a number. -/
theorem isDigit_of_mem_nat {n : Nat} {d : Char} (mem : d ∈ nat n) : d.isDigit = true := by
  rw [nat_eq_toDigits] at mem
  exact Nat.isDigit_of_mem_toDigits (by decide) (by decide) mem

/-- A number starts with a digit. -/
theorem nat_eq_cons (n : Nat) : ∃ d ds, nat n = d :: ds ∧ d.isDigit = true := by
  cases text : nat n with
  | nil =>
    rw [nat_eq_toDigits] at text
    exact absurd text Nat.toDigits_ne_nil
  | cons d ds =>
    have mem : d ∈ nat n := by rw [text]; exact List.mem_cons_self
    exact ⟨d, ds, rfl, isDigit_of_mem_nat mem⟩

/-- No number but zero is written with a zero in front. -/
theorem head?_nat_ne {n : Nat} (positive : 0 < n) : (nat n).head? ≠ some '0' := by
  rw [nat_eq_toDigits]
  induction n using Nat.strongRecOn with
  | _ n ih =>
    rw [Nat.toDigits_eq_if (by decide)]
    split
    next small =>
      have digits : ∀ d < 10, 0 < d → Nat.digitChar d ≠ '0' := by decide
      rw [List.head?_cons]
      exact fun same => digits n small positive (Option.some.inj same)
    next large =>
      have front := ih (n / 10) (by omega) (by omega)
      cases written : Nat.toDigits 10 (n / 10) with
      | nil => exact absurd written Nat.toDigits_ne_nil
      | cons d ds => rwa [written] at front

/-- A written number ends where its digits end: neither a fraction nor an exponent follows. -/
theorem readNumberEnd_written (n : Nat) {rest : List Char} (ends : EndsValue rest) (p : Place) :
    readNumberEnd true n ⟨rest, p⟩ = .ok (.nat n, ⟨rest, p⟩) := by
  obtain ⟨c, tail, rfl, stop⟩ := ends.cases
  rcases stop with rfl | rfl <;> rfl

/-- A number that 64 bits hold is read back. -/
theorem readNumber_written {n : Nat} (small : n ≤ wordMax) {rest : List Char}
    (ends : EndsValue rest) (p : Place) :
    readNumber true ⟨nat n ++ rest, p⟩ = .ok (.nat n, ⟨rest, p.afterAll (nat n)⟩) := by
  have back : Nat.ofDigitChars 10 (nat n) 0 = n := by
    rw [nat_eq_toDigits, Nat.ofDigitChars_ten_toDigits]
  have stop : ∀ q, atDigit ⟨rest, q⟩ = false := by
    obtain ⟨c, tail, rfl, stop⟩ := ends.cases
    rcases stop with rfl | rfl <;> exact fun q => rfl
  obtain zero | positive := Nat.eq_zero_or_pos n
  · subst zero
    show (if atDigit ⟨rest, p.after '0'⟩ = true then _ else readNumberEnd true 0 ⟨rest, _⟩) = _
    rw [stop, if_neg Bool.false_ne_true]
    exact readNumberEnd_written 0 ends _
  · have fits : Nat.ofDigitChars 10 (nat n) 0 ≤ wordMax := by rwa [back]
    have added := addDigits_go_written (fun d mem => isDigit_of_mem_nat mem) fits 0 ends p
    have nonzero := head?_nat_ne positive
    obtain ⟨d, ds, text, digit⟩ := nat_eq_cons n
    rw [back] at added
    rw [text] at nonzero added ⊢
    have first : d ≠ '0' := fun same => nonzero (by rw [same, List.head?_cons])
    have sum : addDigits wordMax 0 ⟨d :: ds ++ rest, p⟩ =
      ⟨n, 0 + (d :: ds).length, ⟨rest, p.afterAll (d :: ds)⟩⟩ := added
    rw [readNumber, List.cons_append]
    simp only [if_neg first, digit, if_true]
    rw [← List.cons_append, sum]
    simp only [stop, Bool.false_eq_true, if_false]
    exact readNumberEnd_written n ends _

/-! ## Objects -/

/-- A text is what is written of a value in an object. -/
def Writes (text : List Char) (v : Json) : Prop :=
  ∀ fuel depth rest p, EndsValue rest →
    readValue (fuel + 1) depth ⟨text ++ rest, p⟩ = .ok (v, ⟨rest, p.afterAll text⟩)

/-- A string that was written is read back. -/
theorem writes_string (s : String) : Writes (string s) (.string s) := by
  intro fuel depth rest p _
  rw [string_eq, List.cons_append, readValue, skipSpace_of_visible rfl]
  show ((readString ⟨afterQuote s ++ rest, p.after '"'⟩ : Except JsonFault _) >>= _) = _
  rw [readString_written]
  rfl

/-- A truth value that was written is read back. -/
theorem writes_bool (b : Bool) : Writes (bool b) (.bool b) := by
  intro fuel depth rest p _
  cases b <;> rfl

/-- What follows a value in an object: the end, or a comma and more members. -/
theorem endsValue_moreMembers (members : List (String × List Char)) (rest : List Char) :
    EndsValue (moreMembers members ++ rest) := by
  cases members with
  | nil => exact .inr rfl
  | cons m members => exact .inl rfl

/-- A new name goes behind the others. -/
theorem setMember_of_not_mem {name : String} (v : Json) {members : List (String × Json)}
    (fresh : name ∉ members.map Prod.fst) :
    Json.setMember name v members = members ++ [(name, v)] := by
  induction members with
  | nil => rfl
  | cons m members ih =>
    rw [List.map_cons, List.mem_cons, not_or] at fresh
    rw [Json.setMember, if_neg (Ne.symm fresh.1), ih fresh.2, List.cons_append]

/-- What is written of a member behind its opening quote. -/
def memberText (m : String × List Char) : List Char := afterQuote m.1 ++ ':' :: m.2

/-- The parts of a written member, in the order in which they are read. -/
theorem memberText_append (m : String × List Char) (rest : List Char) :
    memberText m ++ rest = afterQuote m.1 ++ ':' :: (m.2 ++ rest) := by
  rw [memberText, List.append_assoc, List.cons_append]

/-- The place behind a written member is reached part by part. -/
theorem afterAll_memberText (m : String × List Char) (p : Place) :
    p.afterAll (memberText m) = ((p.afterAll (afterQuote m.1)).after ':').afterAll m.2 := by
  rw [memberText, Place.afterAll_append, Place.afterAll_cons]

/-- Each further member has a comma before it. -/
theorem moreMembers_cons (m : String × List Char) (members : List (String × List Char)) :
    moreMembers (m :: members) = ',' :: '"' :: (memberText m ++ moreMembers members) := by
  simp [moreMembers, memberText, string_eq]

/-- The first member of an object has no comma before it. -/
theorem object_cons (m : String × List Char) (members : List (String × List Char)) :
    object (m :: members) = '{' :: '"' :: (memberText m ++ moreMembers members) := by
  simp [object, memberText, string_eq]

/-- One member is read and set, and reading goes on behind it. -/
theorem readMembers_member {s : Scanner} {first : Bool} {name : String} {text rest : List Char}
    {p : Place} (opened : s.nextName first = .ok (true, ⟨memberText (name, text) ++ rest, p⟩))
    {v : Json} (writes : Writes text v) (ends : EndsValue rest) (fuel depth : Nat)
    (acc : List (String × Json)) :
    readMembers (fuel + 2) depth first acc s =
      readMembers (fuel + 1) depth false (Json.setMember name v acc)
        ⟨rest, p.afterAll (memberText (name, text))⟩ := by
  rw [readMembers, opened, memberText_append, afterAll_memberText]
  show ((readString ⟨afterQuote name ++ ':' :: (text ++ rest), p⟩ : Except JsonFault _) >>= _) = _
  rw [readString_written]
  show ((readValue (fuel + 1) depth ⟨text ++ rest, (p.afterAll (afterQuote name)).after ':'⟩ :
    Except JsonFault _) >>= _) = _
  rw [writes fuel depth rest _ ends]
  rfl

/-- The members of an object are read back in their order, if their names are distinct. -/
theorem readMembers_more {members : List (String × List Char)} {values : List (String × Json)}
    (written : List.Forall₂ (fun m v => m.1 = v.1 ∧ Writes m.2 v.2) members values)
    {acc : List (String × Json)} (distinct : ((acc ++ values).map Prod.fst).Nodup) {fuel : Nat}
    (enough : members.length < fuel) (depth : Nat) (rest : List Char) (p : Place) :
    readMembers (fuel + 1) depth false acc ⟨moreMembers members ++ rest, p⟩ =
      .ok (acc ++ values, ⟨rest, p.afterAll (moreMembers members)⟩) := by
  induction written generalizing acc fuel p with
  | nil =>
    rw [List.append_nil]
    rfl
  | @cons m v members values head _ ih =>
    obtain ⟨name, text⟩ := m
    obtain ⟨_, value⟩ := v
    obtain ⟨rfl, writes⟩ := head
    obtain _ | fuel := fuel
    · cases enough
    rw [List.append_cons] at distinct
    have fresh : name ∉ acc.map Prod.fst := by
      rw [List.map_append, List.map_append] at distinct
      have apart := (List.nodup_append.mp (List.nodup_append.mp distinct).1).2.2
      exact fun mem => apart name mem name (by simp) rfl
    have opened : nextName false ⟨',' :: '"' :: (memberText (name, text) ++
        (moreMembers members ++ rest)), p⟩ =
          .ok (true, ⟨memberText (name, text) ++ (moreMembers members ++ rest),
            (p.after ',').after '"'⟩) := rfl
    rw [moreMembers_cons, List.cons_append, List.cons_append, List.append_assoc,
      readMembers_member opened writes (endsValue_moreMembers members rest),
      setMember_of_not_mem value fresh, ih distinct (Nat.lt_of_succ_lt_succ enough),
      List.append_assoc, List.singleton_append, Place.afterAll_cons, Place.afterAll_cons,
      Place.afterAll_append]

/-- An object is read back, if there is a level left for it. -/
theorem readValue_object {m : String × List Char} {members : List (String × List Char)}
    {values : List (String × Json)}
    (written : List.Forall₂ (fun m v => m.1 = v.1 ∧ Writes m.2 v.2) (m :: members) values)
    (distinct : (values.map Prod.fst).Nodup) {fuel depth : Nat} (enough : members.length < fuel)
    (level : 1 < depth) (rest : List Char) (p : Place) :
    readValue (fuel + 3) depth ⟨object (m :: members) ++ rest, p⟩ =
      .ok (.object values, ⟨rest, p.afterAll (object (m :: members))⟩) := by
  obtain ⟨name, text⟩ := m
  cases written with
  | @cons _ v _ values head more =>
    obtain ⟨_, value⟩ := v
    obtain ⟨rfl, writes⟩ := head
    have opened : nextName true ⟨'"' :: (memberText (name, text) ++ (moreMembers members ++ rest)),
        p.after '{'⟩ = .ok (true, ⟨memberText (name, text) ++ (moreMembers members ++ rest),
          (p.after '{').after '"'⟩) := rfl
    have first := readMembers_member opened writes (endsValue_moreMembers members rest) fuel
      (depth - 1) []
    have others := @readMembers_more _ _ more [(name, value)] distinct _ enough (depth - 1) rest
      (((p.after '{').after '"').afterAll (memberText (name, text)))
    rw [object_cons, List.cons_append, List.cons_append, List.append_assoc, readValue,
      skipSpace_of_visible rfl]
    show (if depth ≤ 1 then _ else readMembers (fuel + 2) (depth - 1) true []
      ⟨'"' :: (memberText (name, text) ++ (moreMembers members ++ rest)), p.after '{'⟩ >>= _) = _
    rw [if_neg (Nat.not_le_of_gt level), first]
    show (readMembers (fuel + 1) (depth - 1) false [(name, value)] _ >>= _) = _
    rw [others, Place.afterAll_cons, Place.afterAll_cons, Place.afterAll_append]
    rfl

/-- The text of an object is longer than the object has members. -/
theorem length_lt_moreMembers (members : List (String × List Char)) :
    members.length < (moreMembers members).length := by
  induction members with
  | nil => decide
  | cons m members ih =>
    rw [moreMembers_cons, List.length_cons, List.length_cons, List.length_cons, List.length_append]
    omega

end Scanner

/-- A text that is an object, written member by member, is read as the object of their values. -/
theorem Json.parse_object {m : String × List Char} {members : List (String × List Char)}
    {values : List (String × Json)}
    (written : List.Forall₂ (fun m v => m.1 = v.1 ∧ Scanner.Writes m.2 v.2) (m :: members) values)
    (distinct : (values.map Prod.fst).Nodup) :
    Json.parse (String.ofList (JsonText.object (m :: members))) = .ok (.object values) := by
  have room := Scanner.length_lt_moreMembers members
  have fuel : Scanner.fuel ⟨JsonText.object (m :: members), ⟨1, 0⟩⟩ =
      2 * (Scanner.memberText m ++ JsonText.moreMembers members).length + 3 + 3 := by
    rw [Scanner.fuel, Scanner.object_cons, List.length_cons, List.length_cons]
    omega
  have enough : members.length <
      2 * (Scanner.memberText m ++ JsonText.moreMembers members).length + 3 := by
    rw [List.length_append]
    omega
  have read := Scanner.readValue_object written distinct enough
    (show 1 < Scanner.depthLimit by decide) [] ⟨1, 0⟩
  rw [List.append_nil] at read
  rw [Json.parse, Scanner.ofString, String.toList_ofList]
  simp only [fuel, read]
  rfl

end PatternGate
