import PatternGate.Proofs.Json.Numbers
import PatternGate.Proofs.Json.Strings

/-!
# Values of a spelling

Reading a value and passing over it agree on where it ends. They do not agree on what they take:
every spelling is passed over (`skipValue_spelled`), while it is read only if it has a value and
does not go too deep (`readValue_spelled`). Both follow the spelling by mutual induction over
values, items and members. Reading recurses with it, so that as much fuel as there are characters is
enough. Passing over keeps what is open on a stack and never returns, so that the fuel of one part
is what the part before has left over.
-/

namespace PatternGate

namespace Scanner

/-! ## What comes next -/

/-- White space hides nothing that goes on. -/
theorem stops_gap {q : Char → Bool} (hidden : ∀ c, isJsonSpace c = true → q c = false) (gap : Gap)
    {rest : List Char} (stops : Stops q rest) : Stops q (gap.chars ++ rest) := by
  obtain ⟨chars, space⟩ := gap
  cases chars with
  | nil => exact stops
  | cons c chars =>
    intro d next
    cases next
    exact hidden c (space c List.mem_cons_self)

/-- No number goes on after white space. -/
theorem endsNumber_space (gap : Gap) {rest : List Char} (ends : EndsNumber rest) :
    EndsNumber (gap.chars ++ rest) := by
  refine stops_gap (fun c space => ?_) gap ends
  simp only [isJsonSpace, Bool.or_eq_true, decide_eq_true_eq] at space
  rcases space with ((rfl | rfl) | rfl) | rfl <;> decide

/-- No number goes on after a character that closes or divides. -/
theorem endsNumber_gap (gap : Gap) {c : Char} (closes : c = ',' ∨ c = ']' ∨ c = '}')
    (rest : List Char) : EndsNumber (gap.chars ++ c :: rest) := by
  refine endsNumber_space gap ?_
  rintro c ⟨⟩
  rcases closes with rfl | rfl | rfl <;> decide

/-- Behind an item there is a comma or the end of the list, so no number goes on. -/
theorem endsNumber_items (items : ItemSpellings) (rest : List Char) :
    EndsNumber (items.text false ++ rest) := by
  cases items with
  | close gap =>
    rw [ItemSpellings.text, List.append_assoc]
    exact endsNumber_gap gap (by decide) _
  | cons comma before value more =>
    rw [ItemSpellings.text, leadIn, List.append_assoc, List.append_assoc]
    exact endsNumber_gap comma (by decide) _

/-- Behind a member there is a comma or the end of the object, so no number goes on. -/
theorem endsNumber_members (members : MemberSpellings) (rest : List Char) :
    EndsNumber (members.text false ++ rest) := by
  cases members with
  | close gap =>
    rw [MemberSpellings.text, List.append_assoc]
    exact endsNumber_gap gap (by decide) _
  | cons comma before name colon after value more =>
    rw [MemberSpellings.text, leadIn, List.append_assoc, List.append_assoc]
    exact endsNumber_gap comma (by decide) _

/-- A character that a value can start with: it neither is white space nor closes or divides. -/
structure Opens (c : Char) : Prop where
  visible : isJsonSpace c = false
  bracket : c ≠ ']'
  comma : c ≠ ','

/-- A digit can start a value. -/
theorem opens_of_isDigit {d : Char} (digit : d.isDigit = true) : Opens d where
  visible := by
    simp [isJsonSpace, ne_of_isDigit digit (show ' '.isDigit = false from rfl),
      ne_of_isDigit digit (show '\n'.isDigit = false from rfl),
      ne_of_isDigit digit (show '\t'.isDigit = false from rfl),
      ne_of_isDigit digit (show '\r'.isDigit = false from rfl)]
  bracket := ne_of_isDigit digit rfl
  comma := ne_of_isDigit digit rfl

/-- A number starts with a digit, if not with its sign. -/
theorem unsigned_eq_cons (n : NumberSpelling) : ∃ d tail, n.unsigned = d :: tail ∧
    d.isDigit = true := by
  obtain ⟨d, ds, run, digit⟩ := DigitRun.cases n.whole
  exact ⟨d, _, by rw [NumberSpelling.unsigned, run]; rfl, digit⟩

/-- Every value starts with a character that opens one. The readers decide by it what comes. -/
theorem text_eq_cons (w : Spelling) : ∃ c tail, w.text = c :: tail ∧ Opens c := by
  cases w with
  | number n =>
    rw [Spelling.text, NumberSpelling.text]
    split
    · exact ⟨_, _, rfl, by decide, by decide, by decide⟩
    · obtain ⟨d, tail, written, digit⟩ := unsigned_eq_cons n
      exact ⟨d, tail, written, opens_of_isDigit digit⟩
  | bool b => cases b <;> exact ⟨_, _, rfl, by decide, by decide, by decide⟩
  | _ => exact ⟨_, _, rfl, by decide, by decide, by decide⟩

/-- White space before a value ends where the value starts. -/
theorem stops_text (w : Spelling) (rest : List Char) : Stops isJsonSpace (w.text ++ rest) := by
  obtain ⟨c, tail, written, opens⟩ := text_eq_cons w
  rw [written]
  rintro d ⟨⟩
  exact opens.visible

/-- A value takes at least one character, and so at least one unit of fuel. -/
theorem length_text_pos (w : Spelling) : 0 < w.text.length := by
  obtain ⟨c, tail, written, -⟩ := text_eq_cons w
  rw [written]
  exact Nat.zero_lt_succ _

/-- Where no white space comes next, none is passed over. -/
theorem skipSpace_of_stops {rest : List Char} (visible : Stops isJsonSpace rest) (p : Place) :
    skipSpace ⟨rest, p⟩ = ⟨rest, p⟩ :=
  skipSpace_gap ⟨[], nofun⟩ visible p

/-- White space before a value is passed over when the value is read. -/
theorem readValue_gap (gap : Gap) {rest : List Char} (visible : Stops isJsonSpace rest) (p : Place)
    (fuel depth : Nat) :
    readValue (fuel + 1) depth ⟨gap.chars ++ rest, p⟩ =
      readValue (fuel + 1) depth ⟨rest, p.afterAll gap.chars⟩ := by
  rw [readValue, readValue, skipSpace_gap gap visible, skipSpace_of_stops visible]

/-- What stands before the first part is white space. -/
theorem skipSpace_leadIn (comma before : Gap) {rest : List Char} (visible : Stops isJsonSpace rest)
    (p : Place) : skipSpace ⟨leadIn comma before true ++ rest, p⟩ =
      ⟨rest, p.afterAll (leadIn comma before true)⟩ :=
  skipSpace_gap ⟨comma.chars ++ before.chars,
    List.forall_mem_append.mpr ⟨comma.space, before.space⟩⟩ visible p

theorem leadIn_false (comma before : Gap) :
    leadIn comma before false = comma.chars ++ ',' :: before.chars := rfl

/-- A list ends at its bracket, with any white space before it. -/
theorem nextItem_close (gap : Gap) (first : Bool) (rest : List Char) (p : Place) :
    nextItem first ⟨gap.chars ++ ']' :: rest, p⟩ =
      .ok (false, ⟨']' :: rest, p.afterAll gap.chars⟩) := by
  rw [nextItem, skipSpace_gap gap (by rintro c ⟨⟩; rfl)]
  rfl

/-- A list goes on to the start of the next item, behind a comma unless it is the first. -/
theorem nextItem_open (comma before : Gap) (first : Bool) (w : Spelling) (rest : List Char)
    (p : Place) :
    nextItem first ⟨leadIn comma before first ++ (w.text ++ rest), p⟩ =
      .ok (true, ⟨w.text ++ rest, p.afterAll (leadIn comma before first)⟩) := by
  have visible := stops_text w rest
  obtain ⟨c, tail, text, opens⟩ := text_eq_cons w
  rw [text, List.cons_append] at visible ⊢
  cases first with
  | true =>
    rw [nextItem, skipSpace_leadIn comma before visible]
    dsimp only
    rw [if_neg opens.bracket, if_pos rfl]
  | false =>
    rw [leadIn_false, List.append_assoc, List.cons_append, nextItem,
      skipSpace_gap comma (by rintro c ⟨⟩; rfl)]
    dsimp only
    rw [if_neg (by decide), if_neg (by decide), if_pos rfl, bump_cons, skipSpace_gap before visible]
    dsimp only
    rw [if_neg opens.bracket, Place.afterAll_append, Place.afterAll_cons]

/-- An object ends at its brace, with any white space before it. -/
theorem nextName_close (gap : Gap) (first : Bool) (rest : List Char) (p : Place) :
    nextName first ⟨gap.chars ++ '}' :: rest, p⟩ =
      .ok (false, ⟨'}' :: rest, p.afterAll gap.chars⟩) := by
  rw [nextName, skipSpace_gap gap (by rintro c ⟨⟩; rfl)]
  rfl

/-- An object goes on behind the opening quote of the next name. -/
theorem nextName_open (comma before : Gap) (first : Bool) (rest : List Char) (p : Place) :
    nextName first ⟨leadIn comma before first ++ '"' :: rest, p⟩ =
      .ok (true, ⟨rest, (p.afterAll (leadIn comma before first)).after '"'⟩) := by
  have visible : Stops isJsonSpace ('"' :: rest) := by rintro d ⟨⟩; rfl
  cases first with
  | true =>
    rw [nextName, skipSpace_leadIn comma before visible]
    rfl
  | false =>
    rw [leadIn_false, List.append_assoc, List.cons_append, nextName,
      skipSpace_gap comma (by rintro c ⟨⟩; rfl)]
    dsimp only
    rw [if_neg (by decide), if_neg (by decide), if_pos rfl, bump_cons, skipSpace_gap before visible,
      Place.afterAll_append, Place.afterAll_cons]
    rfl

/-- The colon between a name and a value can have white space before it. -/
theorem readColon_gap (gap : Gap) (rest : List Char) (p : Place) :
    readColon ⟨gap.chars ++ ':' :: rest, p⟩ =
      .ok ⟨rest, (p.afterAll gap.chars).after ':'⟩ := by
  rw [readColon, skipSpace_gap gap (by rintro c ⟨⟩; rfl)]
  rfl

/-! ## Reading -/

/-- A number is read where a value is asked for, with its sign or without. -/
theorem readValue_number (n : NumberSpelling) {rest : List Char} (ends : EndsNumber rest)
    (fuel depth : Nat) (p : Place) :
    Reads (readValue (fuel + 1) depth ⟨n.text ++ rest, p⟩) (n.value?.map .number)
      ⟨rest, p.afterAll n.text⟩ := by
  have read := fun q => readNumber_spelled n ends q
  rw [NumberSpelling.text]
  cases sign : n.negative with
  | true =>
    rw [sign] at read
    rw [if_pos rfl, List.cons_append, readValue, skipSpace_of_visible rfl]
    exact (read (p.after '-')).map fun _ => rfl
  | false =>
    rw [sign] at read
    obtain ⟨d, tail, written, digit⟩ := unsigned_eq_cons n
    have other : ∀ c : Char, c.isDigit = false → d ≠ c := fun c => ne_of_isDigit digit
    rw [written, List.cons_append] at read
    rw [if_neg (by decide), written, List.cons_append, readValue,
      skipSpace_of_visible (opens_of_isDigit digit).visible]
    dsimp only
    rw [if_neg (other 'n' rfl), if_neg (other 't' rfl), if_neg (other 'f' rfl),
      if_neg (other '-' rfl), if_pos digit]
    exact (read p).map fun _ => rfl

/-- A value that has not too many levels. -/
def within {α : Type} (depth levels : Nat) (value : Option α) : Option α :=
  if levels < depth then value else none

/-- Changing a value does not change its depth. -/
theorem within_map {α β : Type} (depth levels : Nat) (value : Option α) (f : α → β) :
    within depth levels (value.map f) = (within depth levels value).map f := by
  unfold within
  split <;> rfl

/-- A part without levels of its own can be read first. -/
theorem within_bind {α β : Type} (depth levels : Nat) (value : Option α) (next : α → Option β) :
    within depth levels (value.bind next) = value.bind fun v => within depth levels (next v) := by
  cases value with
  | none => exact ite_self none
  | some v => rfl

/-- Two parts are within bounds if each of them is. -/
theorem within_max {α β : Type} (depth a b : Nat) (value : Option α) (next : α → Option β) :
    within depth (max a b) (value.bind next) =
      (within depth a value).bind fun v => within depth b (next v) := by
  unfold within
  by_cases first : a < depth
  · by_cases second : b < depth
    · rw [if_pos first, if_pos (Nat.max_lt.mpr ⟨first, second⟩)]
      simp only [if_pos second]
    · rw [if_pos first, if_neg fun both => second (Nat.max_lt.mp both).2]
      cases value <;> simp [second]
  · rw [if_neg first, if_neg fun both => first (Nat.max_lt.mp both).1]
    rfl

/-- One level takes one from the depth that is left. -/
theorem within_succ {α : Type} {depth : Nat} (levels : Nat) (value : Option α) :
    within depth (levels + 1) value = within (depth - 1) levels value := by
  unfold within
  congr 1
  exact propext Nat.lt_sub_iff_add_lt.symm

/-- Even an empty list takes a character to end. -/
theorem length_items_pos (items : ItemSpellings) (first : Bool) :
    0 < (items.text first).length := by
  cases items with
  | close gap => simp [ItemSpellings.text]
  | cons comma before value rest =>
    have some := length_text_pos value
    simp only [ItemSpellings.text, List.length_append]
    omega

/-- Even an empty object takes a character to end. -/
theorem length_members_pos (members : MemberSpellings) (first : Bool) :
    0 < (members.text first).length := by
  cases members <;> simp only [MemberSpellings.text, List.length_append, List.length_cons] <;> omega

section

variable (comma before : Gap) (name : StringSpelling) (colon after : Gap) (value : Spelling)
  (more : MemberSpellings) (first : Bool)

/-- The parts of a member, in the order in which they are read. -/
theorem members_text_append (rest : List Char) :
    (MemberSpellings.cons comma before name colon after value more).text first ++ rest =
      leadIn comma before first ++ '"' :: (name.text ++ (colon.chars ++
        ':' :: (after.chars ++ (value.text ++ (more.text false ++ rest))))) := by
  simp [MemberSpellings.text]

/-- The place behind a member is reached part by part. -/
theorem afterAll_members_text (p : Place) :
    p.afterAll ((MemberSpellings.cons comma before name colon after value more).text first) =
      (((((((p.afterAll (leadIn comma before first)).after '"').afterAll name.text).afterAll
        colon.chars).after ':').afterAll after.chars).afterAll value.text).afterAll
        (more.text false) := by
  simp [MemberSpellings.text, Place.afterAll_append, Place.afterAll_cons]

end

mutual

/-- A value is read if it is one and goes no deeper than is allowed. -/
theorem readValue_spelled (w : Spelling) {fuel depth : Nat} {rest : List Char} {p : Place}
    (enough : w.text.length ≤ fuel) (room : 0 < depth) (ends : EndsNumber rest) :
    Reads (readValue fuel depth ⟨w.text ++ rest, p⟩) (within depth w.levels w.value?)
      ⟨rest, p.afterAll w.text⟩ := by
  obtain _ | fuel := fuel
  · exact absurd (length_text_pos w) (Nat.not_lt_of_ge enough)
  cases w with
  | null =>
    rw [Spelling.levels, within, if_pos room]
    exact rfl
  | bool b =>
    rw [Spelling.levels, within, if_pos room]
    cases b <;> exact rfl
  | number n =>
    rw [Spelling.levels, within, if_pos room]
    exact readValue_number n ends fuel depth p
  | string s =>
    rw [Spelling.levels, within, if_pos room]
    exact (readString_spelled s rest (p.after '"')).map fun _ => rfl
  | list items =>
    have enough : (items.text true).length ≤ fuel := Nat.le_of_succ_le_succ enough
    have turn : readValue (fuel + 1) depth ⟨'[' :: (items.text true ++ rest), p⟩ =
        if depth ≤ 1 then faultNext ⟨'[' :: (items.text true ++ rest), p⟩ .recursionLimit
        else do
          let (vs, s) ← readItems fuel (depth - 1) true ⟨items.text true ++ rest, p.after '['⟩
          return (.array vs, s) := by
      rw [readValue, skipSpace_of_visible rfl]
      rfl
    rw [Spelling.text, List.cons_append, turn, Spelling.levels, Spelling.value?, within_succ,
      within_map]
    by_cases deep : depth ≤ 1
    · rw [if_pos deep, within, if_neg (by omega)]
      exact ⟨_, rfl, rfl⟩
    · rw [if_neg deep]
      exact (readItems_spelled items enough (by omega)).map fun _ => rfl
  | object members =>
    have enough : (members.text true).length ≤ fuel := Nat.le_of_succ_le_succ enough
    have turn : readValue (fuel + 1) depth ⟨'{' :: (members.text true ++ rest), p⟩ =
        if depth ≤ 1 then faultNext ⟨'{' :: (members.text true ++ rest), p⟩ .recursionLimit
        else do
          let (ms, s) ← readMembers fuel (depth - 1) true []
            ⟨members.text true ++ rest, p.after '{'⟩
          return (.object ms, s) := by
      rw [readValue, skipSpace_of_visible rfl]
      rfl
    rw [Spelling.text, List.cons_append, turn, Spelling.levels, Spelling.value?, within_succ,
      within_map]
    by_cases deep : depth ≤ 1
    · rw [if_pos deep, within, if_neg (by omega)]
      exact ⟨_, rfl, rfl⟩
    · rw [if_neg deep]
      exact (readMembers_spelled members enough (by omega)).map fun _ => rfl

/-- Items are read if each of them is. -/
theorem readItems_spelled (items : ItemSpellings) {fuel depth : Nat} {first : Bool}
    {rest : List Char} {p : Place} (enough : (items.text first).length ≤ fuel) (room : 0 < depth) :
    Reads (readItems fuel depth first ⟨items.text first ++ rest, p⟩)
      (within depth items.levels items.values?) ⟨rest, p.afterAll (items.text first)⟩ := by
  obtain _ | fuel := fuel
  · exact absurd (length_items_pos items first) (Nat.not_lt_of_ge enough)
  cases items with
  | close gap =>
    rw [ItemSpellings.text, List.append_assoc, readItems, List.singleton_append, nextItem_close,
      Place.afterAll_append, ItemSpellings.levels, within, if_pos room]
    exact rfl
  | cons comma before value more =>
    have some := length_text_pos value
    have others := length_items_pos more false
    simp only [ItemSpellings.text, List.length_append] at enough
    rw [ItemSpellings.text, List.append_assoc, List.append_assoc, readItems, nextItem_open,
      ItemSpellings.levels, ItemSpellings.values?, within_max, Place.afterAll_append,
      Place.afterAll_append]
    refine (readValue_spelled value (by omega) room (endsNumber_items more rest)).bind fun v => ?_
    rw [within_map]
    exact (readItems_spelled more (by omega) room).map fun _ => rfl

/-- Members are read if their names and values are. -/
theorem readMembers_spelled (members : MemberSpellings) {fuel depth : Nat} {first : Bool}
    {acc : List (String × Json)} {rest : List Char} {p : Place}
    (enough : (members.text first).length ≤ fuel) (room : 0 < depth) :
    Reads (readMembers fuel depth first acc ⟨members.text first ++ rest, p⟩)
      (within depth members.levels (members.values? acc))
      ⟨rest, p.afterAll (members.text first)⟩ := by
  obtain _ | fuel := fuel
  · exact absurd (length_members_pos members first) (Nat.not_lt_of_ge enough)
  cases members with
  | close gap =>
    rw [MemberSpellings.text, List.append_assoc, readMembers, List.singleton_append, nextName_close,
      Place.afterAll_append, MemberSpellings.levels, within, if_pos room]
    exact rfl
  | cons comma before name colon after value more =>
    simp only [MemberSpellings.text, List.length_append, List.length_cons] at enough
    rw [members_text_append, afterAll_members_text, readMembers, nextName_open,
      MemberSpellings.levels, MemberSpellings.values?, within_bind]
    refine (readString_spelled name _ _).bind fun n => ?_
    dsimp only
    rw [readColon_gap, within_max]
    have gap := readValue_gap after (stops_text value (more.text false ++ rest))
    obtain _ | fuel := fuel
    · omega
    show Reads (readValue (fuel + 1) depth _ >>= _) _ _
    rw [gap]
    refine (readValue_spelled value (by omega) room (endsNumber_members more rest)).bind fun v => ?_
    exact readMembers_spelled more (by omega) room

end

/-! ## Passing over -/

/-- White space before a value is passed over when the value is. -/
theorem skipValueIn_gap (gap : Gap) {rest : List Char} (visible : Stops isJsonSpace rest)
    (p : Place) (fuel : Nat) (stack : List Enclosure) :
    skipValueIn (fuel + 1) stack ⟨gap.chars ++ rest, p⟩ =
      skipValueIn (fuel + 1) stack ⟨rest, p.afterAll gap.chars⟩ := by
  rw [skipValueIn, skipValueIn, skipSpace_gap gap visible, skipSpace_of_stops visible]

/-- The name of a member is passed over with its colon. -/
theorem skipName_spelled (gap : Gap) (name : StringSpelling) (colon : Gap) (rest : List Char)
    (p : Place) :
    skipName .object ⟨gap.chars ++ '"' :: (name.text ++ (colon.chars ++ ':' :: rest)), p⟩ =
      .ok ⟨rest, ((((p.afterAll gap.chars).after '"').afterAll name.text).afterAll
        colon.chars).after ':'⟩ := by
  rw [skipName, skipSpace_gap gap (by rintro c ⟨⟩; rfl)]
  dsimp only
  rw [if_pos rfl, bump_cons, skipString_spelled]
  exact readColon_gap colon rest _

/-- A value without parts takes one turn. -/
theorem skipValueIn_scalar {c : Char} (opens : Opens c) (list : c ≠ '[') (object : c ≠ '{')
    {rest : List Char} {p : Place} {stop : Scanner}
    (skipped : skipScalar c ⟨c :: rest, p⟩ = .ok stop) (fuel : Nat) (stack : List Enclosure) :
    skipValueIn (fuel + 1) stack ⟨c :: rest, p⟩ = skipRest fuel true stack stop := by
  rw [skipValueIn, skipSpace_of_visible opens.visible]
  dsimp only
  rw [if_neg list, if_neg object, skipped]
  rfl

/-- A number takes one turn to pass over, whatever its size. -/
theorem skipValueIn_number (n : NumberSpelling) {rest : List Char} (ends : EndsNumber rest)
    (fuel : Nat) (stack : List Enclosure) (p : Place) :
    skipValueIn (fuel + 1) stack ⟨n.text ++ rest, p⟩ =
      skipRest fuel true stack ⟨rest, p.afterAll n.text⟩ := by
  have skipped := fun q => skipNumber_spelled n ends q
  rw [NumberSpelling.text]
  cases n.negative with
  | true =>
    exact skipValueIn_scalar (c := '-') ⟨by decide, by decide, by decide⟩ (by decide) (by decide)
      (skipped (p.after '-')) fuel stack
  | false =>
    obtain ⟨d, tail, written, digit⟩ := unsigned_eq_cons n
    have other : ∀ c : Char, c.isDigit = false → d ≠ c := fun c => ne_of_isDigit digit
    rw [written, List.cons_append] at skipped
    rw [if_neg (by decide), written, List.cons_append]
    refine skipValueIn_scalar (opens_of_isDigit digit) (other '[' rfl) (other '{' rfl) ?_ fuel stack
    rw [skipScalar, if_neg (other 'n' rfl), if_neg (other 't' rfl), if_neg (other 'f' rfl),
      if_neg (other '-' rfl), if_pos digit]
    exact skipped p

/-- The turn that leads to an item or a member, if the way from there on to its value is known. -/
theorem skipRest_open {e : Enclosure} {c : Char} (visible : isJsonSpace c = false)
    (opens : c ≠ e.close) {text body : List Char} {f : Place → Place} {fuel : Nat}
    {stack : List Enclosure}
    (next : ∀ (gap : Gap) (q : Place),
      (skipName e ⟨gap.chars ++ c :: text, q⟩ >>= skipValueIn fuel (e :: stack)) =
        skipValueIn fuel (e :: stack) ⟨body, f (q.afterAll gap.chars)⟩)
    (comma before : Gap) (first : Bool) (p : Place) :
    skipRest (fuel + 1) (!first) (e :: stack) ⟨leadIn comma before first ++ c :: text, p⟩ =
      skipValueIn fuel (e :: stack) ⟨body, f (p.afterAll (leadIn comma before first))⟩ := by
  have stops : Stops isJsonSpace (c :: text) := by rintro d ⟨⟩; exact visible
  cases first with
  | true =>
    rw [skipRest, skipSpace_leadIn comma before stops]
    dsimp only
    rw [if_neg (by simp), if_neg opens, if_neg (by decide)]
    exact next ⟨[], nofun⟩ _
  | false =>
    rw [leadIn_false, List.append_assoc, List.cons_append, skipRest,
      skipSpace_gap comma (by rintro c ⟨⟩; rfl)]
    dsimp only
    rw [if_pos ⟨rfl, rfl⟩, bump_cons, Place.afterAll_append, Place.afterAll_cons]
    exact next before _

/-- The turn that closes a list or an object. -/
theorem skipRest_close (gap : Gap) (e : Enclosure) (fuel : Nat) (comma : Bool)
    (stack : List Enclosure) (rest : List Char) (p : Place) :
    skipRest (fuel + 1) comma (e :: stack) ⟨gap.chars ++ e.close :: rest, p⟩ =
      skipRest fuel true stack ⟨rest, (p.afterAll gap.chars).after e.close⟩ := by
  have other : ¬ (comma = true ∧ e.close = ',') := by cases e <;> simp [Enclosure.close]
  rw [skipRest, skipSpace_gap gap (by cases e <;> rintro c ⟨⟩ <;> rfl)]
  dsimp only
  rw [if_neg other, if_pos rfl]
  rfl

/-- One turn leads from the end of an item to the start of the next. -/
theorem skipRest_item (comma before : Gap) (first : Bool) (w : Spelling) (rest : List Char)
    (p : Place) (fuel : Nat) (stack : List Enclosure) :
    skipRest (fuel + 2) (!first) (.list :: stack)
      ⟨leadIn comma before first ++ (w.text ++ rest), p⟩ =
        skipValueIn (fuel + 1) (.list :: stack)
          ⟨w.text ++ rest, p.afterAll (leadIn comma before first)⟩ := by
  have stops := stops_text w rest
  obtain ⟨c, tail, text, opens⟩ := text_eq_cons w
  rw [text, List.cons_append] at stops ⊢
  refine skipRest_open (e := .list) (f := id) opens.visible opens.bracket (fun gap q => ?_) comma
    before first p
  exact skipValueIn_gap gap stops q fuel (.list :: stack)

/-- One turn leads from the end of a member over the next name to its value. -/
theorem skipRest_member (comma before : Gap) (first : Bool) (name : StringSpelling)
    (colon after : Gap) (w : Spelling) (rest : List Char) (p : Place) (fuel : Nat)
    (stack : List Enclosure) :
    skipRest (fuel + 2) (!first) (.object :: stack) ⟨leadIn comma before first ++
      '"' :: (name.text ++ (colon.chars ++ ':' :: (after.chars ++ (w.text ++ rest)))), p⟩ =
        skipValueIn (fuel + 1) (.object :: stack) ⟨w.text ++ rest,
          (((((p.afterAll (leadIn comma before first)).after '"').afterAll name.text).afterAll
            colon.chars).after ':').afterAll after.chars⟩ := by
  refine skipRest_open (e := .object) (c := '"') (f := fun q => ((((q.after '"').afterAll
    name.text).afterAll colon.chars).after ':').afterAll after.chars) (by decide) (by decide)
    (fun gap q => ?_) comma before first p
  rw [skipName_spelled]
  exact skipValueIn_gap after (stops_text w rest) _ fuel (.object :: stack)

mutual

/-- A value is passed over, whatever is open around it. -/
theorem skipValueIn_spelled (w : Spelling) (fuel : Nat) (enough : 2 * w.text.length ≤ fuel)
    (stack : List Enclosure) {rest : List Char} (ends : EndsNumber rest) (p : Place) :
    ∃ left, fuel < left + 2 * w.text.length ∧ skipValueIn fuel stack ⟨w.text ++ rest, p⟩ =
      skipRest left true stack ⟨rest, p.afterAll w.text⟩ := by
  have some := length_text_pos w
  obtain _ | fuel := fuel
  · omega
  cases w with
  | null => exact ⟨fuel, by omega, rfl⟩
  | bool b => cases b <;> exact ⟨fuel, by omega, rfl⟩
  | number n => exact ⟨fuel, by omega, skipValueIn_number n ends fuel stack p⟩
  | string s =>
    exact ⟨fuel, by omega, skipValueIn_scalar (c := '"') ⟨by decide, by decide, by decide⟩
      (by decide) (by decide) (skipString_spelled s rest (p.after '"')) fuel stack⟩
  | list items =>
    rw [Spelling.text, List.length_cons] at enough ⊢
    obtain ⟨left, used, skipped⟩ := skipRest_items items fuel true (by omega) stack rest
      (p.after '[')
    exact ⟨left, by omega, skipped⟩
  | object members =>
    rw [Spelling.text, List.length_cons] at enough ⊢
    obtain ⟨left, used, skipped⟩ := skipRest_members members fuel true (by omega) stack
      rest (p.after '{')
    exact ⟨left, by omega, skipped⟩

/-- Items are passed over up to the end of their list. -/
theorem skipRest_items (items : ItemSpellings) (fuel : Nat) (first : Bool)
    (enough : 2 * (items.text first).length ≤ fuel) (stack : List Enclosure) (rest : List Char)
    (p : Place) :
    ∃ left, fuel < left + 2 * (items.text first).length ∧
      skipRest fuel (!first) (.list :: stack) ⟨items.text first ++ rest, p⟩ =
        skipRest left true stack ⟨rest, p.afterAll (items.text first)⟩ := by
  have some := length_items_pos items first
  obtain _ | fuel := fuel
  · omega
  cases items with
  | close gap =>
    refine ⟨fuel, by omega, ?_⟩
    rw [ItemSpellings.text, List.append_assoc, Place.afterAll_append]
    exact skipRest_close gap .list fuel (!first) stack rest p
  | cons comma before value more =>
    have one := length_text_pos value
    have others := length_items_pos more false
    simp only [ItemSpellings.text, List.length_append] at enough ⊢
    obtain _ | fuel := fuel
    · omega
    obtain ⟨left, used, skipped⟩ := skipValueIn_spelled value (fuel + 1) (by omega)
      (.list :: stack) (endsNumber_items more rest) (p.afterAll (leadIn comma before first))
    obtain ⟨left', used', skipped'⟩ := skipRest_items more left false (by omega) stack rest
      ((p.afterAll (leadIn comma before first)).afterAll value.text)
    refine ⟨left', by omega, ?_⟩
    rw [List.append_assoc, List.append_assoc, Place.afterAll_append, Place.afterAll_append,
      skipRest_item, skipped]
    exact skipped'

/-- Members are passed over up to the end of their object. -/
theorem skipRest_members (members : MemberSpellings) (fuel : Nat) (first : Bool)
    (enough : 2 * (members.text first).length ≤ fuel) (stack : List Enclosure) (rest : List Char)
    (p : Place) :
    ∃ left, fuel < left + 2 * (members.text first).length ∧
      skipRest fuel (!first) (.object :: stack) ⟨members.text first ++ rest, p⟩ =
        skipRest left true stack ⟨rest, p.afterAll (members.text first)⟩ := by
  have some := length_members_pos members first
  obtain _ | fuel := fuel
  · omega
  cases members with
  | close gap =>
    refine ⟨fuel, by omega, ?_⟩
    rw [MemberSpellings.text, List.append_assoc, Place.afterAll_append]
    exact skipRest_close gap .object fuel (!first) stack rest p
  | cons comma before name colon after value more =>
    have others := length_members_pos more false
    rw [members_text_append, afterAll_members_text]
    simp only [MemberSpellings.text, List.length_append, List.length_cons] at enough ⊢
    obtain _ | fuel := fuel
    · omega
    obtain ⟨left, used, skipped⟩ := skipValueIn_spelled value (fuel + 1) (by omega)
      (.object :: stack) (endsNumber_members more rest) _
    obtain ⟨left', used', skipped'⟩ := skipRest_members more left false (by omega) stack
      rest _
    refine ⟨left', by omega, ?_⟩
    rw [skipRest_member, skipped]
    exact skipped'

end

/-- A value is passed over with the white space before it, and nothing of it counts. -/
theorem skipValue_spelled (gap : Gap) (w : Spelling) {rest : List Char} (ends : EndsNumber rest)
    (p : Place) :
    skipValue ⟨gap.chars ++ (w.text ++ rest), p⟩ =
      .ok ⟨rest, (p.afterAll gap.chars).afterAll w.text⟩ := by
  have enough : 2 * w.text.length ≤ 2 * (gap.chars ++ (w.text ++ rest)).length + 1 + 1 := by
    simp only [List.length_append]
    omega
  obtain ⟨left, -, skipped⟩ := skipValueIn_spelled w _ enough [] ends (p.afterAll gap.chars)
  rw [skipValue, fuel, skipValueIn_gap gap (stops_text w rest), skipped, skipRest]

end Scanner

end PatternGate
