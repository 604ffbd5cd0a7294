import PatternGate.Json.Record
import PatternGate.Proofs.Json.Values

/-!
# Records of a spelling

A text that spells a value is read as that value, if it has one (`Json.parse_spelled`). A record is
read from the text of an object directly: each member goes into the field of its name, and members
that are no fields are passed over. `Schema.fill` says what this comes to without a text, and
`Schema.parse_spelled` that it is what happens, if no name is written twice. It sees the values of
the fields only; what the other members spell need not be values.
-/

namespace PatternGate

section Options

variable {ε α : Type} {x : Except ε α}

theorem toOption_eq_some_iff {a : α} : x.toOption = some a ↔ x = .ok a := by
  cases x <;> simp [Except.toOption]

theorem toOption_eq_none_iff : x.toOption = none ↔ ∃ e, x = .error e := by
  cases x <;> simp [Except.toOption]

end Options

/-- Without its fault, reading a spelling gives its value and the scanner behind it. -/
theorem Reads.toOption {α : Type} {x : Except JsonFault (α × Scanner)} {a : Option α}
    {s : Scanner} (reads : Reads x a s) : x.toOption = a.map fun v => (v, s) := by
  cases a with
  | none =>
    obtain ⟨f, rfl, -⟩ := reads
    rfl
  | some v =>
    obtain rfl : x = .ok (v, s) := reads
    rfl

/-- White space can follow a value. -/
theorem Scanner.finish_gap (gap : Gap) (p : Place) : Scanner.finish ⟨gap.chars, p⟩ = .ok () := by
  have skipped := Scanner.skipSpace_gap gap (show Scanner.Stops isJsonSpace [] from nofun) p
  rw [List.append_nil] at skipped
  rw [Scanner.finish, skipped]
  rfl

mutual

/-- A spelling has a value exactly if it is sound. -/
theorem Spelling.isSome_value? (w : Spelling) : w.value?.isSome = w.isSound := by
  cases w with
  | null => rfl
  | bool b => rfl
  | number n =>
    rw [Spelling.value?, Spelling.isSound, Option.isSome_map, Bool.eq_iff_iff, decide_eq_true_iff]
    exact n.isSome_value?_iff
  | string s => rw [Spelling.value?, Spelling.isSound, Option.isSome_map]
  | list items =>
    rw [Spelling.value?, Spelling.isSound, Option.isSome_map]
    exact items.isSome_values?
  | object members =>
    rw [Spelling.value?, Spelling.isSound, Option.isSome_map]
    exact members.isSome_values? []

/-- Items have values exactly if they are sound. -/
theorem ItemSpellings.isSome_values? (items : ItemSpellings) :
    items.values?.isSome = items.isSound := by
  cases items with
  | close gap => rfl
  | cons comma before value rest =>
    have first := value.isSome_value?
    have others := rest.isSome_values?
    rw [ItemSpellings.values?, ItemSpellings.isSound, ← first, ← others]
    cases value.value? with
    | none => rfl
    | some v => rw [Option.bind_some, Option.isSome_map, Option.isSome_some, Bool.true_and]

/-- Members have values exactly if they are sound. -/
theorem MemberSpellings.isSome_values? (members : MemberSpellings) (acc : List (String × Json)) :
    (members.values? acc).isSome = members.isSound := by
  cases members with
  | close gap => rfl
  | cons comma before name colon after value rest =>
    have first := value.isSome_value?
    have others := rest.isSome_values?
    rw [MemberSpellings.values?, MemberSpellings.isSound, ← first]
    cases name.value? with
    | none => rfl
    | some n =>
      cases value.value? with
      | none => rfl
      | some v =>
        rw [Option.bind_some, Option.bind_some, others, Option.isSome_some, Option.isSome_some,
          Bool.true_and, Bool.true_and]

end

/-- The text of a value, with white space around it. -/
def Spelling.document (before : Gap) (w : Spelling) (after : Gap) : String :=
  String.ofList (before.chars ++ (w.text ++ after.chars))

/-- A text is read as the value that it spells. It is refused if that is no value or has too many
levels, and for no other reason. -/
theorem Json.parse_spelled (before : Gap) (w : Spelling) (after : Gap) :
    match Scanner.within Scanner.depthLimit w.levels w.value? with
    | some v => Json.parse (w.document before after) = .ok v
    | none => ∃ f, Json.parse (w.document before after) = .error f ∧
        f.cause.concernsValue = true := by
  let text := before.chars ++ (w.text ++ after.chars)
  have ends : Scanner.EndsNumber after.chars := by
    have nothing := Scanner.endsNumber_space after (show Scanner.EndsNumber [] from nofun)
    rwa [List.append_nil] at nothing
  have enough : w.text.length ≤ 2 * text.length + 1 + 1 := by
    simp only [text, List.length_append]
    omega
  have reads := Scanner.readValue_spelled w (p := Place.afterAll ⟨1, 0⟩ before.chars) enough
    (show 0 < Scanner.depthLimit by decide) ends
  rw [← Scanner.readValue_gap before (Scanner.stops_text w after.chars)] at reads
  have parsed : Json.parse (w.document before after) =
      (Scanner.readValue (2 * text.length + 2) Scanner.depthLimit ⟨text, ⟨1, 0⟩⟩ >>=
        fun r => r.2.finish >>= fun _ => pure r.1) := by
    rw [Json.parse, Spelling.document, Scanner.ofString, String.toList_ofList]
    rfl
  rw [parsed]
  cases value : Scanner.within Scanner.depthLimit w.levels w.value? with
  | none =>
    rw [value] at reads
    obtain ⟨f, failed, concerns⟩ := reads
    exact ⟨f, congrArg (· >>= _) failed, concerns⟩
  | some v =>
    rw [value] at reads
    refine (congrArg (· >>= _) reads).trans ?_
    show (Scanner.finish ⟨after.chars, _⟩ >>= fun _ => pure v) = .ok v
    rw [Scanner.finish_gap]
    rfl

/-- Strings are spelled as strings. -/
theorem Spelling.value?_eq_string_iff {w : Spelling} {t : String} :
    w.value? = some (.string t) ↔ ∃ s, w = .string s ∧ s.value? = some t := by
  cases w <;> simp [Spelling.value?]

/-- Truth values are spelled as such. -/
theorem Spelling.value?_eq_bool_iff {w : Spelling} {b : Bool} :
    w.value? = some (.bool b) ↔ w = .bool b := by
  cases w <;> simp [Spelling.value?]

/-! ## Fields -/

/-- A field is read from a text as from the value of the text. -/
def Field.Agrees {δ : Type} (f : Field δ) : Prop :=
  ∀ (gap : Gap) (w : Spelling) {rest : List Char}, Scanner.EndsNumber rest → ∀ (p : Place) (d : δ),
    (f.ofText ⟨gap.chars ++ (w.text ++ rest), p⟩ d).toOption =
      (w.value?.bind fun v => (f.ofJson v d).toOption).map fun d' =>
        (d', ⟨rest, (p.afterAll gap.chars).afterAll w.text⟩)

namespace Scanner

/-- Where something else is asked for, all is refused. -/
theorem unexpected_toOption {α : Type} (expected : String) (s : Scanner) :
    (s.unexpected expected : Except JsonFault α).toOption = none := by
  have refused : ∀ {β : Type} (x : Except JsonFault β) (f : β → JsonFault),
      (x >>= fun b => (.error (f b) : Except JsonFault α)).toOption = none := by
    intro β x f
    cases x <;> rfl
  unfold unexpected
  dsimp only
  split
  · rfl
  · repeat' split
    all_goals first | exact refused _ _ | rfl

/-- A value starts at its first character, behind any white space. -/
theorem startValue_spelled (gap : Gap) {c : Char} {text : List Char}
    (visible : isJsonSpace c = false) (p : Place) :
    startValue ⟨gap.chars ++ c :: text, p⟩ = .ok (c, ⟨c :: text, p.afterAll gap.chars⟩) := by
  rw [startValue, skipSpace_gap gap (by rintro d ⟨⟩; exact visible)]

/-- The first character of a number. -/
theorem number_text_eq_cons (n : NumberSpelling) : ∃ c tail, n.text = c :: tail ∧
    (c = '-' ∨ c.isDigit = true) := by
  rw [NumberSpelling.text]
  split
  · exact ⟨_, _, rfl, .inl rfl⟩
  · obtain ⟨d, tail, written, digit⟩ := unsigned_eq_cons n
    exact ⟨d, tail, written, .inr digit⟩

/-- Only strings start with a quote. -/
theorem exists_string_of_quote {w : Spelling} {tail : List Char} (text : w.text = '"' :: tail) :
    ∃ s, w = .string s := by
  cases w with
  | string s => exact ⟨s, rfl⟩
  | number n =>
    obtain ⟨c, tail, written, sign | digit⟩ := number_text_eq_cons n <;>
      cases written.symm.trans text
    · cases sign
    · cases digit
  | bool b => cases b <;> cases text
  | _ => cases text

/-- Only truth values start with their letters. -/
theorem exists_bool_of_letter {w : Spelling} {c : Char} {tail : List Char}
    (text : w.text = c :: tail) (letter : c = 't' ∨ c = 'f') : ∃ b, w = .bool b := by
  cases w with
  | bool b => exact ⟨b, rfl⟩
  | number n =>
    obtain ⟨d, tail, written, sign | digit⟩ := number_text_eq_cons n <;>
      cases written.symm.trans text <;> rcases letter with rfl | rfl
    · cases sign
    · cases sign
    · cases digit
    · cases digit
  | _ =>
    cases text
    rcases letter with letter | letter <;> cases letter

/-- A string is read where one is asked for, and nothing else is. -/
theorem readStringValue_spelled (expected : String) (gap : Gap) (w : Spelling) (rest : List Char)
    (p : Place) :
    (readStringValue expected ⟨gap.chars ++ (w.text ++ rest), p⟩).toOption =
      (w.value?.bind fun v => v.toText.toOption).map fun t =>
        (t, ⟨rest, (p.afterAll gap.chars).afterAll w.text⟩) := by
  obtain ⟨c, tail, text, opens⟩ := text_eq_cons w
  by_cases quote : c = '"'
  · subst quote
    obtain ⟨s, rfl⟩ := exists_string_of_quote text
    have reads := (readString_spelled s rest ((p.afterAll gap.chars).after '"')).toOption
    have text : (Spelling.string s).text = '"' :: s.text := rfl
    rw [text, List.cons_append, readStringValue, startValue_spelled gap rfl]
    refine reads.trans ?_
    rw [Spelling.value?]
    cases s.value? <;> rfl
  · have other : (w.value?.bind fun v => v.toText.toOption) = none := by
      refine Option.bind_eq_none_iff.mpr fun v value => ?_
      cases v with
      | string t =>
        obtain ⟨s, rfl, -⟩ := Spelling.value?_eq_string_iff.mp value
        cases text
        exact absurd rfl quote
      | _ => rfl
    rw [other, text, List.cons_append, readStringValue, startValue_spelled gap opens.visible]
    show (if c = '"' then _ else unexpected expected _).toOption = none
    rw [if_neg quote]
    exact unexpected_toOption expected _

/-- A truth value is read where one is asked for, and nothing else is. -/
theorem readBoolValue_spelled (gap : Gap) (w : Spelling) (rest : List Char) (p : Place) :
    (readBoolValue ⟨gap.chars ++ (w.text ++ rest), p⟩).toOption =
      (w.value?.bind fun v => v.toBool.toOption).map fun b =>
        (b, ⟨rest, (p.afterAll gap.chars).afterAll w.text⟩) := by
  obtain ⟨c, tail, text, opens⟩ := text_eq_cons w
  by_cases letter : c = 't' ∨ c = 'f'
  · obtain ⟨b, rfl⟩ := exists_bool_of_letter text letter
    cases b
    · have text : (Spelling.bool false).text = ['f', 'a', 'l', 's', 'e'] := rfl
      rw [text, List.cons_append, readBoolValue, startValue_spelled gap rfl]
      rfl
    · have text : (Spelling.bool true).text = ['t', 'r', 'u', 'e'] := rfl
      rw [text, List.cons_append, readBoolValue, startValue_spelled gap rfl]
      rfl
  · have other : (w.value?.bind fun v => v.toBool.toOption) = none := by
      refine Option.bind_eq_none_iff.mpr fun v value => ?_
      cases v with
      | bool b =>
        obtain rfl := Spelling.value?_eq_bool_iff.mp value
        cases b <;> cases text <;> simp at letter
      | _ => rfl
    rw [not_or] at letter
    rw [other, text, List.cons_append, readBoolValue, startValue_spelled gap opens.visible]
    show (if c = 't' then _ else if c = 'f' then _ else unexpected "a boolean" _).toOption = none
    rw [if_neg letter.1, if_neg letter.2]
    exact unexpected_toOption "a boolean" _

end Scanner

/-! ## Members -/

namespace Json

theorem member?_cons (entry : String × Json) (members : List (String × Json)) (m : String) :
    member? (entry :: members) m = if entry.1 = m then some entry.2 else member? members m := by
  rw [member?, List.find?_cons]
  by_cases same : entry.1 = m <;> simp [same, member?]

/-- Setting a member changes that member and no other. -/
theorem member?_setMember (n : String) (v : Json) (members : List (String × Json)) (m : String) :
    member? (setMember n v members) m = if n = m then some v else member? members m := by
  induction members with
  | nil => exact member?_cons (n, v) [] m
  | cons entry members ih =>
    unfold setMember
    by_cases here : entry.1 = n
    · rw [if_pos here, member?_cons, member?_cons, here]
      split <;> rfl
    · rw [if_neg here, member?_cons, member?_cons, ih]
      by_cases there : entry.1 = m
      · rw [if_pos there, if_pos there, if_neg fun same => here (there.trans same.symm)]
      · rw [if_neg there, if_neg there]

end Json

namespace MemberSpellings

/-- The names and the values of members, as they are spelled. -/
def entries : MemberSpellings → List (StringSpelling × Spelling)
  | .close _ => []
  | .cons _ _ name _ _ value rest => (name, value) :: rest.entries

/-- The names of members, as far as they are strings. -/
def names (members : MemberSpellings) : List String := members.entries.filterMap fun e => e.1.value?

/-- The member of a name, as it is spelled. -/
def member? (members : MemberSpellings) (name : String) : Option Spelling :=
  (members.entries.find? fun e => e.1.value? = some name).map (·.2)

section Cons

variable {comma before : Gap} {name : StringSpelling} {colon after : Gap} {value : Spelling}
  {rest : MemberSpellings}

/-- The member of a name is the first one that is written with it. -/
theorem member?_cons (n : String) :
    (cons comma before name colon after value rest).member? n =
      if name.value? = some n then some value else rest.member? n := by
  rw [member?, entries, List.find?_cons]
  by_cases named : name.value? = some n <;> simp [named, member?]

/-- A name that is a string counts. -/
theorem names_cons {n : String} (named : name.value? = some n) :
    (cons comma before name colon after value rest).names = n :: rest.names :=
  List.filterMap_cons_some named

/-- A name that is no string does not count. -/
theorem names_cons_of_unnamed (unnamed : name.value? = none) :
    (cons comma before name colon after value rest).names = rest.names :=
  List.filterMap_cons_none unnamed

end Cons

/-- A name that is not written has no member. -/
theorem member?_eq_none {members : MemberSpellings} {n : String} (absent : n ∉ members.names) :
    members.member? n = none := by
  simpa [member?, names] using absent

/-- The member of a name is one of those that are written. -/
theorem mem_of_member? {members : MemberSpellings} {n : String} {w : Spelling}
    (found : members.member? n = some w) : ∃ e ∈ members.entries, e.2 = w := by
  obtain ⟨e, first, rfl⟩ := Option.map_eq_some_iff.mp found
  exact ⟨e, List.mem_of_find?_eq_some first, rfl⟩

/-- Where no name is written twice, each entry is the member of its name. -/
theorem member?_of_mem {members : MemberSpellings} (distinct : members.names.Nodup) {n : String}
    {e : StringSpelling × Spelling} (mem : e ∈ members.entries) (named : e.1.value? = some n) :
    members.member? n = some e.2 := by
  match members with
  | .close _ => cases mem
  | .cons comma before name colon after value rest =>
    rw [member?_cons]
    rcases List.mem_cons.mp mem with rfl | later
    · exact if_pos named
    · cases own : name.value? with
      | none =>
        rw [names_cons_of_unnamed own] at distinct
        exact (if_neg nofun).trans (member?_of_mem distinct later named)
      | some m =>
        rw [names_cons own, List.nodup_cons] at distinct
        have other : some m ≠ some n := by
          rintro ⟨⟩
          exact distinct.1 (List.mem_filterMap.mpr ⟨e, later, named⟩)
        exact (if_neg other).trans (member?_of_mem distinct.2 later named)

/-- Members have values if their names and what they hold have. -/
theorem values?_isSome_iff {members : MemberSpellings} {acc : List (String × Json)} :
    (members.values? acc).isSome = true ↔
      ∀ e ∈ members.entries, e.1.value?.isSome = true ∧ e.2.value?.isSome = true := by
  match members with
  | .close _ => exact iff_of_true rfl nofun
  | .cons _ _ name _ _ value rest =>
    rw [values?, entries, List.forall_mem_cons]
    cases name.value? with
    | none => simp
    | some n =>
      cases value.value? with
      | none => simp
      | some v =>
        rw [Option.bind_some, Option.bind_some, values?_isSome_iff]
        simp

/-- Where no name is written twice, a member has the value that is spelled for it. -/
theorem member?_of_values? {members : MemberSpellings} {acc ms : List (String × Json)}
    (distinct : members.names.Nodup) (read : members.values? acc = some ms) (n : String) :
    Json.member? ms n = if n ∈ members.names then (members.member? n).bind Spelling.value?
      else Json.member? acc n := by
  match members with
  | .close _ =>
    cases read
    exact (if_neg List.not_mem_nil).symm
  | .cons _ _ name _ _ value rest =>
    obtain ⟨m, named, read⟩ := Option.bind_eq_some_iff.mp read
    obtain ⟨v, held, read⟩ := Option.bind_eq_some_iff.mp read
    rw [names_cons named, List.nodup_cons] at distinct
    rw [member?_of_values? distinct.2 read, names_cons named, member?_cons, named,
      Json.member?_setMember]
    by_cases same : m = n
    · subst same
      simp [distinct.1, held]
    · simp [same, Ne.symm same]

/-- Members go as deep as the deepest of them. -/
theorem levels_lt_iff {members : MemberSpellings} {k : Nat} (room : 0 < k) :
    members.levels < k ↔ ∀ e ∈ members.entries, e.2.levels < k := by
  match members with
  | .close _ => exact iff_of_true room nofun
  | .cons _ _ _ _ _ value rest =>
    rw [levels, entries, List.forall_mem_cons, Nat.max_lt, levels_lt_iff room]

end MemberSpellings

namespace Schema

variable {δ α : Type} (schema : Schema δ α)

/-- Puts members into the fields of their names. The names must be strings, and the values of fields
must be values. -/
def fill : MemberSpellings → δ → Option δ
  | .close _, d => some d
  | .cons _ _ name _ _ value rest, d =>
    name.value?.bind fun n =>
      match schema.field? n with
      | none => fill rest d
      | some f => value.value?.bind fun v => (f.ofJson v d).toOption.bind (fill rest)

/-- No field is set at first, fields are read alike from texts and from values, and only the field
that is read gets set. -/
structure Faithful : Prop where
  unset : ∀ f ∈ schema.fields, f.isSet schema.blank = false
  agrees : ∀ f ∈ schema.fields, f.Agrees
  sets : ∀ f ∈ schema.fields, ∀ g ∈ schema.fields, ∀ v d d', f.ofJson v d = .ok d' →
    g.isSet d' = true → g.isSet d = true ∨ g.name = f.name

variable {schema}

section Turns

variable (comma before : Gap) (first : Bool) {name : StringSpelling} {colon after : Gap}
  {value : Spelling} {text : List Char} (d : δ) (fuel : Nat) (p : Place)

/-- A name that is no string ends the reading. -/
theorem readMembers_unnamed (unnamed : name.value? = none) :
    ∃ f, schema.readMembers (fuel + 1) first d
      ⟨leadIn comma before first ++ '"' :: (name.text ++ text), p⟩ = .error f := by
  have reads := Scanner.readString_spelled name text
    ((p.afterAll (leadIn comma before first)).after '"')
  rw [unnamed] at reads
  obtain ⟨f, failed, -⟩ := reads
  refine ⟨f, ?_⟩
  rw [readMembers, Scanner.nextName_open]
  show (Scanner.readString ⟨name.text ++ text, _⟩ >>= _) = _
  rw [failed]
  rfl

/-- A name that is a string decides by its field. -/
theorem readMembers_named {n : String} (named : name.value? = some n) :
    let s : Scanner :=
      ⟨text, ((p.afterAll (leadIn comma before first)).after '"').afterAll name.text⟩
    schema.readMembers (fuel + 1) first d
      ⟨leadIn comma before first ++ '"' :: (name.text ++ text), p⟩ =
        (match schema.field? n with
        | none => do
          let s ← s.readColon
          let s ← s.skipValue
          schema.readMembers fuel false d s
        | some f =>
          if f.isSet d then return ⟨.error (.duplicateField n), s⟩
          else do
            let s ← s.readColon
            let (d', s) ← f.ofText s d
            schema.readMembers fuel false d' s) := by
  intro s
  have reads := Scanner.readString_spelled name text
    ((p.afterAll (leadIn comma before first)).after '"')
  rw [named] at reads
  have read : Scanner.readString ⟨name.text ++ text,
      (p.afterAll (leadIn comma before first)).after '"'⟩ = .ok (n, s) := reads
  rw [readMembers, Scanner.nextName_open]
  show (Scanner.readString ⟨name.text ++ text, _⟩ >>= _) = _
  rw [read]
  rfl

/-- A member that is no field is passed over. -/
theorem readMembers_other {n : String} (named : name.value? = some n)
    (other : schema.field? n = none) (ends : Scanner.EndsNumber text) :
    ∃ q, schema.readMembers (fuel + 1) first d
      ⟨leadIn comma before first ++ '"' :: (name.text ++ (colon.chars ++
        ':' :: (after.chars ++ (value.text ++ text)))), p⟩ =
      schema.readMembers fuel false d ⟨text, q⟩ := by
  let q := ((p.afterAll (leadIn comma before first)).after '"').afterAll name.text
  refine ⟨(((q.afterAll colon.chars).after ':').afterAll after.chars).afterAll value.text, ?_⟩
  rw [readMembers_named comma before first d fuel p named, other]
  dsimp only
  rw [Scanner.readColon_gap]
  exact congrArg (· >>= _) (Scanner.skipValue_spelled after value ends _)

/-- A member that is a field, and not set yet, is read into the field. -/
theorem readMembers_field {n : String} (named : name.value? = some n) {f : Field δ}
    (known : schema.field? n = some f) (unset : f.isSet d = false) :
    ∃ q, schema.readMembers (fuel + 1) first d
      ⟨leadIn comma before first ++ '"' :: (name.text ++ (colon.chars ++ ':' :: text)), p⟩ = (do
        let (d', s) ← f.ofText ⟨text, q⟩ d
        schema.readMembers fuel false d' s) := by
  let q := ((p.afterAll (leadIn comma before first)).after '"').afterAll name.text
  refine ⟨(q.afterAll colon.chars).after ':', ?_⟩
  rw [readMembers_named comma before first d fuel p named, known]
  dsimp only
  rw [unset, if_neg Bool.false_ne_true, Scanner.readColon_gap]
  rfl

end Turns

/-- The field of a name is one of the schema, and has that name. -/
theorem mem_of_field? {n : String} {f : Field δ} (known : schema.field? n = some f) :
    f ∈ schema.fields ∧ f.name = n :=
  ⟨List.mem_of_find?_eq_some known, by simpa using List.find?_some known⟩

/-- The members of an object go into their fields, up to the brace that closes the object. -/
theorem readMembers_spelled (faithful : schema.Faithful) (members : MemberSpellings)
    (first : Bool) (d : δ) (rest : List Char) (p : Place) (fuel : Nat)
    (enough : (members.text first).length ≤ fuel) (distinct : members.names.Nodup)
    (fresh : ∀ f ∈ schema.fields, f.isSet d = true → f.name ∉ members.names) :
    ((schema.readMembers fuel first d ⟨members.text first ++ rest, p⟩).toOption.map fun r =>
      (r.result, r.stop.rest)) =
        (schema.fill members d).map fun d' => (schema.complete d', '}' :: rest) := by
  obtain _ | fuel := fuel
  · exact absurd (Scanner.length_members_pos members first) (Nat.not_lt_of_ge enough)
  match members with
  | .close gap =>
    rw [MemberSpellings.text, List.append_assoc, List.singleton_append, readMembers,
      Scanner.nextName_close, fill]
    rfl
  | .cons comma before name colon after value more =>
    simp only [MemberSpellings.text, List.length_append, List.length_cons] at enough
    have ends := Scanner.endsNumber_members more rest
    rw [Scanner.members_text_append, fill]
    cases named : name.value? with
    | none =>
      obtain ⟨f, failed⟩ : ∃ f, schema.readMembers (fuel + 1) first d _ = .error f :=
        readMembers_unnamed comma before first d fuel p named
      rw [failed]
      rfl
    | some n =>
      rw [MemberSpellings.names_cons named] at distinct fresh
      obtain ⟨new, distinct⟩ := List.nodup_cons.mp distinct
      have next := fun q d' fresh' =>
        readMembers_spelled faithful more false d' rest q fuel (by omega) distinct fresh'
      rw [Option.bind_some]
      cases known : schema.field? n with
      | none =>
        obtain ⟨q, turn⟩ := readMembers_other comma before first d fuel p named known ends
        rw [turn]
        exact next q d fun f mem set member =>
          fresh f mem set (List.mem_cons_of_mem n member)
      | some f =>
        obtain ⟨mem, rfl⟩ := mem_of_field? known
        have unset : f.isSet d = false := by
          rw [Bool.eq_false_iff]
          exact fun set => fresh f mem set List.mem_cons_self
        obtain ⟨q, turn⟩ := readMembers_field comma before first d fuel p named known unset
        have agrees := faithful.agrees f mem after value ends q d
        rw [turn]
        dsimp only
        rw [← Option.bind_assoc]
        cases set : (value.value?.bind fun v => (f.ofJson v d).toOption) with
        | none =>
          rw [set] at agrees
          obtain ⟨fault, failed⟩ := toOption_eq_none_iff.mp agrees
          rw [failed]
          rfl
        | some d' =>
          rw [set] at agrees
          rw [toOption_eq_some_iff.mp agrees]
          obtain ⟨v, -, read⟩ := Option.bind_eq_some_iff.mp set
          refine next _ d' fun g mem' set' member => ?_
          have sets := faithful.sets f mem g mem' v d d' (toOption_eq_some_iff.mp read) set'
          rcases sets with old | same
          · exact fresh g mem' old (List.mem_cons_of_mem _ member)
          · exact new (same ▸ member)

/-- The record of an object is that of the fields that its members fill. -/
theorem parse_spelled (faithful : schema.Faithful) (before : Gap) (members : MemberSpellings)
    (after : Gap) (distinct : members.names.Nodup) :
    (schema.parse ((Spelling.object members).document before after)).toOption =
      (schema.fill members schema.blank).bind fun d => (schema.complete d).toOption := by
  let text := '{' :: (members.text true ++ after.chars)
  let p := Place.afterAll ⟨1, 0⟩ before.chars
  have fresh : ∀ f ∈ schema.fields, f.isSet schema.blank = true → f.name ∉ members.names := by
    intro f mem set
    rw [faithful.unset f mem] at set
    cases set
  have enough : (members.text true).length ≤ Scanner.fuel ⟨text, p⟩ := by
    simp only [Scanner.fuel, text, List.length_cons, List.length_append]
    omega
  have reads := readMembers_spelled faithful members true schema.blank after.chars (p.after '{') _
    enough distinct fresh
  have opened : schema.read ⟨before.chars ++ text, ⟨1, 0⟩⟩ = (do
      let r ← schema.readMembers (Scanner.fuel ⟨text, p⟩) true schema.blank
        ⟨members.text true ++ after.chars, p.after '{'⟩
      r.close '}' closeObject) := by
    rw [read, Scanner.startValue_spelled before rfl]
    rfl
  have parsed : schema.parse ((Spelling.object members).document before after) = (do
      let (a, s) ← schema.read ⟨before.chars ++ text, ⟨1, 0⟩⟩
      s.finish
      return a) := by
    rw [parse, Spelling.document, Scanner.ofString, String.toList_ofList]
    rfl
  rw [parsed, opened]
  cases result : schema.readMembers (Scanner.fuel ⟨text, p⟩) true schema.blank
      ⟨members.text true ++ after.chars, p.after '{'⟩ with
  | error f =>
    rw [result] at reads
    rw [Option.map_eq_none_iff.mp reads.symm]
    rfl
  | ok r =>
    rw [result] at reads
    obtain ⟨d, filled, same⟩ := Option.map_eq_some_iff.mp reads.symm
    obtain ⟨result, rest, q⟩ := r
    obtain ⟨rfl, rfl⟩ := Prod.mk.inj same
    rw [filled, Option.bind_some]
    cases complete : schema.complete d with
    | error cause => rfl
    | ok a =>
      show (Scanner.finish ⟨after.chars, q.after '}'⟩ >>= fun _ => pure a).toOption = some a
      rw [Scanner.finish_gap]
      rfl

end Schema

end PatternGate
