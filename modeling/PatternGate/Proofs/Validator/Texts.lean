import PatternGate.Proofs.Json.Records
import PatternGate.Proofs.Validator.Members

/-!
# Requests as JSON texts

A request can be read from a text directly. A validator instead makes a JSON value of the whole text
and reads the request from that. Direct reading only passes over the members that it does not know,
so it takes any spelling for them; for a value they have to be sound, and not too deep.
The main statement, `request_text`, says how far the two ways agree on objects in which no name is
written twice: where there is a value, they do, and where there is none, only direct reading can
succeed.
-/

namespace PatternGate

/-! ## Fields -/

namespace Spelling

variable {β : Type} (read : Json → Except JsonFault β)

/-- What is read from the value of a spelling. -/
def readAs (w : Spelling) : Option β := w.value?.bind fun v => (read v).toOption

variable {read} {w : Spelling}

/-- Something is read from a spelling if the spelling has a value and the value is good for it. -/
theorem readAs_eq_some_iff {b : β} :
    w.readAs read = some b ↔ ∃ v, w.value? = some v ∧ read v = .ok b := by
  simp only [readAs, Option.bind_eq_some_iff, toOption_eq_some_iff]

/-- Only the spelling of a string is read as a text. -/
theorem readAs_toText_iff {t : String} :
    w.readAs Json.toText = some t ↔ ∃ s, w = .string s ∧ s.value? = some t := by
  rw [readAs_eq_some_iff, ← value?_eq_string_iff]
  constructor
  · rintro ⟨v, held, read⟩
    cases v <;> cases read
    exact held
  · exact fun held => ⟨_, held, rfl⟩

/-- Only the two words are read as truth values. -/
theorem readAs_toBool_iff {b : Bool} : w.readAs Json.toBool = some b ↔ w = .bool b := by
  rw [readAs_eq_some_iff, ← value?_eq_bool_iff]
  constructor
  · rintro ⟨v, held, read⟩
    cases v <;> cases read
    exact held
  · exact fun held => ⟨_, held, rfl⟩

end Spelling

namespace MemberSpellings

section Fills

variable {β : Type} (read : Json → Except JsonFault β)

/-- A slot is filled from the member of a name, and kept if there is none. -/
def Fills (members : MemberSpellings) (name : String) (old new : Option β) : Prop :=
  match members.member? name with
  | none => new = old
  | some w => ∃ b, w.readAs read = some b ∧ new = some b

variable {read} {comma before : Gap} {name : StringSpelling} {colon after : Gap} {value : Spelling}
  {rest : MemberSpellings} {n : String} {old new : Option β}

/-- A member of the name fills the slot, and no later member does. -/
theorem fills_own (named : name.value? = some n) (absent : n ∉ rest.names) :
    (cons comma before name colon after value rest).Fills read n old new ↔
      ∃ b, value.readAs read = some b ∧ rest.Fills read n (some b) new := by
  rw [Fills, member?_cons, if_pos named]
  simp only [Fills, member?_eq_none absent]

/-- A member of another name leaves the slot to the members after it. -/
theorem fills_other (named : name.value? = some n) {m : String} (other : n ≠ m) :
    (cons comma before name colon after value rest).Fills read m old new ↔
      rest.Fills read m old new := by
  have different : name.value? ≠ some m := by
    rw [named]
    exact fun same => other (Option.some.inj same)
  rw [Fills, member?_cons, if_neg different, Fills]

end Fills

end MemberSpellings

namespace Field

variable {δ β : Type} {f : Field δ} {read : Json → Except JsonFault β} {set : β → δ → δ}

/-- A field reads something from a value and sets it. -/
def Puts (f : Field δ) (read : Json → Except JsonFault β) (set : β → δ → δ) : Prop :=
  ∀ v d, f.ofJson v d = (do return set (← read v) d)

/-- A field that is read has set something. -/
theorem Puts.eq_of_ok (puts : f.Puts read set) {v : Json} {d d' : δ} (ok : f.ofJson v d = .ok d') :
    ∃ b, d' = set b d := by
  rw [puts] at ok
  obtain ⟨b, -, same⟩ := bind_eq_ok_iff.mp ok
  cases same
  exact ⟨b, rfl⟩

/-- A field sets what is read from the spelling of its member. -/
theorem Puts.ofJson_toOption (puts : f.Puts read set) (w : Spelling) (d : δ) :
    (w.value?.bind fun v => (f.ofJson v d).toOption) = (w.readAs read).map (set · d) := by
  unfold Spelling.readAs
  cases w.value? with
  | none => rfl
  | some v =>
    simp only [Option.bind_some, puts v d]
    cases read v <;> rfl

/-- A field that reads the same from texts agrees. -/
theorem Puts.agrees (puts : f.Puts read set)
    {scan : Scanner → Except JsonFault (β × Scanner)}
    (scans : ∀ s d, f.ofText s d = (do
      let (b, s) ← scan s
      return (set b d, s)))
    (same : ∀ (gap : Gap) (w : Spelling) (rest : List Char) (p : Place),
      (scan ⟨gap.chars ++ (w.text ++ rest), p⟩).toOption = (w.readAs read).map fun b =>
        (b, ⟨rest, (p.afterAll gap.chars).afterAll w.text⟩)) : f.Agrees := by
  intro gap w rest _ p d
  rw [puts.ofJson_toOption, scans]
  have same := same gap w rest p
  cases held : w.readAs read with
  | none =>
    rw [held] at same
    obtain ⟨e, failed⟩ := toOption_eq_none_iff.mp same
    rw [failed]
    rfl
  | some b =>
    rw [held] at same
    rw [toOption_eq_some_iff.mp same]
    rfl

end Field

namespace Schema

variable {δ α β : Type} {schema : Schema δ α} {f : Field δ} {read : Json → Except JsonFault β}
  {set : β → δ → δ} {comma before : Gap} {name : StringSpelling} {colon after : Gap}
  {value : Spelling} {rest : MemberSpellings} {n : String}

/-- A member that is no field changes nothing in a draft. -/
theorem fill_other (named : name.value? = some n) (other : schema.field? n = none) (d : δ) :
    schema.fill (.cons comma before name colon after value rest) d = schema.fill rest d := by
  rw [fill, named, Option.bind_some, other]

/-- A member that is a field sets it, and the others follow. -/
theorem fill_field (named : name.value? = some n) (known : schema.field? n = some f)
    (puts : f.Puts read set) (d : δ) :
    schema.fill (.cons comma before name colon after value rest) d =
      (value.readAs read).bind fun b => schema.fill rest (set b d) := by
  rw [fill, named, Option.bind_some, known]
  dsimp only
  rw [← Option.bind_assoc, puts.ofJson_toOption, Option.bind_map]
  rfl

end Schema

namespace Request

open MemberSpellings (fills_own fills_other)

/-- The pattern of a request is read as a text. -/
theorem puts_pattern : patternField.Puts Json.toText fun t d => { d with pattern := some t } :=
  fun _ _ => rfl

/-- The first flag of a request is read as a truth value. -/
theorem puts_case : caseField.Puts Json.toBool fun b d => { d with caseSensitive := some b } :=
  fun _ _ => rfl

/-- The second flag of a request is read as a truth value. -/
theorem puts_capturing :
    capturingField.Puts Json.toBool fun b d => { d with requireCapturing := some b } :=
  fun _ _ => rfl

/-- A request has three fields. -/
theorem forall_fields {P : Field Draft → Prop} :
    (∀ f ∈ schema.fields, P f) ↔ P patternField ∧ P caseField ∧ P capturingField := by
  simp [schema]

/-- Requests are read alike from texts and from values, field by field. -/
theorem faithful : schema.Faithful where
  unset := forall_fields.mpr ⟨rfl, rfl, rfl⟩
  agrees := forall_fields.mpr
    ⟨puts_pattern.agrees (fun _ _ => rfl) (Scanner.readStringValue_spelled "a string"),
      puts_case.agrees (fun _ _ => rfl) Scanner.readBoolValue_spelled,
      puts_capturing.agrees (fun _ _ => rfl) Scanner.readBoolValue_spelled⟩
  sets := by
    refine forall_fields.mpr ⟨fun g mem v d d' read => ?_, fun g mem v d d' read => ?_,
      fun g mem v d d' read => ?_⟩
    · obtain ⟨t, rfl⟩ := puts_pattern.eq_of_ok read
      revert g
      exact forall_fields.mpr ⟨fun _ => .inr rfl, .inl, .inl⟩
    · obtain ⟨b, rfl⟩ := puts_case.eq_of_ok read
      revert g
      exact forall_fields.mpr ⟨.inl, fun _ => .inr rfl, .inl⟩
    · obtain ⟨b, rfl⟩ := puts_capturing.eq_of_ok read
      revert g
      exact forall_fields.mpr ⟨.inl, .inl, fun _ => .inr rfl⟩

/-- Members fill a draft, slot by slot. -/
def Filled (members : MemberSpellings) (d d' : Draft) : Prop :=
  (∀ e ∈ members.entries, e.1.value?.isSome = true) ∧
  members.Fills Json.toText "regex" d.pattern d'.pattern ∧
  members.Fills Json.toBool "isCaseSensitive" d.caseSensitive d'.caseSensitive ∧
  members.Fills Json.toBool "requireCapturing" d.requireCapturing d'.requireCapturing

/-- What the members of a text fill of a draft, if no name is written twice. -/
theorem fill_eq_some_iff {members : MemberSpellings} (distinct : members.names.Nodup)
    {d d' : Draft} : schema.fill members d = some d' ↔ Filled members d d' := by
  match members with
  | .close _ =>
    constructor
    · rintro ⟨⟩
      exact ⟨nofun, rfl, rfl, rfl⟩
    · obtain ⟨_, _, _⟩ := d'
      rintro ⟨-, ⟨⟩, ⟨⟩, ⟨⟩⟩
      rfl
  | .cons comma before name colon after value rest =>
    rw [Filled, MemberSpellings.entries, List.forall_mem_cons]
    cases named : name.value? with
    | none =>
      rw [Schema.fill, named]
      simp
    | some n =>
      rw [MemberSpellings.names_cons named, List.nodup_cons] at distinct
      have more := fun d : Draft => @fill_eq_some_iff rest distinct.2 d d'
      -- One of the slots is that of the name, or none is.
      by_cases pattern : n = "regex"
      · subst pattern
        rw [Schema.fill_field named rfl puts_pattern, Option.bind_eq_some_iff,
          fills_own named distinct.1,
          fills_other named (show "regex" ≠ "isCaseSensitive" by decide),
          fills_other named (show "regex" ≠ "requireCapturing" by decide)]
        constructor
        · rintro ⟨t, held, filled⟩
          obtain ⟨names, slot, others⟩ := (more _).mp filled
          exact ⟨⟨rfl, names⟩, ⟨t, held, slot⟩, others⟩
        · rintro ⟨⟨-, names⟩, ⟨t, held, slot⟩, others⟩
          exact ⟨t, held, (more _).mpr ⟨names, slot, others⟩⟩
      by_cases sensitive : n = "isCaseSensitive"
      · subst sensitive
        rw [Schema.fill_field named rfl puts_case, Option.bind_eq_some_iff,
          fills_own named distinct.1, fills_other named pattern,
          fills_other named (show "isCaseSensitive" ≠ "requireCapturing" by decide)]
        constructor
        · rintro ⟨b, held, filled⟩
          obtain ⟨names, first, slot, last⟩ := (more _).mp filled
          exact ⟨⟨rfl, names⟩, first, ⟨b, held, slot⟩, last⟩
        · rintro ⟨⟨-, names⟩, first, ⟨b, held, slot⟩, last⟩
          exact ⟨b, held, (more _).mpr ⟨names, first, slot, last⟩⟩
      rw [fills_other named pattern, fills_other named sensitive]
      by_cases capturing : n = "requireCapturing"
      · subst capturing
        rw [Schema.fill_field named rfl puts_capturing, Option.bind_eq_some_iff,
          fills_own named distinct.1]
        constructor
        · rintro ⟨b, held, filled⟩
          obtain ⟨names, first, second, slot⟩ := (more _).mp filled
          exact ⟨⟨rfl, names⟩, first, second, b, held, slot⟩
        · rintro ⟨⟨-, names⟩, first, second, b, held, slot⟩
          exact ⟨b, held, (more _).mpr ⟨names, first, second, slot⟩⟩
      · have unknown : schema.field? n = none := by
          refine List.find?_eq_none.mpr (forall_fields.mpr ⟨?_, ?_, ?_⟩) <;> rw [decide_eq_true_eq]
          exacts [Ne.symm pattern, Ne.symm sensitive, Ne.symm capturing]
        rw [Schema.fill_other named unknown, fills_other named capturing, more,
          Filled]
        simp

/-- A draft is complete if it has a pattern. Flags that are not set have their defaults. -/
theorem complete_eq_some_iff {d : Draft} {r : Request} :
    (schema.complete d).toOption = some r ↔ d.pattern = some r.pattern ∧
      d.caseSensitive.getD true = r.caseSensitive ∧
      d.requireCapturing.getD false = r.requireCapturing := by
  obtain ⟨_ | p, sensitive, capturing⟩ := d
  · exact iff_of_false nofun fun same => nomatch same.1
  · obtain ⟨p', sensitive', capturing'⟩ := r
    have complete : schema.complete ⟨some p, sensitive, capturing⟩ =
        .ok ⟨p, sensitive.getD true, capturing.getD false⟩ := rfl
    rw [complete, toOption_eq_some_iff]
    simp

end Request

/-! ## Spelled requests -/

namespace MemberSpellings

/-- A member that may be left out is spelled as a truth value: its own, or the default. -/
def Flags (members : MemberSpellings) (name : String) (default b : Bool) : Prop :=
  match members.member? name with
  | none => b = default
  | some w => w = .bool b

variable {members : MemberSpellings} {name : String}

/-- The slot of a text is filled exactly by a string. -/
theorem fills_toText_iff {t : String} :
    members.Fills Json.toText name none (some t) ↔
      ∃ s, members.member? name = some (.string s) ∧ s.value? = some t := by
  unfold Fills
  cases members.member? name with
  | none => simp
  | some w => simp [Spelling.readAs_toText_iff]

/-- The slot of a flag has a truth value exactly if its member is one, or is left out. -/
theorem fills_toBool_iff {default b : Bool} :
    (∃ c, members.Fills Json.toBool name none c ∧ c.getD default = b) ↔
      members.Flags name default b := by
  unfold Fills Flags
  cases members.member? name with
  | none => simp [eq_comm]
  | some w =>
    constructor
    · rintro ⟨c, ⟨b', held, rfl⟩, rfl⟩
      exact Spelling.readAs_toBool_iff.mp held
    · exact fun held => ⟨some b, ⟨b, Spelling.readAs_toBool_iff.mpr held, rfl⟩, rfl⟩

section Values

variable {ms : List (String × Json)}

/-- Where no name is written twice, a member of the value is what is spelled for its name. -/
theorem member?_of_read (distinct : members.names.Nodup) (read : members.values? [] = some ms)
    (name : String) : Json.member? ms name = (members.member? name).bind Spelling.value? := by
  rw [member?_of_values? distinct read]
  split
  · rfl
  · rw [member?_eq_none ‹_›]
    rfl

/-- Flags are the same in the value as in the spelling. -/
theorem flags_iff (distinct : members.names.Nodup) (read : members.values? [] = some ms)
    (name : String) {default b : Bool} :
    Json.Flags default (Json.member? ms name) b ↔ members.Flags name default b := by
  rw [member?_of_read distinct read, Flags]
  cases found : members.member? name with
  | none => rfl
  | some w =>
    obtain ⟨e, mem, rfl⟩ := mem_of_member? found
    have values := values?_isSome_iff.mp (Option.isSome_of_eq_some read)
    obtain ⟨v, held⟩ := Option.isSome_iff_exists.mp (values e mem).2
    rw [Option.bind_some, held]
    show v = .bool b ↔ e.2 = .bool b
    rw [← Spelling.value?_eq_bool_iff, held, Option.some.injEq]

end Values

/-- Members that can be those of a value: they are values themselves, and not too deep for the level
that the object adds. -/
def Hold (members : MemberSpellings) : Prop :=
  (members.values? []).isSome = true ∧ members.levels + 1 < Scanner.depthLimit

section Hold

variable (before : Gap) (members : MemberSpellings) (after : Gap)

/-- An object is read as a value if its members hold, and is refused for its contents if not. -/
theorem parse_object :
    let text := (Spelling.object members).document before after
    (members.Hold → ∃ ms, members.values? [] = some ms ∧ Json.parse text = .ok (.object ms)) ∧
      (¬ members.Hold → ∃ f, Json.parse text = .error f ∧ f.cause.concernsValue = true) := by
  intro text
  have parsed := Json.parse_spelled before (.object members) after
  rw [Spelling.value?, Spelling.levels, Scanner.within] at parsed
  constructor
  · rintro ⟨value, within⟩
    obtain ⟨ms, read⟩ := Option.isSome_iff_exists.mp value
    rw [if_pos within, read] at parsed
    exact ⟨ms, read, parsed⟩
  · intro fails
    have nothing : (if members.levels + 1 < Scanner.depthLimit then
        (members.values? []).map Json.object else none) = none := by
      split
      · cases read : members.values? [] with
        | none => rfl
        | some ms => exact absurd ⟨Option.isSome_of_eq_some read, ‹_›⟩ fails
      · rfl
    rw [nothing] at parsed
    exact parsed

end Hold

end MemberSpellings

namespace Request

open MemberSpellings (fills_toText_iff fills_toBool_iff)

/-- The members of a text say what the request is. Their names must be strings, and other than that
only three of them count. -/
structure Spelled (members : MemberSpellings) (r : Request) : Prop where
  named : ∀ e ∈ members.entries, e.1.value?.isSome = true
  pattern : ∃ s, members.member? "regex" = some (.string s) ∧ s.value? = some r.pattern
  caseSensitive : members.Flags "isCaseSensitive" true r.caseSensitive
  requireCapturing : members.Flags "requireCapturing" false r.requireCapturing

/-- A text is read as the request that its members spell, and is refused if there is none. -/
theorem parse_eq_ok_iff {before : Gap} {members : MemberSpellings} {after : Gap}
    (distinct : members.names.Nodup) {r : Request} :
    Request.parse ((Spelling.object members).document before after) = .ok r ↔
      Spelled members r := by
  rw [← toOption_eq_some_iff, Request.parse, Schema.parse_spelled faithful _ _ _ distinct,
    Option.bind_eq_some_iff]
  constructor
  · rintro ⟨d, filled, complete⟩
    obtain ⟨named, pattern, sensitive, capturing⟩ := (fill_eq_some_iff distinct).mp filled
    obtain ⟨held, own, own'⟩ := complete_eq_some_iff.mp complete
    rw [held] at pattern
    exact ⟨named, fills_toText_iff.mp pattern, fills_toBool_iff.mp ⟨_, sensitive, own⟩,
      fills_toBool_iff.mp ⟨_, capturing, own'⟩⟩
  · rintro ⟨named, pattern, sensitive, capturing⟩
    obtain ⟨c, sensitive, own⟩ := fills_toBool_iff.mpr sensitive
    obtain ⟨c', capturing, own'⟩ := fills_toBool_iff.mpr capturing
    exact ⟨⟨some r.pattern, c, c'⟩, (fill_eq_some_iff distinct).mpr
      ⟨named, fills_toText_iff.mpr pattern, sensitive, capturing⟩,
      complete_eq_some_iff.mpr ⟨rfl, own, own'⟩⟩

/-- The members that a request knows. -/
def memberNames : List String := ["regex", "isCaseSensitive", "requireCapturing"]

/-- The members of other names are sound, and go at most 126 levels deep inside the object. -/
def OthersHold (members : MemberSpellings) : Prop :=
  ∀ e ∈ members.entries, (∀ name ∈ memberNames, e.1.value? ≠ some name) →
    e.2.isSound = true ∧ e.2.levels ≤ 126

instance (members : MemberSpellings) : Decidable (OthersHold members) :=
  inferInstanceAs (Decidable (∀ e ∈ members.entries,
    (∀ name ∈ memberNames, e.1.value? ≠ some name) →
      e.2.isSound = true ∧ e.2.levels ≤ 126))

section Spelled

variable {members : MemberSpellings} {r : Request}

/-- The members of a spelled request are strings or truth values. -/
theorem Spelled.holds (spelled : Spelled members r) {name : String} (known : name ∈ memberNames)
    {w : Spelling} (member : members.member? name = some w) :
    w.value?.isSome = true ∧ w.levels = 0 := by
  obtain ⟨-, ⟨s, pattern, held⟩, sensitive, capturing⟩ := spelled
  have flag : ∀ {default b}, members.Flags name default b → w = .bool b := by
    intro default b flags
    rwa [MemberSpellings.Flags, member] at flags
  rw [memberNames, List.mem_cons, List.mem_cons, List.mem_singleton] at known
  rcases known with rfl | rfl | rfl
  · cases member.symm.trans pattern
    rw [Spelling.value?, held]
    exact ⟨rfl, rfl⟩
  · cases flag sensitive
    exact ⟨rfl, rfl⟩
  · cases flag capturing
    exact ⟨rfl, rfl⟩

/-- For a spelled request it is up to the other members whether there is a value. -/
theorem Spelled.othersHold_iff (spelled : Spelled members r) (distinct : members.names.Nodup) :
    OthersHold members ↔ members.Hold := by
  have room : ∀ {levels : Nat}, levels ≤ 126 ↔ levels < Scanner.depthLimit - 1 :=
    Nat.lt_succ_iff.symm
  simp only [OthersHold, MemberSpellings.Hold, ← Nat.lt_sub_iff_add_lt,
    MemberSpellings.values?_isSome_iff, ← Spelling.isSome_value?, room,
    MemberSpellings.levels_lt_iff (show 0 < Scanner.depthLimit - 1 by decide)]
  constructor
  · intro others
    have each : ∀ e ∈ members.entries,
        e.2.value?.isSome = true ∧ e.2.levels < Scanner.depthLimit - 1 := by
      intro e mem
      by_cases known : ∃ name ∈ memberNames, e.1.value? = some name
      · obtain ⟨name, known, named⟩ := known
        obtain ⟨value, flat⟩ :=
          spelled.holds known (MemberSpellings.member?_of_mem distinct mem named)
        rw [flat]
        exact ⟨value, by decide⟩
      · exact others e mem fun name mem named => known ⟨name, mem, named⟩
    exact ⟨fun e mem => ⟨spelled.named e mem, (each e mem).1⟩, fun e mem => (each e mem).2⟩
  · rintro ⟨values, levels⟩ e mem -
    exact ⟨(values e mem).2, levels e mem⟩

/-- Where no name is written twice, the values of members describe the request that is spelled. -/
theorem described_iff_spelled {ms : List (String × Json)} (distinct : members.names.Nodup)
    (read : members.values? [] = some ms) : Described ms r ↔ Spelled members r := by
  have values := MemberSpellings.values?_isSome_iff.mp (Option.isSome_of_eq_some read)
  have flags := fun {default b} name =>
    @MemberSpellings.flags_iff members ms distinct read name default b
  have pattern : Json.member? ms "regex" = some (.string r.pattern) ↔
      ∃ s, members.member? "regex" = some (.string s) ∧ s.value? = some r.pattern := by
    rw [MemberSpellings.member?_of_read distinct read, Option.bind_eq_some_iff]
    constructor
    · rintro ⟨w, found, held⟩
      obtain ⟨s, rfl, own⟩ := Spelling.value?_eq_string_iff.mp held
      exact ⟨s, found, own⟩
    · rintro ⟨s, found, held⟩
      exact ⟨_, found, Spelling.value?_eq_string_iff.mpr ⟨s, rfl, held⟩⟩
  constructor
  · rintro ⟨text, here, there⟩
    exact ⟨fun e mem => (values e mem).1, pattern.mp text, (flags _).mp here, (flags _).mp there⟩
  · rintro ⟨-, text, here, there⟩
    exact ⟨pattern.mpr text, (flags _).mpr here, (flags _).mpr there⟩

end Spelled

end Request

namespace ValidatorLimits

variable (l : ValidatorLimits) (before : Gap) {members : MemberSpellings} (after : Gap)

/-- The text of an object with a value is validated as the value. -/
theorem validateText_of_hold (hold : members.Hold) :
    ∃ ms, members.values? [] = some ms ∧
      l.validateText ((Spelling.object members).document before after) =
        (l.validateValue (.object ms)).map fun validation => validation.verdict.text := by
  obtain ⟨ms, read, parsed⟩ := (members.parse_object before after).1 hold
  exact ⟨ms, read, by rw [validateText, parsed]⟩

/-- The text of an object without a value is refused for its contents. -/
theorem validateText_of_not_hold (fails : ¬ members.Hold) :
    ∃ f, l.validateText ((Spelling.object members).document before after) =
      .error (.wrongArguments f) ∧ f.cause.concernsValue = true := by
  obtain ⟨f, failed, concerns⟩ := (members.parse_object before after).2 fails
  exact ⟨f, by rw [validateText, failed], concerns⟩

/-- A text that spells no request is refused for its arguments, whether it has a value or not. -/
theorem validateText_of_not_spelled (distinct : members.names.Nodup)
    (other : ¬ ∃ r, Request.Spelled members r) :
    ∃ f, l.validateText ((Spelling.object members).document before after) =
      .error (.wrongArguments f) := by
  by_cases hold : members.Hold
  · obtain ⟨ms, read, made⟩ := l.validateText_of_hold before after hold
    simp only [← Request.described_iff_spelled distinct read] at other
    obtain ⟨f, refused⟩ := l.validateValue_of_not_described other
    exact ⟨f, by rw [made, refused]; rfl⟩
  · obtain ⟨f, failed, -⟩ := l.validateText_of_not_hold before after hold
    exact ⟨f, failed⟩

/-- A text that spells a request and has a value is answered with the verdict for the request. -/
theorem validateText_of_spelled (distinct : members.names.Nodup) {r : Request}
    (spelled : Request.Spelled members r) (hold : members.Hold) :
    l.validateText ((Spelling.object members).document before after) =
      .ok (l.validate r).verdict.text := by
  obtain ⟨ms, read, made⟩ := l.validateText_of_hold before after hold
  have described := (Request.described_iff_spelled distinct read).mpr spelled
  rw [made, l.validateValue_of_described described]
  rfl

end ValidatorLimits

/-- Two ways to read a request from the text of an object in which no name is written twice. Read
directly, the text is good if it spells a request: all names are strings, the pattern is a string,
and the flags, where present, are truth values. Validating the text asks for more: in the members of
other names no surrogate may stand alone, no number may be out of range, and they go at most 126
levels deep. Then the answer is the text of the verdict for the request that is read directly. If
only the other members stand against it, the text is refused for them, and if it spells no request,
it is refused in either way. -/
theorem request_text (l : ValidatorLimits) (before : Gap) (members : MemberSpellings) (after : Gap)
    (distinct : members.names.Nodup) :
    let text := (Spelling.object members).document before after
    (∀ r, Request.parse text = .ok r ↔ Request.Spelled members r) ∧
    (∀ out, l.validateText text = .ok out ↔
      ∃ r, Request.parse text = .ok r ∧ Request.OthersHold members ∧
        out = (l.validate r).verdict.text) ∧
    (∀ r, Request.parse text = .ok r → ¬ Request.OthersHold members →
      ∃ f, l.validateText text = .error (.wrongArguments f) ∧ f.cause.concernsValue = true) ∧
    ((∀ r, Request.parse text ≠ .ok r) →
      ∃ f, l.validateText text = .error (.wrongArguments f)) := by
  intro text
  have parsed : ∀ {r}, Request.parse text = .ok r ↔ Request.Spelled members r :=
    Request.parse_eq_ok_iff distinct
  refine ⟨fun r => parsed, ?_⟩
  simp only [parsed, ne_eq]
  refine ⟨fun out => ⟨fun ok => ?_, ?_⟩, fun r spelled others => ?_, fun other => ?_⟩
  · by_cases spelled : ∃ r, Request.Spelled members r
    · obtain ⟨r, spelled⟩ := spelled
      have hold : members.Hold := by
        by_contra fails
        obtain ⟨f, failed, -⟩ := l.validateText_of_not_hold before after fails
        cases ok.symm.trans failed
      have made := l.validateText_of_spelled before after distinct spelled hold
      exact ⟨r, spelled, (spelled.othersHold_iff distinct).mpr hold,
        Except.ok.inj (ok.symm.trans made)⟩
    · obtain ⟨f, failed⟩ := l.validateText_of_not_spelled before after distinct spelled
      cases ok.symm.trans failed
  · rintro ⟨r, spelled, others, rfl⟩
    exact l.validateText_of_spelled before after distinct spelled
      ((spelled.othersHold_iff distinct).mp others)
  · rw [spelled.othersHold_iff distinct] at others
    exact l.validateText_of_not_hold before after others
  · exact l.validateText_of_not_spelled before after distinct fun ⟨r, spelled⟩ => other r spelled

/-- A string without escapes. -/
def StringSpelling.plain (chars : List Char)
    (fine : ∀ c ∈ chars, 0x20 ≤ c.toNat ∧ c ≠ '"' ∧ c ≠ '\\') : StringSpelling :=
  ⟨chars.pmap (fun c fine => .plain c fine.1 fine.2.1 fine.2.2) fine⟩

/-- An object with a member of another name is read and validated for its own pattern. That member
is an object with a pattern itself, and holds a number near the greatest double and a pair of
surrogates. -/
theorem request_text_unknown :
    let l : ValidatorLimits := {}
    let text :=
      "\x7b\"x\": \x7b\"regex\":[-1.5e308,\"\\ud83D\\uDE00\"]\x7d, \"regex\":\"a\"\x7d"
    Request.parse text = .ok ⟨"a", true, false⟩ ∧
      l.validateText text = .ok (l.validate ⟨"a", true, false⟩).verdict.text := by
  intro l text
  let none : Gap := ⟨[], nofun⟩
  let blank : Gap := ⟨[' '], List.all_eq_true.mp rfl⟩
  let regex : StringSpelling := .plain ['r', 'e', 'g', 'e', 'x'] (by simp)
  let x : StringSpelling := .plain ['x'] (by simp)
  let a : StringSpelling := .plain ['a'] (by simp)
  let great : NumberSpelling :=
    { negative := true
      whole := ⟨['1'], nofun, List.all_eq_true.mp rfl⟩
      fraction := some ⟨['5'], nofun, List.all_eq_true.mp rfl⟩
      exponent :=
        some ⟨'e', [], ⟨['3', '0', '8'], nofun, List.all_eq_true.mp rfl⟩, .inl rfl, .inl rfl⟩
      proper := .inr (by decide) }
  let pair : StringSpelling :=
    ⟨[.unit ⟨⟨13, false⟩, ⟨8, false⟩, ⟨3, false⟩, ⟨13, true⟩⟩,
      .unit ⟨⟨13, true⟩, ⟨14, true⟩, ⟨0, false⟩, ⟨0, false⟩⟩]⟩
  let inner : MemberSpellings :=
    .cons none none regex none none
      (.list (.cons none none (.number great) (.cons none none (.string pair) (.close none))))
      (.close none)
  let members : MemberSpellings :=
    .cons none none x none blank (.object inner)
      (.cons none blank regex none none (.string a) (.close none))
  have written : (Spelling.object members).document none none = text := rfl
  obtain ⟨read, validated, -⟩ := request_text l none members none (by decide)
  rw [written] at read validated
  have spelled : Request.Spelled members ⟨"a", true, false⟩ :=
    ⟨by decide, ⟨a, rfl, rfl⟩, rfl, rfl⟩
  have others : Request.OthersHold members := by decide +kernel
  have direct := (read _).mpr spelled
  exact ⟨direct, (validated _).mpr ⟨_, direct, others, rfl⟩⟩

/-- A number that is out of range in a member of another name does not keep a request from being
read, but it keeps the text from being validated. -/
theorem request_text_overflow :
    let l : ValidatorLimits := {}
    let text := "\x7b\"regex\":\"a\",\"x\":1e999\x7d"
    Request.parse text = .ok ⟨"a", true, false⟩ ∧
      l.validateText text = .error (.wrongArguments ⟨.numberOutOfRange, some ⟨1, 22⟩⟩) :=
  ⟨rfl, rfl⟩

end PatternGate
