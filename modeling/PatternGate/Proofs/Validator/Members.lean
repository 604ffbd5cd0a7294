import PatternGate.Proofs.Validator.Outcome

/-!
# Requests as JSON values

A record is read from an object by the names of its fields. So the object counts only as far as it
answers to these names: `Schema.ofJson_congr` says this for every schema, and
`Request.ofJson_eq_ok_iff` says for a request which answers are good ones. The main statement,
`validateValue_members`, is what a validator makes of a JSON value of any shape, with any members
next to the three that it knows.
-/

namespace PatternGate

namespace Schema

variable {δ α : Type}

theorem mem_insertByName {f g : Field δ} {fs : List (Field δ)} :
    g ∈ insertByName f fs ↔ g = f ∨ g ∈ fs := by
  induction fs with
  | nil => simp [insertByName]
  | cons h fs ih =>
    unfold insertByName
    split
    · exact List.mem_cons
    · rw [List.mem_cons, ih, List.mem_cons]
      exact or_left_comm

/-- Sorting fields by their names loses none and adds none. -/
theorem mem_fieldsByName {schema : Schema δ α} {f : Field δ} :
    f ∈ schema.fieldsByName ↔ f ∈ schema.fields := by
  have sorted : ∀ fs : List (Field δ), f ∈ fs.foldr insertByName [] ↔ f ∈ fs := by
    intro fs
    induction fs with
    | nil => exact Iff.rfl
    | cons g fs ih => rw [List.foldr_cons, mem_insertByName, ih, List.mem_cons]
  exact sorted schema.fields

/-- Setting fields looks at the members of their names only. -/
theorem setMembers_congr {a b : List (String × Json)} {fs : List (Field δ)}
    (same : ∀ f ∈ fs, Json.member? a f.name = Json.member? b f.name) (draft : δ) :
    setMembers a fs draft = setMembers b fs draft := by
  induction fs generalizing draft with
  | nil => rfl
  | cons f fs ih =>
    rw [List.forall_mem_cons] at same
    simp only [setMembers, same.1, ih same.2]

/-- Objects that answer alike to the names of the fields are read alike, with the same fault if they
are refused. -/
theorem ofJson_congr (schema : Schema δ α) {a b : List (String × Json)}
    (same : ∀ f ∈ schema.fields, Json.member? a f.name = Json.member? b f.name) :
    schema.ofJson (.object a) = schema.ofJson (.object b) := by
  have set := setMembers_congr (fun f mem => same f (mem_fieldsByName.mp mem)) schema.blank
  rw [ofJson, ofJson, set]

/-- One field is set from its member, or stays unset if there is none, and the others follow. -/
theorem setMembers_cons {β : Type} (members : List (String × Json)) (f : Field δ)
    (fs : List (Field δ)) (read : Json → Except JsonFault β) (set : Option β → δ)
    (reads : ∀ v, f.ofJson v (set none) = (do return set (some (← read v)))) :
    setMembers members (f :: fs) (set none) = (do
      let b ← (Json.member? members f.name).mapM read
      setMembers members fs (set b)) := by
  rw [setMembers]
  cases Json.member? members f.name with
  | none => rfl
  | some v =>
    dsimp only
    rw [reads, Option.mapM_some]
    cases read v <;> rfl

end Schema

namespace Json

/-- A member that may be left out answers with a truth value: its own, or the default. -/
def Flags (default : Bool) (member : Option Json) (b : Bool) : Prop :=
  match member with
  | none => b = default
  | some v => v = .bool b

theorem flags_iff {default b : Bool} {member : Option Json} :
    (∃ c, member.mapM toBool = .ok c ∧ c.getD default = b) ↔ Flags default member b := by
  cases member with
  | none => simp [Flags, pure, Except.pure, eq_comm]
  | some v =>
    rw [Option.mapM_some]
    cases v <;> simp [Flags, toBool, Functor.map, Except.map]

theorem mapM_toText_iff {member : Option Json} {t : String} :
    member.mapM toText = .ok (some t) ↔ member = some (.string t) := by
  cases member with
  | none => simp [pure, Except.pure]
  | some v =>
    rw [Option.mapM_some]
    cases v <;> simp [toText, Functor.map, Except.map]

/-- A member answers with some truth value if it is left out or is one. -/
theorem exists_flags_iff {default : Bool} {member : Option Json} :
    (∃ b, Flags default member b) ↔ ∀ v, member = some v → ∃ b, v = .bool b := by
  cases member <;> simp [Flags]

end Json

namespace Request

open Json (member? Flags)

/-- A request is read off three members, in the order of their names, and a missing pattern is
noticed last. -/
theorem ofJson_object (members : List (String × Json)) :
    Request.ofJson (.object members) = (do
      let sensitive ← (member? members "isCaseSensitive").mapM Json.toBool
      let pattern ← (member? members "regex").mapM Json.toText
      let capturing ← (member? members "requireCapturing").mapM Json.toBool
      match pattern with
      | some p => .ok ⟨p, sensitive.getD true, capturing.getD false⟩
      | none => .error (.unplaced (.missingField "regex"))) := by
  have fields : schema.fieldsByName = [caseField, patternField, capturingField] := rfl
  have first := Schema.setMembers_cons members caseField [patternField, capturingField]
    Json.toBool (fun b => ⟨none, b, none⟩) (fun _ => rfl)
  have second := fun sensitive => Schema.setMembers_cons members patternField [capturingField]
    Json.toText (fun p => ⟨p, sensitive, none⟩) (fun _ => rfl)
  have third := fun sensitive pattern => Schema.setMembers_cons members capturingField []
    Json.toBool (fun b => ⟨pattern, sensitive, b⟩) (fun _ => rfl)
  rw [Request.ofJson, Schema.ofJson, fields]
  show Schema.setMembers members [caseField, patternField, capturingField] ⟨none, none, none⟩ >>=
    _ = _
  simp only [first, second, third, bind_assoc]
  refine bind_congr fun sensitive => bind_congr fun pattern => bind_congr fun capturing => ?_
  cases pattern <;> rfl

/-- The members of an object say what the request is. -/
structure Described (members : List (String × Json)) (r : Request) : Prop where
  pattern : member? members "regex" = some (.string r.pattern)
  caseSensitive : Flags true (member? members "isCaseSensitive") r.caseSensitive
  requireCapturing : Flags false (member? members "requireCapturing") r.requireCapturing

/-- An object is read as the request that its members describe, and is refused if there is none. -/
theorem ofJson_eq_ok_iff {members : List (String × Json)} {r : Request} :
    Request.ofJson (.object members) = .ok r ↔ Described members r := by
  rw [ofJson_object]
  constructor
  · intro read
    obtain ⟨sensitive, here, read⟩ := bind_eq_ok_iff.mp read
    obtain ⟨pattern, text, read⟩ := bind_eq_ok_iff.mp read
    obtain ⟨capturing, there, read⟩ := bind_eq_ok_iff.mp read
    cases pattern with
    | none => cases read
    | some p =>
      cases read
      exact ⟨Json.mapM_toText_iff.mp text, Json.flags_iff.mp ⟨sensitive, here, rfl⟩,
        Json.flags_iff.mp ⟨capturing, there, rfl⟩⟩
  · rintro ⟨text, here, there⟩
    obtain ⟨sensitive, here, default⟩ := Json.flags_iff.mpr here
    obtain ⟨capturing, there, default'⟩ := Json.flags_iff.mpr there
    refine bind_eq_ok_iff.mpr ⟨sensitive, here, bind_eq_ok_iff.mpr ⟨r.pattern,
      Json.mapM_toText_iff.mpr text, bind_eq_ok_iff.mpr ⟨capturing, there, ?_⟩⟩⟩
    rw [default, default']

/-- An object describes a request if its pattern is a string and each flag, where present, a truth
value. -/
theorem exists_described_iff {members : List (String × Json)} :
    (∃ r, Described members r) ↔
      (∃ p, member? members "regex" = some (.string p)) ∧
        ∀ name ∈ ["isCaseSensitive", "requireCapturing"], ∀ v, member? members name = some v →
          ∃ b, v = .bool b := by
  simp only [List.forall_mem_cons, List.not_mem_nil, false_implies, implies_true, and_true]
  rw [← @Json.exists_flags_iff true, ← @Json.exists_flags_iff false]
  constructor
  · rintro ⟨r, text, here, there⟩
    exact ⟨⟨_, text⟩, ⟨_, here⟩, ⟨_, there⟩⟩
  · rintro ⟨⟨p, text⟩, ⟨sensitive, here⟩, ⟨capturing, there⟩⟩
    exact ⟨⟨p, sensitive, capturing⟩, text, here, there⟩

end Request

namespace ValidatorLimits

open Json (member?)

theorem validateValue_object (l : ValidatorLimits) (members : List (String × Json)) :
    l.validateValue (.object members) =
      ((Request.ofJson (.object members)).map l.validate).mapError .wrongArguments := by
  rw [validateValue]
  cases Request.ofJson (.object members) <;> rfl

/-- An object that describes a request has the answer for that request. -/
theorem validateValue_of_described (l : ValidatorLimits) {members : List (String × Json)}
    {r : Request} (described : Request.Described members r) :
    l.validateValue (.object members) = .ok (l.validate r) := by
  rw [validateValue_object, Request.ofJson_eq_ok_iff.mpr described]
  rfl

/-- An object that describes no request is refused for its arguments. -/
theorem validateValue_of_not_described (l : ValidatorLimits) {members : List (String × Json)}
    (other : ¬ ∃ r, Request.Described members r) :
    ∃ f, l.validateValue (.object members) = .error (.wrongArguments f) := by
  rw [validateValue_object]
  cases read : Request.ofJson (.object members) with
  | ok r => exact absurd ⟨r, Request.ofJson_eq_ok_iff.mp read⟩ other
  | error f => exact ⟨f, rfl⟩

theorem validateValue_eq_notAnObject_iff {l : ValidatorLimits} {v : Json} :
    l.validateValue v = .error .notAnObject ↔ ∀ members, v ≠ .object members := by
  cases v with
  | object members =>
    rw [validateValue_object]
    cases Request.ofJson (.object members) <;> simp [Except.map, Except.mapError]
  | _ => simp [validateValue]

end ValidatorLimits

/-- A validator takes exactly the objects with a string as their pattern and, where they have flags,
truth values for these. The answer is that for the request so described, and flags that are left out
have their defaults. Any other object is refused for its arguments, and what is no object as such.
Members of other names do not count: they change neither the answer nor the fault. -/
theorem validateValue_members (l : ValidatorLimits) :
    (∀ v, l.validateValue v = .error .notAnObject ↔ ∀ members, v ≠ .object members) ∧
    (∀ members, (∃ answer, l.validateValue (.object members) = .ok answer) ↔
      (∃ p, Json.member? members "regex" = some (.string p)) ∧
        ∀ name ∈ ["isCaseSensitive", "requireCapturing"], ∀ v,
          Json.member? members name = some v → ∃ b, v = .bool b) ∧
    (∀ members r, Request.Described members r →
      l.validateValue (.object members) = .ok (l.validate r)) ∧
    (∀ members, (∀ answer, l.validateValue (.object members) ≠ .ok answer) →
      ∃ f, l.validateValue (.object members) = .error (.wrongArguments f)) ∧
    (∀ a b, (∀ name ∈ ["regex", "isCaseSensitive", "requireCapturing"],
        Json.member? a name = Json.member? b name) →
      l.validateValue (.object a) = l.validateValue (.object b)) := by
  have taken : ∀ members, (∃ answer, l.validateValue (.object members) = .ok answer) ↔
      ∃ r, Request.Described members r := by
    intro members
    constructor
    · rintro ⟨answer, ok⟩
      by_contra other
      obtain ⟨f, refused⟩ := l.validateValue_of_not_described other
      rw [refused] at ok
      cases ok
    · rintro ⟨r, described⟩
      exact ⟨_, l.validateValue_of_described described⟩
  refine ⟨fun v => ValidatorLimits.validateValue_eq_notAnObject_iff,
    fun members => (taken members).trans Request.exists_described_iff,
    fun members r => l.validateValue_of_described, fun members refused => ?_, fun a b same => ?_⟩
  · refine l.validateValue_of_not_described fun described => ?_
    obtain ⟨answer, ok⟩ := (taken members).mpr described
    exact refused answer ok
  · have read : Request.ofJson (.object a) = Request.ofJson (.object b) := by
      have names : ["regex", "isCaseSensitive", "requireCapturing"] =
          Request.schema.fields.map Field.name := rfl
      rw [names, List.forall_mem_map] at same
      exact Request.schema.ofJson_congr same
    rw [l.validateValue_object, l.validateValue_object, read]

/-- An object with members of other names, among them a second object with a pattern, has the answer
for the one flag and the pattern that are its own. A flag that is null is not one left out. -/
theorem validateValue_members_other :
    let l : ValidatorLimits := {}
    let known := [("regex", Json.string "(a)+"), ("requireCapturing", .bool true)]
    let other := [("x", Json.null), ("regex", .string "(a)+"),
      ("inner", .object [("regex", .string "b")]), ("requireCapturing", .bool true)]
    l.validateValue (.object known) = .ok (l.validate ⟨"(a)+", true, true⟩) ∧
      l.validateValue (.object other) = l.validateValue (.object known) ∧
      ∃ f, l.validateValue (.object (("isCaseSensitive", .null) :: known)) =
        .error (.wrongArguments f) := by
  intro l known other
  obtain ⟨-, taken, described, refused, alike⟩ := validateValue_members l
  refine ⟨described known _ ⟨rfl, rfl, rfl⟩, alike other known ?_, refused _ ?_⟩
  · simp only [List.forall_mem_cons, List.not_mem_nil, false_implies, implies_true, and_true]
    exact ⟨rfl, rfl, rfl⟩
  · intro answer ok
    obtain ⟨-, flags⟩ := (taken _).mp ⟨answer, ok⟩
    obtain ⟨b, other⟩ := flags "isCaseSensitive" (by simp) .null rfl
    cases other

end PatternGate
