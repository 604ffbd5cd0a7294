import PatternGate.Proofs.Json.Written
import PatternGate.Validator.Verdict

/-!
# Records that cross the JSON boundary

A record is written as an object of its fields and read back from it, by either of two ways: from
the text directly, or from the value that the text stands for. `Schema.parse_object` is the first
way for any schema: if the members of an object set the fields of a record one after the other
(`Schema.Fills`), the text of the object is read as that record. With `Json.parse_object` for the
second way, a request survives the boundary whatever its pattern is, limits survive it whatever
their size is, and a validator gives one verdict for a request and for its text (`json_boundary`).
-/

namespace PatternGate

open Scanner JsonText

/-! ## Values of fields -/

namespace Scanner

theorem readStringValue_written (expected s : String) (rest : List Char) (p : Place) :
    readStringValue expected ⟨string s ++ rest, p⟩ =
      .ok (s, ⟨rest, p.afterAll (string s)⟩) := by
  rw [string_eq, List.cons_append, readStringValue, startValue, skipSpace_of_visible rfl]
  exact readString_written s rest (p.after '"')

theorem readBoolValue_written (b : Bool) (rest : List Char) (p : Place) :
    readBoolValue ⟨bool b ++ rest, p⟩ = .ok (b, ⟨rest, p.afterAll (bool b)⟩) := by
  cases b <;> rfl

/-- A number within the bounds of its field is read back. -/
theorem readNatValue_written {max n : Nat} (expected : String) (word : max ≤ wordMax)
    (small : n ≤ max) {rest : List Char} (ends : EndsValue rest) (p : Place) :
    readNatValue max expected ⟨nat n ++ rest, p⟩ = .ok (n, ⟨rest, p.afterAll (nat n)⟩) := by
  have read := readNumber_written (Nat.le_trans small word) ends p
  obtain ⟨d, ds, text, digit⟩ := nat_eq_cons n
  have visible : (d = ' ' || d = '\n' || d = '\t' || d = '\r') = false := by
    simp [ne_of_isDigit digit (show ' '.isDigit = false from rfl),
      ne_of_isDigit digit (show '\n'.isDigit = false from rfl),
      ne_of_isDigit digit (show '\t'.isDigit = false from rfl),
      ne_of_isDigit digit (show '\r'.isDigit = false from rfl)]
  have unsigned : d ≠ '-' := ne_of_isDigit digit rfl
  have start : startValue ⟨nat n ++ rest, p⟩ = .ok (d, ⟨nat n ++ rest, p⟩) := by
    rw [text, List.cons_append, startValue, skipSpace_of_visible visible]
  have value : JsonNumber.toNat max expected (.nat n) = .ok n := if_pos small
  rw [readNatValue, start]
  show (if d = '-' ∨ d.isDigit = true then
    (if d = '-' then _ else readNumber true ⟨nat n ++ rest, p⟩ >>= _) else _) = _
  rw [if_pos (.inr digit), if_neg unsigned, read]
  dsimp only [bind, Except.bind]
  rw [value]
  rfl

end Scanner

/-! ## Records -/

namespace Schema

variable {δ α : Type} {schema : Schema δ α}

/-- Members of an object that set fields of a draft, each of them for the first time. -/
inductive Fills (schema : Schema δ α) : δ → List (String × List Char) → δ → Prop
  | nil (d : δ) : Fills schema d [] d
  | cons {d d' done : δ} {text : List Char} {members : List (String × List Char)} (f : Field δ)
    (known : schema.field? f.name = some f) (unset : f.isSet d = false)
    (reads : ∀ rest p, EndsValue rest →
      f.ofText ⟨text ++ rest, p⟩ d = .ok (d', ⟨rest, p.afterAll text⟩))
    (more : Fills schema d' members done) : Fills schema d ((f.name, text) :: members) done

/-- One member is read into its field, and reading goes on behind it. -/
theorem readMembers_member {s : Scanner} {first : Bool} {f : Field δ} {text rest : List Char}
    {p : Place} (opened : s.nextName first = .ok (true, ⟨memberText (f.name, text) ++ rest, p⟩))
    {d d' : δ} (known : schema.field? f.name = some f) (unset : f.isSet d = false)
    (reads : ∀ rest p, EndsValue rest →
      f.ofText ⟨text ++ rest, p⟩ d = .ok (d', ⟨rest, p.afterAll text⟩))
    (ends : EndsValue rest) (fuel : Nat) :
    ∃ q, schema.readMembers (fuel + 1) first d s =
      schema.readMembers fuel false d' ⟨rest, q⟩ := by
  refine ⟨((p.afterAll (afterQuote f.name)).after ':').afterAll text, ?_⟩
  rw [readMembers, opened, memberText_append]
  show ((readString ⟨afterQuote f.name ++ ':' :: (text ++ rest), p⟩ : Except JsonFault _) >>= _) = _
  rw [readString_written]
  dsimp only [bind, Except.bind]
  rw [known]
  show (if f.isSet d = true then _ else _) = _
  rw [unset, if_neg Bool.false_ne_true]
  show ((f.ofText ⟨text ++ rest, (p.afterAll (afterQuote f.name)).after ':'⟩ d :
    Except JsonFault _) >>= _) = _
  rw [reads rest _ ends]
  rfl

/-- The members of an object are read into their fields up to the end of the object. -/
theorem readMembers_more {d done : δ} {members : List (String × List Char)}
    (fills : schema.Fills d members done) {fuel : Nat} (enough : members.length < fuel)
    (rest : List Char) (p : Place) :
    ∃ q, schema.readMembers fuel false d ⟨moreMembers members ++ rest, p⟩ =
      .ok ⟨schema.complete done, ⟨'}' :: rest, q⟩⟩ := by
  induction fills generalizing fuel p with
  | nil d =>
    obtain _ | fuel := fuel
    · cases enough
    exact ⟨p, rfl⟩
  | @cons d d' done text members f known unset reads more ih =>
    obtain _ | fuel := fuel
    · cases enough
    have opened : nextName false ⟨',' :: '"' :: (memberText (f.name, text) ++
        (moreMembers members ++ rest)), p⟩ =
          .ok (true, ⟨memberText (f.name, text) ++ (moreMembers members ++ rest),
            (p.after ',').after '"'⟩) := rfl
    obtain ⟨q, step⟩ := readMembers_member opened known unset reads
      (endsValue_moreMembers members rest) fuel
    obtain ⟨q', run⟩ := ih (Nat.lt_of_succ_lt_succ enough) q
    refine ⟨q', ?_⟩
    rw [moreMembers_cons, List.cons_append, List.cons_append, List.append_assoc, step, run]

/-- An object whose members set the fields of a record is read as that record. -/
theorem parse_object {m : String × List Char} {members : List (String × List Char)} {done : δ}
    {a : α} (fills : schema.Fills schema.blank (m :: members) done)
    (complete : schema.complete done = .ok a) :
    schema.parse (String.ofList (object (m :: members))) = .ok a := by
  have room := length_lt_moreMembers members
  cases fills with
  | @cons _ d _ text _ f known unset reads more =>
    let inner := memberText (f.name, text) ++ moreMembers members
    have opened : nextName true ⟨'"' :: inner, ⟨1, 1⟩⟩ = .ok (true, ⟨inner, ⟨1, 2⟩⟩) := rfl
    have enough : members.length < 2 * inner.length + 5 := by
      rw [List.length_append]
      omega
    have ends : EndsValue (moreMembers members) := by
      have ends := endsValue_moreMembers members []
      rwa [List.append_nil] at ends
    obtain ⟨q, step⟩ := readMembers_member opened known unset reads ends (2 * inner.length + 5)
    obtain ⟨q', run⟩ := readMembers_more more enough [] q
    rw [List.append_nil] at run
    have whole : schema.readMembers (Scanner.fuel ⟨'{' :: '"' :: inner, ⟨1, 0⟩⟩) true schema.blank
        ⟨'"' :: inner, ⟨1, 1⟩⟩ = .ok ⟨schema.complete done, ⟨['}'], q'⟩⟩ :=
      step.trans run
    rw [parse, Scanner.ofString, String.toList_ofList, object_cons, read]
    show ((schema.readMembers (Scanner.fuel ⟨'{' :: '"' :: inner, ⟨1, 0⟩⟩) true schema.blank
      ⟨'"' :: inner, ⟨1, 1⟩⟩ >>= fun _ => _) >>= _) = _
    rw [whole, complete]
    rfl

end Schema

/-! ## Requests -/

namespace Request

/-- The members of the text of a request. -/
def members (r : Request) : List (String × List Char) :=
  [(patternField.name, string r.pattern), (caseField.name, bool r.caseSensitive),
    (capturingField.name, bool r.requireCapturing)]

theorem fills_members (r : Request) :
    schema.Fills schema.blank r.members
      ⟨some r.pattern, some r.caseSensitive, some r.requireCapturing⟩ := by
  have pattern : ∀ rest p, EndsValue rest →
      patternField.ofText ⟨string r.pattern ++ rest, p⟩ {} =
        .ok (⟨some r.pattern, none, none⟩, ⟨rest, p.afterAll (string r.pattern)⟩) := by
    intro rest p _
    show (readStringValue "a string" ⟨string r.pattern ++ rest, p⟩ >>= _) = _
    rw [readStringValue_written]
    rfl
  have sensitive : ∀ rest p, EndsValue rest →
      caseField.ofText ⟨bool r.caseSensitive ++ rest, p⟩ ⟨some r.pattern, none, none⟩ =
        .ok (⟨some r.pattern, some r.caseSensitive, none⟩,
          ⟨rest, p.afterAll (bool r.caseSensitive)⟩) := by
    intro rest p _
    show (readBoolValue ⟨bool r.caseSensitive ++ rest, p⟩ >>= _) = _
    rw [readBoolValue_written]
    rfl
  have capturing : ∀ rest p, EndsValue rest →
      capturingField.ofText ⟨bool r.requireCapturing ++ rest, p⟩
        ⟨some r.pattern, some r.caseSensitive, none⟩ =
          .ok (⟨some r.pattern, some r.caseSensitive, some r.requireCapturing⟩,
            ⟨rest, p.afterAll (bool r.requireCapturing)⟩) := by
    intro rest p _
    show (readBoolValue ⟨bool r.requireCapturing ++ rest, p⟩ >>= _) = _
    rw [readBoolValue_written]
    rfl
  exact .cons patternField rfl rfl pattern
    (.cons caseField rfl rfl sensitive (.cons capturingField rfl rfl capturing (.nil _)))

/-- A request is read back from its text. -/
theorem parse_text (r : Request) : Request.parse r.text = .ok r :=
  Schema.parse_object r.fills_members rfl

/-- The value that the text of a request stands for. -/
def json (r : Request) : Json :=
  .object [(patternField.name, .string r.pattern), (caseField.name, .bool r.caseSensitive),
    (capturingField.name, .bool r.requireCapturing)]

theorem json_parse_text (r : Request) : Json.parse r.text = .ok r.json := by
  refine Json.parse_object (.cons ⟨rfl, ?_⟩ (.cons ⟨rfl, ?_⟩ (.cons ⟨rfl, ?_⟩ .nil))) ?_
  · exact writes_string r.pattern
  · exact writes_bool r.caseSensitive
  · exact writes_bool r.requireCapturing
  · show [patternField.name, caseField.name, capturingField.name].Nodup
    decide

/-- A request is read back from the value of its text. -/
theorem ofJson_json (r : Request) : Request.ofJson r.json = .ok r := by
  rfl

end Request

/-! ## Limits -/

namespace ValidatorLimits

/-- The members of the text of limits. -/
def members (l : ValidatorLimits) : List (String × List Char) :=
  [(memoryField.name, nat l.maxMemory.toNat), (nestField.name, nat l.nestLimit.toNat)]

theorem fills_members (l : ValidatorLimits) :
    schema.Fills schema.blank l.members ⟨some l.maxMemory.toNat, some l.nestLimit.toNat⟩ := by
  have memory : ∀ rest p, EndsValue rest →
      memoryField.ofText ⟨nat l.maxMemory.toNat ++ rest, p⟩ {} =
        .ok (⟨some l.maxMemory.toNat, none⟩, ⟨rest, p.afterAll (nat l.maxMemory.toNat)⟩) := by
    intro rest p ends
    have small : l.maxMemory.toNat ≤ UInt64.size - 1 := Nat.le_pred_of_lt l.maxMemory.toNat_lt
    show (readNatValue (UInt64.size - 1) "usize" ⟨nat l.maxMemory.toNat ++ rest, p⟩ >>= _) = _
    rw [readNatValue_written "usize" (by decide) small ends]
    rfl
  have nesting : ∀ rest p, EndsValue rest →
      nestField.ofText ⟨nat l.nestLimit.toNat ++ rest, p⟩ ⟨some l.maxMemory.toNat, none⟩ =
        .ok (⟨some l.maxMemory.toNat, some l.nestLimit.toNat⟩,
          ⟨rest, p.afterAll (nat l.nestLimit.toNat)⟩) := by
    intro rest p ends
    have small : l.nestLimit.toNat ≤ UInt32.size - 1 := Nat.le_pred_of_lt l.nestLimit.toNat_lt
    show (readNatValue (UInt32.size - 1) "u32" ⟨nat l.nestLimit.toNat ++ rest, p⟩ >>= _) = _
    rw [readNatValue_written "u32" (by decide) small ends]
    rfl
  exact .cons memoryField rfl rfl memory (.cons nestField rfl rfl nesting (.nil _))

/-- Limits are read back from their text. -/
theorem parse_text (l : ValidatorLimits) : ValidatorLimits.parse l.text = .ok l := by
  refine Schema.parse_object l.fills_members ?_
  show Except.ok (ValidatorLimits.mk (.ofNat l.maxMemory.toNat) (.ofNat l.nestLimit.toNat)) = _
  rw [UInt64.ofNat_toNat, UInt32.ofNat_toNat]

/-- A validator gives the verdict of a request for the text of the request. -/
theorem validateText_text (l : ValidatorLimits) (r : Request) :
    l.validateText r.text = .ok (l.validate r).verdict.text := by
  have value : l.validateValue r.json = .ok (l.validate r) := by
    have read := r.ofJson_json
    rw [Request.json] at read ⊢
    rw [validateValue, read]
  rw [validateText, r.json_parse_text]
  show (l.validateValue r.json).map _ = _
  rw [value]
  rfl

end ValidatorLimits

/-! ## What the texts are -/

/-- A truth value in a text. -/
def boolText (b : Bool) : String := if b then "true" else "false"

theorem ofList_bool (b : Bool) : String.ofList (bool b) = boolText b := by
  cases b <;> rfl

/-- The three members of the text of a request, with the names and in the order that they have. -/
theorem Request.text_eq (r : Request) :
    r.text = "\x7b\"regex\":\"" ++ String.ofList (r.pattern.toList.flatMap escapeChar) ++
      "\",\"isCaseSensitive\":" ++ boolText r.caseSensitive ++
      ",\"requireCapturing\":" ++ boolText r.requireCapturing ++ "\x7d" := by
  apply String.toList_injective
  have pattern : string patternField.name = "\"regex\"".toList := by decide
  have case : string caseField.name = "\"isCaseSensitive\"".toList := by decide
  have capturing : string capturingField.name = "\"requireCapturing\"".toList := by decide
  rw [text, object, moreMembers, moreMembers, moreMembers, pattern, case, capturing,
    ← ofList_bool, ← ofList_bool]
  simp [string]

/-- The two members of the text of limits, with the names and in the order that they have. -/
theorem ValidatorLimits.text_eq (l : ValidatorLimits) :
    l.text = "\x7b\"maxMem\":" ++ toString l.maxMemory.toNat ++
      ",\"nestLimit\":" ++ toString l.nestLimit.toNat ++ "\x7d" := by
  apply String.toList_injective
  have memory : string memoryField.name = "\"maxMem\"".toList := by decide
  have nest : string nestField.name = "\"nestLimit\"".toList := by decide
  rw [text, object, moreMembers, moreMembers, memory, nest]
  simp [nat]

/-- Records survive the JSON boundary. A validator that is given the text of a request, whatever
string its pattern is, answers with the text of its verdict on the request, and each of the three
verdicts has its own. A request is read back from its text directly and from the value of its text,
and limits of any size are read back from theirs; both texts hold their members by name. -/
theorem json_boundary :
    (∀ (l : ValidatorLimits) (r : Request),
      l.validateText r.text = .ok (l.validate r).verdict.text ∧
        (l.validate r).verdict.text = match (l.validate r).verdict with
          | .supported => "\x7b\"isSupported\":true\x7d"
          | .unsupported .memoryLimitExceeded =>
            "\x7b\"isSupported\":false,\"reason\":\"memoryLimitExceeded\"\x7d"
          | .unsupported .syntaxError =>
            "\x7b\"isSupported\":false,\"reason\":\"syntaxError\"\x7d") ∧
    (∀ r : Request,
      r.text = "\x7b\"regex\":\"" ++ String.ofList (r.pattern.toList.flatMap escapeChar) ++
        "\",\"isCaseSensitive\":" ++ boolText r.caseSensitive ++
        ",\"requireCapturing\":" ++ boolText r.requireCapturing ++ "\x7d" ∧
      Request.parse r.text = .ok r ∧ (Json.parse r.text >>= Request.ofJson) = .ok r) ∧
    (∀ l : ValidatorLimits,
      l.text = "\x7b\"maxMem\":" ++ toString l.maxMemory.toNat ++
        ",\"nestLimit\":" ++ toString l.nestLimit.toNat ++ "\x7d" ∧
      ValidatorLimits.parse l.text = .ok l) := by
  refine ⟨fun l r => ⟨l.validateText_text r, ?_⟩, fun r => ⟨r.text_eq, r.parse_text, ?_⟩,
    fun l => ⟨l.text_eq, l.parse_text⟩⟩
  · rcases (l.validate r).verdict with _ | _ | _ <;> decide
  · rw [r.json_parse_text]
    exact r.ofJson_json

/-- A pattern with a quote, a backslash, control characters and a character of four bytes is written
with escapes for all but the last. -/
example : (Request.mk "\"\\d\x01\n😀" false true).text =
    "\x7b\"regex\":\"\\\"\\\\d\\u0001\\n😀\"," ++
      "\"isCaseSensitive\":false,\"requireCapturing\":true\x7d" := by
  decide +kernel

end PatternGate
