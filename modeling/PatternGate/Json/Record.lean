import PatternGate.Json.Reader

/-!
# Records

A record is read from an object, by the names of its fields, or from a list, by their order. It can
be read from a JSON text directly or from a JSON value. A schema lists the fields; each of them
knows how to read itself into a draft of the record. Fields that are not required may be left out,
and members that are no fields are passed over.
-/

namespace PatternGate

/-- A field of a record with drafts of type `δ`. -/
structure Field (δ : Type) where
  name : String
  required : Bool
  isSet : δ → Bool
  ofText : Scanner → δ → Except JsonFault (δ × Scanner)
  ofJson : Json → δ → Except JsonFault δ

/-- A kind of record. -/
structure Schema (δ α : Type) where
  label : String
  fields : List (Field δ)
  blank : δ
  build : δ → α

/-! ## Fields of a text -/

namespace Scanner

/-- The fault of something else standing where `expected` is asked for. -/
def unexpected {α : Type} (expected : String) (s : Scanner) : Except JsonFault α :=
  let wrong (found : Found) (s : Scanner) : Except JsonFault α :=
    s.faultHere (.wrongType found expected)
  match s.rest with
  | [] => s.faultNext .expectedValue
  | c :: _ =>
    if c = 'n' then s.bump.readWord ['u', 'l', 'l'] >>= wrong .null
    else if c = 't' then s.bump.readWord ['r', 'u', 'e'] >>= wrong (.bool true)
    else if c = 'f' then s.bump.readWord ['a', 'l', 's', 'e'] >>= wrong (.bool false)
    else if c = '-' then s.bump.readNumber false >>= fun (n, s) => wrong (.number n) s
    else if c.isDigit then s.readNumber true >>= fun (n, s) => wrong (.number n) s
    else if c = '"' then s.bump.readString >>= fun (t, s) => wrong (.string t) s
    else if c = '[' then wrong .sequence s
    else if c = '{' then wrong .map s
    else s.faultNext .expectedValue

/-- Passes over white space before a value. -/
def startValue (s : Scanner) : Except JsonFault (Char × Scanner) :=
  let s := s.skipSpace
  match s.rest with
  | [] => s.faultNext .endInValue
  | c :: _ => .ok (c, s)

/-- Reads a string. -/
def readStringValue (expected : String) (s : Scanner) : Except JsonFault (String × Scanner) := do
  let (c, s) ← s.startValue
  if c = '"' then s.bump.readString else s.unexpected expected

/-- Reads a truth value. -/
def readBoolValue (s : Scanner) : Except JsonFault (Bool × Scanner) := do
  let (c, s) ← s.startValue
  if c = 't' then
    let s ← s.bump.readWord ['r', 'u', 'e']
    return (true, s)
  else if c = 'f' then
    let s ← s.bump.readWord ['a', 'l', 's', 'e']
    return (false, s)
  else s.unexpected "a boolean"

end Scanner

/-- A number as a natural number up to `max`, where messages ask for `expected`. -/
def JsonNumber.toNat (max : Nat) (expected : String) (n : JsonNumber) : Except JsonCause Nat :=
  match n with
  | .nat k => if k ≤ max then .ok k else .error (.wrongValue (.number n) expected)
  | .neg _ => .error (.wrongValue (.number n) expected)
  | .double _ _ => .error (.wrongType (.number n) expected)

namespace Scanner

/-- Reads a natural number up to `max`. -/
def readNatValue (max : Nat) (expected : String) (s : Scanner) :
    Except JsonFault (Nat × Scanner) := do
  let (c, s) ← s.startValue
  if c = '-' ∨ c.isDigit then
    let (n, s) ← if c = '-' then s.bump.readNumber false else s.readNumber true
    match n.toNat max expected with
    | .ok k => return (k, s)
    | .error cause => s.faultHere cause
  else s.unexpected expected

end Scanner

/-! ## Fields of a value -/

namespace Json

/-- A value that is a string. -/
def toText : Json → Except JsonFault String
  | .string s => .ok s
  | v => .error (.unplaced (.wrongType (.ofJson v) "a string"))

/-- A value that is a truth value. -/
def toBool : Json → Except JsonFault Bool
  | .bool b => .ok b
  | v => .error (.unplaced (.wrongType (.ofJson v) "a boolean"))

/-- A value that is a natural number up to `max`. -/
def toNat (max : Nat) (expected : String) : Json → Except JsonFault Nat
  | .number n => (n.toNat max expected).mapError .unplaced
  | v => .error (.unplaced (.wrongType (.ofJson v) expected))

end Json

namespace Schema

variable {δ α : Type}

/-- What messages ask for. -/
def expected (schema : Schema δ α) : String := "struct " ++ schema.label

/-- What messages ask for when a list is too short. -/
def expectedItems (schema : Schema δ α) : String :=
  schema.expected ++ " with " ++ toString schema.fields.length ++ " elements"

/-- The record of a draft, if no required field is missing. -/
def complete (schema : Schema δ α) (draft : δ) : Except JsonCause α :=
  match schema.fields.find? fun f => f.required && !f.isSet draft with
  | some f => .error (.missingField f.name)
  | none => .ok (schema.build draft)

/-- The field of a name. -/
def field? (schema : Schema δ α) (name : String) : Option (Field δ) :=
  schema.fields.find? fun f => f.name = name

/-! ## Records of a value -/

/-- Puts a field before the fields with greater names. -/
def insertByName (f : Field δ) : List (Field δ) → List (Field δ)
  | [] => [f]
  | g :: rest => if f.name < g.name then f :: g :: rest else g :: insertByName f rest

/-- The fields in the order of their names. -/
def fieldsByName (schema : Schema δ α) : List (Field δ) :=
  schema.fields.foldr insertByName []

/-- Sets the fields that an object has. -/
def setMembers (members : List (String × Json)) : List (Field δ) → δ → Except JsonFault δ
  | [], draft => .ok draft
  | f :: rest, draft =>
    match Json.member? members f.name with
    | none => setMembers members rest draft
    | some v => do
      let draft ← f.ofJson v draft
      setMembers members rest draft

/-- Sets fields from a list. Items that are left over are counted. -/
def setItems (schema : Schema δ α) :
    Nat → List (Field δ) → List Json → δ → Except JsonFault (δ × Nat)
  | _, [], items, draft => .ok (draft, items.length)
  | i, f :: rest, [], draft =>
    if f.required then .error (.unplaced (.wrongLength i schema.expectedItems))
    else setItems schema (i + 1) rest [] draft
  | i, f :: rest, v :: items, draft => do
    let draft ← f.ofJson v draft
    setItems schema (i + 1) rest items draft

/-- The record of a value. -/
def ofJson (schema : Schema δ α) : Json → Except JsonFault α
  | .object members => do
    let draft ← setMembers members schema.fieldsByName schema.blank
    (schema.complete draft).mapError .unplaced
  | .array items => do
    let (draft, left) ← schema.setItems 0 schema.fields items schema.blank
    if left = 0 then (schema.complete draft).mapError .unplaced
    else throw (.unplaced (.wrongLength items.length "fewer elements in array"))
  | v => .error (.unplaced (.wrongType (.ofJson v) schema.expected))

/-! ## Records of a text -/

/-- What was read of a record, and the scanner after it. A cause has no place yet: it is placed when
the closing bracket was looked for. -/
structure Reading (α : Type) where
  result : Except JsonCause α
  stop : Scanner

/-- Reads the members of an object into a draft. A name that is repeated is refused. -/
def readMembers (schema : Schema δ α) : Nat → Bool → δ → Scanner →
    Except JsonFault (Reading α)
  | 0, _, _, s => s.faultNext .endInObject
  | fuel + 1, first, draft, s => do
    let (more, s) ← s.nextName first
    if more then
      let (name, s) ← s.readString
      match schema.field? name with
      | none =>
        let s ← s.readColon
        let s ← s.skipValue
        readMembers schema fuel false draft s
      | some f =>
        if f.isSet draft then return ⟨.error (.duplicateField name), s⟩
        else
          let s ← s.readColon
          let (draft, s) ← f.ofText s draft
          readMembers schema fuel false draft s
    else return ⟨schema.complete draft, s⟩

/-- Reads the items of a list into a draft. -/
def readItems (schema : Schema δ α) : Nat → List (Field δ) → δ → Scanner →
    Except JsonFault (Reading α)
  | _, [], draft, s => .ok ⟨schema.complete draft, s⟩
  | i, f :: rest, draft, s => do
    let (more, s) ← s.nextItem (i = 0)
    if more then
      let (draft, s) ← f.ofText s draft
      readItems schema (i + 1) rest draft s
    else if f.required then return ⟨.error (.wrongLength i schema.expectedItems), s⟩
    else readItems schema (i + 1) rest draft s

/-- Reads the end of an object. -/
def closeObject (s : Scanner) : Except JsonFault Scanner :=
  let s := s.skipSpace
  match s.rest with
  | [] => s.faultNext .endInObject
  | c :: _ =>
    if c = '}' then .ok s.bump
    else if c = ',' then s.faultNext .trailingComma
    else s.faultNext .trailingCharacters

/-- Reads the end of a list. -/
def closeList (s : Scanner) : Except JsonFault Scanner :=
  let s := s.skipSpace
  match s.rest with
  | [] => s.faultNext .endInList
  | c :: _ =>
    if c = ']' then .ok s.bump
    else if c = ',' then
      let s := s.bump.skipSpace
      s.faultNext (if s.rest.head? = some ']' then .trailingComma else .trailingCharacters)
    else s.faultNext .trailingCharacters

/-- Where a cause without a place is placed: behind the closing bracket, if it comes next. -/
def closingPlace (bracket : Char) (s : Scanner) : Place :=
  let s := s.skipSpace
  if s.rest.head? = some bracket then s.bump.place else s.place

/-- Ends the reading of a record. -/
def Reading.close (bracket : Char) (finish : Scanner → Except JsonFault Scanner) (r : Reading α) :
    Except JsonFault (α × Scanner) :=
  match r.result with
  | .error cause => .error ⟨cause, some (closingPlace bracket r.stop)⟩
  | .ok a => do
    let s ← finish r.stop
    return (a, s)

/-- Reads a record. -/
def read (schema : Schema δ α) (s : Scanner) : Except JsonFault (α × Scanner) := do
  let (c, s) ← s.startValue
  if c = '{' then
    let r ← schema.readMembers s.fuel true schema.blank s.bump
    r.close '}' closeObject
  else if c = '[' then
    let r ← schema.readItems 0 schema.fields schema.blank s.bump
    r.close ']' closeList
  else s.unexpected schema.expected

/-- The record of a JSON text. -/
def parse (schema : Schema δ α) (text : String) : Except JsonFault α := do
  let (a, s) ← schema.read (Scanner.ofString text)
  s.finish
  return a

end Schema

end PatternGate
