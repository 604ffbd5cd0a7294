import PatternGate.Json.Printer
import PatternGate.Json.Record

/-!
# Requests, limits and reasons as JSON

The records that cross the JSON boundary: a request to validate a pattern, the limits of a
validator, and the reason why a pattern is not supported. Each has a reader and a writer.
-/

namespace PatternGate

/-- A pattern to validate, and how it would be used. -/
structure Request where
  pattern : String
  caseSensitive : Bool := true
  requireCapturing : Bool := false
  deriving DecidableEq

namespace Request

/-- A request while it is read. -/
structure Draft where
  pattern : Option String := none
  caseSensitive : Option Bool := none
  requireCapturing : Option Bool := none

/-- The pattern of a request. -/
def patternField : Field Draft where
  name := "regex"
  required := true
  isSet d := d.pattern.isSome
  ofText s d := do
    let (t, s) ← s.readStringValue "a string"
    return ({ d with pattern := some t }, s)
  ofJson v d := do
    let t ← v.toText
    return { d with pattern := some t }

/-- Whether case counts. -/
def caseField : Field Draft where
  name := "isCaseSensitive"
  required := false
  isSet d := d.caseSensitive.isSome
  ofText s d := do
    let (b, s) ← s.readBoolValue
    return ({ d with caseSensitive := some b }, s)
  ofJson v d := do
    let b ← v.toBool
    return { d with caseSensitive := some b }

/-- Whether groups must capture. -/
def capturingField : Field Draft where
  name := "requireCapturing"
  required := false
  isSet d := d.requireCapturing.isSome
  ofText s d := do
    let (b, s) ← s.readBoolValue
    return ({ d with requireCapturing := some b }, s)
  ofJson v d := do
    let b ← v.toBool
    return { d with requireCapturing := some b }

/-- The fields of a request. -/
def schema : Schema Draft Request where
  label := "ValidationRequest"
  fields := [patternField, caseField, capturingField]
  blank := {}
  build d := ⟨d.pattern.getD "", d.caseSensitive.getD true, d.requireCapturing.getD false⟩

/-- Reads a request from a JSON text. -/
def parse (text : String) : Except JsonFault Request := schema.parse text

/-- Reads a request from a JSON value. -/
def ofJson (v : Json) : Except JsonFault Request := schema.ofJson v

/-- The JSON text of a request. -/
def text (r : Request) : String :=
  String.ofList (JsonText.object [
    (patternField.name, JsonText.string r.pattern),
    (caseField.name, JsonText.bool r.caseSensitive),
    (capturingField.name, JsonText.bool r.requireCapturing)])

end Request

/-- The limits of a validator. -/
structure ValidatorLimits where
  maxMemory : UInt64 := 2048
  nestLimit : UInt32 := 250
  deriving DecidableEq

namespace ValidatorLimits

/-- Limits while they are read. -/
structure Draft where
  maxMemory : Option Nat := none
  nestLimit : Option Nat := none

/-- The memory limit. -/
def memoryField : Field Draft where
  name := "maxMem"
  required := false
  isSet d := d.maxMemory.isSome
  ofText s d := do
    let (n, s) ← s.readNatValue (UInt64.size - 1) "usize"
    return ({ d with maxMemory := some n }, s)
  ofJson v d := do
    let n ← v.toNat (UInt64.size - 1) "usize"
    return { d with maxMemory := some n }

/-- The bound on nesting. -/
def nestField : Field Draft where
  name := "nestLimit"
  required := false
  isSet d := d.nestLimit.isSome
  ofText s d := do
    let (n, s) ← s.readNatValue (UInt32.size - 1) "u32"
    return ({ d with nestLimit := some n }, s)
  ofJson v d := do
    let n ← v.toNat (UInt32.size - 1) "u32"
    return { d with nestLimit := some n }

/-- The fields of limits. -/
def schema : Schema Draft ValidatorLimits where
  label := "ValidatorConfig"
  fields := [memoryField, nestField]
  blank := {}
  build d := ⟨UInt64.ofNat (d.maxMemory.getD 2048), UInt32.ofNat (d.nestLimit.getD 250)⟩

/-- Reads limits from a JSON text. -/
def parse (text : String) : Except JsonFault ValidatorLimits := schema.parse text

/-- Reads limits from a JSON value. -/
def ofJson (v : Json) : Except JsonFault ValidatorLimits := schema.ofJson v

/-- The JSON text of limits. -/
def text (l : ValidatorLimits) : String :=
  String.ofList (JsonText.object [
    (memoryField.name, JsonText.nat l.maxMemory.toNat),
    (nestField.name, JsonText.nat l.nestLimit.toNat)])

end ValidatorLimits

/-- Why a pattern is not supported. -/
inductive Reason where
  | memoryLimitExceeded
  | syntaxError
  deriving DecidableEq

namespace Reason

/-- The name of a reason in JSON. -/
def name : Reason → String
  | memoryLimitExceeded => "memoryLimitExceeded"
  | syntaxError => "syntaxError"

/-- All reasons. -/
def all : List Reason := [memoryLimitExceeded, syntaxError]

/-- The reason of a name. -/
def ofName? (n : String) : Option Reason := all.find? fun r => r.name = n

/-- The JSON text of a reason. -/
def text (r : Reason) : String := String.ofList (JsonText.string r.name)

/-- Reads the name of a reason. -/
def readName (s : Scanner) : Except JsonFault (Reason × Scanner) := do
  let (n, s) ← s.readStringValue "variant identifier"
  match ofName? n with
  | some r => return (r, s)
  | none => s.faultHere (.unknownVariant n (all.map name))

/-- Reads the null that may stand for the content of a reason. -/
def readContent (s : Scanner) : Except JsonFault Scanner := do
  let (c, s) ← s.startValue
  if c = 'n' then s.bump.readWord ['u', 'l', 'l'] else s.unexpected "unit"

/-- Reads a reason: its name, or an object that has its name as the only member, with null. -/
def read (s : Scanner) : Except JsonFault (Reason × Scanner) := do
  let (c, s) ← s.startValue
  if c = '"' then readName s
  else if c = '{' then
    let (r, s) ← readName s.bump
    let s ← s.readColon
    let s ← readContent s
    let s := s.skipSpace
    match s.rest with
    | [] => s.faultHere .endInObject
    | d :: _ => if d = '}' then return (r, s.bump) else s.faultHere .expectedValue
  else s.faultNext .expectedValue

/-- Reads a reason from a JSON text. -/
def parse (text : String) : Except JsonFault Reason := do
  let (r, s) ← read (Scanner.ofString text)
  s.finish
  return r

end Reason

end PatternGate
