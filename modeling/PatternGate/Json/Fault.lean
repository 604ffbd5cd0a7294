import PatternGate.Json.Value
import PatternGate.Text.Quoted

/-!
# Faults of JSON texts and values

A text can be no JSON, and a value can have another shape than the one that is asked for. Faults
that are found in a text say at which line and column, counted in bytes.
-/

namespace PatternGate

/-- What stands where something else is asked for. -/
inductive Found where
  | null
  | bool (b : Bool)
  | number (n : JsonNumber)
  | string (s : String)
  | sequence
  | map

namespace Found

/-- The kind of a value. -/
def ofJson : Json → Found
  | .null => null
  | .bool b => bool b
  | .number n => number n
  | .string s => string s
  | .array _ => sequence
  | .object _ => map

/-- How messages name it. -/
def text : Found → String
  | null => "null"
  | bool b => "boolean `" ++ (if b then "true" else "false") ++ "`"
  | number (.nat n) => "integer `" ++ toString n ++ "`"
  | number (.neg n) => "integer `-" ++ toString n ++ "`"
  | number (.double negative x) =>
    "floating point `" ++ JsonNumber.doubleText negative x ++ "`"
  | string s => "string " ++ Text.quoted s
  | sequence => "sequence"
  | map => "map"

end Found

/-- Why a JSON text or value is refused. -/
inductive JsonCause where
  | endInList
  | endInObject
  | endInString
  | endInValue
  | expectedColon
  | expectedListCommaOrEnd
  | expectedObjectCommaOrEnd
  | expectedIdent
  | expectedValue
  | invalidEscape
  | invalidNumber
  | numberOutOfRange
  | controlCharacter
  | keyNotString
  | loneSurrogate
  | trailingComma
  | trailingCharacters
  | hexEscapeEnd
  | recursionLimit
  | wrongType (found : Found) (expected : String)
  | wrongValue (found : Found) (expected : String)
  | wrongLength (length : Nat) (expected : String)
  | missingField (name : String)
  | duplicateField (name : String)
  | unknownVariant (name : String) (known : List String)

namespace JsonCause

/-- A list of names as messages show it. -/
def oneOf : List String → String
  | [] => "there are no variants"
  | [a] => "`" ++ a ++ "`"
  | [a, b] => "`" ++ a ++ "` or `" ++ b ++ "`"
  | names => "one of " ++ String.intercalate ", " (names.map fun a => "`" ++ a ++ "`")

/-- The wording of a cause. -/
def text : JsonCause → String
  | endInList => "EOF while parsing a list"
  | endInObject => "EOF while parsing an object"
  | endInString => "EOF while parsing a string"
  | endInValue => "EOF while parsing a value"
  | expectedColon => "expected `:`"
  | expectedListCommaOrEnd => "expected `,` or `]`"
  | expectedObjectCommaOrEnd => "expected `,` or `\x7d`"
  | expectedIdent => "expected ident"
  | expectedValue => "expected value"
  | invalidEscape => "invalid escape"
  | invalidNumber => "invalid number"
  | numberOutOfRange => "number out of range"
  | controlCharacter => "control character (\\u0000-\\u001F) found while parsing a string"
  | keyNotString => "key must be a string"
  | loneSurrogate => "lone leading surrogate in hex escape"
  | trailingComma => "trailing comma"
  | trailingCharacters => "trailing characters"
  | hexEscapeEnd => "unexpected end of hex escape"
  | recursionLimit => "recursion limit exceeded"
  | wrongType found expected => "invalid type: " ++ found.text ++ ", expected " ++ expected
  | wrongValue found expected => "invalid value: " ++ found.text ++ ", expected " ++ expected
  | wrongLength n expected => "invalid length " ++ toString n ++ ", expected " ++ expected
  | missingField name => "missing field `" ++ name ++ "`"
  | duplicateField name => "duplicate field `" ++ name ++ "`"
  | unknownVariant name known => "unknown variant `" ++ name ++ "`, expected " ++ oneOf known

end JsonCause

/-- A place of a text: its line, from one, and the number of bytes before it on that line. -/
structure Place where
  line : Nat
  column : Nat
  deriving DecidableEq

/-- A cause, and the place of the text where it was found. -/
structure JsonFault where
  cause : JsonCause
  place : Option Place

namespace JsonFault

/-- A fault of a value that stands in no text. -/
def unplaced (cause : JsonCause) : JsonFault := ⟨cause, none⟩

/-- The wording of a fault. -/
def message (f : JsonFault) : String :=
  match f.place with
  | none => f.cause.text
  | some p =>
    f.cause.text ++ " at line " ++ toString p.line ++ " column " ++ toString p.column

end JsonFault

end PatternGate
