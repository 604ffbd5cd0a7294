import PatternGate.Decimal.Shortest

/-!
# JSON values

A number is kept as an integer where 64 bits hold it, and as a double otherwise. Members of an
object have distinct names; a name that is written again takes the later value.
-/

namespace PatternGate

/-- A number of a JSON text. -/
inductive JsonNumber where
  /-- An integer from zero up to `2^64 - 1`. -/
  | nat (n : Nat)
  /-- The integer `-n`, from `-2^63` up to `-1`. -/
  | neg (n : Nat)
  /-- A double, with its sign. -/
  | double (negative : Bool) (x : FiniteDouble)

/-- A JSON value. -/
inductive Json where
  | null
  | bool (b : Bool)
  | number (n : JsonNumber)
  | string (s : String)
  | array (items : List Json)
  | object (members : List (String × Json))

namespace Json

/-- Sets a member of an object. -/
def setMember (name : String) (value : Json) : List (String × Json) → List (String × Json)
  | [] => [(name, value)]
  | m :: rest => if m.1 = name then (name, value) :: rest else m :: setMember name value rest

/-- The member of a name. -/
def member? (members : List (String × Json)) (name : String) : Option Json :=
  (members.find? fun m => m.1 = name).map (·.2)

end Json

namespace JsonNumber

/-- The text of the digits of a decimal. Between `10^(-5)` and `10^16` it is written out, elsewhere
with one digit before the point and a signed exponent. -/
def decimalText (d : Decimal) : List Char :=
  let digits := (toString d.digits).toList
  let point : Int := digits.length + d.exponent
  if 0 ≤ d.exponent ∧ point ≤ 16 then
    digits ++ List.replicate d.exponent.toNat '0' ++ ['.', '0']
  else if 0 < point ∧ point ≤ 16 then
    digits.take point.toNat ++ ['.'] ++ digits.drop point.toNat
  else if -5 < point ∧ point ≤ 0 then
    ['0', '.'] ++ List.replicate (-point).toNat '0' ++ digits
  else
    let mantissa := match digits with
      | [c] => [c]
      | c :: rest => c :: '.' :: rest
      | [] => []
    let e := point - 1
    mantissa ++ ['e', if e < 0 then '-' else '+'] ++ (toString e.natAbs).toList

/-- The text of a double: the fewest digits that read back, with a point or an exponent. -/
def doubleText (negative : Bool) (x : FiniteDouble) : String :=
  let sign := if negative then ['-'] else []
  let digits := if x.m = 0 then ['0', '.', '0'] else decimalText x.shortest
  String.ofList (sign ++ digits)

end JsonNumber

end PatternGate
