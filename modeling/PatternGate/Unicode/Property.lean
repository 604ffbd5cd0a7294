import PatternGate.Unicode.Age
import PatternGate.Unicode.Binary
import PatternGate.Unicode.Breaks
import PatternGate.Unicode.Category
import PatternGate.Unicode.Script

/-!
# Property queries

A query names a set of code points: by one name, which is a binary property, a general category or a
script, or by the name of a property and a value of it. Names are compared loosely: case, spaces,
hyphens and underscores do not count, nor does a leading `is`, nor any character outside ASCII. A
query fails because no property has the name, or because the property has no set for the value.
-/

namespace PatternGate.Unicode

/-- A way to name a set of code points. -/
inductive Query where
  | name (n : String)
  | value (p v : String)
  deriving DecidableEq

/-- Why a query names no set. -/
inductive QueryError where
  | propertyNotFound
  | valueNotFound
  deriving DecidableEq

/-- Drops a leading `is` in any case. -/
def dropIs : List Char → Bool × List Char
  | a :: b :: rest =>
    if (a = 'i' ∨ a = 'I') ∧ (b = 's' ∨ b = 'S') then (true, rest) else (false, a :: b :: rest)
  | cs => (false, cs)

/-- The characters of a name that count, in lower case. -/
def looseChars (cs : List Char) : List Char :=
  (cs.filter fun c => c.toNat < 0x80 && c != ' ' && c != '_' && c != '-').map Char.toLower

/-- The form in which names are compared. The name `isc` belongs to a property of its own and keeps
its `is`; the category `c` would hide it otherwise. -/
def looseName (name : String) : String :=
  let (dropped, rest) := dropIs name.toList
  let loose := String.ofList (looseChars rest)
  if dropped && loose == "c" then "isc" else loose

/-- The properties that have values, apart from the binary ones. -/
inductive ValuedProperty where
  | generalCategory
  | script
  | scriptExtensions
  | age
  | graphemeBreak
  | wordBreak
  | sentenceBreak
  deriving DecidableEq

namespace ValuedProperty

/-- The property of a loose name. -/
def ofName? (name : String) : Option ValuedProperty :=
  if name == "gc" || name == "generalcategory" then some .generalCategory
  else if name == "sc" || name == "script" then some .script
  else if name == "scx" || name == "scriptextensions" then some .scriptExtensions
  else if name == "age" then some .age
  else if name == "gcb" || name == "graphemeclusterbreak" then some .graphemeBreak
  else if name == "wb" || name == "wordbreak" then some .wordBreak
  else if name == "sb" || name == "sentencebreak" then some .sentenceBreak
  else none

end ValuedProperty

/-- Loose names of further properties of the standard. They are known, and no set is kept for
them. -/
def otherPropertyNames : List String := [
  "accountingnumeric", "bc", "bidiclass", "bidimirroringglyph", "bidipairedbracket",
  "bidipairedbrackettype", "blk", "block", "bmg", "bpb", "bpt", "canonicalcombiningclass",
  "casefolding", "ccc", "ce", "cf", "changeswhennfkccasefolded", "cjkaccountingnumeric",
  "cjkcompatibilityvariant", "cjkiicore", "cjkirggsource", "cjkirghsource", "cjkirgjsource",
  "cjkirgkpsource", "cjkirgksource", "cjkirgmsource", "cjkirgssource", "cjkirgtsource",
  "cjkirguksource", "cjkirgusource", "cjkirgvsource", "cjkmandarin", "cjkothernumeric",
  "cjkprimarynumeric", "cjkrsunicode", "cjktotalstrokes", "cjkunihancore2020", "compex",
  "compositionexclusion", "cwkcf", "decompositionmapping", "decompositiontype", "dm", "dt", "ea",
  "eastasianwidth", "equideo", "equivalentunifiedideograph", "expandsonnfc", "expandsonnfd",
  "expandsonnfkc", "expandsonnfkd", "fcnfkc", "fcnfkcclosure", "fullcompositionexclusion",
  "hangulsyllabletype", "hst", "incb", "indicconjunctbreak", "indicpositionalcategory",
  "indicsyllabiccategory", "inpc", "insc", "isc", "jamoshortname", "jg", "joininggroup",
  "joiningtype", "jsn", "jt", "kaccountingnumeric", "kcompatibilityvariant", "kehcat", "kehdesc",
  "kehhg", "kehifao", "kehjsesh", "kehnomirror", "kehnorotate", "kiicore", "kirggsource",
  "kirghsource", "kirgjsource", "kirgkpsource", "kirgksource", "kirgmsource", "kirgssource",
  "kirgtsource", "kirguksource", "kirgusource", "kirgvsource", "kmandarin", "kothernumeric",
  "kprimarynumeric", "krsunicode", "ktotalstrokes", "kunihancore2020", "lb", "lc", "linebreak",
  "lowercasemapping", "na", "na1", "name", "namealias", "nfcqc", "nfcquickcheck", "nfdqc",
  "nfdquickcheck", "nfkccasefold", "nfkccf", "nfkcqc", "nfkcquickcheck", "nfkcscf",
  "nfkcsimplecasefold", "nfkdqc", "nfkdquickcheck", "nt", "numerictype", "numericvalue", "nv",
  "ocomment", "scf", "sfc", "simplecasefolding", "simplelowercasemapping",
  "simpletitlecasemapping", "simpleuppercasemapping", "slc", "stc", "suc", "tc",
  "titlecasemapping", "uc", "unicode1name", "unicoderadicalstroke", "uppercasemapping", "urs",
  "verticalorientation", "vo", "xonfc", "xonfd", "xonfkc", "xonfkd"]

/-- A loose name of some property. -/
def isPropertyName (name : String) : Bool :=
  (ValuedProperty.ofName? name).isSome || binaryRows.any (fun r => r.names.contains name) ||
    otherPropertyNames.contains name

/-- The general category of a loose name, with the three names that stand for no category: all code
points, the assigned ones, and the ASCII ones. The category of surrogates cannot be asked for. -/
def generalCategory? (name : String) : Option (Except QueryError RangeSet) :=
  if name == "any" then some (.ok [⟨0, scalarMax⟩])
  else if name == "ascii" then some (.ok [⟨0, 0x7F⟩])
  else if name == "assigned" then some (.ok (RangeSet.complement (category "cn")))
  else if surrogateNames.contains name then some (.error .valueNotFound)
  else (categorySet? name).map .ok

/-- The script of a loose name. -/
def script? (name : String) : Option (Except QueryError RangeSet) :=
  if emptyScriptNames.contains name then some (.error .valueNotFound)
  else (scriptSet? name).map .ok

/-- The set of an optional look-up by value. -/
def orValueNotFound : Option RangeSet → Except QueryError RangeSet
  | some s => .ok s
  | none => .error .valueNotFound

/-- The set of a value of a property, both by loose name. -/
def ValuedProperty.set (p : ValuedProperty) (value : String) : Except QueryError RangeSet :=
  match p with
  | .generalCategory => (generalCategory? value).getD (.error .valueNotFound)
  | .script => (script? value).getD (.error .valueNotFound)
  | .scriptExtensions => orValueNotFound (scriptExtensionSet? value)
  | .age => orValueNotFound (ageSet? value)
  | .graphemeBreak => orValueNotFound (Row.find? graphemeRows value)
  | .wordBreak => orValueNotFound (Row.find? wordBreakRows value)
  | .sentenceBreak => orValueNotFound (Row.find? sentenceRows value)

/-- The short names that a property shares with a general category; alone they name the category. -/
def categoryFirst : List String := ["cf", "sc", "lc"]

/-- The set of a single loose name: a property goes before a category, a category before a
script. -/
def namedSet (name : String) : Except QueryError RangeSet :=
  if !categoryFirst.contains name && isPropertyName name then
    match binarySet? name with
    | some s => .ok s
    | none => .error .propertyNotFound
  else
    match generalCategory? name with
    | some r => r
    | none => (script? name).getD (.error .propertyNotFound)

/-- The set that a query names. -/
def Query.set : Query → Except QueryError RangeSet
  | .name n => namedSet (looseName n)
  | .value p v =>
    let name := looseName p
    match ValuedProperty.ofName? name with
    | some valued => valued.set (looseName v)
    | none => if isPropertyName name then .error .valueNotFound else .error .propertyNotFound

/-- The decimal digits. -/
def digit : RangeSet := category "nd"

/-- The white space characters. -/
def space : RangeSet := (binarySet? "whitespace").getD []

/-- The alphabetic characters. -/
def alphabetic : RangeSet := (binarySet? "alphabetic").getD []

/-- The characters of a numeric category. -/
def numeric : RangeSet := categories ["nd", "nl", "no"]

end PatternGate.Unicode
