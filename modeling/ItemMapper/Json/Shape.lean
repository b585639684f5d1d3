import ItemMapper.Base64
import ItemMapper.Json.Reader
import ItemMapper.Text.Quoted

/-!
# Reading values out of JSON trees

The readers below take a tree apart in the order of its text and stop at the first mistake. A flaw in
the tree is met as soon as the reading comes to it.
-/

namespace ItemMapper.Json

/-- What stands where something else was expected. -/
inductive Found where
  | null
  | bool (value : Bool)
  | number (value : Number)
  | string (value : String)
  | sequence
  | map
deriving DecidableEq, Repr

/-- What was expected. -/
inductive Wanted where
  | string
  | bool
  | sequence
  | map
  | unit
  | size
  | word
  | float
  | taggedValue
  | record (name : String)
deriving DecidableEq, Repr

/-- Why a tree does not have the shape that is asked for. -/
inductive ShapeError where
  /-- The text is not JSON. -/
  | syntaxError
  | invalidType (found : Found) (wanted : Wanted)
  | invalidValue (found : Found) (wanted : Wanted)
  | tooShort (items : Nat) (record : String) (fields : Nat)
  /-- An array goes on after the last field of a record. -/
  | tooLong (items : Nat)
  | missingField (name : String)
  | duplicateField (name : String)
  | unknownField (name : String) (known : List String)
  | unknownVariant (name : String) (known : List String)
  | neitherTagNorMap
  | noTag
  | secondTag
  | base64 (cause : Base64.Error)
deriving DecidableEq, Repr

/-- The wording for what was found. -/
def Found.text : Found → String
  | .null => "null"
  | .bool value => "boolean `" ++ toString value ++ "`"
  | .number (.integer n) => "integer `" ++ integerText n ++ "`"
  | .number (.float x) => "floating point `" ++ x.text ++ "`"
  | .string value => "string " ++ Text.quote value
  | .sequence => "sequence"
  | .map => "map"

/-- The wording for what was expected. -/
def Wanted.text : Wanted → String
  | .string => "a string"
  | .bool => "a boolean"
  | .sequence => "a sequence"
  | .map => "a map"
  | .unit => "unit"
  | .size => "usize"
  | .word => "u32"
  | .float => "f64"
  | .taggedValue => "an object with exactly one attribute type tag"
  | .record name => "struct " ++ name

/-- The wording for a choice of names. -/
def choiceText (names : List String) : String :=
  "expected one of " ++ ", ".intercalate (names.map fun name => "`" ++ name ++ "`")

/-- The wording of an error; a text that is not JSON has none. -/
def ShapeError.message : ShapeError → Option String
  | .syntaxError => none
  | .invalidType found wanted =>
    some ("invalid type: " ++ found.text ++ ", expected " ++ wanted.text)
  | .invalidValue found wanted =>
    some ("invalid value: " ++ found.text ++ ", expected " ++ wanted.text)
  | .tooShort items record fields =>
    some ("invalid length " ++ toString items ++ ", expected struct " ++ record ++ " with " ++
      toString fields ++ (if fields = 1 then " element" else " elements"))
  | .tooLong items =>
    some ("invalid length " ++ toString items ++ ", expected fewer elements in array")
  | .missingField name => some ("missing field `" ++ name ++ "`")
  | .duplicateField name => some ("duplicate field `" ++ name ++ "`")
  | .unknownField name known => some ("unknown field `" ++ name ++ "`, " ++ choiceText known)
  | .unknownVariant name known => some ("unknown variant `" ++ name ++ "`, " ++ choiceText known)
  | .neitherTagNorMap => some "data did not match any variant of untagged enum DatatypeNode"
  | .noTag => some "attribute value has no type tag"
  | .secondTag => some "attribute value carries more than one type tag"
  | .base64 cause => some cause.message

/-- The result of reading a value out of a tree. -/
abbrev Shaped (α : Type) := Except ShapeError α

/-- Whether an array or object is the kind of container that was expected. -/
def Wanted.isMetBy : Wanted → Json → Bool
  | .sequence, .array _ => true
  | .map, .object _ => true
  | .taggedValue, .object _ => true
  | .record _, .array _ => true
  | .record _, .object _ => true
  | _, _ => false

/--
A tree where something else was expected. A container that is nested too deeply is refused as such
only where a container of its kind is expected.
-/
def mistyped (wanted : Wanted) : Json → ShapeError
  | .null => .invalidType .null wanted
  | .bool value => .invalidType (.bool value) wanted
  | .number value => .invalidType (.number value) wanted
  | .string value => .invalidType (.string value) wanted
  | .array _ => .invalidType .sequence wanted
  | .object _ => .invalidType .map wanted
  | .flaw .tooDeep content =>
    if wanted.isMetBy content then .syntaxError else content.mistyped wanted
  | .flaw _ _ => .syntaxError

/-- A string. -/
def asString : Json → Shaped String
  | .string value => .ok value
  | other => .error (other.mistyped .string)

/-- A boolean. -/
def asBool : Json → Shaped Bool
  | .bool value => .ok value
  | other => .error (other.mistyped .bool)

/-- A natural number up to a bound. -/
def asNat (wanted : Wanted) (greatest : Nat) : Json → Shaped Nat
  | .number (.integer n) =>
    if 0 ≤ n ∧ n ≤ greatest then .ok n.toNat
    else .error (.invalidValue (.number (.integer n)) wanted)
  | other => .error (other.mistyped wanted)

/-- A double; integers are rounded. -/
def asFloat : Json → Shaped Binary64
  | .number (.float x) => .ok x
  | .number (.integer n) => .ok ((Binary64.ofInt n).getD (Binary64.zero false))
  | other => .error (other.mistyped .float)

def asArray : Json → Shaped (List Json)
  | .array items => .ok items
  | other => .error (other.mistyped .sequence)

/-- An array whose items are read alike. -/
def asList {α : Type} (item : Json → Shaped α) (tree : Json) : Shaped (List α) := do
  (← tree.asArray).mapM item

/-- A value that may be absent, as `null`. -/
def asOption {α : Type} (value : Json → Shaped α) : Json → Shaped (Option α)
  | .null => .ok none
  | other => (value other).map some

def readMembers {α : Type} (value : Json → Shaped α) :
    List (String × Json) → Shaped (List (String × α))
  | [] => .ok []
  | (name, tree) :: rest => do
    if !tree.isNamed then throw .syntaxError
    let read ← value tree
    return (name, read) :: (← readMembers value rest)

/-- An object whose members are read alike; of several members of one name the last is kept. -/
def asFields {α : Type} (value : Json → Shaped α) : Json → Shaped (Fields α)
  | .object members => (readMembers value members).map Fields.ofList
  | other => .error (other.mistyped .map)

/-- One of several names, alone or as the name of an object's only member, which is `null`. -/
def asVariant (known : List String) : Json → Shaped String
  | .string name => if name ∈ known then .ok name else .error (.unknownVariant name known)
  | .object ((name, value) :: rest) =>
    if !value.isNamed then .error .syntaxError
    else if name ∈ known then
      match value with
      | .null => if rest.isEmpty then .ok name else .error .syntaxError
      | other => .error (other.mistyped .unit)
    else .error (.unknownVariant name known)
  | _ => .error .syntaxError

/--
One field of a record: its name, whether it has a default when an array leaves it out, and how its
value is added to the part of the record that has been read.
-/
structure RecordField (σ : Type) where
  name : String
  optional : Bool
  read : σ → Json → Shaped σ

/-- Reads the members of an object as a record; members that the record does not know are skipped. -/
def readRecordMembers {σ : Type} (fields : List (RecordField σ)) (seen : List String) (built : σ) :
    List (String × Json) → Shaped σ
  | [] => .ok built
  | (name, tree) :: rest => do
    if !tree.isNamed then throw .syntaxError
    match fields.find? fun field => field.name == name with
    -- What is skipped is only looked at as far as it takes to find its end.
    | none => if tree.isPassable then readRecordMembers fields seen built rest else throw .syntaxError
    | some field =>
      if name ∈ seen then throw (.duplicateField name)
      let built ← field.read built tree
      readRecordMembers fields (name :: seen) built rest

/-- Reads the items of an array as a record, in the order of its fields. -/
def readRecordItems {σ : Type} (record : String) (fields : List (RecordField σ)) (built : σ)
    (items : List Json) : Shaped σ :=
  go fields 0 built items
where
  /-- Reads the fields that are left, the first of which has a position in the record. -/
  go : List (RecordField σ) → Nat → σ → List Json → Shaped σ
    | [], _, built, [] => .ok built
    | [], _, _, _ :: _ => .error (.tooLong items.length)
    -- The array is over: the fields that are left must have defaults.
    | field :: others, index, built, [] =>
      if field.optional then go others (index + 1) built []
      else .error (.tooShort index record fields.length)
    | field :: others, index, built, item :: rest => do
      let built ← field.read built item
      go others (index + 1) built rest

/-- Reads a record from an object, or from an array in the order of the fields. -/
def asRecord {σ : Type} (record : String) (fields : List (RecordField σ)) (start : σ) :
    Json → Shaped σ
  | .object members => readRecordMembers fields [] start members
  | .array items => readRecordItems record fields start items
  | other => .error (other.mistyped (.record record))

/-- A field that a record cannot do without. -/
def required {α : Type} (name : String) : Option α → Shaped α
  | some value => .ok value
  | none => .error (.missingField name)

/--
The mistake that a text has where its tree has another one: in a text, the closing bracket has to
follow once the reader of an array asks for no further item.
-/
def ShapeError.inText : ShapeError → ShapeError
  | .tooLong _ => .syntaxError
  | other => other

/-- Reads a text by a reader of trees; text after the value is no JSON either. -/
def readText {α : Type} (read : Json → Shaped α) (text : String) : Shaped α := do
  let document := Document.read text
  -- A mistake in the value comes first in the text, and so is reported before anything behind it.
  let value ← (read document.root).mapError ShapeError.inText
  if document.complete then return value else throw .syntaxError

/-- A tree without flaws, in canonical order. -/
def asTree (tree : Json) : Shaped Json :=
  if tree.isIntact then .ok tree.canonical else .error .syntaxError

end ItemMapper.Json
