import ItemMapper.Wire.Value

/-!
# Expected values and attribute updates

The older way to state conditions and updates: one entry for each attribute.
-/

namespace ItemMapper

/-- What is expected of an attribute: a value, or that it exists or not. -/
structure ExpectedValue where
  value : Option WireValue := none
  mustExist : Option Bool := none
deriving Repr

/-- What an update does to an attribute. -/
inductive AttributeAction where
  | put
  | delete
  | add
deriving DecidableEq, Repr

/-- One attribute of an update. -/
structure AttributeUpdate where
  value : Option WireValue := none
  action : Option AttributeAction := none
deriving Repr

namespace AttributeAction

def name : AttributeAction → String
  | .put => "PUT"
  | .delete => "DELETE"
  | .add => "ADD"

def names : List String :=
  [name .put, name .delete, name .add]

def toJson (action : AttributeAction) : Json :=
  .string action.name

def ofJson (tree : Json) : Json.Shaped AttributeAction := do
  let name ← tree.asVariant names
  return if name = "PUT" then .put else if name = "DELETE" then .delete else .add

end AttributeAction

/-- A member that is left out of an object when it has no value. -/
def optionalMember {α : Type} (name : String) (form : α → Json) (value : Option α) :
    List (String × Json) :=
  match value with
  | some value => [(name, form value)]
  | none => []

namespace ExpectedValue

def toJson (expected : ExpectedValue) : Json :=
  .object (optionalMember "Exists" .bool expected.mustExist ++
    optionalMember "Value" WireValue.toJson expected.value)

def fields : List (Json.RecordField ExpectedValue) :=
  [⟨"Value", false, fun draft tree => do
      return { draft with value := ← tree.asOption WireValue.ofJson }⟩,
    ⟨"Exists", false, fun draft tree => do
      return { draft with mustExist := ← tree.asOption Json.asBool }⟩]

def ofJson : Json → Json.Shaped ExpectedValue :=
  Json.asRecord "ExpectedAttributeValue" fields {}

end ExpectedValue

namespace AttributeUpdate

def toJson (update : AttributeUpdate) : Json :=
  .object (optionalMember "Action" AttributeAction.toJson update.action ++
    optionalMember "Value" WireValue.toJson update.value)

def fields : List (Json.RecordField AttributeUpdate) :=
  [⟨"Value", false, fun draft tree => do
      return { draft with value := ← tree.asOption WireValue.ofJson }⟩,
    ⟨"Action", false, fun draft tree => do
      return { draft with action := ← tree.asOption AttributeAction.ofJson }⟩]

def ofJson : Json → Json.Shaped AttributeUpdate :=
  Json.asRecord "AttributeValueUpdate" fields {}

end AttributeUpdate

end ItemMapper
