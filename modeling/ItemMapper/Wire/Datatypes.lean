import ItemMapper.Json.Shape
import ItemMapper.Wire.WireType

/-!
# Datatype trees

A datatype tree declares the fields of an item: a leaf gives the wire type of a field, a subtree the
fields of a nested item. Its JSON form has tags for leaves and objects for subtrees.
-/

namespace ItemMapper

/-- The declaration of one field. -/
inductive DatatypeNode where
  | leaf (type : WireType)
  | nested (fields : List (String × DatatypeNode))
deriving Repr

/-- The declarations of the fields of an item. -/
abbrev DatatypeMap := Fields DatatypeNode

namespace DatatypeMap

/-- Declares a field with a type. -/
def withField (types : DatatypeMap) (name : String) (type : WireType) : DatatypeMap :=
  Fields.insert name (.leaf type) types

/-- Declares a field with a nested item. -/
def withNested (types : DatatypeMap) (name : String) (nested : DatatypeMap) : DatatypeMap :=
  Fields.insert name (.nested nested) types

/-- The type of a field that is declared as a leaf. -/
def wireType? (types : DatatypeMap) (name : String) : Option WireType :=
  match Fields.get? types name with
  | some (.leaf type) => some type
  | _ => none

/-- The declarations below a field; a field without declared subtree has none. -/
def below (types : DatatypeMap) (name : String) : DatatypeMap :=
  match Fields.get? types name with
  | some (.nested nested) => nested
  | _ => []

/-- The declarations below a field that is declared with a subtree. -/
def nested? (types : DatatypeMap) (name : String) : Option DatatypeMap :=
  match Fields.get? types name with
  | some (.nested nested) => some nested
  | _ => none

end DatatypeMap

/-! ### JSON form -/

mutual

def DatatypeNode.toJson : DatatypeNode → Json
  | .leaf type => .string type.tag
  | .nested fields => .object (DatatypeMap.toMembers fields)

def DatatypeMap.toMembers : List (String × DatatypeNode) → List (String × Json)
  | [] => []
  | (name, node) :: rest => (name, node.toJson) :: DatatypeMap.toMembers rest

end

def DatatypeMap.toJson (types : DatatypeMap) : Json :=
  .object (DatatypeMap.toMembers types)

mutual

/-- The declaration that a tree without flaws stands for. -/
def DatatypeNode.ofJson? : Json → Option DatatypeNode
  | .string tag => (WireType.ofTag tag).toOption.map .leaf
  | .object members =>
    (DatatypeMap.ofMembers? members).map fun fields => .nested (Fields.ofList fields)
  | _ => none

/-- The declarations that the members of an object stand for. -/
def DatatypeMap.ofMembers? : List (String × Json) → Option (List (String × DatatypeNode))
  | [] => some []
  | (name, tree) :: rest =>
    match DatatypeNode.ofJson? tree with
    | none => none
    | some node => (DatatypeMap.ofMembers? rest).map fun others => (name, node) :: others

end

/-- Reads a declaration. The whole tree is taken in before it is looked at. -/
def DatatypeNode.ofJson (tree : Json) : Json.Shaped DatatypeNode :=
  if tree.isIntact then
    match DatatypeNode.ofJson? tree with
    | some node => .ok node
    | none => .error .neitherTagNorMap
  else .error .syntaxError

def DatatypeMap.ofJson : Json → Json.Shaped DatatypeMap :=
  Json.asFields DatatypeNode.ofJson

end ItemMapper
