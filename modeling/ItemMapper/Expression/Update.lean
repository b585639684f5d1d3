import ItemMapper.Codec.Write
import ItemMapper.Expression.Clauses
import ItemMapper.Expression.Scope
import ItemMapper.Request.Expected

/-!
# Updates

A patch says what to do with some fields of an item. It becomes an update expression, with aliases for
the fields and placeholders for the values, or the older form with one entry for each attribute.
-/

namespace ItemMapper

/-- What to do with a field. -/
inductive FieldChange where
  /-- Replaces the attribute; null and the empty text remove it. -/
  | set (value : Value)
  /-- Adds to a number, or elements to a set. -/
  | add (value : Value)
  /-- Takes elements out of a set. -/
  | delete (value : Value)
  | remove
deriving Repr

/-- Changes of fields, in order. -/
abbrev Patch := List (String × FieldChange)

/-- A change whose value has been written. -/
inductive WireChange where
  | set (value : WireValue)
  | add (value : WireValue)
  | delete (value : WireValue)
  | remove
deriving Repr

namespace Patch

/-- The first name that has occurred before, or among the names seen already. -/
def firstRepeated? (seen : List String) : List String → Option String
  | [] => none
  | name :: rest => if name ∈ seen then some name else firstRepeated? (name :: seen) rest

/-- Refuses a patch that changes a field twice. -/
def checkFields (patch : Patch) : Result Unit :=
  match firstRepeated? [] (patch.map Prod.fst) with
  | some field => .error (.compile field .repeatedField)
  | none => .ok ()

/-- Writes the value of a change like that of a field of an item. -/
def writeValue (gateway : Gateway) (types : DatatypeMap) (field : String) (value : Value) :
    Result (Option WireValue) :=
  Codec.writeField gateway false types field field value

/-- Writes a value to add: a number or a set. -/
def writeAddend (gateway : Gateway) (types : DatatypeMap) (field : String) (value : Value) :
    Result WireValue := do
  match ← writeValue gateway types field value with
  | none => throw (.compile field .addNull)
  | some written =>
    if written.isNumber || written.isSet then return written
    else throw (.compile field (.addMistyped written.tag))

/-- Writes elements to take out: a set. -/
def writeRemoved (gateway : Gateway) (types : DatatypeMap) (field : String) (value : Value) :
    Result WireValue := do
  match ← writeValue gateway types field value with
  | none => throw (.compile field .deleteEmpty)
  | some written =>
    if written.isSet then return written
    else throw (.compile field (.deleteMistyped written.tag))

/-- Writes a new value; one that gives nothing removes the attribute. -/
def writeReplacement (gateway : Gateway) (types : DatatypeMap) (field : String) (value : Value) :
    Result WireChange := do
  match ← writeValue gateway types field value with
  | some written => return .set written
  | none => return .remove

/-- Whether setting a field to a value removes the attribute without a look at its type. -/
def isRemoval (value : Value) : Bool :=
  value.isNull || value.string? == some ""

/-- Writes a change for an update expression. -/
def writeChange (gateway : Gateway) (types : DatatypeMap) (field : String) :
    FieldChange → Result WireChange
  | .remove => .ok .remove
  | .set value =>
    if isRemoval value then .ok .remove else writeReplacement gateway types field value
  | .add value => (writeAddend gateway types field value).map .add
  | .delete value => (writeRemoved gateway types field value).map .delete

/-- Writes all changes, in order. -/
def write (gateway : Gateway) (types : DatatypeMap) : Patch → Result (List (String × WireChange))
  | [] => .ok []
  | (field, change) :: rest => do
    let written ← writeChange gateway types field change
    let others ← write gateway types rest
    return (field, written) :: others

/-- The written changes of a patch, unless it changes a field twice. -/
def changes (gateway : Gateway) (types : DatatypeMap) (patch : Patch) :
    Result (List (String × WireChange)) := do
  patch.checkFields
  patch.write gateway types

end Patch

/-! ### Update expressions -/

namespace WireChange

/-- The verb for a change. -/
def verb : WireChange → Verb
  | .set _ => .set
  | .add _ => .add
  | .delete _ => .delete
  | .remove => .remove

/-- The value of a change. -/
def value? : WireChange → Option WireValue
  | .set value | .add value | .delete value => some value
  | .remove => none

end WireChange

/-- A written change with the alias of its field and the placeholder of its value, if it has one. -/
structure PlacedChange where
  field : String
  name : String
  placeholder : Option String
  change : WireChange
deriving Repr

namespace PlacedChange

/-- The clause for a change. -/
def clause (placed : PlacedChange) : String :=
  match placed.placeholder, placed.change with
  | none, _ => placed.name
  | some placeholder, .set _ => placed.name ++ " = " ++ placeholder
  | some placeholder, _ => placed.name ++ " " ++ placeholder

/-- The binding of the placeholder. -/
def binding? (placed : PlacedChange) : Option (String × WireValue) :=
  match placed.placeholder, placed.change.value? with
  | some placeholder, some value => some (placeholder, value)
  | _, _ => none

end PlacedChange

/-- Hands out the alias and the placeholder for a change. -/
def Scope.place (scope : Scope) (field : String) (change : WireChange) : PlacedChange × Scope :=
  let (name, scope) := scope.aliasOf field
  match change with
  | .remove => (⟨field, name, none, change⟩, scope)
  | _ =>
    let (placeholder, scope) := scope.allocate field
    (⟨field, name, some placeholder, change⟩, scope)

/-- Hands out aliases and placeholders for changes, in order. -/
def Scope.placeAll (scope : Scope) :
    List (String × WireChange) → List PlacedChange × Scope
  | [] => ([], scope)
  | (field, change) :: rest =>
    let (placed, scope) := scope.place field change
    let (others, scope) := scope.placeAll rest
    (placed :: others, scope)

/-- An update expression with what its aliases and placeholders stand for. -/
structure ExpressionPlan where
  clauses : UpdateClauses
  attributeNames : Fields String
  attributeValues : Fields WireValue
deriving Repr

namespace ExpressionPlan

def text (plan : ExpressionPlan) : String :=
  plan.clauses.text

/-- The clauses of changes under a verb. -/
def clausesFor (placed : List PlacedChange) (verb : Verb) : List String :=
  (placed.filter fun change => change.change.verb == verb).map PlacedChange.clause

/-- The plan for changes that have got their aliases and placeholders. -/
def ofPlaced (placed : List PlacedChange) : ExpressionPlan where
  clauses := {
    set := some (clausesFor placed .set)
    add := some (clausesFor placed .add)
    remove := some (clausesFor placed .remove)
    delete := some (clausesFor placed .delete) }
  attributeNames := Fields.ofList (placed.map fun change => (change.name, change.field))
  attributeValues := Fields.ofList (placed.filterMap PlacedChange.binding?)

end ExpressionPlan

/--
Compiles a patch into an update expression, and gives the scope after it. All values are written before anything
is handed out, so a failing patch takes nothing from the scope.
-/
def Scope.compileUpdate (scope : Scope) (gateway : Gateway) (types : DatatypeMap) (patch : Patch) :
    Result ExpressionPlan × Scope :=
  match patch.changes gateway types with
  | .error cause => (.error cause, scope)
  | .ok changes =>
    let (placed, scope) := scope.placeAll changes
    (.ok (.ofPlaced placed), scope)

/-- Compiles a patch, and hands the scope on with the plan. -/
def compileUpdate (gateway : Gateway) (types : DatatypeMap) (patch : Patch) (scope : Scope) :
    Result (ExpressionPlan × Scope) :=
  let (result, after) := scope.compileUpdate gateway types patch
  result.map fun plan => (plan, after)

/-! ### Attribute updates -/

/-- Compiles a change into an entry for its attribute. -/
def attributeUpdate (gateway : Gateway) (types : DatatypeMap) (field : String) :
    FieldChange → Result AttributeUpdate
  | .remove => .ok { action := some .delete }
  | .set value => do
    -- An empty text is not told apart here: it goes by the declared type of the field.
    if value.isNull then return { action := some .delete }
    match ← Patch.writeValue gateway types field value with
    | some written => return { value := some written, action := some .put }
    | none => return { action := some .delete }
  | .add value => do
    return { value := some (← Patch.writeAddend gateway types field value), action := some .add }
  | .delete value => do
    return { value := some (← Patch.writeRemoved gateway types field value), action := some .delete }

/-- Compiles changes into entries for their attributes, in order. -/
def attributeUpdates (gateway : Gateway) (types : DatatypeMap) :
    Patch → Result (List (String × AttributeUpdate))
  | [] => .ok []
  | (field, change) :: rest => do
    let entry ← attributeUpdate gateway types field change
    let others ← attributeUpdates gateway types rest
    return (field, entry) :: others

/-- Compiles a patch into one entry for each attribute. -/
def compileAttributeUpdates (gateway : Gateway) (types : DatatypeMap) (patch : Patch) :
    Result (Fields AttributeUpdate) := do
  patch.checkFields
  return Fields.ofList (← attributeUpdates gateway types patch)

end ItemMapper
