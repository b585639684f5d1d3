import ItemMapper.Codec.Natural
import ItemMapper.Error
import ItemMapper.Expression.Scope

/-!
# Filters

Conditions on single fields, with an alias for the field and placeholders for the values, and their
combination. A null value counts as missing.
-/

namespace ItemMapper

/-- A condition with what its aliases and placeholders stand for. -/
structure FilterClause where
  statement : String
  attributeNames : Fields String := []
  attributeValues : Fields WireValue := []
deriving Repr

namespace FilterClause

/-- Hands out a placeholder for each of some values of a field, in order. -/
def bindAll (scope : Scope) (field : String) :
    List WireValue → List (String × WireValue) × Scope
  | [] => ([], scope)
  | value :: rest =>
    let (placeholder, scope) := scope.allocate field
    let (others, scope) := bindAll scope field rest
    ((placeholder, value) :: others, scope)

/-- A clause for one field, whose statement is made from the placeholders of its values. -/
def ofValues (scope : Scope) (field name : String) (values : List WireValue)
    (statement : List String → String) : FilterClause × Scope :=
  let (bound, scope) := bindAll scope field values
  (⟨statement (bound.map Prod.fst), [(name, field)], Fields.ofList bound⟩, scope)

/-- The values to compare with under `IN`. -/
def alternatives (field : String) : Option Value → Result (List WireValue)
  | some (.list items) => do
    let values ← items.mapM fun item =>
      match item.marshal? with
      | some value => .ok value
      | none => .error (.compile field .inWithNull)
    if values.isEmpty then throw (.compile field .inWithoutValues)
    return values
  | _ => .error (.compile field .inWithoutList)

/-- The operator and the value that a function is really written with. -/
def effective (operator : FilterOperator) (value : Option Value) :
    FilterOperator × Option WireValue :=
  match operator, value with
  -- A truth value under `attribute_exists` says which of the two functions is meant.
  | .attributeExists, some (.bool false) => (.attributeNotExists, none)
  | .attributeExists, some (.bool true) => (.attributeExists, none)
  | operator, value => (operator, value.bind Value.marshal?)

/-- A function applied to a field, and to a value if there is one. -/
def functionText (operator : FilterOperator) (name : String) (placeholders : List String) : String :=
  operator.text ++ "(" ++ ", ".intercalate (name :: placeholders) ++ ")"

/-- The statement of an operator between a field and its values. -/
def statementText (operator : FilterOperator) (name : String) (placeholders : List String) : String :=
  if operator.isFunction then functionText operator name placeholders
  else
    match operator with
    | .isIn => name ++ " IN (" ++ ", ".intercalate placeholders ++ ")"
    | .between => name ++ " BETWEEN " ++ " AND ".intercalate placeholders
    | _ => name ++ " " ++ operator.text ++ " " ++ " ".intercalate placeholders

/-- The operator and the values that a condition is written with. -/
def arguments (field : String) (operator : FilterOperator) (first second : Option Value) :
    Result (FilterOperator × List WireValue) :=
  match operator with
  | .isIn => (alternatives field first).map fun values => (.isIn, values)
  | .between =>
    match first.bind Value.marshal?, second.bind Value.marshal? with
    | some low, some high => .ok (.between, [low, high])
    | _, _ => .error (.compile field .betweenWithoutTwo)
  | operator =>
    let (operator, value) := effective operator first
    match value with
    | some value => .ok (operator, [value])
    | none =>
      if operator.isFunction then .ok (operator, [])
      else .error (.compile field (.withoutValue operator))

/-- Builds a condition on a field. The field has got its alias when the values are looked at. -/
def buildInPlace (scope : Scope) (field : String) (operator : FilterOperator)
    (first second : Option Value) : Result FilterClause × Scope :=
  let (name, scope) := scope.aliasOf field
  match arguments field operator first second with
  | .error cause => (.error cause, scope)
  | .ok (operator, values) =>
    let (clause, scope) := ofValues scope field name values (statementText operator name)
    (.ok clause, scope)

end FilterClause

/-- Builds a condition in a copy of the scope, which takes the place of the scope only if nothing fails. -/
def Scope.buildFilter (scope : Scope) (field : String) (operator : FilterOperator)
    (first second : Option Value) : Result FilterClause × Scope :=
  match FilterClause.buildInPlace scope field operator first second with
  | (.ok clause, staged) => (.ok clause, staged)
  | (.error cause, _) => (.error cause, scope)

/-- Builds a condition, and hands the scope on with it. -/
def FilterClause.build (field : String) (operator : FilterOperator) (scope : Scope)
    (first second : Option Value) : Result (FilterClause × Scope) :=
  let (result, after) := scope.buildFilter field operator first second
  result.map fun clause => (clause, after)

/-- How conditions are combined. -/
inductive Conjunction where
  | all
  | any
deriving DecidableEq, Repr

/-- The word between combined conditions. -/
def Conjunction.word : Conjunction → String
  | .all => "AND"
  | .any => "OR"

namespace FilterClause

/-- The statements of conditions in parentheses, with the word between them. -/
def joined (conjunction : Conjunction) (clauses : List FilterClause) : String :=
  (" " ++ conjunction.word ++ " ").intercalate
    (clauses.map fun clause => "(" ++ clause.statement ++ ")")

/-- Combines conditions that were built in one scope; a single one stays as it is. -/
def combine (conjunction : Conjunction) : List FilterClause → FilterClause
  | [clause] => clause
  | clauses =>
    { statement := joined conjunction clauses
      attributeNames := clauses.foldl
        (fun names clause => Fields.insertAll names clause.attributeNames) []
      attributeValues := clauses.foldl
        (fun values clause => Fields.insertAll values clause.attributeValues) [] }

end FilterClause

end ItemMapper
