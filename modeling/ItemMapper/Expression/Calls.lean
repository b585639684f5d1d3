import ItemMapper.Expression.Filter
import ItemMapper.Expression.Update

/-!
# Calls on a scope

The expressions of one request are built call after call, each of which changes the scope of the request.
-/

namespace ItemMapper.Scope

/-- What is asked of the scope of a request. -/
inductive Call where
  | aliasOf (field : String)
  | allocate (field : String)
  | reserve (name : String)
  | update (gateway : Gateway) (types : DatatypeMap) (patch : Patch)
  | filter (field : String) (operator : FilterOperator) (first second : Option Value)

inductive Answer where
  | named (field name : String)
  | placeholder (name : String)
  | reserved (name : String) (free : Bool)
  | plan (result : Result ExpressionPlan)
  | clause (result : Result FilterClause)

def answer (scope : Scope) : Call → Answer × Scope
  | .aliasOf field =>
    let (name, after) := scope.aliasOf field
    (.named field name, after)
  | .allocate field =>
    let (name, after) := scope.allocate field
    (.placeholder name, after)
  | .reserve name =>
    let (free, after) := scope.reserve name
    (.reserved name free, after)
  | .update gateway types patch =>
    let (result, after) := scope.compileUpdate gateway types patch
    (.plan result, after)
  | .filter field operator first second =>
    let (result, after) := scope.buildFilter field operator first second
    (.clause result, after)

/-- An answered call, with the scopes before and after it. -/
structure Event where
  before : Scope
  answer : Answer
  after : Scope

/-- What happens when calls are answered one after another. -/
def run (scope : Scope) : List Call → List Event
  | [] => []
  | call :: rest =>
    let (answer, after) := scope.answer call
    ⟨scope, answer, after⟩ :: after.run rest

end ItemMapper.Scope
