import ItemMapper.Text.Blank

/-!
# Filter operators

Comparisons, ranges and functions that a condition can apply to an attribute.
-/

namespace ItemMapper

/-- A comparison or function in a condition. -/
inductive FilterOperator where
  | equal
  | notEqual
  | less
  | lessEqual
  | greater
  | greaterEqual
  | between
  | isIn
  | attributeExists
  | attributeNotExists
  | attributeType
  | beginsWith
  | contains
  | notContains
  | size
deriving DecidableEq, Repr

namespace FilterOperator

/-- The short name of the operator. -/
def name : FilterOperator → String
  | .equal => "Eq"
  | .notEqual => "Ne"
  | .less => "Lt"
  | .lessEqual => "Le"
  | .greater => "Gt"
  | .greaterEqual => "Ge"
  | .between => "Between"
  | .isIn => "In"
  | .attributeExists => "AttributeExists"
  | .attributeNotExists => "AttributeNotExists"
  | .attributeType => "AttributeType"
  | .beginsWith => "BeginsWith"
  | .contains => "Contains"
  | .notContains => "NotContains"
  | .size => "Size"

/-- The operator as it stands in a condition. -/
def text : FilterOperator → String
  | .equal => "="
  | .notEqual => "<>"
  | .less => "<"
  | .lessEqual => "<="
  | .greater => ">"
  | .greaterEqual => ">="
  | .between => "BETWEEN"
  | .isIn => "IN"
  | .attributeExists => "attribute_exists"
  | .attributeNotExists => "attribute_not_exists"
  | .attributeType => "attribute_type"
  | .beginsWith => "begins_with"
  | .contains => "contains"
  | .notContains => "NOT contains"
  | .size => "size"

/-- Whether the operator is written in front of its arguments. -/
def isFunction : FilterOperator → Bool
  | .attributeExists | .attributeNotExists | .attributeType | .beginsWith | .contains | .notContains
  | .size => true
  | _ => false

/-- The operators that are read exactly as they are written. -/
def exact : List FilterOperator :=
  [.equal, .notEqual, .less, .lessEqual, .greater, .greaterEqual, .attributeExists,
    .attributeNotExists, .attributeType, .beginsWith, .contains, .size]

/-- The operators whose words are read without regard to case and to the blanks between them. -/
def worded : List FilterOperator :=
  [.between, .isIn, .notContains]

/-- The words of a text, in lower case. -/
def lowerWords (text : String) : List (List Char) :=
  (Text.words text.toList).map fun word => word.map Char.toLower

/-- The operator that a text names; a text that names none is given back without its blanks. -/
def ofText (text : String) : Except String FilterOperator :=
  let trimmed := Text.trimText text
  match exact.find? fun operator => operator.text == trimmed with
  | some operator => .ok operator
  | none =>
    match worded.find? fun operator => lowerWords operator.text == lowerWords trimmed with
    | some operator => .ok operator
    | none => .error trimmed

/-- The wording for a text that names no operator. -/
def unknownMessage (text : String) : String :=
  "unknown filter operator: " ++ text

end FilterOperator

end ItemMapper
