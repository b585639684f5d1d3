import ItemMapper.Codec.Leaves
import ItemMapper.Request.Expected

/-!
# Conditions on attributes

Conditions that attributes exist, or equal a value, in the older form of one entry for each attribute.
Values are written like the fields of an item.
-/

namespace ItemMapper.Codec

/-- A condition on an attribute. -/
inductive Expectation where
  | mustExist (flag : Bool)
  | equals (value : Value)
deriving Repr

/-- The written value of a condition; one that gives nothing is left out, or kept as a null. -/
def keepExpected (nulls : Bool) (name : String) (written : Option WireValue) :
    Fields ExpectedValue :=
  match written with
  | some value => [(name, { value := some value })]
  | none => if nulls then [(name, { value := some (.null true) })] else []

/-- Writes a condition on the attribute of a name. -/
def writeExpectation (gateway : Gateway) (types : DatatypeMap) (nulls : Bool) (name : String) :
    Expectation → Result (Fields ExpectedValue)
  | .mustExist flag => .ok [(name, { mustExist := some flag })]
  | .equals value => do
    let written ← writeField gateway nulls types name name value
    return keepExpected nulls name written

def writeExpected (gateway : Gateway) (types : DatatypeMap) (nulls : Bool) :
    List (String × Expectation) → Result (Fields ExpectedValue)
  | [] => .ok []
  | (name, expectation) :: rest => do
    let entry ← writeExpectation gateway types nulls name expectation
    let others ← writeExpected gateway types nulls rest
    return entry ++ others

/-- The leaves of the values in conditions. -/
def expectedLeaves (types : DatatypeMap) (conditions : List (String × Expectation)) :
    List (Leaf Value) :=
  conditions.flatMap fun (name, expectation) =>
    match expectation with
    | .mustExist _ => []
    | .equals value => fieldLeaves types name name value

end ItemMapper.Codec
