import ItemMapper.Fields
import ItemMapper.Number.Basic

/-!
# JSON trees

A tree read from text that stops being JSON keeps everything up to the fault, and the fault stands in
the tree where it was met. Whoever walks such a tree in order meets mistakes of content and mistakes
of form in the order of the text.
-/

namespace ItemMapper

/-- What is wrong at a place of a text. -/
inductive Flaw where
  /-- The text is not JSON from here on. -/
  | broken
  /-- A string or number with clear ends that cannot be taken in, only passed over. -/
  | unreadable
  /-- A container that is nested too deeply to be taken in; it can be passed over. -/
  | tooDeep
  /-- The value of a member whose name has clear ends but cannot be taken in, only passed over. -/
  | unreadableName
  /-- The text is not JSON from here on, where the name of a member has to stand. -/
  | nameless
deriving DecidableEq, Repr

/--
A JSON tree; the members of an object are in the order of the text. A flaw keeps what stands in its
place as far as that is known, and `null` otherwise.
-/
inductive Json where
  | null
  | bool (value : Bool)
  | number (value : Number)
  | string (value : String)
  | array (items : List Json)
  | object (members : List (String × Json))
  | flaw (kind : Flaw) (content : Json)
deriving Repr

namespace Json

/-- The place where a text stops being JSON. -/
def broken : Json :=
  .flaw .broken .null

/-- Whether the member of an object that holds this tree has a name that can be taken in. -/
def isNamed : Json → Bool
  | .flaw .unreadableName _ | .flaw .nameless _ => false
  | _ => true

mutual

/-- Whether a value can be passed over without looking at it. -/
def isPassable : Json → Bool
  | .flaw .unreadable _ => true
  | .flaw .tooDeep content => content.isPassable
  | .flaw .unreadableName content => content.isPassable
  | .flaw _ _ => false
  | .array items => arePassable items
  | .object members => membersPassable members
  | _ => true

/-- Whether all items can be passed over. -/
def arePassable : List Json → Bool
  | [] => true
  | item :: rest => item.isPassable && arePassable rest

/-- Whether all members can be passed over. -/
def membersPassable : List (String × Json) → Bool
  | [] => true
  | (_, value) :: rest => value.isPassable && membersPassable rest

end

mutual

/-- Whether a tree has no flaw in it. -/
def isIntact : Json → Bool
  | .flaw _ _ => false
  | .array items => areIntact items
  | .object members => membersIntact members
  | _ => true

/-- Whether all items are without flaws. -/
def areIntact : List Json → Bool
  | [] => true
  | item :: rest => item.isIntact && areIntact rest

/-- Whether all members are without flaws. -/
def membersIntact : List (String × Json) → Bool
  | [] => true
  | (_, value) :: rest => value.isIntact && membersIntact rest

end

mutual

/-- The tree with the members of every object in name order, the last one of a name kept. -/
def canonical : Json → Json
  | .array items => .array (canonicalItems items)
  | .object members => .object (Fields.ofList (canonicalMembers members))
  | other => other

/-- The canonical trees of all items. -/
def canonicalItems : List Json → List Json
  | [] => []
  | item :: rest => item.canonical :: canonicalItems rest

/-- The canonical trees of all members. -/
def canonicalMembers : List (String × Json) → List (String × Json)
  | [] => []
  | (name, value) :: rest => (name, value.canonical) :: canonicalMembers rest

end

end Json

end ItemMapper
