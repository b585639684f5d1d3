import ItemMapper.Base64
import ItemMapper.Calendar.Instant
import ItemMapper.Json.Basic

/-!
# Native values

Values as an application holds them. Sets do not exist natively; they are lists.
-/

namespace ItemMapper

/-- A native value. -/
inductive Value where
  | null
  | bool (value : Bool)
  | number (value : Number)
  | string (text : String)
  | binary (bytes : Bytes)
  | date (instant : Instant)
  | list (items : List Value)
  | map (fields : List (String × Value))
deriving Repr

/-- A native item. -/
abbrev Item := Fields Value

/-- The kinds of native values. -/
inductive Kind where
  | null
  | boolean
  | number
  | string
  | binary
  | date
  | list
  | map
deriving DecidableEq, Repr

def Kind.name : Kind → String
  | .null => "null"
  | .boolean => "boolean"
  | .number => "number"
  | .string => "string"
  | .binary => "binary"
  | .date => "date"
  | .list => "list"
  | .map => "map"

namespace Value

def kind : Value → Kind
  | .null => .null
  | .bool _ => .boolean
  | .number _ => .number
  | .string _ => .string
  | .binary _ => .binary
  | .date _ => .date
  | .list _ => .list
  | .map _ => .map

def isNull : Value → Bool
  | .null => true
  | _ => false

def string? : Value → Option String
  | .string text => some text
  | _ => none

def date? : Value → Option Instant
  | .date instant => some instant
  | _ => none

def list? : Value → Option (List Value)
  | .list items => some items
  | _ => none

def map? : Value → Option Item
  | .map fields => some fields
  | _ => none

/-- The value of a double; what is not finite has no wire form and becomes null. -/
def ofFloat : Option Binary64 → Value
  | some x => .number (.float x)
  | none => .null

/-! ### From JSON -/

mutual

/-- The value that a JSON tree stands for; of several members of one name the last is kept. -/
def ofJson : Json → Value
  | .null => .null
  | .bool b => .bool b
  | .number n => .number n
  | .string text => .string text
  | .array items => .list (ofItems items)
  | .object members => .map (Fields.ofList (ofMembers members))
  | .flaw _ _ => .null

/-- The values of items. -/
def ofItems : List Json → List Value
  | [] => []
  | item :: rest => ofJson item :: ofItems rest

/-- The values of members. -/
def ofMembers : List (String × Json) → List (String × Value)
  | [] => []
  | (name, tree) :: rest => (name, ofJson tree) :: ofMembers rest

end

/-! ### Equality -/

mutual

def decEq : (a b : Value) → Decidable (a = b)
  | .null, b => match b with
    | .null => isTrue rfl
    | .bool _ | .number _ | .string _ | .binary _ | .date _ | .list _ | .map _ => isFalse nofun
  | .bool x, b => match b with
    | .bool y => decidable_of_iff (x = y) (by simp)
    | .null | .number _ | .string _ | .binary _ | .date _ | .list _ | .map _ => isFalse nofun
  | .number x, b => match b with
    | .number y => decidable_of_iff (x = y) (by simp)
    | .null | .bool _ | .string _ | .binary _ | .date _ | .list _ | .map _ => isFalse nofun
  | .string x, b => match b with
    | .string y => decidable_of_iff (x = y) (by simp)
    | .null | .bool _ | .number _ | .binary _ | .date _ | .list _ | .map _ => isFalse nofun
  | .binary x, b => match b with
    | .binary y => decidable_of_iff (x = y) (by simp)
    | .null | .bool _ | .number _ | .string _ | .date _ | .list _ | .map _ => isFalse nofun
  | .date x, b => match b with
    | .date y => decidable_of_iff (x = y) (by simp)
    | .null | .bool _ | .number _ | .string _ | .binary _ | .list _ | .map _ => isFalse nofun
  | .list xs, b => match b with
    | .list ys => match decEqItems xs ys with
      | isTrue same => isTrue (congrArg _ same)
      | isFalse different => isFalse fun same => different (Value.list.inj same)
    | .null | .bool _ | .number _ | .string _ | .binary _ | .date _ | .map _ => isFalse nofun
  | .map xs, b => match b with
    | .map ys => match decEqFields xs ys with
      | isTrue same => isTrue (congrArg _ same)
      | isFalse different => isFalse fun same => different (Value.map.inj same)
    | .null | .bool _ | .number _ | .string _ | .binary _ | .date _ | .list _ => isFalse nofun

def decEqItems : (xs ys : List Value) → Decidable (xs = ys)
  | [], ys => match ys with
    | [] => isTrue rfl
    | _ :: _ => isFalse nofun
  | x :: xs, ys => match ys with
    | [] => isFalse nofun
    | y :: ys => match decEq x y, decEqItems xs ys with
      | isTrue head, isTrue tail => isTrue (head ▸ tail ▸ rfl)
      | isFalse different, _ => isFalse fun same => different (List.cons.inj same).1
      | _, isFalse different => isFalse fun same => different (List.cons.inj same).2

def decEqFields : (xs ys : List (String × Value)) → Decidable (xs = ys)
  | [], ys => match ys with
    | [] => isTrue rfl
    | _ :: _ => isFalse nofun
  | (name, x) :: xs, ys => match ys with
    | [] => isFalse nofun
    | (other, y) :: ys => match instDecidableEqString name other, decEq x y, decEqFields xs ys with
      | isTrue n, isTrue head, isTrue tail => isTrue (n ▸ head ▸ tail ▸ rfl)
      | isFalse different, _, _ =>
        isFalse fun same => different (congrArg Prod.fst (List.cons.inj same).1)
      | _, isFalse different, _ =>
        isFalse fun same => different (congrArg Prod.snd (List.cons.inj same).1)
      | _, _, isFalse different => isFalse fun same => different (List.cons.inj same).2

end

instance : DecidableEq Value := decEq

end Value

end ItemMapper
