/-!
# Wire types

The declared type of a field says how the field travels. Declarations are stored as tags.
-/

namespace ItemMapper

/-- The declared type of a field. -/
inductive WireType where
  | string
  | number
  | boolean
  | binary
  | date
  | stringSet
  | numberSet
  | binarySet
  | list
  /-- A string that travels encrypted under a key. -/
  | encrypted (keyId : String)
deriving DecidableEq, Repr

namespace WireType

/-- What the tags of encrypted types start with; the key id follows. -/
def encryptedMark : String := "ENCRYPTED:"

def tag : WireType → String
  | .string => "S"
  | .number => "N"
  | .boolean => "BOOL"
  | .binary => "B"
  | .date => "DATE"
  | .stringSet => "SS"
  | .numberSet => "NS"
  | .binarySet => "BS"
  | .list => "L"
  | .encrypted keyId => encryptedMark ++ keyId

/-- Why a tag names no type. -/
inductive TagError where
  | unknownTag (tag : String)
  | missingKeyId
deriving DecidableEq, Repr

def TagError.message : TagError → String
  | .unknownTag tag => "unknown wire type tag: " ++ tag
  | .missingKeyId => "encrypted wire type is missing its key id"

/-- The text after a given beginning. -/
def dropMark? (mark : List Char) (cs : List Char) : Option (List Char) :=
  if mark.isPrefixOf cs then some (cs.drop mark.length) else none

theorem dropMark?_eq_some_iff {mark cs rest : List Char} :
    dropMark? mark cs = some rest ↔ cs = mark ++ rest := by
  unfold dropMark?
  constructor
  · intro dropped
    split at dropped
    next starts =>
      obtain ⟨found, rfl⟩ := List.isPrefixOf_iff_prefix.mp starts
      rw [List.drop_left] at dropped
      rw [Option.some.inj dropped]
    next => cases dropped
  · rintro rfl
    have starts : mark.isPrefixOf (mark ++ rest) = true :=
      List.isPrefixOf_iff_prefix.mpr (List.prefix_append mark rest)
    rw [if_pos starts, List.drop_left]

/-- The type that a tag names. -/
def ofTag (tag : String) : Except TagError WireType :=
  -- No plain tag starts with the mark, so the mark can be looked for first.
  match dropMark? encryptedMark.toList tag.toList with
  | some [] => .error .missingKeyId
  | some keyId => .ok (.encrypted (String.ofList keyId))
  | none =>
    match tag with
    | "S" => .ok .string
    | "N" => .ok .number
    | "BOOL" => .ok .boolean
    | "B" => .ok .binary
    | "DATE" => .ok .date
    | "SS" => .ok .stringSet
    | "NS" => .ok .numberSet
    | "BS" => .ok .binarySet
    | "L" => .ok .list
    | other => .error (.unknownTag other)

def keyId? : WireType → Option String
  | .encrypted keyId => some keyId
  | _ => none

/-- Whether fields of the type are sets. -/
def isSet : WireType → Bool
  | .stringSet | .numberSet | .binarySet => true
  | _ => false

end WireType

end ItemMapper
