import ItemMapper.Codec.Read

/-!
# Leaves

The values of an item at which the codec does its work, in the order in which it comes to them: with
their paths and declared types. Maps are only ways to leaves, and on reading so are lists.
-/

namespace ItemMapper.Codec

/-- A value with its path and its declared type. -/
structure Leaf (α : Type) where
  path : String
  type : Option WireType
  value : α

mutual

/-- The leaves of the value of a field. -/
def fieldLeaves (types : DatatypeMap) (name path : String) : Value → List (Leaf Value)
  | .map fields => itemLeaves (types.below name) path fields
  | value => [⟨path, types.wireType? name, value⟩]

/-- The leaves of fields below a path. -/
def itemLeaves (types : DatatypeMap) (parent : String) : List (String × Value) → List (Leaf Value)
  | [] => []
  | (name, value) :: rest =>
    fieldLeaves types name (joinPath parent name) value ++ itemLeaves types parent rest

end

mutual

/-- The leaves of a wire value. -/
def wireLeaves (type : Option WireType) (below : DatatypeMap) (path : String) :
    WireValue → List (Leaf WireValue)
  | .map fields => wireItemLeaves below path fields
  | .list items => wireListLeaves path 0 items
  | value => [⟨path, type, value⟩]

/-- The leaves of the items of a list from the given position on. -/
def wireListLeaves (path : String) (index : Nat) : List WireValue → List (Leaf WireValue)
  | [] => []
  | item :: rest =>
    wireLeaves none [] (itemPath path index) item ++ wireListLeaves path (index + 1) rest

/-- The leaves of fields below a path. -/
def wireItemLeaves (types : DatatypeMap) (parent : String) :
    List (String × WireValue) → List (Leaf WireValue)
  | [] => []
  | (name, value) :: rest =>
    wireLeaves (types.wireType? name) (types.below name) (joinPath parent name) value ++
      wireItemLeaves types parent rest

end

/-! ### Work at the leaves -/

/-- The leaves that are come to: those before the first failing one, and that one. -/
def visited {α : Type} (succeeds : α → Bool) : List α → List α
  | [] => []
  | leaf :: rest => if succeeds leaf then leaf :: visited succeeds rest else [leaf]

def writeLeaf (gateway : Gateway) (leaf : Leaf Value) : Result (Option WireValue) :=
  writeAttribute gateway leaf.type leaf.path leaf.value

def readLeaf (gateway : Gateway) (decrypting : Bool) (leaf : Leaf WireValue) : Result Value :=
  readAttribute gateway decrypting leaf.type leaf.path leaf.value

/-- Whether writing a leaf asks the cipher. -/
def asksToWrite (gateway : Gateway) (leaf : Leaf Value) : Bool :=
  match leaf.type, leaf.value with
  | some (.encrypted keyId), .string text => gateway.asksCipher keyId text
  | _, _ => false

/-- Whether reading a leaf asks the cipher. -/
def asksToRead (gateway : Gateway) (leaf : Leaf WireValue) : Bool :=
  match leaf.type, leaf.value with
  | some (.encrypted keyId), .string text => gateway.asksCipher keyId text
  | _, _ => false

/-- How often writing leaves asks the cipher. -/
def callsToWrite (gateway : Gateway) (leaves : List (Leaf Value)) : Nat :=
  (visited (fun leaf => (writeLeaf gateway leaf).isOk) leaves).countP (asksToWrite gateway)

/-- How often reading leaves asks the cipher. -/
def callsToRead (gateway : Gateway) (decrypting : Bool) (leaves : List (Leaf WireValue)) : Nat :=
  if decrypting then
    (visited (fun leaf => (readLeaf gateway decrypting leaf).isOk) leaves).countP (asksToRead gateway)
  else 0

end ItemMapper.Codec
