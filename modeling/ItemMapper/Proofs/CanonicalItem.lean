import ItemMapper.Cipher.KeyService
import ItemMapper.Proofs.DateText

/-!
# Canonical items

The items that are read back as they were written. Wire items know neither dates nor keys nor native
lists of a set type, so what a field may hold depends on its declared type: a canonical value is one that
the declared type gives back (`IsCanonicalLeaf`), at every field of the item and of the maps in it
(`IsCanonical`).
-/

namespace ItemMapper

/-! ### Natural forms -/

mutual

/-- A value that its natural wire form gives back: no date, and no number but integers. -/
def Value.IsPlain : Value → Prop
  | .null | .bool _ | .string _ | .binary _ => True
  | .number (.integer n) => Number.IsWord n
  | .number (.float _) | .date _ => False
  | .list items => Value.ArePlain items
  | .map fields => Value.HavePlain fields

/-- All items of a list are plain. -/
def Value.ArePlain : List Value → Prop
  | [] => True
  | item :: rest => item.IsPlain ∧ Value.ArePlain rest

/-- All values under names are plain. -/
def Value.HavePlain : List (String × Value) → Prop
  | [] => True
  | (_, value) :: rest => value.IsPlain ∧ Value.HavePlain rest

end

/-- The declarations that leave values in their natural form. -/
inductive WireType.IsNatural : Option WireType → Prop
  | undeclared : IsNatural none
  | string : IsNatural (some .string)
  | number : IsNatural (some .number)
  | list : IsNatural (some .list)

/-! ### Fields -/

/-- A gateway gives a text back: it has no cipher, or the cipher undoes what it did under the key. -/
def Gateway.Restores (gateway : Gateway) (keyId text : String) : Prop :=
  ∀ cipher, gateway.cipher = some cipher → keyId ≠ "" ∧
    ∃ hidden, cipher.encrypt keyId text = .ok hidden ∧ hidden ≠ "" ∧
      cipher.decrypt keyId hidden = .ok text

namespace Codec

variable {gateway : Gateway}

/-- What a field may hold that is declared with a type, or not at all, and holds no map. -/
inductive IsCanonicalLeaf (gateway : Gateway) : Option WireType → Value → Prop
  | date {instant : Instant} : instant.IsStorable → IsCanonicalLeaf gateway (some .date) (.date instant)
  | boolean (b : Bool) : IsCanonicalLeaf gateway (some .boolean) (.bool b)
  | binary (bytes : Bytes) : IsCanonicalLeaf gateway (some .binary) (.binary bytes)
  | stringSet {texts : List String} : texts ≠ [] → texts.Nodup →
      IsCanonicalLeaf gateway (some .stringSet) (.list (texts.map .string))
  | numberSet {ns : List Int} : ns ≠ [] → ns.Nodup → (∀ n ∈ ns, Number.IsWord n) →
      IsCanonicalLeaf gateway (some .numberSet) (.list (ns.map fun n => .number (.integer n)))
  | binarySet {blobs : List Bytes} : blobs ≠ [] → blobs.Nodup →
      IsCanonicalLeaf gateway (some .binarySet) (.list (blobs.map .binary))
  | encrypted {keyId text : String} : text ≠ "" → gateway.Restores keyId text →
      IsCanonicalLeaf gateway (some (.encrypted keyId)) (.string text)
  | natural {type : Option WireType} {value : Value} : WireType.IsNatural type → value ≠ .null →
      value.IsPlain → IsCanonicalLeaf gateway type value

mutual

/-- What the field of a name may hold: a map that is canonical below it, or a canonical leaf. -/
def IsCanonicalField (gateway : Gateway) (types : DatatypeMap) (name : String) : Value → Prop
  | .map fields => IsCanonical gateway (types.below name) fields
  | value => IsCanonicalLeaf gateway (types.wireType? name) value

/-- Every field of an item holds what it may hold. -/
def IsCanonical (gateway : Gateway) (types : DatatypeMap) : List (String × Value) → Prop
  | [] => True
  | (name, value) :: rest =>
    IsCanonicalField gateway types name value ∧ IsCanonical gateway types rest

end

end Codec

end ItemMapper
