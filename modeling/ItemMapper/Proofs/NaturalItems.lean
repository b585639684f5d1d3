import ItemMapper.Proofs.ExplicitNulls
import ItemMapper.Proofs.NamedFields
import ItemMapper.Proofs.RoundTrip

/-!
# Items in their natural form

A datatype tree whose leaves all leave values as they are (`DatatypeMap.IsNatural`) plays no part in writing: with
nulls kept, an item is written as the natural form of the map that it is, through any gateway, and it always can be.
Whether the tree has the shape of the item does not matter.

Main result: `writeItem_eq_natural`.
-/

namespace ItemMapper

/-- At every depth, all declared types leave values in their natural form. -/
inductive DatatypeMap.IsNatural : DatatypeMap → Prop
  | intro {types : DatatypeMap} :
      (∀ name type, (name, DatatypeNode.leaf type) ∈ types → WireType.IsNatural (some type)) →
      (∀ name nested, (name, DatatypeNode.nested nested) ∈ types → IsNatural nested) → IsNatural types

theorem DatatypeMap.IsNatural.wireType? {types : DatatypeMap} (natural : types.IsNatural) (name : String) :
    WireType.IsNatural (types.wireType? name) := by
  obtain ⟨leaves, -⟩ := natural
  unfold DatatypeMap.wireType?
  split
  next type found => exact leaves name type (Fields.mem_of_get? found)
  next => exact .undeclared

theorem DatatypeMap.IsNatural.nested {types : DatatypeMap} (natural : types.IsNatural) (name : String) :
    IsNatural (types.below name) := by
  obtain ⟨-, deeper⟩ := natural
  unfold DatatypeMap.below
  split
  next nested found => exact deeper name nested (Fields.mem_of_get? found)
  next => exact ⟨nofun, nofun⟩

namespace Codec

variable {gateway : Gateway}

theorem writeAttribute_eq_marshal? {type : Option WireType} (free : WireType.IsNatural type) (path : String)
    (value : Value) : writeAttribute gateway type path value = .ok value.marshal? := by
  by_cases present : value = .null
  · subst present
    rfl
  · rw [writeAttribute_of_isNatural free present, marshal?_eq_some_iff.mpr ⟨present, rfl⟩]

/-- With nulls kept, a field stands under its name in its natural form, be it null or not. -/
theorem keepField_marshal? (name : String) (value : Value) :
    keepField true name value.marshal? = [(name, value.natural)] := by
  cases value <;> rfl

mutual

theorem writeField_eq_marshal? {types : DatatypeMap} (natural : types.IsNatural) (name path : String) :
    (value : Value) → writeField gateway true types name path value = .ok value.marshal?
  | .map fields => by
    rw [writeField, writeFields_eq_natural (natural.nested name) path fields]
    rfl
  | .null | .bool _ | .number _ | .string _ | .binary _ | .date _ | .list _ => by
    rw [writeField_of_flat rfl]
    exact writeAttribute_eq_marshal? (natural.wireType? name) path _

theorem writeFields_eq_natural {types : DatatypeMap} (natural : types.IsNatural) (parent : String) :
    (fields : List (String × Value)) →
      writeFields gateway true types parent fields = .ok (Value.naturalFields fields)
  | [] => rfl
  | (name, value) :: rest => by
    have first := writeField_eq_marshal? natural name (joinPath parent name) value
    have others := writeFields_eq_natural natural parent rest
    rw [writeFields, first, others, Value.naturalFields]
    exact congrArg (fun field => Except.ok (field ++ Value.naturalFields rest)) (keepField_marshal? name value)

end

/-- If no declared type changes a value, an item is written as the natural form of the map that it is. -/
theorem writeItem_eq_natural {types : DatatypeMap} (natural : types.IsNatural) {item : Item} :
    ∃ wire, (Value.map item).marshal? = some (.map wire) ∧ writeItem gateway types true item = .ok wire :=
  ⟨Value.naturalFields item, rfl, writeFields_eq_natural natural "" item⟩

/-- The tree declares a subtree where the item holds a list, and a leaf where it holds a map with a null. -/
theorem writeItem_eq_natural_mismatched :
    let types : DatatypeMap := [("home", .nested [("zip", .leaf .number)]), ("name", .leaf .string)]
    let item : Item := [("home", .list [.null]), ("name", .map [("first", .null), ("last", .bool true)]),
      ("none", .null)]
    types.IsNatural ∧ writeItem ⟨none⟩ types true item = .ok [("home", .list [.null true]),
      ("name", .map [("first", .null true), ("last", .bool true)]), ("none", .null true)] := by
  intro types item
  have natural : types.IsNatural := by
    refine ⟨fun name type member => ?_, fun name nested member => ?_⟩
    · obtain ⟨-, rfl⟩ : name = "name" ∧ type = .string := by simpa [types] using member
      exact .string
    · obtain ⟨-, rfl⟩ : name = "home" ∧ nested = [("zip", .leaf .number)] := by simpa [types] using member
      refine ⟨fun name type member => ?_, fun name nested member => ?_⟩
      · obtain ⟨-, rfl⟩ : name = "zip" ∧ type = .number := by simpa using member
        exact .number
      · simp at member
  obtain ⟨wire, marshalled, written⟩ := @writeItem_eq_natural ⟨none⟩ types natural item
  cases marshalled
  exact ⟨natural, written⟩

end Codec

end ItemMapper
