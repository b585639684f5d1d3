import ItemMapper.Proofs.WrittenLeaf

/-!
# What keeping nulls adds

An item may be written with explicit nulls for the fields that give nothing. Apart from these, nothing depends on
it: whether the item can be written, and all that stands beside the nulls (`withoutNulls`). Inside lists nulls are
always explicit. With nulls kept, the written item has the names of the item, at every depth that is reached
through maps alone (`HasNamesOf`).

Main result: `writeItem_withoutNulls`.
-/

namespace ItemMapper

/-! ### Nulls in fields -/

mutual

/-- Leaves out the explicit nulls among the fields of a map, and of the maps in it; lists stay as they are. -/
def WireValue.withoutNulls : WireValue → WireValue
  | .map fields => .map (WireItem.withoutNulls fields)
  | other => other

def WireItem.withoutNulls : List (String × WireValue) → List (String × WireValue)
  | [] => []
  | (name, wire) :: rest =>
    if wire.isNull then WireItem.withoutNulls rest
    else (name, wire.withoutNulls) :: WireItem.withoutNulls rest

end

theorem WireValue.withoutNulls_of_flat {wire : WireValue} (flat : wire.map? = none) : wire.withoutNulls = wire := by
  cases wire with
  | map fields => cases flat
  | _ => rfl

mutual

/-- What is no map is written as no map, and a map as one under the same names. -/
inductive HasNamesOf : Value → WireValue → Prop
  | flat {value : Value} {wire : WireValue} : value.map? = none → wire.map? = none → HasNamesOf value wire
  | map {item : Item} {fields : WireItem} : HaveNamesOf item fields → HasNamesOf (.map item) (.map fields)

/-- The fields of a written item have the names of those of the item, and so have those of the maps in it. -/
inductive HaveNamesOf : Item → WireItem → Prop
  | nil : HaveNamesOf [] []
  | cons {name : String} {value : Value} {wire : WireValue} {item : Item} {fields : WireItem} :
      HasNamesOf value wire → HaveNamesOf item fields →
      HaveNamesOf ((name, value) :: item) ((name, wire) :: fields)

end

namespace Codec

variable {gateway : Gateway} {types : DatatypeMap}

/-! ### Written fields -/

/-- No value is written as a null. -/
theorem IsWrittenLeaf.isNull_eq_false {type : Option WireType} {path : String} {value : Value} {wire : WireValue}
    (leaf : IsWrittenLeaf gateway path value type wire) : wire.isNull = false := by
  cases leaf with
  | natural _ present =>
    cases value with
    | null => exact absurd rfl present
    | _ => rfl
  | _ => rfl

theorem isNull_of_writeField {nulls : Bool} {name path : String} {value : Value} {wire : WireValue}
    (written : writeField gateway nulls types name path value = .ok (some wire)) : wire.isNull = false := by
  rcases writeField_cases written with ⟨fields, inner, -, rfl⟩ | ⟨-, leaf⟩
  · rfl
  · exact leaf.isNull_eq_false

/-- With nulls kept, a written field stands under its name as what it gave, or as a null. -/
theorem keepField_true (name : String) (written : Option WireValue) :
    keepField true name written = [(name, written.getD (.null true))] := by
  cases written <;> rfl

theorem withoutNulls_keepField {name : String} {written : Option WireValue}
    (present : ∀ wire, written = some wire → wire.isNull = false) (rest : WireItem) :
    WireItem.withoutNulls (keepField true name written ++ rest) =
      keepField false name (written.map WireValue.withoutNulls) ++ WireItem.withoutNulls rest := by
  rw [keepField_true, List.singleton_append, WireItem.withoutNulls]
  cases written with
  | none => rfl
  | some wire =>
    rw [Option.getD_some, present wire rfl]
    rfl

mutual

theorem writeField_withoutNulls (types : DatatypeMap) (name path : String) : (value : Value) →
    writeField gateway false types name path value =
      (writeField gateway true types name path value).map (Option.map WireValue.withoutNulls)
  | .map fields => by
    have inside := writeFields_withoutNulls (types.below name) path fields
    rw [writeField, writeField, inside]
    cases writeFields gateway true (types.below name) path fields <;> rfl
  | .null | .bool _ | .number _ | .string _ | .binary _ | .date _ | .list _ => by
    rw [writeField_of_flat rfl, writeField_of_flat rfl]
    exact (writeAttribute_map_of_flat rfl path fun _ => WireValue.withoutNulls_of_flat).symm

theorem writeFields_withoutNulls (types : DatatypeMap) (parent : String) : (fields : List (String × Value)) →
    writeFields gateway false types parent fields =
      (writeFields gateway true types parent fields).map WireItem.withoutNulls
  | [] => rfl
  | (name, value) :: rest => by
    have first := writeField_withoutNulls types name (joinPath parent name) value
    have others := writeFields_withoutNulls types parent rest
    rw [writeFields, writeFields, first, others]
    refine join_map fun result wire written _ => (withoutNulls_keepField ?_ wire).symm
    rintro stored rfl
    exact isNull_of_writeField written

end

mutual

theorem hasNamesOf_writeField {types : DatatypeMap} {name path : String} {result : Option WireValue} :
    (value : Value) → writeField gateway true types name path value = .ok result →
      HasNamesOf value (result.getD (.null true))
  | .map fields, written => by
    obtain ⟨inner, fields_written, rfl⟩ := writeField_map_eq_ok_iff.mp written
    exact .map (haveNamesOf_writeFields fields fields_written)
  | .null, written | .bool _, written | .number _, written | .string _, written | .binary _, written
  | .date _, written | .list _, written => by
    refine .flat rfl ?_
    cases result with
    | none => rfl
    | some wire =>
      rcases writeField_cases written with ⟨fields, inner, same, -⟩ | ⟨-, leaf⟩
      · cases same
      · exact leaf.map?_eq_none rfl

theorem haveNamesOf_writeFields {types : DatatypeMap} {parent : String} {wire : WireItem} :
    (fields : List (String × Value)) → writeFields gateway true types parent fields = .ok wire →
      HaveNamesOf fields wire
  | [], written => by
    cases written
    exact .nil
  | (name, value) :: rest, written => by
    rw [writeFields] at written
    obtain ⟨result, others, first_written, rest_written, rfl⟩ := join_eq_ok_iff.mp written
    rw [keepField_true]
    exact .cons (hasNamesOf_writeField value first_written) (haveNamesOf_writeFields rest rest_written)

end

/--
An item is written without nulls as it is with them, but for the explicit nulls among its fields and those of the
maps in it; if it cannot be written, the error is the same. With nulls, what is written has the names of the item.
-/
theorem writeItem_withoutNulls {item : Item} :
    writeItem gateway types false item = (writeItem gateway types true item).map WireItem.withoutNulls ∧
    ∀ wire, writeItem gateway types true item = .ok wire → HaveNamesOf item wire :=
  ⟨writeFields_withoutNulls types "" item, fun _ => haveNamesOf_writeFields item⟩

/-- Nulls from a null and from a set without elements, in a map and at the top; those in a list stay. -/
theorem writeItem_withoutNulls_nested :
    let types : DatatypeMap := [("home", .nested [("codes", .leaf .stringSet)])]
    let item : Item := [("home", .map [("codes", .list []), ("zip", .string "1")]), ("left", .null),
      ("notes", .list [.null, .map [("by", .null)]])]
    let full : WireItem := [("home", .map [("codes", .null true), ("zip", .string "1")]), ("left", .null true),
      ("notes", .list [.null true, .map [("by", .null true)]])]
    writeItem ⟨none⟩ types true item = .ok full ∧ HaveNamesOf item full ∧
      writeItem ⟨none⟩ types false item = .ok [("home", .map [("zip", .string "1")]),
        ("notes", .list [.null true, .map [("by", .null true)]])] := by
  intro types item full
  have written : writeItem ⟨none⟩ types true item = .ok full := rfl
  refine ⟨written, writeItem_withoutNulls.2 full written, ?_⟩
  rw [writeItem_withoutNulls.1, written]
  rfl

end Codec

end ItemMapper
