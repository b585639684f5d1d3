import ItemMapper.Proofs.CanonicalItem
import ItemMapper.Proofs.Results

/-!
# What a value is written as

One case for each way in which a value gives something on the wire by its declared type (`IsWrittenLeaf`).
What holds of every written value is read off these cases.

Main results: these are all cases (`isWrittenLeaf_of_writeAttribute`); a written set is not empty
(`IsWrittenLeaf.setSize?_ne_zero`).
-/

namespace ItemMapper.Codec

/-- A value is written by a declared type, or by none, as a wire value; null and empty sets never are. -/
inductive IsWrittenLeaf (gateway : Gateway) (path : String) (value : Value) :
    Option WireType → WireValue → Prop
  | date {instant : Instant} : toInstant value = .ok instant →
      IsWrittenLeaf gateway path value (some .date) (.string instant.text)
  | boolean : value ≠ .null → IsWrittenLeaf gateway path value (some .boolean) (.bool (truth value))
  | binary {bytes : Bytes} : toBytes .binary value = .ok bytes →
      IsWrittenLeaf gateway path value (some .binary) (.binary bytes)
  | stringSet {texts : List String} : toSet toSetText value = .ok texts → texts ≠ [] →
      IsWrittenLeaf gateway path value (some .stringSet) (.stringSet texts)
  | numberSet {texts : List String} : toSet toSetNumber value = .ok texts → texts ≠ [] →
      IsWrittenLeaf gateway path value (some .numberSet) (.numberSet texts)
  | binarySet {blobs : List Bytes} : toSet (toBytes .binarySet) value = .ok blobs → blobs ≠ [] →
      IsWrittenLeaf gateway path value (some .binarySet) (.binarySet blobs)
  | encrypted {keyId text hidden : String} : value = .string text →
      gateway.encrypt path keyId text = .ok hidden →
      IsWrittenLeaf gateway path value (some (.encrypted keyId)) (.string hidden)
  | natural {type : Option WireType} : WireType.IsNatural type → value ≠ .null →
      IsWrittenLeaf gateway path value type value.natural

theorem nonEmpty_eq_some_iff {α : Type} {wrap : List α → WireValue} {found : List α} {wire : WireValue} :
    nonEmpty wrap found = some wire ↔ found ≠ [] ∧ wrap found = wire := by
  simp [nonEmpty]

theorem marshal?_eq_some_iff {value : Value} {wire : WireValue} :
    value.marshal? = some wire ↔ value ≠ .null ∧ value.natural = wire := by
  cases value <;> simp [Value.marshal?, Value.isNull]

theorem isWrittenLeaf_of_coerce {gateway : Gateway} {path : String} {type : WireType} {value : Value}
    {wire : WireValue} (plain : ∀ keyId, type ≠ .encrypted keyId) (present : value ≠ .null)
    (coerced : coerce type value = .ok (some wire)) :
    IsWrittenLeaf gateway path value (some type) wire := by
  have natural : value.marshal? = some wire → WireType.IsNatural (some type) →
      IsWrittenLeaf gateway path value (some type) wire := by
    intro marshalled free
    obtain ⟨-, rfl⟩ := marshal?_eq_some_iff.mp marshalled
    exact .natural free present
  cases type with
  | date =>
    obtain ⟨instant, found, made⟩ := bind_eq_ok_iff.mp coerced
    cases made
    exact .date found
  | boolean =>
    cases coerced
    exact .boolean present
  | binary =>
    obtain ⟨bytes, found, made⟩ := bind_eq_ok_iff.mp coerced
    cases made
    exact .binary found
  | stringSet =>
    obtain ⟨texts, found, made⟩ := bind_eq_ok_iff.mp coerced
    obtain ⟨full, rfl⟩ := nonEmpty_eq_some_iff.mp (Except.ok.inj made)
    exact .stringSet found full
  | numberSet =>
    obtain ⟨texts, found, made⟩ := bind_eq_ok_iff.mp coerced
    obtain ⟨full, rfl⟩ := nonEmpty_eq_some_iff.mp (Except.ok.inj made)
    exact .numberSet found full
  | binarySet =>
    obtain ⟨blobs, found, made⟩ := bind_eq_ok_iff.mp coerced
    obtain ⟨full, rfl⟩ := nonEmpty_eq_some_iff.mp (Except.ok.inj made)
    exact .binarySet found full
  | string => exact natural (Except.ok.inj coerced) .string
  | number => exact natural (Except.ok.inj coerced) .number
  | list => exact natural (Except.ok.inj coerced) .list
  | encrypted keyId => exact absurd rfl (plain keyId)

/-- A value gives something on the wire in one of these ways only. -/
theorem isWrittenLeaf_of_writeAttribute {gateway : Gateway} {type : Option WireType} {path : String}
    {value : Value} {wire : WireValue} (written : writeAttribute gateway type path value = .ok (some wire)) :
    IsWrittenLeaf gateway path value type wire := by
  unfold writeAttribute at written
  split at written
  next => cases written
  next notNull =>
    have present : value ≠ .null := by
      rintro rfl
      exact notNull rfl
    split at written
    next =>
      obtain ⟨-, rfl⟩ := marshal?_eq_some_iff.mp (Except.ok.inj written)
      exact .natural .undeclared present
    next keyId =>
      -- Under a key only a text is written, and it is written encrypted.
      split at written
      next text =>
        obtain ⟨hidden, encrypted, made⟩ := map_eq_ok_iff.mp written
        cases made
        exact .encrypted rfl encrypted
      next => cases written
    next type plain =>
      have coerced := mapError_eq_ok_iff.mp written
      apply isWrittenLeaf_of_coerce _ present coerced
      rintro keyId rfl
      exact plain keyId rfl

/-! ### Fields -/

/-- The value of a field that is no map is written by the type of the field. -/
theorem writeField_of_flat {gateway : Gateway} {types : DatatypeMap} {name : String}
    {value : Value} (flat : value.map? = none) (nulls : Bool) (path : String) :
    writeField gateway nulls types name path value =
      writeAttribute gateway (types.wireType? name) path value := by
  cases value with
  | map fields => exact absurd flat (Option.some_ne_none _)
  | _ => rfl

theorem IsWrittenLeaf.map?_eq_none {gateway : Gateway} {type : Option WireType} {path : String}
    {value : Value} {wire : WireValue} (leaf : IsWrittenLeaf gateway path value type wire)
    (flat : value.map? = none) : wire.map? = none := by
  cases leaf with
  | natural =>
    cases value with
    | map fields => cases flat
    | _ => rfl
  | _ => rfl

/-- A value that is no map is written as no map, so it does not matter what is done to maps afterwards. -/
theorem writeAttribute_map_of_flat {gateway : Gateway} {type : Option WireType} {value : Value}
    (flat : value.map? = none) (path : String) {f : WireValue → WireValue}
    (kept : ∀ wire, wire.map? = none → f wire = wire) :
    (writeAttribute gateway type path value).map (Option.map f) = writeAttribute gateway type path value := by
  cases written : writeAttribute gateway type path value with
  | error fault => rfl
  | ok result =>
    cases result with
    | none => rfl
    | some wire =>
      have wire_flat := (isWrittenLeaf_of_writeAttribute written).map?_eq_none flat
      rw [Except.map, Option.map_some, kept wire wire_flat]

/-- What a field gives on the wire is a map, or what its value is written as by its type. -/
theorem writeField_cases {gateway : Gateway} {nulls : Bool} {types : DatatypeMap} {name path : String}
    {value : Value} {wire : WireValue} (written : writeField gateway nulls types name path value = .ok (some wire)) :
    (∃ fields inner, value = .map fields ∧ wire = .map inner) ∨
      value.map? = none ∧ IsWrittenLeaf gateway path value (types.wireType? name) wire := by
  cases value with
  | map fields =>
    obtain ⟨inner, -, made⟩ := writeField_map_eq_ok_iff.mp written
    exact .inl ⟨fields, inner, rfl, Option.some.inj made⟩
  | _ => exact .inr ⟨rfl, isWrittenLeaf_of_writeAttribute written⟩

/-! ### Sets -/

/-- A set has the forms of the elements of its value. -/
theorem mem_toSet_iff {α : Type} [BEq α] [LawfulBEq α] {element : Value → Except WriteFault α} {value : Value}
    {found : List α} (made : toSet element value = .ok found) {form : α} :
    form ∈ found ↔ ∃ item ∈ elements value, element item = .ok form := by
  obtain ⟨forms, mapped, kept⟩ := bind_eq_ok_iff.mp made
  cases kept
  rw [List.mem_eraseDups, mem_of_mapM_iff mapped]

/-- A written set is never empty. -/
theorem IsWrittenLeaf.setSize?_ne_zero {gateway : Gateway} {type : Option WireType} {path : String}
    {value : Value} {wire : WireValue} (leaf : IsWrittenLeaf gateway path value type wire) :
    wire.setSize? ≠ some 0 := by
  cases leaf with
  | stringSet _ full | numberSet _ full | binarySet _ full => simpa [WireValue.setSize?] using full
  | natural =>
    -- Lists stay lists without a declared set type.
    cases value <;> exact nofun
  | _ => exact nofun

end ItemMapper.Codec
