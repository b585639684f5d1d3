import ItemMapper.Proofs.DistinctElements
import ItemMapper.Proofs.EncryptedFields
import ItemMapper.Proofs.WrittenLeaf

/-!
# What written fields look like

Whatever an item holds, each of its values that is written has the form that its declared type calls for, at
every depth (`HasForm`). A set has the elements of the value in the order in which they first occur, each of
them once (`IsDistinctOf`), and a set without elements is not written at all.

Main result: `written_fields_haveForm`.
-/

namespace ItemMapper

namespace Codec

/-! ### Forms -/

/-- A set that a value is written as: its elements, each brought to a form, and each form once. -/
def IsSetFor {α : Type} [BEq α] (element : Value → Except WriteFault α) (value : Value) (found : List α) : Prop :=
  found ≠ [] ∧ ∃ forms, List.Forall₂ (fun item form => element item = .ok form) (elements value) forms ∧
    IsDistinctOf found forms

/--
What stands on the wire for a value, by its declared type. Only a set without elements has no entry, or an
explicit null if these are asked for.
-/
inductive HasForm (gateway : Gateway) (nulls : Bool) (value : Value) :
    Option WireType → Option WireValue → Prop
  | boolean : HasForm gateway nulls value (some .boolean) (some (.bool (truth value)))
  | binary {bytes : Bytes} : toBytes .binary value = .ok bytes →
      HasForm gateway nulls value (some .binary) (some (.binary bytes))
  | date {instant : Instant} : toInstant value = .ok instant →
      HasForm gateway nulls value (some .date) (some (.string instant.text))
  | stringSet {texts : List String} : IsSetFor toSetText value texts →
      HasForm gateway nulls value (some .stringSet) (some (.stringSet texts))
  | numberSet {texts : List String} : IsSetFor toSetNumber value texts →
      HasForm gateway nulls value (some .numberSet) (some (.numberSet texts))
  | binarySet {blobs : List Bytes} : IsSetFor (toBytes .binarySet) value blobs →
      HasForm gateway nulls value (some .binarySet) (some (.binarySet blobs))
  | emptySet {type : WireType} : type.isSet → value = .list [] →
      HasForm gateway nulls value (some type) (if nulls then some (.null true) else none)
  | encrypted {keyId text hidden : String} : value = .string text → (gateway.isConfigured → hidden ≠ "") →
      HasForm gateway nulls value (some (.encrypted keyId)) (some (.string hidden))
  | natural {type : Option WireType} {wire : WireValue} : WireType.IsNatural type →
      value.marshal? = some wire → HasForm gateway nulls value type (some wire)

variable {gateway : Gateway} {types : DatatypeMap} {nulls : Bool} {value : Value}

theorem isSetFor_of_toSet {α : Type} [BEq α] [LawfulBEq α] {element : Value → Except WriteFault α}
    {found : List α} (made : toSet element value = .ok found) (full : found ≠ []) :
    IsSetFor element value found := by
  obtain ⟨forms, mapped, kept⟩ := bind_eq_ok_iff.mp made
  obtain rfl := Except.ok.inj kept
  exact ⟨full, forms, mapM_eq_ok_iff_forall₂.mp mapped, isDistinctOf_eraseDups forms⟩

theorem nodup_of_toSet {α : Type} [BEq α] [LawfulBEq α] {element : Value → Except WriteFault α} {found : List α}
    (made : toSet element value = .ok found) : found.Nodup := by
  obtain ⟨forms, -, kept⟩ := bind_eq_ok_iff.mp made
  obtain rfl := Except.ok.inj kept
  exact (isDistinctOf_eraseDups forms).distinct

/-- Only a list without items gives a set without elements. -/
theorem eq_nil_of_toSet {α : Type} [BEq α] [LawfulBEq α] {element : Value → Except WriteFault α}
    (made : toSet element value = .ok []) : value = .list [] := by
  obtain ⟨forms, mapped, kept⟩ := bind_eq_ok_iff.mp made
  have none_made : forms = [] := by
    have same := (isDistinctOf_eraseDups forms).same
    rw [Except.ok.inj kept] at same
    exact List.eq_nil_iff_forall_not_mem.mpr fun form member => List.not_mem_nil ((same form).mpr member)
  have no_elements := length_of_mapM mapped
  rw [none_made] at no_elements
  cases value with
  | list items => exact congrArg Value.list (List.length_eq_zero_iff.mp no_elements.symm)
  | _ => cases no_elements

/-- A value that is not null gives nothing only as a list without items under a set type. -/
theorem emptySet_of_writeAttribute {type : Option WireType} {path : String} (present : value ≠ .null)
    (written : writeAttribute gateway type path value = .ok none) :
    ∃ declared, type = some declared ∧ declared.isSet ∧ value = .list [] := by
  have not_null : value.isNull = false := by
    cases value with
    | null => exact absurd rfl present
    | _ => rfl
  have marshalled : value.marshal? ≠ none := by simp [Value.marshal?, not_null]
  -- For the three sets the coercion has found no elements.
  have empty {α : Type} [BEq α] [LawfulBEq α] {element : Value → Except WriteFault α}
      {wrap : List α → WireValue}
      (coerced : (do return nonEmpty wrap (← toSet element value)) = Except.ok none) : value = .list [] := by
    obtain ⟨found, made, kept⟩ := bind_eq_ok_iff.mp coerced
    obtain rfl : found = [] := by simpa [nonEmpty] using Except.ok.inj kept
    exact eq_nil_of_toSet made
  simp only [writeAttribute, not_null, Bool.false_eq_true, if_false] at written
  split at written
  next => exact absurd (Except.ok.inj written) marshalled
  next keyId =>
    split at written
    next =>
      obtain ⟨hidden, -, made⟩ := map_eq_ok_iff.mp written
      cases made
    next => cases written
  next declared _ =>
    have coerced := mapError_eq_ok_iff.mp written
    cases declared with
    | stringSet => exact ⟨_, rfl, rfl, empty coerced⟩
    | numberSet => exact ⟨_, rfl, rfl, empty coerced⟩
    | binarySet => exact ⟨_, rfl, rfl, empty coerced⟩
    | boolean => cases coerced
    | date | binary =>
      obtain ⟨found, -, made⟩ := bind_eq_ok_iff.mp coerced
      cases made
    | string | number | list | encrypted => exact absurd (Except.ok.inj coerced) marshalled

theorem hidden_ne_empty {path keyId text hidden : String}
    (encrypted : gateway.encrypt path keyId text = .ok hidden) (configured : gateway.isConfigured) :
    hidden ≠ "" := by
  obtain ⟨cipher, found⟩ := Option.isSome_iff_exists.mp configured
  obtain rfl : gateway = ⟨some cipher⟩ := by rw [← found]
  exact (encrypt_eq_ok encrypted).2.2

theorem hasForm_of_isWrittenLeaf {type : Option WireType} {path : String} {wire : WireValue}
    (leaf : IsWrittenLeaf gateway path value type wire) (nulls : Bool) :
    HasForm gateway nulls value type (some wire) := by
  cases leaf with
  | date found => exact .date found
  | boolean => exact .boolean
  | binary found => exact .binary found
  | stringSet made full => exact .stringSet (isSetFor_of_toSet made full)
  | numberSet made full => exact .numberSet (isSetFor_of_toSet made full)
  | binarySet made full => exact .binarySet (isSetFor_of_toSet made full)
  | encrypted same hidden => exact .encrypted same (hidden_ne_empty hidden)
  | natural free present => exact .natural free (marshal?_eq_some_iff.mpr ⟨present, rfl⟩)

/--
Every value of an item that is neither null nor a map stands on the wire in the form that its declared type
calls for, at the same path, through maps.
-/
theorem written_fields_haveForm {item : Item} {wire : WireItem} (distinct : item.HasDistinctNames)
    (written : writeItem gateway types nulls item = .ok wire) :
    ∀ path type value, ReachesValue types item path type value → value ≠ .null → value.map? = none →
      HasForm gateway nulls value type (WireItem.at? wire path) := by
  intro path type value reaches present flat
  obtain ⟨around, name, place, result, rfl, value_written, stands, missing⟩ := value_written_at reaches written
  -- The value is no map, so the type of its field alone decides what it is written as.
  rw [writeField_of_flat flat] at value_written
  cases result with
  | some stored =>
    rw [stands stored rfl]
    exact hasForm_of_isWrittenLeaf (isWrittenLeaf_of_writeAttribute value_written) nulls
  | none =>
    obtain ⟨declared, found, set, rfl⟩ := emptySet_of_writeAttribute present value_written
    rw [missing rfl distinct, found]
    exact .emptySet set rfl

/-- Sets with repetitions, some of them from a number and its text, one of them at depth, and an empty one. -/
theorem written_fields_haveForm_person :
    let types : DatatypeMap := [("counts", .leaf .numberSet), ("home", .nested [("codes", .leaf .stringSet)]),
      ("none", .leaf .numberSet)]
    let counts : Value := .list [.string " 07", .number (.integer 5), .string "5 ", .string "07"]
    let codes : Value := .list [.string "5", .number (.integer 5), .string "a", .string "5"]
    let item : Item := [("counts", counts), ("home", .map [("codes", codes)]), ("none", .list [])]
    let wire : WireItem := [("counts", .numberSet ["07", "5"]),
      ("home", .map [("codes", .stringSet ["5", "a"])]), ("none", .null true)]
    Item.HasDistinctNames item ∧ writeItem ⟨none⟩ types true item = .ok wire ∧
      HasForm ⟨none⟩ true counts (some .numberSet) (WireItem.at? wire ["counts"]) ∧
      HasForm ⟨none⟩ true codes (some .stringSet) (WireItem.at? wire ["home", "codes"]) ∧
      HasForm ⟨none⟩ true (.list []) (some .numberSet) (WireItem.at? wire ["none"]) := by
  intro types counts codes item wire
  have distinct : Item.HasDistinctNames item := by
    refine ⟨by decide, fun name fields found => ?_⟩
    -- The only map stands at the second name, and it holds none.
    have second : fields = [("codes", codes)] := by
      grind [Fields.get?]
    subst second
    exact ⟨by decide, fun _ _ found => by grind [Fields.get?]⟩
  have written : writeItem ⟨none⟩ types true item = .ok wire := rfl
  have forms := written_fields_haveForm distinct written
  have present (items : List Value) : Value.list items ≠ .null := by rintro ⟨⟩
  refine ⟨distinct, written, ?_, ?_, ?_⟩
  · exact forms ["counts"] _ _ (.here rfl) (present _) rfl
  · exact forms ["home", "codes"] _ _ (.inside rfl (.here rfl)) (present _) rfl
  · exact forms ["none"] _ _ (.here rfl) (present _) rfl

end Codec

end ItemMapper
