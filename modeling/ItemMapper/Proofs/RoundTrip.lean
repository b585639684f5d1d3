import ItemMapper.Proofs.CanonicalItem
import ItemMapper.Proofs.DistinctElements
import ItemMapper.Proofs.Results

/-!
# Reading what was written

Writing a canonical item succeeds, and reading the result gives the item back
(`canonical_roundTrip`). Both directions walk through maps in the same way, so the argument goes by
the item: a leaf is settled by its declared type, and everything below a list by the natural forms.
-/

namespace ItemMapper

namespace Codec

/-! ### Sets -/

/-- A list of different elements, each brought to its form, gives a set of these forms. -/
theorem toSet_list {α β : Type} [BEq β] [LawfulBEq β] {element : Value → Except WriteFault β}
    {form : α → Value} {g : α → β} {xs : List α} (each : ∀ x ∈ xs, element (form x) = .ok (g x))
    (distinct : (xs.map g).Nodup) : toSet element (.list (xs.map form)) = .ok (xs.map g) := by
  have forms : (xs.map form).mapM element = .ok (xs.map g) := by
    rw [List.mapM_map]
    exact mapM_eq_ok each
  simp only [toSet, elements]
  rw [forms]
  exact congrArg Except.ok (eraseDups_eq_self distinct)

/-- A list under a set type is written as the set of its elements' forms. -/
theorem writeAttribute_set {type : WireType} (isSet : type.isSet) {items : List Value} {α : Type}
    {wrap : List α → WireValue} {found : List α} (full : found ≠ [])
    (coerced : coerce type (.list items) = .ok (nonEmpty wrap found)) (gateway : Gateway)
    (path : String) : writeAttribute gateway (some type) path (.list items) = .ok (some (wrap found)) := by
  have kept : nonEmpty wrap found = some (wrap found) := by simp [nonEmpty, full]
  rw [kept] at coerced
  cases type with
  | encrypted keyId => exact absurd isSet Bool.false_ne_true
  | _ => simp [writeAttribute, Value.isNull, coerced, Except.mapError]

theorem writeAttribute_stringSet {texts : List String} (full : texts ≠ []) (distinct : texts.Nodup)
    (gateway : Gateway) (path : String) :
    writeAttribute gateway (some .stringSet) path (.list (texts.map .string)) =
      .ok (some (.stringSet texts)) := by
  have written : toSet toSetText (.list (texts.map .string)) = .ok (texts.map id) :=
    toSet_list (fun _ _ => rfl) (by simpa using distinct)
  rw [List.map_id] at written
  apply writeAttribute_set rfl full
  rw [coerce, written]
  rfl

theorem writeAttribute_numberSet {ns : List Int} (full : ns ≠ []) (distinct : ns.Nodup)
    (gateway : Gateway) (path : String) :
    writeAttribute gateway (some .numberSet) path (.list (ns.map fun n => .number (.integer n))) =
      .ok (some (.numberSet (ns.map integerText))) := by
  -- Different numbers have different texts, so no element is dropped.
  have written : toSet toSetNumber (.list (ns.map fun n => .number (.integer n))) =
      .ok (ns.map integerText) :=
    toSet_list (fun _ _ => rfl) (List.Nodup.map integerText_injective distinct)
  apply writeAttribute_set rfl (by simpa using full)
  rw [coerce, written]
  rfl

theorem writeAttribute_binarySet {blobs : List Bytes} (full : blobs ≠ []) (distinct : blobs.Nodup)
    (gateway : Gateway) (path : String) :
    writeAttribute gateway (some .binarySet) path (.list (blobs.map .binary)) =
      .ok (some (.binarySet blobs)) := by
  have written : toSet (toBytes .binarySet) (.list (blobs.map .binary)) = .ok (blobs.map id) :=
    toSet_list (fun _ _ => rfl) (by simpa using distinct)
  rw [List.map_id] at written
  apply writeAttribute_set rfl full
  rw [coerce, written]
  rfl

/-! ### Natural forms -/

mutual

/-- A plain value is read back from its natural form where nothing is declared. -/
theorem readValue_natural (gateway : Gateway) (decrypting : Bool) (path : String) :
    (value : Value) → value.IsPlain → readValue gateway decrypting none [] path value.natural = .ok value
  | .null, _ | .bool _, _ | .string _, _ | .binary _, _ => rfl
  | .number (.integer n), plain => by
    have read := readNumber_integerText plain path
    rw [Value.natural, Number.text, readValue, readNumberAs, read]
    rfl
  | .number (.float _), plain | .date _, plain => absurd plain id
  | .list items, plain => by
    rw [Value.natural, readValue, readItems_natural gateway decrypting path 0 items plain]
    rfl
  | .map fields, plain => by
    rw [Value.natural, readValue, readFields_natural gateway decrypting path fields plain]
    rfl

/-- Plain items are read back from their natural forms. -/
theorem readItems_natural (gateway : Gateway) (decrypting : Bool) (path : String) (index : Nat) :
    (items : List Value) → Value.ArePlain items →
      readItems gateway decrypting path index (Value.naturalItems items) = .ok items
  | [], _ => rfl
  | item :: rest, plain => by
    have first := readValue_natural gateway decrypting (itemPath path index) item plain.1
    have others := readItems_natural gateway decrypting path (index + 1) rest plain.2
    rw [Value.naturalItems, readItems, first, others]
    rfl

/-- Fields with plain values are read back from their natural forms. -/
theorem readFields_natural (gateway : Gateway) (decrypting : Bool) (parent : String) :
    (fields : List (String × Value)) → Value.HavePlain fields →
      readFields gateway decrypting [] parent (Value.naturalFields fields) = .ok fields
  | [], _ => rfl
  | (name, value) :: rest, plain => by
    have first := readValue_natural gateway decrypting (joinPath parent name) value plain.1
    have others := readFields_natural gateway decrypting parent rest plain.2
    have untyped : DatatypeMap.wireType? [] name = none := rfl
    have unnested : DatatypeMap.below [] name = [] := rfl
    rw [Value.naturalFields, readFields, untyped, unnested, first, others]
    rfl

end

/-- A declaration that leaves values in their natural form reads them as no declaration does. -/
theorem readValue_of_isNatural {type : Option WireType} (free : WireType.IsNatural type)
    {wire : WireValue} (flat : wire.map? = none) (gateway : Gateway) (decrypting : Bool)
    (below : DatatypeMap) (path : String) :
    readValue gateway decrypting type below path wire = readValue gateway decrypting none [] path wire := by
  cases wire with
  | map fields => exact absurd flat (Option.some_ne_none _)
  | number text =>
    rw [readValue, readValue]
    cases free <;> rfl
  | string text =>
    rw [readValue, readValue]
    cases free <;> rfl
  | _ => rw [readValue, readValue]

/-- A declaration that leaves values in their natural form writes that form. -/
theorem writeAttribute_of_isNatural {type : Option WireType} (free : WireType.IsNatural type)
    {value : Value} (notNull : value ≠ .null) (gateway : Gateway) (path : String) :
    writeAttribute gateway type path value = .ok (some value.natural) := by
  have present : value.isNull = false := by
    cases value with
    | null => exact absurd rfl notNull
    | _ => rfl
  have marshalled : value.marshal? = some value.natural := by simp [Value.marshal?, present]
  -- None of the four declarations looks at the value.
  cases free <;> simp [writeAttribute, coerce, present, marshalled, Except.mapError]

/-! ### Encrypted texts -/

theorem encrypt_decrypt {gateway : Gateway} {keyId text : String} (present : text ≠ "")
    (restores : gateway.Restores keyId text) (path : String) :
    ∃ hidden, gateway.encrypt path keyId text = .ok hidden ∧
      gateway.decrypt path keyId hidden = .ok text := by
  obtain ⟨configured⟩ := gateway
  cases configured with
  -- Without a cipher both directions give the text back.
  | none => exact ⟨text, rfl, rfl⟩
  | some cipher =>
    obtain ⟨named, hidden, encrypted, full, decrypted⟩ := restores cipher rfl
    exact ⟨hidden, Gateway.run_eq_ok_iff.mpr ⟨named, present, encrypted, full⟩,
      Gateway.run_eq_ok_iff.mpr ⟨named, full, decrypted, present⟩⟩

/-- A key service gives back every text under a key that it knows. -/
theorem restores_cipher {service : KeyService} {keyId : String} (known : keyId ∈ service.keyIds)
    (named : keyId ≠ "") (text : String) : Gateway.Restores ⟨some service.cipher⟩ keyId text := by
  rintro cipher configured
  obtain rfl := Option.some.inj configured
  let hidden := KeyService.mark keyId ++ KeyService.reversed text.toList
  have body : WireType.dropMark? (KeyService.mark keyId).toList hidden.toList =
      some text.toList.reverse := by
    rw [WireType.dropMark?_eq_some_iff]
    simp [hidden, KeyService.reversed]
  refine ⟨named, hidden, ?_, ?_, ?_⟩
  · simp [KeyService.cipher, KeyService.encrypt, KeyService.checkKey, known, hidden, bind, Except.bind,
      pure, Except.pure]
  · simp [hidden, KeyService.mark]
  · simp [KeyService.cipher, KeyService.decrypt, KeyService.checkKey, known, body, bind, Except.bind,
      pure, Except.pure, KeyService.reversed]

/-! ### Leaves -/

theorem leaf_roundTrip {gateway : Gateway} {type : Option WireType} {value : Value}
    (canonical : IsCanonicalLeaf gateway type value) (flat : value.map? = none) (below : DatatypeMap)
    (path : String) :
    ∃ wire, writeAttribute gateway type path value = .ok (some wire) ∧
      readValue gateway true type below path wire = .ok value := by
  cases canonical with
  | @date instant storable =>
    refine ⟨.string instant.text, rfl, ?_⟩
    rw [readValue, readTextAs, Instant.ofText?_text storable]
  | boolean b => exact ⟨.bool b, rfl, rfl⟩
  | binary bytes => exact ⟨.binary bytes, rfl, rfl⟩
  | @stringSet texts full distinct =>
    exact ⟨.stringSet texts, writeAttribute_stringSet full distinct gateway path, rfl⟩
  | @numberSet ns full distinct words =>
    have read : (ns.map integerText).mapM (readNumber path) = .ok (ns.map .integer) := by
      rw [List.mapM_map]
      exact mapM_eq_ok fun n member => readNumber_integerText (words n member) path
    refine ⟨.numberSet (ns.map integerText), writeAttribute_numberSet full distinct gateway path, ?_⟩
    rw [readValue, read]
    simp [bind, Except.bind, pure, Except.pure, Function.comp_def]
  | @binarySet blobs full distinct =>
    exact ⟨.binarySet blobs, writeAttribute_binarySet full distinct gateway path, rfl⟩
  | @encrypted keyId text present restores =>
    obtain ⟨hidden, encrypted, decrypted⟩ := encrypt_decrypt present restores path
    refine ⟨.string hidden, ?_, ?_⟩
    · simp [writeAttribute, Value.isNull, encrypted, Except.map]
    · simp [readValue, readTextAs, decrypted, Except.map]
  | natural free notNull plain =>
    -- A value that is no map has no map as its natural form, so the declarations below play no part.
    have natural_flat : value.natural.map? = none := by
      cases value with
      | map fields => exact absurd flat (Option.some_ne_none _)
      | _ => rfl
    refine ⟨value.natural, writeAttribute_of_isNatural free notNull gateway path, ?_⟩
    rw [readValue_of_isNatural free natural_flat, readValue_natural gateway true path value plain]

/-! ### Items -/

mutual

theorem field_roundTrip {gateway : Gateway} {types : DatatypeMap} {name : String} (path : String) :
    (value : Value) → IsCanonicalField gateway types name value →
      ∃ wire, writeField gateway false types name path value = .ok (some wire) ∧
        readValue gateway true (types.wireType? name) (types.below name) path wire = .ok value
  | .map fields, canonical => by
    obtain ⟨wire, written, read⟩ := fields_roundTrip path fields canonical
    refine ⟨.map wire, ?_, ?_⟩
    · rw [writeField, written]
      rfl
    · rw [readValue, read]
      rfl
  | .null, canonical | .bool _, canonical | .number _, canonical | .string _, canonical
  | .binary _, canonical | .date _, canonical | .list _, canonical =>
    leaf_roundTrip canonical rfl (types.below name) path

theorem fields_roundTrip {gateway : Gateway} {types : DatatypeMap} (parent : String) :
    (fields : List (String × Value)) → IsCanonical gateway types fields →
      ∃ wire, writeFields gateway false types parent fields = .ok wire ∧
        readFields gateway true types parent wire = .ok fields
  | [], _ => ⟨[], rfl, rfl⟩
  | (name, value) :: rest, canonical => by
    obtain ⟨first, written, read⟩ := field_roundTrip (joinPath parent name) value canonical.1
    obtain ⟨others, others_written, others_read⟩ := fields_roundTrip parent rest canonical.2
    refine ⟨(name, first) :: others, ?_, ?_⟩
    · rw [writeFields, written, others_written]
      rfl
    · rw [readFields, read, others_read]
      rfl

end

/--
A canonical item is written, and read back from what was written. Texts that a key service encrypts under
a key it knows may stand in such an item.
-/
theorem canonical_roundTrip {gateway : Gateway} {types : DatatypeMap} {item : Item}
    (canonical : IsCanonical gateway types item) :
    (∃ wire, writeItem gateway types false item = .ok wire ∧
      readItem? gateway types true (some wire) = .ok (some item)) ∧
    ∀ (service : KeyService) (keyId text : String), keyId ∈ service.keyIds → keyId ≠ "" →
      Gateway.Restores ⟨some service.cipher⟩ keyId text := by
  obtain ⟨wire, written, read⟩ := fields_roundTrip "" item canonical
  refine ⟨⟨wire, written, ?_⟩, fun service keyId text known named => restores_cipher known named text⟩
  rw [readItem?, readItem, read]
  rfl

/-- A person with a birthday, an encrypted text below a map, and a set of numbers. -/
theorem canonical_roundTrip_person :
    let gateway : Gateway := ⟨some (KeyService.cipher ⟨["pii"]⟩)⟩
    let types : DatatypeMap := [("born", .leaf .date), ("home", .nested [("ssn", .leaf (.encrypted "pii"))]),
      ("luck", .leaf .numberSet)]
    let item : Item := [("born", .date ⟨-14182981, 999000000⟩),
      ("home", .map [("floors", .list [.number (.integer (-1)), .null, .map [("attic", .bool true)]]),
        ("ssn", .string "123-45")]),
      ("luck", .list [.number (.integer 7), .number (.integer 18446744073709551615)])]
    IsCanonical gateway types item ∧ ∃ wire, writeItem gateway types false item = .ok wire ∧
      readItem? gateway types true (some wire) = .ok (some item) := by
  intro gateway types item
  have born : Instant.IsStorable ⟨-14182981, 999000000⟩ := ⟨by decide, by decide, by decide⟩
  have floors : Value.IsPlain
      (.list [.number (.integer (-1)), .null, .map [("attic", .bool true)]]) :=
    ⟨(by decide : Number.IsWord (-1)), trivial, ⟨trivial, trivial⟩, trivial⟩
  have restored : gateway.Restores "pii" "123-45" := restores_cipher (by decide) (by decide) _
  have luck : IsCanonicalLeaf gateway (some .numberSet)
      (.list [.number (.integer 7), .number (.integer 18446744073709551615)]) :=
    @IsCanonicalLeaf.numberSet gateway [7, 18446744073709551615] (by decide) (by decide) (by decide)
  have canonical : IsCanonical gateway types item :=
    ⟨.date born, ⟨.natural .undeclared (by decide) floors, .encrypted (by decide) restored, trivial⟩,
      luck, trivial⟩
  exact ⟨canonical, (canonical_roundTrip canonical).1⟩

/--
Whole milliseconds do not make a date canonical: half a second more than a second that does not end its minute
comes back as a part of the next one. Nor may a date stand in a map in a list, where it comes back as its text.
-/
theorem roundTrip_changes_dates :
    let types : DatatypeMap := [("at", .leaf .date)]
    let given : Instant := ⟨0, 1500000000⟩
    let taken : Instant := ⟨1, 500000000⟩
    (given.nanos < 2000000000 ∧ given.nanos % 1000000 = 0 ∧ given.date.year = 1970 ∧ taken ≠ given) ∧
    (∃ wire, writeItem .identity types false [("at", .date given)] = .ok wire ∧
      readItem? .identity types true (some wire) = .ok (some [("at", .date taken)])) ∧
    ∃ wire, writeItem .identity [] false [("days", .list [.map [("at", .date ⟨0, 0⟩)]])] = .ok wire ∧
      readItem? .identity [] true (some wire) =
        .ok (some [("days", .list [.map [("at", .string "1970-01-01T00:00:00.000Z")]])]) := by
  intro types given taken
  have shape : given.nanos < 2000000000 ∧ given.nanos % 1000000 = 0 ∧ given.date.year = 1970 ∧ taken ≠ given := by
    decide
  have written : given.text = "1970-01-01T00:00:01.500Z" := by decide
  have read : Instant.ofText? "1970-01-01T00:00:01.500Z" = some taken := by decide
  have declared : types.wireType? "at" = some .date := rfl
  refine ⟨shape, ⟨[("at", .string given.text)], rfl, ?_⟩, ⟨_, rfl, rfl⟩⟩
  rw [written, readItem?, readItem, readFields, declared, readValue, readTextAs, read]
  rfl

end Codec

end ItemMapper
