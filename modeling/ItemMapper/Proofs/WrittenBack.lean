import ItemMapper.Proofs.RoundTrip
import ItemMapper.Proofs.WrittenLeaf

/-!
# Writing back what was read

The wire items that stay the same when they are read and written again, with nulls kept. Reading turns sets
into lists, dates into instants and encrypted texts into plain ones, so what a field may hold depends on its
declared type, which alone brings these forms back: a conforming value is one that the declared type writes
(`IsConformingLeaf`), at every field of the item and of the maps in it (`IsConforming`).

Main result: a conforming item is read, and written back as it was (`conforming_written_back`).
-/

namespace ItemMapper

/-- The text of an integer that is a number. -/
def IsIntegerText (text : String) : Prop :=
  ∃ n, Number.IsWord n ∧ integerText n = text

mutual

/-- A wire value as it may stand in a list: no set, no null but `true`, and no number but an integer. -/
def WireValue.IsPlain : WireValue → Prop
  | .string _ | .binary _ | .bool _ => True
  | .number text => IsIntegerText text
  | .null flag => flag = true
  | .stringSet _ | .numberSet _ | .binarySet _ => False
  | .list items => WireValue.ArePlain items
  | .map fields => WireValue.HavePlain fields

def WireValue.ArePlain : List WireValue → Prop
  | [] => True
  | item :: rest => item.IsPlain ∧ WireValue.ArePlain rest

def WireValue.HavePlain : List (String × WireValue) → Prop
  | [] => True
  | (_, wire) :: rest => wire.IsPlain ∧ WireValue.HavePlain rest

end

/-- A gateway hides again what it shows of a hidden text: it has no cipher, or one that does so. -/
def Gateway.Reproduces (gateway : Gateway) (keyId hidden : String) : Prop :=
  ∀ cipher, gateway.cipher = some cipher → keyId ≠ "" ∧ hidden ≠ "" ∧
    ∃ text, cipher.decrypt keyId hidden = .ok text ∧ text ≠ "" ∧ cipher.encrypt keyId text = .ok hidden

namespace Codec

variable {gateway : Gateway}

/-- What may stand at a field of a declared type, or of none, besides nulls and maps. -/
inductive IsConformingLeaf (gateway : Gateway) : Option WireType → WireValue → Prop
  | date {instant : Instant} : instant.nanos < 2 * Instant.secondNanos →
      0 ≤ instant.date.year ∧ instant.date.year ≤ 9999 →
      IsConformingLeaf gateway (some .date) (.string instant.text)
  | boolean (b : Bool) : IsConformingLeaf gateway (some .boolean) (.bool b)
  | binary (bytes : Bytes) : IsConformingLeaf gateway (some .binary) (.binary bytes)
  | stringSet {texts : List String} : texts ≠ [] → texts.Nodup →
      IsConformingLeaf gateway (some .stringSet) (.stringSet texts)
  | numberSet {texts : List String} : texts ≠ [] → texts.Nodup → (∀ text ∈ texts, IsIntegerText text) →
      IsConformingLeaf gateway (some .numberSet) (.numberSet texts)
  | binarySet {blobs : List Bytes} : blobs ≠ [] → blobs.Nodup →
      IsConformingLeaf gateway (some .binarySet) (.binarySet blobs)
  | encrypted {keyId hidden : String} : gateway.Reproduces keyId hidden →
      IsConformingLeaf gateway (some (.encrypted keyId)) (.string hidden)
  | natural {type : Option WireType} {wire : WireValue} : WireType.IsNatural type → wire.IsPlain →
      IsConformingLeaf gateway type wire

mutual

/-- What may stand at the field of a name: an explicit null, a map that conforms below it, or a leaf. -/
def IsConformingField (gateway : Gateway) (types : DatatypeMap) (name : String) : WireValue → Prop
  | .null flag => flag = true
  | .map fields => IsConforming gateway (types.below name) fields
  | wire => IsConformingLeaf gateway (types.wireType? name) wire

/-- At every field of an item stands what may stand there. -/
def IsConforming (gateway : Gateway) (types : DatatypeMap) : List (String × WireValue) → Prop
  | [] => True
  | (name, wire) :: rest =>
    IsConformingField gateway types name wire ∧ IsConforming gateway types rest

end

/-! ### Natural forms -/

mutual

/-- Every plain wire value is the natural form of a plain value. -/
theorem exists_natural : (wire : WireValue) → wire.IsPlain →
    ∃ value : Value, value.IsPlain ∧ value.natural = wire
  | .string text, _ => ⟨.string text, trivial, rfl⟩
  | .binary bytes, _ => ⟨.binary bytes, trivial, rfl⟩
  | .bool b, _ => ⟨.bool b, trivial, rfl⟩
  | .null flag, plain => ⟨.null, trivial, congrArg WireValue.null (Eq.symm plain)⟩
  | .number text, plain => by
    obtain ⟨n, word, rfl⟩ := plain
    exact ⟨.number (.integer n), word, rfl⟩
  | .stringSet _, plain | .numberSet _, plain | .binarySet _, plain => absurd plain id
  | .list items, plain => by
    obtain ⟨values, all_plain, same⟩ := exists_naturalItems items plain
    exact ⟨.list values, all_plain, congrArg WireValue.list same⟩
  | .map fields, plain => by
    obtain ⟨values, all_plain, same⟩ := exists_naturalFields fields plain
    exact ⟨.map values, all_plain, congrArg WireValue.map same⟩

theorem exists_naturalItems : (items : List WireValue) → WireValue.ArePlain items →
    ∃ values, Value.ArePlain values ∧ Value.naturalItems values = items
  | [], _ => ⟨[], trivial, rfl⟩
  | item :: rest, plain => by
    obtain ⟨value, value_plain, rfl⟩ := exists_natural item plain.1
    obtain ⟨values, all_plain, rfl⟩ := exists_naturalItems rest plain.2
    exact ⟨value :: values, ⟨value_plain, all_plain⟩, rfl⟩

theorem exists_naturalFields : (fields : List (String × WireValue)) → WireValue.HavePlain fields →
    ∃ values, Value.HavePlain values ∧ Value.naturalFields values = fields
  | [], _ => ⟨[], trivial, rfl⟩
  | (name, wire) :: rest, plain => by
    obtain ⟨value, value_plain, rfl⟩ := exists_natural wire plain.1
    obtain ⟨values, all_plain, rfl⟩ := exists_naturalFields rest plain.2
    exact ⟨(name, value) :: values, ⟨value_plain, all_plain⟩, rfl⟩

end

/-! ### Leaves -/

theorem exists_integers {texts : List String} (each : ∀ text ∈ texts, IsIntegerText text) :
    ∃ ns : List Int, (∀ n ∈ ns, Number.IsWord n) ∧ ns.map integerText = texts := by
  induction texts with
  | nil => exact ⟨[], nofun, rfl⟩
  | cons text rest ih =>
    obtain ⟨n, word, rfl⟩ := each text List.mem_cons_self
    obtain ⟨ns, words, rfl⟩ := ih fun other member => each other (List.mem_cons_of_mem _ member)
    exact ⟨n :: ns, List.forall_mem_cons.mpr ⟨word, words⟩, rfl⟩

theorem decrypt_encrypt {keyId hidden : String} (reproduces : gateway.Reproduces keyId hidden)
    (path : String) :
    ∃ text, gateway.decrypt path keyId hidden = .ok text ∧
      gateway.encrypt path keyId text = .ok hidden := by
  obtain ⟨configured⟩ := gateway
  cases configured with
  | none => exact ⟨hidden, rfl, rfl⟩
  | some cipher =>
    obtain ⟨named, full, text, decrypted, present, encrypted⟩ := reproduces cipher rfl
    exact ⟨text, Gateway.run_eq_ok_iff.mpr ⟨named, full, decrypted, present⟩,
      Gateway.run_eq_ok_iff.mpr ⟨named, present, encrypted, full⟩⟩

/-- A canonical leaf is what its written form is read as. -/
theorem readValue_of_canonical {type : Option WireType} {value : Value} {wire : WireValue} {path : String}
    (canonical : IsCanonicalLeaf gateway type value) (flat : value.map? = none)
    (written : writeAttribute gateway type path value = .ok (some wire)) (below : DatatypeMap) :
    readValue gateway true type below path wire = .ok value := by
  obtain ⟨other, other_written, read⟩ := leaf_roundTrip canonical flat below path
  rw [written] at other_written
  obtain rfl := Option.some.inj (Except.ok.inj other_written)
  exact read

theorem leaf_written_back {type : Option WireType} {wire : WireValue}
    (conforming : IsConformingLeaf gateway type wire) (flat : wire.map? = none)
    (present : ∀ flag, wire ≠ .null flag) (below : DatatypeMap) (path : String) :
    ∃ value, value.map? = none ∧ readValue gateway true type below path wire = .ok value ∧
      writeAttribute gateway type path value = .ok (some wire) := by
  -- Up to encrypted texts, which may be empty without a cipher, a conforming leaf is written from a
  -- canonical one.
  suffices written : (∃ value, IsCanonicalLeaf gateway type value ∧ value.map? = none ∧
      writeAttribute gateway type path value = .ok (some wire)) ∨
      ∃ keyId hidden, type = some (.encrypted keyId) ∧ wire = .string hidden ∧
        gateway.Reproduces keyId hidden by
    rcases written with ⟨value, canonical, value_flat, written⟩ | ⟨keyId, hidden, rfl, rfl, reproduces⟩
    · exact ⟨value, value_flat, readValue_of_canonical canonical value_flat written below, written⟩
    · obtain ⟨text, decrypted, encrypted⟩ := decrypt_encrypt reproduces path
      refine ⟨.string text, rfl, ?_, ?_⟩
      · simp [readValue, readTextAs, decrypted, Except.map]
      · simp [writeAttribute, Value.isNull, encrypted, Except.map]
  cases conforming with
  | @date instant short fourDigits =>
    left
    refine ⟨.date instant.carried.truncated, .date (Instant.isStorable_shown short fourDigits), rfl, ?_⟩
    rw [← Instant.text_shown short]
    rfl
  | boolean b => exact .inl ⟨.bool b, .boolean b, rfl, rfl⟩
  | binary bytes => exact .inl ⟨.binary bytes, .binary bytes, rfl, rfl⟩
  | stringSet full distinct =>
    exact .inl ⟨_, .stringSet full distinct, rfl, writeAttribute_stringSet full distinct gateway path⟩
  | numberSet full distinct integers =>
    obtain ⟨ns, words, rfl⟩ := exists_integers integers
    have some_number : ns ≠ [] := by simpa using full
    have different := List.Nodup.of_map integerText distinct
    exact .inl ⟨_, .numberSet some_number different words, rfl,
      writeAttribute_numberSet some_number different gateway path⟩
  | binarySet full distinct =>
    exact .inl ⟨_, .binarySet full distinct, rfl, writeAttribute_binarySet full distinct gateway path⟩
  | @encrypted keyId hidden reproduces => exact .inr ⟨keyId, hidden, rfl, rfl, reproduces⟩
  | natural free plain =>
    obtain ⟨value, value_plain, rfl⟩ := exists_natural wire plain
    left
    have notNull : value ≠ .null := by
      rintro rfl
      exact present true rfl
    have value_flat : value.map? = none := by
      cases value with
      | map fields => exact absurd flat (Option.some_ne_none _)
      | _ => rfl
    exact ⟨value, .natural free notNull value_plain, value_flat,
      writeAttribute_of_isNatural free notNull gateway path⟩

/-! ### Items -/

mutual

/-- A conforming field is read, and what is written of it, or the null in its place, is what it was. -/
theorem field_written_back {types : DatatypeMap} {name : String} (path : String) :
    (wire : WireValue) → IsConformingField gateway types name wire →
      ∃ value written,
        readValue gateway true (types.wireType? name) (types.below name) path wire = .ok value ∧
        writeField gateway true types name path value = .ok written ∧ written.getD (.null true) = wire
  | .null flag, conforming => by
    obtain rfl : flag = true := conforming
    exact ⟨.null, none, rfl, rfl, rfl⟩
  | .map fields, conforming => by
    obtain ⟨values, read, written⟩ := fields_written_back path fields conforming
    refine ⟨.map values, some (.map fields), ?_, ?_, rfl⟩
    · rw [readValue, read]
      rfl
    · rw [writeField, written]
      rfl
  | .string _, conforming | .number _, conforming | .binary _, conforming | .bool _, conforming
  | .stringSet _, conforming | .numberSet _, conforming | .binarySet _, conforming
  | .list _, conforming => by
    obtain ⟨value, flat, read, written⟩ :=
      leaf_written_back conforming rfl nofun (types.below name) path
    exact ⟨value, some _, read, (writeField_of_flat flat true path).trans written, rfl⟩

theorem fields_written_back {types : DatatypeMap} (parent : String) :
    (wire : List (String × WireValue)) → IsConforming gateway types wire →
      ∃ fields, readFields gateway true types parent wire = .ok fields ∧
        writeFields gateway true types parent fields = .ok wire
  | [], _ => ⟨[], rfl, rfl⟩
  | (name, wire) :: rest, conforming => by
    obtain ⟨value, result, read, written, same⟩ :=
      field_written_back (joinPath parent name) wire conforming.1
    obtain ⟨values, rest_read, rest_written⟩ := fields_written_back parent rest conforming.2
    refine ⟨(name, value) :: values, ?_, ?_⟩
    · rw [readFields, read, rest_read]
      rfl
    · -- With nulls kept, a field that gives nothing stands in its place as a null.
      have kept : keepField true name result = [(name, wire)] := by
        subst same
        cases result <;> rfl
      rw [writeFields, written, rest_written]
      exact congrArg (fun first => Except.ok (first ++ rest)) kept

end

/-- A conforming wire item is read, and written back as it was. -/
theorem conforming_written_back {types : DatatypeMap} {wire : WireItem}
    (conforming : IsConforming gateway types wire) :
    ∃ item, readItem? gateway types true (some wire) = .ok (some item) ∧
      writeItem gateway types true item = .ok wire := by
  obtain ⟨item, read, written⟩ := fields_written_back "" wire conforming
  refine ⟨item, ?_, written⟩
  rw [readItem?, readItem, read]
  rfl

/-- A date, a null and an encrypted text below a map, a list with a null and a map, and a set. -/
theorem conforming_written_back_person :
    let gateway : Gateway := ⟨some (KeyService.cipher ⟨["pii"]⟩)⟩
    let types : DatatypeMap := [("born", .leaf .date), ("home", .nested [("ssn", .leaf (.encrypted "pii"))]),
      ("luck", .leaf .numberSet)]
    let wire : WireItem := [("born", .string (Instant.text ⟨-14182981, 999999999⟩)),
      ("home", .map [("floors", .list [.number "-1", .null true, .map [("attic", .bool true)]]),
        ("owner", .null true), ("ssn", .string "kms:pii:54-321")]),
      ("luck", .numberSet ["7", "18446744073709551615"])]
    IsConforming gateway types wire ∧
      ∃ item, readItem? gateway types true (some wire) = .ok (some item) ∧
        writeItem gateway types true item = .ok wire := by
  intro gateway types wire
  have floors : WireValue.IsPlain (.list [.number "-1", .null true, .map [("attic", .bool true)]]) :=
    ⟨⟨-1, by decide, rfl⟩, rfl, ⟨trivial, trivial⟩, trivial⟩
  have hidden : gateway.Reproduces "pii" "kms:pii:54-321" := by
    rintro cipher configured
    obtain rfl := Option.some.inj configured
    exact ⟨by decide, by decide, "123-45", rfl, by decide, rfl⟩
  have luck : ∀ text ∈ ["7", "18446744073709551615"], IsIntegerText text :=
    List.forall_mem_cons.mpr ⟨⟨7, by decide, rfl⟩,
      List.forall_mem_cons.mpr ⟨⟨18446744073709551615, by decide, rfl⟩, nofun⟩⟩
  have conforming : IsConforming gateway types wire :=
    ⟨.date (by decide) (by decide), ⟨.natural .undeclared floors, rfl, .encrypted hidden, trivial⟩,
      .numberSet (by decide) (by decide) luck, trivial⟩
  exact ⟨conforming, conforming_written_back conforming⟩

end Codec

end ItemMapper
