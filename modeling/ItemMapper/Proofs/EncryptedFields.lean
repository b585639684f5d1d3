import ItemMapper.Cipher.KeyService
import ItemMapper.Codec.Write
import ItemMapper.Proofs.NamedFields
import ItemMapper.Proofs.Results

/-!
# What becomes of encrypted fields

A field that is declared as encrypted ought to reach the wire in encrypted form only. It does, whatever
the depth at which it stands, unless it holds a map: maps are written by what is declared below their
field before the declaration of the field itself is looked at, and below a leaf nothing is declared.

Main results: a written value is found on the wire at its own path (`written_at`), and all encrypted
fields are sealed exactly if none of them holds a map (`sealed_iff_no_map`).
-/

namespace ItemMapper

/-! ### Paths -/

/-- The value that lies at a path of names, through maps. -/
def WireItem.at? (item : WireItem) : List String → Option WireValue
  | [] => none
  | [name] => Fields.get? item name
  | name :: rest => do
    let value ← Fields.get? item name
    let fields ← value.map?
    WireItem.at? fields rest

/-! ### Declarations below a field -/

theorem DatatypeMap.below_of_nested? {types nested : DatatypeMap} {name : String}
    (declared : types.nested? name = some nested) : types.below name = nested := by
  unfold nested? at declared
  unfold below
  split at declared
  next found => simpa [found] using declared
  next => cases declared

theorem DatatypeMap.below_of_wireType? {types : DatatypeMap} {name : String} {type : WireType}
    (declared : types.wireType? name = some type) : types.below name = [] := by
  unfold wireType? at declared
  unfold below
  split at declared
  next found => simp [found]
  next => cases declared

/-- No name occurs twice in an item, nor in a map that stands in it. -/
inductive Item.HasDistinctNames : Item → Prop
  | intro {item : Item} : (Fields.names item).Nodup →
      (∀ name fields, Fields.get? item name = some (.map fields) → HasDistinctNames fields) →
      HasDistinctNames item

theorem WireItem.at?_cons {item fields : WireItem} {name : String} {path : List String}
    (found : Fields.get? item name = some (.map fields)) (further : path ≠ []) :
    at? item (name :: path) = at? fields path := by
  cases path with
  | nil => exact absurd rfl further
  | cons next rest => simp [at?, found, WireValue.map?]

namespace Codec

/-- A path of names leads through maps, along nested declarations, to a field of a declared type. -/
inductive ReachesField : DatatypeMap → Item → List String → WireType → Value → Prop
  | here {types : DatatypeMap} {item : Item} {name : String} {type : WireType} {value : Value} :
      types.wireType? name = some type → Fields.get? item name = some value →
      ReachesField types item [name] type value
  | inside {types nested : DatatypeMap} {item fields : Item} {name : String} {path : List String}
      {type : WireType} {value : Value} :
      types.nested? name = some nested → Fields.get? item name = some (.map fields) →
      ReachesField nested fields path type value → ReachesField types item (name :: path) type value

/--
A path of names leads through maps to a value, which is declared with a type, or not at all. Below a field
without nested declarations nothing is declared.
-/
inductive ReachesValue : DatatypeMap → Item → List String → Option WireType → Value → Prop
  | here {types : DatatypeMap} {item : Item} {name : String} {value : Value} :
      Fields.get? item name = some value → ReachesValue types item [name] (types.wireType? name) value
  | inside {types : DatatypeMap} {item fields : Item} {name : String} {path : List String}
      {type : Option WireType} {value : Value} : Fields.get? item name = some (.map fields) →
      ReachesValue (types.below name) fields path type value → ReachesValue types item (name :: path) type value

theorem ReachesField.reachesValue {types : DatatypeMap} {item : Item} {path : List String} {type : WireType}
    {value : Value} (reaches : ReachesField types item path type value) :
    ReachesValue types item path (some type) value := by
  induction reaches with
  | here declared found => exact declared ▸ .here found
  | inside declared found _ ih => exact .inside found (DatatypeMap.below_of_nested? declared ▸ ih)

theorem ReachesValue.path_ne_nil {types : DatatypeMap} {item : Item} {path : List String}
    {type : Option WireType} {value : Value} (reaches : ReachesValue types item path type value) :
    path ≠ [] := by
  cases reaches <;> exact List.cons_ne_nil _ _

/-- A text that is not empty stands on the wire as what the cipher made of it. -/
inductive IsSealed (cipher : Cipher) (keyId : String) : Value → Option WireValue → Prop
  | sealed {text hidden : String} : text ≠ "" → cipher.encrypt keyId text = .ok hidden → hidden ≠ "" →
      IsSealed cipher keyId (.string text) (some (.string hidden))

variable {gateway : Gateway} {types : DatatypeMap} {nulls : Bool} {cipher : Cipher}

/-! ### Written fields -/

theorem get?_keepField_append (nulls : Bool) (other : String) (written : Option WireValue)
    (rest : WireItem) {name : String} (different : name ≠ other) :
    Fields.get? (keepField nulls other written ++ rest) name = Fields.get? rest name := by
  cases written with
  | some value => exact Fields.get?_cons_of_ne different value rest
  | none =>
    cases nulls with
    | true => exact Fields.get?_cons_of_ne different (.null true) rest
    | false => rfl

theorem get?_keepField_self {name : String} {rest : WireItem} (absent : Fields.get? rest name = none)
    (written : Option WireValue) : Fields.get? (keepField nulls name written ++ rest) name =
      written.or (if nulls then some (.null true) else none) := by
  cases written with
  | some value => exact Fields.get?_cons_self name value rest
  | none =>
    cases nulls with
    | true => exact Fields.get?_cons_self name (.null true) rest
    | false => exact absent

theorem get?_writeFields_of_absent {fields : Item} {parent name : String} {wire : WireItem}
    (written : writeFields gateway nulls types parent fields = .ok wire)
    (absent : name ∉ Fields.names fields) : Fields.get? wire name = none := by
  induction fields generalizing wire with
  | nil =>
    rw [← Except.ok.inj written]
    rfl
  | cons first rest ih =>
    obtain ⟨other, present⟩ := first
    obtain ⟨different, absent⟩ : name ≠ other ∧ name ∉ Fields.names rest := by
      simpa [Fields.names] using absent
    rw [writeFields] at written
    obtain ⟨result, others, -, rest_written, rfl⟩ := join_eq_ok_iff.mp written
    rw [get?_keepField_append nulls other result others different]
    exact ih rest_written absent

/--
Every field of a written item was written, and what it gave is found under its name. If it gave nothing, there
is an explicit null at most.
-/
theorem get?_writeFields {fields : Item} {parent name : String} {value : Value} {wire : WireItem}
    (written : writeFields gateway nulls types parent fields = .ok wire)
    (found : Fields.get? fields name = some value) :
    ∃ result, writeField gateway nulls types name (joinPath parent name) value = .ok result ∧
      (∀ stored, result = some stored → Fields.get? wire name = some stored) ∧
      (result = none → (Fields.names fields).Nodup →
        Fields.get? wire name = if nulls then some (.null true) else none) := by
  induction fields generalizing wire with
  | nil => exact absurd found (Option.some_ne_none _).symm
  | cons first rest ih =>
    obtain ⟨other, present⟩ := first
    rw [writeFields] at written
    obtain ⟨result, others, first_written, rest_written, rfl⟩ := join_eq_ok_iff.mp written
    by_cases same : name = other
    · -- The first field of a name is the one that is looked up, on both sides.
      subst same
      rw [Fields.get?_cons_self] at found
      obtain rfl := Option.some.inj found
      refine ⟨result, first_written, ?_, ?_⟩
      · rintro stored rfl
        exact Fields.get?_cons_self name stored others
      · rintro rfl distinct
        have absent := get?_writeFields_of_absent rest_written (List.nodup_cons.mp distinct).1
        exact get?_keepField_self absent none
    · rw [Fields.get?_cons_of_ne same] at found
      obtain ⟨result, value_written, stands, missing⟩ := ih rest_written found
      refine ⟨result, value_written, ?_, ?_⟩
      · rintro stored given
        rw [get?_keepField_append nulls other _ others same]
        exact stands stored given
      · rintro given distinct
        rw [get?_keepField_append nulls other _ others same]
        exact missing given (List.nodup_cons.mp distinct).2

/-- A value that a path leads to was written by the declarations around it, and what it gave stands at its path. -/
theorem value_written_at {item : Item} {path : List String} {type : Option WireType} {value : Value}
    (reaches : ReachesValue types item path type value) {parent : String} {wire : WireItem}
    (written : writeFields gateway nulls types parent item = .ok wire) :
    ∃ (around : DatatypeMap) (name place : String) (result : Option WireValue),
      around.wireType? name = type ∧
      writeField gateway nulls around name place value = .ok result ∧
      (∀ stored, result = some stored → WireItem.at? wire path = some stored) ∧
      (result = none → item.HasDistinctNames →
        WireItem.at? wire path = if nulls then some (.null true) else none) := by
  -- The induction is on the path; the parent path only serves messages, so it stays free.
  induction reaches generalizing parent wire with
  | @here types item name value found =>
    obtain ⟨result, value_written, stands, missing⟩ := get?_writeFields written found
    refine ⟨types, name, joinPath parent name, result, rfl, value_written, stands, ?_⟩
    rintro given ⟨distinct, -⟩
    exact missing given distinct
  | @inside types item fields name path type value found inner ih =>
    obtain ⟨result, map_written, stands, -⟩ := get?_writeFields written found
    obtain ⟨plain, fields_written, rfl⟩ := writeField_map_eq_ok_iff.mp map_written
    obtain ⟨around, last, place, outcome, declared, value_written, below_stands, below_missing⟩ :=
      ih fields_written
    have top : Fields.get? wire name = some (.map plain) := stands _ rfl
    rw [WireItem.at?_cons top inner.path_ne_nil]
    refine ⟨around, last, place, outcome, declared, value_written, below_stands, ?_⟩
    rintro given ⟨-, deeper⟩
    exact below_missing given (deeper name fields found)

/-- A value that a path leads to was written by the declarations around it, and stands at its path. -/
theorem written_at {item : Item} {path : List String} {type : WireType} {value : Value}
    (reaches : ReachesField types item path type value) {parent : String} {wire : WireItem}
    (written : writeFields gateway nulls types parent item = .ok wire) :
    ∃ (around : DatatypeMap) (name place : String) (result : Option WireValue),
      around.wireType? name = some type ∧
      writeField gateway nulls around name place value = .ok result ∧
      ∀ stored, result = some stored → WireItem.at? wire path = some stored := by
  obtain ⟨around, name, place, result, declared, value_written, stands, -⟩ :=
    value_written_at reaches.reachesValue written
  exact ⟨around, name, place, result, declared, value_written, stands⟩

/-! ### Maps below a leaf -/

mutual

/-- Where nothing is declared, the gateway and the path play no part. -/
theorem writeField_undeclared (gateway : Gateway) (nulls : Bool) (name path : String) :
    (value : Value) →
      writeField gateway nulls [] name path value = writeField .identity nulls [] name "" value
  | .map fields => by
    have inside := writeFields_undeclared gateway nulls path fields
    have plain := writeFields_undeclared .identity nulls "" fields
    have nothing : DatatypeMap.below [] name = [] := rfl
    rw [writeField, writeField, nothing, inside, plain]
  | .null | .bool _ | .number _ | .string _ | .binary _ | .date _ | .list _ => rfl

theorem writeFields_undeclared (gateway : Gateway) (nulls : Bool) (parent : String) :
    (fields : List (String × Value)) →
      writeFields gateway nulls [] parent fields = writeItem .identity [] nulls fields
  | [] => rfl
  | (name, value) :: rest => by
    have first := writeField_undeclared gateway nulls name (joinPath parent name) value
    have first_plain := writeField_undeclared .identity nulls name (joinPath "" name) value
    have others := writeFields_undeclared gateway nulls parent rest
    rw [writeItem, writeFields, writeFields, first, first_plain, others]
    rfl

end

/-! ### Encrypted fields -/

theorem encrypt_eq_ok {path keyId text hidden : String}
    (encrypted : Gateway.encrypt ⟨some cipher⟩ path keyId text = .ok hidden) :
    text ≠ "" ∧ cipher.encrypt keyId text = .ok hidden ∧ hidden ≠ "" := by
  obtain ⟨-, present, answered, full⟩ := Gateway.run_eq_ok_iff.mp encrypted
  exact ⟨present, answered, full⟩

/--
What was written at an encrypted field is sealed, or it is a map that was written as if nothing were
declared for it.
-/
theorem writeField_encrypted {name place keyId : String} {value : Value} {result : Option WireValue}
    (declared : types.wireType? name = some (.encrypted keyId)) (present : value ≠ .null)
    (written : writeField ⟨some cipher⟩ nulls types name place value = .ok result) :
    IsSealed cipher keyId value result ∨
      ∃ fields plain, value = .map fields ∧ result = some (.map plain) ∧
        writeItem .identity [] nulls fields = .ok plain := by
  cases value with
  | null => exact absurd rfl present
  | map fields =>
    right
    obtain ⟨plain, fields_written, rfl⟩ := writeField_map_eq_ok_iff.mp written
    -- The declaration is a leaf, so the fields of the map are written as if nothing were declared.
    rw [DatatypeMap.below_of_wireType? declared, writeFields_undeclared] at fields_written
    exact ⟨fields, plain, rfl, rfl, fields_written⟩
  | string text =>
    left
    simp only [writeField, writeAttribute, declared, Value.isNull, Bool.false_eq_true, if_false]
      at written
    obtain ⟨hidden, encrypted, rfl⟩ := map_eq_ok_iff.mp written
    obtain ⟨text_present, answered, full⟩ := encrypt_eq_ok encrypted
    exact .sealed text_present answered full
  | _ =>
    -- Every other kind is refused, so nothing was written.
    simp [writeField, writeAttribute, declared, Value.isNull] at written

/--
If an item is written through a cipher, then all its encrypted fields that hold something are sealed on the
wire exactly if none of them holds a map. A field that is not sealed stands on the wire as its plain map.
-/
theorem sealed_iff_no_map {item : Item} {wire : WireItem}
    (written : writeItem ⟨some cipher⟩ types nulls item = .ok wire) :
    ((∀ path keyId value, ReachesField types item path (.encrypted keyId) value → value ≠ .null →
        IsSealed cipher keyId value (WireItem.at? wire path)) ↔
      ∀ path keyId fields, ¬ ReachesField types item path (.encrypted keyId) (.map fields)) ∧
    ∀ path keyId value, ReachesField types item path (.encrypted keyId) value → value ≠ .null →
      IsSealed cipher keyId value (WireItem.at? wire path) ∨
      ∃ fields plain, value = .map fields ∧ WireItem.at? wire path = some (.map plain) ∧
        writeItem .identity [] nulls fields = .ok plain := by
  have each : ∀ path keyId value, ReachesField types item path (.encrypted keyId) value →
      value ≠ .null → IsSealed cipher keyId value (WireItem.at? wire path) ∨
      ∃ fields plain, value = .map fields ∧ WireItem.at? wire path = some (.map plain) ∧
        writeItem .identity [] nulls fields = .ok plain := by
    rintro path keyId value reaches present
    obtain ⟨around, name, place, result, declared, value_written, stands⟩ := written_at reaches written
    rcases writeField_encrypted declared present value_written with sealed | shown
    · left
      cases sealed with
      | sealed text_present answered full =>
        rw [stands _ rfl]
        exact .sealed text_present answered full
    · right
      obtain ⟨fields, plain, rfl, rfl, fields_written⟩ := shown
      exact ⟨fields, plain, rfl, stands _ rfl, fields_written⟩
  refine ⟨⟨?_, ?_⟩, each⟩
  · rintro all_sealed path keyId fields reaches
    have present : Value.map fields ≠ .null := by
      rintro ⟨⟩
    cases all_sealed path keyId (.map fields) reaches present
  · rintro no_map path keyId value reaches present
    rcases each path keyId value reaches present with sealed | ⟨fields, plain, rfl, -, -⟩
    · exact sealed
    · exact absurd reaches (no_map path keyId fields)

/-- A number that stands in a map at an encrypted field is on the wire as it is. -/
theorem map_at_encrypted_field_is_plain :
    let cipher := KeyService.cipher ⟨["pii"]⟩
    let types : DatatypeMap := [("ssn", .leaf (.encrypted "pii"))]
    let item : Item := [("ssn", .map [("number", .string "123")])]
    ∃ wire, writeItem ⟨some cipher⟩ types false item = .ok wire ∧
      ReachesField types item ["ssn"] (.encrypted "pii") (.map [("number", .string "123")]) ∧
      WireItem.at? wire ["ssn"] = some (.map [("number", .string "123")]) ∧
      ¬ IsSealed cipher "pii" (.map [("number", .string "123")]) (WireItem.at? wire ["ssn"]) := by
  intro cipher types item
  refine ⟨[("ssn", .map [("number", .string "123")])], rfl, .here rfl rfl, rfl, ?_⟩
  rintro ⟨⟩

/-- A number and an address, encrypted at two depths. -/
theorem sealed_iff_no_map_person :
    let cipher := KeyService.cipher ⟨["pii"]⟩
    let types : DatatypeMap :=
      [("home", .nested [("street", .leaf (.encrypted "pii"))]), ("ssn", .leaf (.encrypted "pii"))]
    let item : Item := [("home", .map [("street", .string "Elm")]), ("ssn", .string "123")]
    ∃ wire, writeItem ⟨some cipher⟩ types false item = .ok wire ∧
      (∀ path keyId fields, ¬ ReachesField types item path (.encrypted keyId) (.map fields)) ∧
      IsSealed cipher "pii" (.string "Elm") (WireItem.at? wire ["home", "street"]) := by
  intro cipher types item
  have written : writeItem ⟨some cipher⟩ types false item = .ok
      [("home", .map [("street", .string "kms:pii:mlE")]), ("ssn", .string "kms:pii:321")] := by
    rfl
  have no_map : ∀ path keyId fields,
      ¬ ReachesField types item path (.encrypted keyId) (.map fields) := by
    rintro path keyId fields reaches
    cases reaches with
    | @here _ _ name _ _ declared found =>
      by_cases home : name = "home"
      · subst home
        cases declared
      · grind [Fields.get?]
    | @inside _ nested _ inner name _ _ _ declared found deeper =>
      by_cases home : name = "home"
      · subst home
        obtain rfl := Option.some.inj declared
        obtain rfl := Value.map.inj (Option.some.inj found)
        cases deeper with
        | here _ found => grind [Fields.get?]
        | inside declared _ _ => grind [DatatypeMap.nested?, Fields.get?]
      · grind [Fields.get?]
  have all_sealed := (sealed_iff_no_map written).1.mpr no_map
  have present : Value.string "Elm" ≠ .null := by
    rintro ⟨⟩
  exact ⟨_, written, no_map,
    all_sealed ["home", "street"] "pii" _ (.inside rfl rfl (.here rfl rfl)) present⟩

end Codec

end ItemMapper
