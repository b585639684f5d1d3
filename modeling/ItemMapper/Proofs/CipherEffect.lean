import ItemMapper.Cipher.KeyService
import ItemMapper.Codec.Leaves
import ItemMapper.Proofs.WrittenLeaf

/-!
# What a cipher changes

A cipher is asked at fields that are declared as encrypted, and there for texts only. So if it accepts all
of these texts, an item that goes through it differs from one that goes through no cipher in these texts
alone (`mapEncrypted`), and wherever one of the two fails the other one fails alike.

Main results: this holds for writing (`writeItem_eq_map_mapEncrypted`) and for reading, where in addition
neither an item that is read without decrypting nor what lies in a list depends on the gateway
(`readItem?_eq_map_mapEncrypted`).
-/

namespace ItemMapper

/-! ### Texts at encrypted fields -/

/-- A text after a change that depends on the key under which it is declared. -/
def WireType.alter (change : (keyId text : String) → String) : Option WireType → String → String
  | some (.encrypted keyId), text => change keyId text
  | _, text => text

mutual

/-- Changes the texts at encrypted fields; the declared type is that of the value's own field. -/
def WireValue.mapEncrypted (change : (keyId text : String) → String) (type : Option WireType)
    (below : DatatypeMap) : WireValue → WireValue
  | .string text => .string (WireType.alter change type text)
  | .map fields => .map (WireItem.mapEncrypted change below fields)
  | other => other

def WireItem.mapEncrypted (change : (keyId text : String) → String) (types : DatatypeMap) :
    List (String × WireValue) → List (String × WireValue)
  | [] => []
  | (name, wire) :: rest =>
    (name, wire.mapEncrypted change (types.wireType? name) (types.below name)) ::
      WireItem.mapEncrypted change types rest

end

mutual

def Value.mapEncrypted (change : (keyId text : String) → String) (type : Option WireType)
    (below : DatatypeMap) : Value → Value
  | .string text => .string (WireType.alter change type text)
  | .map fields => .map (Item.mapEncrypted change below fields)
  | other => other

def Item.mapEncrypted (change : (keyId text : String) → String) (types : DatatypeMap) :
    List (String × Value) → List (String × Value)
  | [] => []
  | (name, value) :: rest =>
    (name, value.mapEncrypted change (types.wireType? name) (types.below name)) ::
      Item.mapEncrypted change types rest

end

theorem WireItem.mapEncrypted_append (change : (keyId text : String) → String) (types : DatatypeMap)
    (first rest : List (String × WireValue)) :
    mapEncrypted change types (first ++ rest) =
      mapEncrypted change types first ++ mapEncrypted change types rest := by
  induction first with
  | nil => rfl
  | cons field others ih => simp [mapEncrypted, ih]

/-- What is neither a map nor declared as encrypted stays as it is. -/
theorem WireValue.mapEncrypted_of_plain {change : (keyId text : String) → String}
    {type : Option WireType} (plain : ∀ keyId, type ≠ some (.encrypted keyId)) {wire : WireValue}
    (flat : wire.map? = none) (below : DatatypeMap) : wire.mapEncrypted change type below = wire := by
  cases wire with
  | map fields => cases flat
  | string text =>
    have kept : WireType.alter change type text = text := by
      unfold WireType.alter
      split
      next keyId => exact absurd rfl (plain keyId)
      next => rfl
    rw [mapEncrypted, kept]
  | _ => rfl

namespace Cipher

/-- What a cipher makes of a text; one that it refuses stays as it is. -/
def answer (cipher : Cipher) (operation : CipherOperation) (keyId text : String) : String :=
  match cipher.run operation keyId text with
  | .ok result => result
  | .error _ => text

/--
If a text is declared as encrypted, then its key has a name, it is not empty, and the cipher gives a result
that is not empty either.
-/
def Accepts (cipher : Cipher) (operation : CipherOperation) (type : Option WireType)
    (text : String) : Prop :=
  ∀ keyId, type = some (.encrypted keyId) →
    keyId ≠ "" ∧ text ≠ "" ∧ ∃ result, cipher.run operation keyId text = .ok result ∧ result ≠ ""

theorem Accepts.run_eq_ok {cipher : Cipher} {operation : CipherOperation} {keyId text : String}
    (accepted : cipher.Accepts operation (some (.encrypted keyId)) text) (path : String) :
    Gateway.run ⟨some cipher⟩ operation path keyId text = .ok (cipher.answer operation keyId text) := by
  obtain ⟨named, present, result, answered, full⟩ := accepted keyId rfl
  have same : cipher.answer operation keyId text = result := by simp [answer, answered]
  rw [Gateway.run_eq_ok_iff, same]
  exact ⟨named, present, answered, full⟩

end Cipher

namespace Codec

variable {cipher : Cipher} {gateway : Gateway} {types below : DatatypeMap} {type : Option WireType}

/-! ### Writing -/

theorem writeAttribute_eq_map_of_plain (plain : ∀ keyId, type ≠ some (.encrypted keyId)) {value : Value}
    (flat : value.map? = none) (path : String) (change : (keyId text : String) → String) :
    writeAttribute gateway type path value =
      (writeAttribute .identity type path value).map
        (Option.map (WireValue.mapEncrypted change type below)) := by
  have same : writeAttribute gateway type path value = writeAttribute .identity type path value := by
    cases type with
    | none => rfl
    | some declared =>
      cases declared with
      | encrypted keyId => exact absurd rfl (plain keyId)
      | _ => rfl
  -- The gateway is not asked, and what is written has no text that could be changed.
  rw [same]
  have kept (wire : WireValue) (wire_flat : wire.map? = none) : wire.mapEncrypted change type below = wire :=
    WireValue.mapEncrypted_of_plain plain wire_flat below
  exact (writeAttribute_map_of_flat flat path kept).symm

theorem writeAttribute_eq_map {value : Value} (flat : value.map? = none)
    (accepted : ∀ text, value = .string text → cipher.Accepts .encrypt type text) (path : String) :
    writeAttribute ⟨some cipher⟩ type path value =
      (writeAttribute .identity type path value).map
        (Option.map (WireValue.mapEncrypted (cipher.answer .encrypt) type below)) := by
  by_cases declared : ∃ keyId, type = some (.encrypted keyId)
  · obtain ⟨keyId, rfl⟩ := declared
    cases value with
    | string text =>
      have hidden : Gateway.encrypt ⟨some cipher⟩ path keyId text =
          .ok (cipher.answer .encrypt keyId text) :=
        (accepted text rfl).run_eq_ok path
      have plain : Gateway.identity.encrypt path keyId text = .ok text := rfl
      simp [writeAttribute, Value.isNull, hidden, plain, Except.map, WireValue.mapEncrypted,
        WireType.alter]
    | _ => rfl
  · exact writeAttribute_eq_map_of_plain (not_exists.mp declared) flat path _

theorem mapEncrypted_keepField (change : (keyId text : String) → String) (nulls : Bool) (name : String)
    (written : Option WireValue) :
    WireItem.mapEncrypted change types (keepField nulls name written) =
      keepField nulls name
        (written.map (WireValue.mapEncrypted change (types.wireType? name) (types.below name))) := by
  cases written with
  | some wire => rfl
  | none => cases nulls <;> rfl

section Write

variable {nulls : Bool}

mutual

theorem writeField_eq_map (types : DatatypeMap) (name path : String) : (value : Value) →
    (∀ leaf ∈ fieldLeaves types name path value, ∀ text, leaf.value = .string text →
      cipher.Accepts .encrypt leaf.type text) →
    writeField ⟨some cipher⟩ nulls types name path value =
      (writeField .identity nulls types name path value).map (Option.map
        (WireValue.mapEncrypted (cipher.answer .encrypt) (types.wireType? name) (types.below name)))
  | .map fields, accepted => by
    have inside := writeFields_eq_map (types.below name) path fields accepted
    rw [writeField, writeField, inside]
    cases writeFields .identity nulls (types.below name) path fields <;> rfl
  | .null, accepted | .bool _, accepted | .number _, accepted | .string _, accepted
  | .binary _, accepted | .date _, accepted | .list _, accepted =>
    writeAttribute_eq_map rfl (accepted _ (List.mem_singleton.mpr rfl)) path

theorem writeFields_eq_map (types : DatatypeMap) (parent : String) : (fields : List (String × Value)) →
    (∀ leaf ∈ itemLeaves types parent fields, ∀ text, leaf.value = .string text →
      cipher.Accepts .encrypt leaf.type text) →
    writeFields ⟨some cipher⟩ nulls types parent fields =
      (writeFields .identity nulls types parent fields).map
        (WireItem.mapEncrypted (cipher.answer .encrypt) types)
  | [], _ => rfl
  | (name, value) :: rest, accepted => by
    have first := writeField_eq_map types name (joinPath parent name) value fun leaf member =>
      accepted leaf (List.mem_append_left _ member)
    have others := writeFields_eq_map types parent rest fun leaf member =>
      accepted leaf (List.mem_append_right _ member)
    rw [writeFields, writeFields, first, others]
    refine join_map fun written wire _ _ => ?_
    rw [WireItem.mapEncrypted_append, mapEncrypted_keepField]

end

end Write

/--
If a cipher accepts all texts at encrypted fields, then an item is written through it as without it, with
these texts encrypted and nothing else changed; if it cannot be written, the error is the same.
-/
theorem writeItem_eq_map_mapEncrypted {nulls : Bool} {item : Item}
    (accepted : ∀ leaf ∈ itemLeaves types "" item, ∀ text, leaf.value = .string text →
      cipher.Accepts .encrypt leaf.type text) :
    writeItem ⟨some cipher⟩ types nulls item =
      (writeItem .identity types nulls item).map
        (WireItem.mapEncrypted (cipher.answer .encrypt) types) :=
  writeFields_eq_map types "" item accepted

/-- A number below a map is encrypted; in a map at an encrypted field and in a list no text is. -/
theorem writeItem_eq_map_mapEncrypted_person :
    let cipher := KeyService.cipher ⟨["pii"]⟩
    let types : DatatypeMap :=
      [("bio", .leaf (.encrypted "pii")), ("home", .nested [("ssn", .leaf (.encrypted "pii"))])]
    let item : Item := [("bio", .map [("ssn", .string "123")]), ("home", .map [("ssn", .string "123")]),
      ("notes", .list [.string "123"])]
    (∀ leaf ∈ itemLeaves types "" item, ∀ text, leaf.value = .string text →
      cipher.Accepts .encrypt leaf.type text) ∧
    writeItem ⟨some cipher⟩ types false item = .ok [("bio", .map [("ssn", .string "123")]),
      ("home", .map [("ssn", .string "kms:pii:321")]), ("notes", .list [.string "123"])] := by
  intro cipher types item
  have accepted : ∀ leaf ∈ itemLeaves types "" item, ∀ text, leaf.value = .string text →
      cipher.Accepts .encrypt leaf.type text := by
    have leaves : itemLeaves types "" item = [⟨"bio.ssn", none, .string "123"⟩,
        ⟨"home.ssn", some (.encrypted "pii"), .string "123"⟩,
        ⟨"notes", none, .list [.string "123"]⟩] := rfl
    rw [leaves]
    simp only [List.forall_mem_cons]
    -- The other two leaves are not declared.
    refine ⟨nofun, ?_, nofun, nofun⟩
    rintro text stands keyId declared
    cases stands
    cases declared
    exact ⟨by decide, by decide, "kms:pii:321", rfl, by decide⟩
  refine ⟨accepted, ?_⟩
  rw [writeItem_eq_map_mapEncrypted accepted]
  rfl

/-! ### Reading without a cipher -/

section Identity

variable (gateway : Gateway) (decrypting other : Bool)

mutual

/-- Without decrypting, and where nothing is declared, the gateway plays no part in reading. -/
theorem readValue_eq_identity (type : Option WireType) (below : DatatypeMap) (path : String)
    (idle : decrypting = false ∨ type = none ∧ below = []) : (wire : WireValue) →
    readValue gateway decrypting type below path wire = readValue .identity other type below path wire
  | .map fields => by
    have inside := readFields_eq_identity below path (idle.imp_right And.right) fields
    rw [readValue, readValue, inside]
  | .list items => by
    have inside := readItems_eq_identity path 0 items
    rw [readValue, readValue, inside]
  | .string text => by
    rw [readValue, readValue]
    unfold readTextAs
    -- Only an encrypted text differs, and it stays as it is: on one side for want of a cipher.
    split
    · rfl
    · rcases idle with rfl | ⟨undeclared, -⟩
      · cases other <;> rfl
      · cases undeclared
    · rfl
  | .number _ | .binary _ | .bool _ | .null _ | .stringSet _ | .numberSet _ | .binarySet _ => by
    simp only [readValue]

theorem readItems_eq_identity (path : String) (index : Nat) : (items : List WireValue) →
    readItems gateway decrypting path index items = readItems .identity other path index items
  | [] => by simp only [readItems]
  | item :: rest => by
    have first := readValue_eq_identity none [] (itemPath path index) (.inr ⟨rfl, rfl⟩) item
    have others := readItems_eq_identity path (index + 1) rest
    rw [readItems, readItems, first, others]

theorem readFields_eq_identity (types : DatatypeMap) (parent : String)
    (idle : decrypting = false ∨ types = []) : (fields : List (String × WireValue)) →
    readFields gateway decrypting types parent fields = readFields .identity other types parent fields
  | [] => by simp only [readFields]
  | (name, wire) :: rest => by
    have idle_field : decrypting = false ∨ types.wireType? name = none ∧ types.below name = [] := by
      apply idle.imp_right
      rintro rfl
      exact ⟨rfl, rfl⟩
    have first := readValue_eq_identity (types.wireType? name) (types.below name)
      (joinPath parent name) idle_field wire
    have others := readFields_eq_identity types parent idle rest
    rw [readFields, readFields, first, others]

end

end Identity

/-! ### Reading through a cipher -/

theorem readNumberAs_eq_map (type : Option WireType) (below : DatatypeMap) (path text : String)
    (change : (keyId text : String) → String) :
    readNumberAs type path text =
      (readNumberAs type path text).map (Value.mapEncrypted change type below) := by
  cases read : readNumberAs type path text with
  | error fault => rfl
  | ok value =>
    obtain ⟨n, -, made⟩ := bind_eq_ok_iff.mp read
    -- A number is read as a number or as a date.
    split at made
    · split at made
      · cases made
        rfl
      · cases made
    · cases made
      rfl

theorem readTextAs_eq_map {text : String} (accepted : cipher.Accepts .decrypt type text) (path : String) :
    readTextAs ⟨some cipher⟩ true type path text =
      (readTextAs .identity true type path text).map
        (Value.mapEncrypted (cipher.answer .decrypt) type below) := by
  by_cases declared : ∃ keyId, type = some (.encrypted keyId)
  · obtain ⟨keyId, rfl⟩ := declared
    have shown : Gateway.decrypt ⟨some cipher⟩ path keyId text =
        .ok (cipher.answer .decrypt keyId text) :=
      accepted.run_eq_ok path
    have hidden : Gateway.identity.decrypt path keyId text = .ok text := rfl
    simp [readTextAs, shown, hidden, Except.map, Value.mapEncrypted, WireType.alter]
  · cases type with
    | none => rfl
    | some type =>
      cases type with
      | encrypted keyId => exact absurd ⟨keyId, rfl⟩ declared
      | date =>
        simp only [readTextAs]
        cases Instant.ofText? text <;> rfl
      | _ => rfl

mutual

theorem readValue_eq_map (type : Option WireType) (below : DatatypeMap) (path : String) :
    (wire : WireValue) →
    (∀ leaf ∈ wireLeaves type below path wire, ∀ text, leaf.value = .string text →
      cipher.Accepts .decrypt leaf.type text) →
    readValue ⟨some cipher⟩ true type below path wire =
      (readValue .identity true type below path wire).map
        (Value.mapEncrypted (cipher.answer .decrypt) type below)
  | .map fields, accepted => by
    have inside := readFields_eq_map below path fields accepted
    rw [readValue, readValue, inside]
    cases readFields .identity true below path fields <;> rfl
  | .list items, _ => by
    -- Nothing is declared inside a list, and the change stops in front of it.
    have inside := readItems_eq_identity ⟨some cipher⟩ true true path 0 items
    rw [readValue, readValue, inside]
    cases readItems .identity true path 0 items <;> rfl
  | .string text, accepted =>
    readTextAs_eq_map (accepted _ (List.mem_singleton.mpr rfl) text rfl) path
  | .number text, _ => readNumberAs_eq_map type below path text _
  | .numberSet texts, _ => by
    simp only [readValue]
    cases texts.mapM (readNumber path) <;> rfl
  | .binary _, _ | .bool _, _ | .null _, _ | .stringSet _, _ | .binarySet _, _ => rfl

theorem readFields_eq_map (types : DatatypeMap) (parent : String) :
    (fields : List (String × WireValue)) →
    (∀ leaf ∈ wireItemLeaves types parent fields, ∀ text, leaf.value = .string text →
      cipher.Accepts .decrypt leaf.type text) →
    readFields ⟨some cipher⟩ true types parent fields =
      (readFields .identity true types parent fields).map
        (Item.mapEncrypted (cipher.answer .decrypt) types)
  | [], _ => rfl
  | (name, wire) :: rest, accepted => by
    have first := readValue_eq_map (types.wireType? name) (types.below name) (joinPath parent name) wire
      fun leaf member => accepted leaf (List.mem_append_left _ member)
    have others := readFields_eq_map types parent rest fun leaf member =>
      accepted leaf (List.mem_append_right _ member)
    rw [readFields, readFields, first, others]
    exact join_map fun value item _ _ => rfl

end

/--
An item that is read without decrypting does not depend on the gateway, nor do the leaves that are come to;
and what lies in a list never does. If a cipher accepts all texts at encrypted fields, then an item is read
through it as without it, with these texts decrypted and nothing else changed.
-/
theorem readItem?_eq_map_mapEncrypted {types : DatatypeMap} {wire : WireItem} :
    (∀ (gateway : Gateway) (decrypting : Bool),
      readItem? gateway types false (some wire) = readItem? .identity types decrypting (some wire) ∧
      visited (fun leaf => (readLeaf gateway false leaf).isOk) (wireItemLeaves types "" wire) =
        visited (fun leaf => (readLeaf .identity decrypting leaf).isOk) (wireItemLeaves types "" wire)) ∧
    (∀ (gateway : Gateway) (decrypting : Bool) (path : String) (index : Nat) (items : List WireValue),
      readItems gateway decrypting path index items = readItems .identity decrypting path index items) ∧
    ∀ cipher : Cipher,
      (∀ leaf ∈ wireItemLeaves types "" wire, ∀ text, leaf.value = .string text →
        cipher.Accepts .decrypt leaf.type text) →
      readItem? ⟨some cipher⟩ types true (some wire) =
        (readItem? .identity types true (some wire)).map
          (Option.map (Item.mapEncrypted (cipher.answer .decrypt) types)) := by
  refine ⟨?_, ?_, ?_⟩
  · intro gateway decrypting
    have read := readFields_eq_identity gateway false decrypting types "" (.inl rfl) wire
    have leaf_read : readLeaf gateway false = readLeaf .identity decrypting := by
      funext leaf
      exact readValue_eq_identity gateway false decrypting leaf.type [] leaf.path (.inl rfl) leaf.value
    constructor
    · simp only [readItem?, readItem, read]
    · rw [leaf_read]
  · intro gateway decrypting path index items
    exact readItems_eq_identity gateway decrypting decrypting path index items
  · intro cipher accepted
    have read := readFields_eq_map types "" wire accepted
    simp only [readItem?, readItem, read]
    cases readFields .identity true types "" wire <;> rfl

/-- A number below a map is decrypted; in a list, and in a map in it, no text is. -/
theorem readItem?_eq_map_mapEncrypted_person :
    let cipher := KeyService.cipher ⟨["pii"]⟩
    let types : DatatypeMap :=
      [("home", .nested [("ssn", .leaf (.encrypted "pii"))]), ("notes", .leaf (.encrypted "pii"))]
    let hidden : WireValue := .string "kms:pii:321"
    let wire : WireItem :=
      [("home", .map [("ssn", hidden)]), ("notes", .list [hidden, .map [("ssn", hidden)]])]
    (∀ leaf ∈ wireItemLeaves types "" wire, ∀ text, leaf.value = .string text →
      cipher.Accepts .decrypt leaf.type text) ∧
    readItem? ⟨some cipher⟩ types true (some wire) = .ok (some [("home", .map [("ssn", .string "123")]),
      ("notes", .list [.string "kms:pii:321", .map [("ssn", .string "kms:pii:321")]])]) := by
  intro cipher types hidden wire
  have accepted : ∀ leaf ∈ wireItemLeaves types "" wire, ∀ text, leaf.value = .string text →
      cipher.Accepts .decrypt leaf.type text := by
    have leaves : wireItemLeaves types "" wire = [⟨"home.ssn", some (.encrypted "pii"), hidden⟩,
        ⟨"notes[0]", none, hidden⟩, ⟨"notes[1].ssn", none, hidden⟩] := rfl
    rw [leaves]
    simp only [List.forall_mem_cons]
    refine ⟨?_, nofun, nofun, nofun⟩
    rintro text stands keyId declared
    obtain rfl : "kms:pii:321" = text := WireValue.string.inj stands
    cases declared
    exact ⟨by decide, by decide, "123", rfl, by decide⟩
  refine ⟨accepted, ?_⟩
  rw [readItem?_eq_map_mapEncrypted.2.2 cipher accepted]
  rfl

end Codec

end ItemMapper
