import ItemMapper.Proofs.Base64Text
import ItemMapper.Proofs.CanonicalTree
import ItemMapper.Wire.Value

/-!
# The JSON form of wire values

Wire values and the JSON trees that are read as such correspond to each other one to one. Trees count up to
the order of members, so a tree stands for its canonical one, and no object has two members of one name
(`Json.HasDistinctNames`); the fields of a map are in the order of their names (`WireValue.IsOrdered`).
`WireValue.IsForm` lists the trees that are read, without the reader.

Main result: a tree is read as a value exactly if it is the JSON form of the value, every value has such a
tree, and the trees that are read are those of the listed forms (`toJson_bijective`).
-/

namespace ItemMapper.WireValue

mutual

/-- The fields of every map in the value are in the order of their names. -/
def IsOrdered : WireValue → Prop
  | .list items => AreOrdered items
  | .map fields => Fields.Ordered fields ∧ HaveOrdered fields
  | _ => True

def AreOrdered : List WireValue → Prop
  | [] => True
  | item :: rest => item.IsOrdered ∧ AreOrdered rest

def HaveOrdered : List (String × WireValue) → Prop
  | [] => True
  | (_, value) :: rest => value.IsOrdered ∧ HaveOrdered rest

end

/-- A tag, the content under it and the value that they stand for; lists and maps apart. -/
inductive IsLeaf : String → Json → WireValue → Prop
  | string (text : String) : IsLeaf "S" (.string text) (.string text)
  | number (text : String) : IsLeaf "N" (.string text) (.number text)
  | binary (bytes : Bytes) : IsLeaf "B" (.string (Base64.encode bytes)) (.binary bytes)
  | stringSet (texts : List String) : IsLeaf "SS" (.array (texts.map .string)) (.stringSet texts)
  | numberSet (texts : List String) : IsLeaf "NS" (.array (texts.map .string)) (.numberSet texts)
  | binarySet (blobs : List Bytes) :
      IsLeaf "BS" (.array (blobs.map fun blob => .string (Base64.encode blob))) (.binarySet blobs)
  | bool (b : Bool) : IsLeaf "BOOL" (.bool b) (.bool b)
  | null (b : Bool) : IsLeaf "NULL" (.bool b) (.null b)

/-- A tree that stands for a wire value: an object with one member, which is named for a tag. -/
inductive IsForm : Json → Prop
  | leaf {tag : String} {content : Json} {value : WireValue} : IsLeaf tag content value →
      IsForm (.object [(tag, content)])
  | list {items : List Json} : (∀ item ∈ items, IsForm item) → IsForm (.object [("L", .array items)])
  | map {members : List (String × Json)} : (∀ member ∈ members, IsForm member.2) →
      IsForm (.object [("M", .object members)])

/-! ### Leaves -/

section Leaf

variable {tag : String} {content : Json} {value : WireValue}

theorem IsLeaf.toJson_eq (leaf : IsLeaf tag content value) : value.toJson = .object [(tag, content)] := by
  cases leaf <;> rfl

theorem IsLeaf.ordered (leaf : IsLeaf tag content value) : value.IsOrdered := by
  cases leaf <;> exact trivial

theorem IsLeaf.isNamed (leaf : IsLeaf tag content value) : content.isNamed = true := by
  cases leaf <;> rfl

/-- No member stands in a leaf, so there is one tree only with its canonical tree. -/
theorem IsLeaf.eq_of_canonical (leaf : IsLeaf tag content value) {inner : Json}
    (same : inner.canonical = content) : inner = content := by
  cases leaf with
  | string | number | binary => exact Json.eq_string_of_canonical same
  | stringSet | numberSet | binarySet => exact Json.eq_texts_of_canonical same
  | bool | null => exact Json.eq_bool_of_canonical same

theorem IsLeaf.hasDistinctNames (leaf : IsLeaf tag content value) : content.HasDistinctNames := by
  cases leaf with
  | string | number | binary | bool | null => exact trivial
  | stringSet texts | numberSet texts => exact Json.hasDistinctNames_texts id texts
  | binarySet blobs => exact Json.hasDistinctNames_texts Base64.encode blobs

theorem IsLeaf.canonical_eq (leaf : IsLeaf tag content value) : content.canonical = content := by
  cases leaf with
  | string | number | binary | bool | null => rfl
  | stringSet texts | numberSet texts => exact Json.canonical_texts id texts
  | binarySet blobs => exact Json.canonical_texts Base64.encode blobs

end Leaf

/-! ### Reading one value -/

theorem asString_eq_ok_iff {tree : Json} {text : String} :
    tree.asString = .ok text ↔ tree = .string text := by
  cases tree with
  | string value => simp [Json.asString]
  | null | bool | number | array | object | flaw => simp [Json.asString]

theorem asBool_eq_ok_iff {tree : Json} {b : Bool} : tree.asBool = .ok b ↔ tree = .bool b := by
  cases tree with
  | bool value => simp [Json.asBool]
  | null | string | number | array | object | flaw => simp [Json.asBool]

theorem asTexts_eq_ok_iff {tree : Json} {texts : List String} :
    tree.asList Json.asString = .ok texts ↔ tree = .array (texts.map .string) := by
  cases tree with
  | array items =>
    rw [Json.array.injEq]
    exact mapM_eq_ok_iff fun item text => asString_eq_ok_iff
  | null | bool | number | string | object | flaw =>
    simp [Json.asList, Json.asArray, bind, Except.bind]

theorem readBytes_eq_ok_iff {text : String} {bytes : Bytes} :
    readBytes text = .ok bytes ↔ text = Base64.encode bytes := by
  rw [readBytes, mapError_eq_ok_iff, Base64.decode_eq_ok_iff]

theorem readBlobs_eq_ok_iff {texts : List String} {blobs : List Bytes} :
    texts.mapM readBytes = .ok blobs ↔ texts = blobs.map Base64.encode :=
  mapM_eq_ok_iff fun _ _ => readBytes_eq_ok_iff

/-- What is read as which value under a tag. -/
inductive IsContent : String → Json → WireValue → Prop
  | leaf {tag : String} {content : Json} {value : WireValue} : IsLeaf tag content value →
      IsContent tag content value
  | list {items : List Json} {values : List WireValue} : ofItems items = .ok values →
      IsContent "L" (.array items) (.list values)
  | map {members : List (String × Json)} {fields : List (String × WireValue)} :
      ofMembers members = .ok fields → IsContent "M" (.object members) (.map (Fields.ofList fields))

theorem IsLeaf.ofTagged_eq {tag : String} {content : Json} {value : WireValue}
    (leaf : IsLeaf tag content value) : ofTagged tag content = .ok value := by
  cases leaf with
  | string | number | bool | null => rfl
  | binary bytes =>
    have decoded : readBytes (Base64.encode bytes) = .ok bytes := readBytes_eq_ok_iff.mpr rfl
    exact bind_eq_ok_iff.mpr ⟨_, rfl, bind_eq_ok_iff.mpr ⟨bytes, decoded, rfl⟩⟩
  | stringSet texts | numberSet texts =>
    exact map_eq_ok_iff.mpr ⟨texts, asTexts_eq_ok_iff.mpr rfl, rfl⟩
  | binarySet blobs =>
    have decoded := readBlobs_eq_ok_iff.mpr (rfl : blobs.map Base64.encode = _)
    have found : (Json.array (blobs.map fun blob => .string (Base64.encode blob))).asList Json.asString =
        .ok (blobs.map Base64.encode) := by
      rw [asTexts_eq_ok_iff, List.map_map]
      rfl
    exact bind_eq_ok_iff.mpr ⟨_, found, bind_eq_ok_iff.mpr ⟨blobs, decoded, rfl⟩⟩

theorem ofTagged_eq_ok_iff {tag : String} {content : Json} {value : WireValue} :
    ofTagged tag content = .ok value ↔ IsContent tag content value := by
  constructor
  · intro read
    unfold ofTagged at read
    split at read
    next =>
      obtain ⟨text, found, rfl⟩ := map_eq_ok_iff.mp read
      rw [asString_eq_ok_iff.mp found]
      exact .leaf (.string text)
    next =>
      obtain ⟨text, found, rfl⟩ := map_eq_ok_iff.mp read
      rw [asString_eq_ok_iff.mp found]
      exact .leaf (.number text)
    next =>
      obtain ⟨text, found, read⟩ := bind_eq_ok_iff.mp read
      obtain ⟨bytes, decoded, read⟩ := bind_eq_ok_iff.mp read
      cases read
      rw [asString_eq_ok_iff.mp found, readBytes_eq_ok_iff.mp decoded]
      exact .leaf (.binary bytes)
    next =>
      obtain ⟨texts, found, rfl⟩ := map_eq_ok_iff.mp read
      rw [asTexts_eq_ok_iff.mp found]
      exact .leaf (.stringSet texts)
    next =>
      obtain ⟨texts, found, rfl⟩ := map_eq_ok_iff.mp read
      rw [asTexts_eq_ok_iff.mp found]
      exact .leaf (.numberSet texts)
    next =>
      obtain ⟨texts, found, read⟩ := bind_eq_ok_iff.mp read
      obtain ⟨blobs, decoded, read⟩ := bind_eq_ok_iff.mp read
      cases read
      rw [asTexts_eq_ok_iff.mp found, readBlobs_eq_ok_iff.mp decoded, List.map_map]
      exact .leaf (.binarySet blobs)
    next =>
      obtain ⟨b, found, rfl⟩ := map_eq_ok_iff.mp read
      rw [asBool_eq_ok_iff.mp found]
      exact .leaf (.bool b)
    next =>
      obtain ⟨b, found, rfl⟩ := map_eq_ok_iff.mp read
      rw [asBool_eq_ok_iff.mp found]
      exact .leaf (.null b)
    next =>
      split at read
      next items =>
        obtain ⟨values, found, rfl⟩ := map_eq_ok_iff.mp read
        exact .list found
      next => cases read
    next =>
      split at read
      next members =>
        obtain ⟨fields, found, rfl⟩ := map_eq_ok_iff.mp read
        exact .map found
      next => cases read
    next => cases read
  · intro holds
    cases holds with
    | leaf leaf => exact leaf.ofTagged_eq
    | list found => exact map_eq_ok_iff.mpr ⟨_, found, rfl⟩
    | map found => exact map_eq_ok_iff.mpr ⟨_, found, rfl⟩

theorem isNamed_of_isContent {tag : String} {content : Json} {value : WireValue}
    (holds : IsContent tag content value) : content.isNamed = true := by
  cases holds with
  | leaf leaf => exact leaf.isNamed
  | list | map => rfl

/-- A tree is read as what its only member holds. -/
theorem ofJson_single {tag : String} {content : Json} {value : WireValue} :
    ofJson (.object [(tag, content)]) = .ok value ↔ IsContent tag content value := by
  rw [← ofTagged_eq_ok_iff, ofJson]
  constructor
  · intro read
    split at read
    next => cases read
    next =>
      obtain ⟨found, tagged, result⟩ := bind_eq_ok_iff.mp read
      cases result
      exact tagged
  · intro tagged
    rw [isNamed_of_isContent (ofTagged_eq_ok_iff.mp tagged), tagged]
    rfl

theorem exists_single_of_ofJson {tree : Json} {value : WireValue} (read : ofJson tree = .ok value) :
    ∃ tag content, tree = .object [(tag, content)] := by
  match tree with
  | .object [(tag, content)] => exact ⟨tag, content, rfl⟩
  | .object [] => cases read
  | .object ((tag, content) :: second :: rest) =>
    rw [ofJson] at read
    split at read
    next => cases read
    next =>
      obtain ⟨found, tagged, result⟩ := bind_eq_ok_iff.mp read
      cases result
  | .null | .bool _ | .number _ | .string _ | .array _ | .flaw _ _ => cases read

theorem isNamed_of_ofJson {tree : Json} {value : WireValue} (read : ofJson tree = .ok value) :
    tree.isNamed = true := by
  obtain ⟨name, content, rfl⟩ := exists_single_of_ofJson read
  rfl

theorem ofItems_cons {tree : Json} {rest : List Json} {values : List WireValue} :
    ofItems (tree :: rest) = .ok values ↔
      ∃ value others, ofJson tree = .ok value ∧ ofItems rest = .ok others ∧
        values = value :: others := by
  rw [ofItems, join_eq_ok_iff]
  simp only [@eq_comm _ values]

theorem ofMembers_cons {name : String} {tree : Json} {rest : List (String × Json)}
    {fields : List (String × WireValue)} :
    ofMembers ((name, tree) :: rest) = .ok fields ↔
      ∃ value others, ofJson tree = .ok value ∧ ofMembers rest = .ok others ∧
        fields = (name, value) :: others := by
  rw [ofMembers]
  constructor
  · intro read
    split at read
    next => cases read
    next =>
      obtain ⟨value, others, first, others_read, rfl⟩ := join_eq_ok_iff.mp read
      exact ⟨value, others, first, others_read, rfl⟩
  · rintro ⟨value, others, read, others_read, rfl⟩
    rw [isNamed_of_ofJson read, read, others_read]
    rfl

/-! ### Reading what was written -/

mutual

theorem ofJson_toJson : (value : WireValue) → value.IsOrdered → ofJson value.toJson = .ok value
  | .string text, _ => ofJson_single.mpr (.leaf (.string text))
  | .number text, _ => ofJson_single.mpr (.leaf (.number text))
  | .binary bytes, _ => ofJson_single.mpr (.leaf (.binary bytes))
  | .stringSet texts, _ => ofJson_single.mpr (.leaf (.stringSet texts))
  | .numberSet texts, _ => ofJson_single.mpr (.leaf (.numberSet texts))
  | .binarySet blobs, _ => ofJson_single.mpr (.leaf (.binarySet blobs))
  | .bool b, _ => ofJson_single.mpr (.leaf (.bool b))
  | .null b, _ => ofJson_single.mpr (.leaf (.null b))
  | .list items, ordered => ofJson_single.mpr (.list (ofItems_toJsonItems items ordered))
  | .map fields, ordered => by
    have read := IsContent.map (ofMembers_toJsonMembers fields ordered.2)
    rw [Fields.ofList_of_ordered ordered.1] at read
    exact ofJson_single.mpr read

theorem ofItems_toJsonItems : (items : List WireValue) → AreOrdered items →
    ofItems (toJsonItems items) = .ok items
  | [], _ => rfl
  | item :: rest, ordered => by
    have first := ofJson_toJson item ordered.1
    have others := ofItems_toJsonItems rest ordered.2
    exact ofItems_cons.mpr ⟨item, rest, first, others, rfl⟩

theorem ofMembers_toJsonMembers : (fields : List (String × WireValue)) → HaveOrdered fields →
    ofMembers (toJsonMembers fields) = .ok fields
  | [], _ => rfl
  | (name, value) :: rest, ordered => by
    have first := ofJson_toJson value ordered.1
    have others := ofMembers_toJsonMembers rest ordered.2
    exact ofMembers_cons.mpr ⟨value, rest, first, others, rfl⟩

end

/-! ### Writing what was read -/

theorem toJsonMembers_eq_map (fields : List (String × WireValue)) :
    toJsonMembers fields = fields.map (Prod.map id toJson) := by
  induction fields with
  | nil => rfl
  | cons field rest ih =>
    rw [toJsonMembers, ih]
    rfl

theorem haveOrdered_iff {fields : List (String × WireValue)} :
    HaveOrdered fields ↔ ∀ field ∈ fields, field.2.IsOrdered := by
  induction fields with
  | nil => simp [HaveOrdered]
  | cons field rest ih => rw [HaveOrdered, ih, List.forall_mem_cons]

/-- A tree of one of the forms, and the value with this form, up to the order of members. -/
structure Represents (value : WireValue) (tree : Json) : Prop where
  form : IsForm tree
  ordered : value.IsOrdered
  same : value.toJson = tree.canonical

theorem IsLeaf.represents {tag : String} {content : Json} {value : WireValue}
    (leaf : IsLeaf tag content value) : Represents value (.object [(tag, content)]) where
  form := .leaf leaf
  ordered := leaf.ordered
  same := by
    change value.toJson = .object [(tag, content.canonical)]
    rw [leaf.toJson_eq, leaf.canonical_eq]

theorem represents_list {items : List Json} {values : List WireValue}
    (forms : ∀ item ∈ items, IsForm item) (ordered : AreOrdered values)
    (same : toJsonItems values = Json.canonicalItems items) :
    Represents (.list values) (.object [("L", .array items)]) where
  form := .list forms
  ordered := ordered
  same := by
    rw [toJson, same]
    rfl

theorem represents_map {members : List (String × Json)} {fields : List (String × WireValue)}
    (forms : ∀ member ∈ members, IsForm member.2) (ordered : HaveOrdered fields)
    (same : toJsonMembers fields = Json.canonicalMembers members) :
    Represents (.map (Fields.ofList fields)) (.object [("M", .object members)]) where
  form := .map forms
  ordered := by
    refine ⟨Fields.ordered_ofList fields, haveOrdered_iff.mpr ?_⟩
    intro field member
    exact haveOrdered_iff.mp ordered field (Fields.mem_of_mem_ofList member)
  same := by
    rw [toJson, toJsonMembers_eq_map, ← Fields.ofList_map, ← toJsonMembers_eq_map, same]
    rfl

mutual

theorem represents_of_ofJson : (tree : Json) → (value : WireValue) → ofJson tree = .ok value →
    Represents value tree
  | .object [(tag, content)], value, read =>
    represents_of_isContent content tag value (ofJson_single.mp read)
  | .object [], _, read => by cases read
  | .object (_ :: _ :: _), _, read => by
    obtain ⟨tag, content, single⟩ := exists_single_of_ofJson read
    cases single
  | .null, _, read | .bool _, _, read | .number _, _, read | .string _, _, read | .array _, _, read
  | .flaw _ _, _, read => by cases read

theorem represents_of_isContent : (content : Json) → (tag : String) → (value : WireValue) →
    IsContent tag content value → Represents value (.object [(tag, content)])
  | .array items, tag, value, holds => by
    cases holds with
    | leaf leaf => exact leaf.represents
    | @list _ values found =>
      obtain ⟨forms, ordered, same⟩ := represents_of_ofItems items values found
      exact represents_list forms ordered same
  | .object members, tag, value, holds => by
    cases holds with
    | leaf leaf => exact leaf.represents
    | @map _ fields found =>
      obtain ⟨forms, ordered, same⟩ := represents_of_ofMembers members fields found
      exact represents_map forms ordered same
  | .null, _, _, holds | .bool _, _, _, holds | .number _, _, _, holds | .string _, _, _, holds
  | .flaw _ _, _, _, holds => by
    cases holds with
    | leaf leaf => exact leaf.represents

theorem represents_of_ofItems : (items : List Json) → (values : List WireValue) →
    ofItems items = .ok values →
    (∀ item ∈ items, IsForm item) ∧ AreOrdered values ∧ toJsonItems values = Json.canonicalItems items
  | [], values, read => by
    cases read
    exact ⟨by simp, trivial, rfl⟩
  | item :: rest, values, read => by
    obtain ⟨value, others, first_read, others_read, rfl⟩ := ofItems_cons.mp read
    have first := represents_of_ofJson item value first_read
    obtain ⟨forms, ordered, same⟩ := represents_of_ofItems rest others others_read
    refine ⟨List.forall_mem_cons.mpr ⟨first.form, forms⟩, ⟨first.ordered, ordered⟩, ?_⟩
    rw [toJsonItems, Json.canonicalItems, first.same, same]

theorem represents_of_ofMembers : (members : List (String × Json)) →
    (fields : List (String × WireValue)) → ofMembers members = .ok fields →
    (∀ member ∈ members, IsForm member.2) ∧ HaveOrdered fields ∧
      toJsonMembers fields = Json.canonicalMembers members
  | [], fields, read => by
    cases read
    exact ⟨by simp, trivial, rfl⟩
  | (name, tree) :: rest, fields, read => by
    obtain ⟨value, others, first_read, others_read, rfl⟩ := ofMembers_cons.mp read
    have first := represents_of_ofJson tree value first_read
    obtain ⟨forms, ordered, same⟩ := represents_of_ofMembers rest others others_read
    refine ⟨List.forall_mem_cons.mpr ⟨first.form, forms⟩, ⟨first.ordered, ordered⟩, ?_⟩
    rw [toJsonMembers, Json.canonicalMembers, first.same, same]

end

/-! ### Every form is read -/

theorem exists_ofItems {items : List Json} (each : ∀ item ∈ items, ∃ value, ofJson item = .ok value) :
    ∃ values, ofItems items = .ok values := by
  induction items with
  | nil => exact ⟨[], rfl⟩
  | cons item rest ih =>
    obtain ⟨first, others⟩ := List.forall_mem_cons.mp each
    obtain ⟨value, read⟩ := first
    obtain ⟨values, others_read⟩ := ih others
    exact ⟨value :: values, ofItems_cons.mpr ⟨value, values, read, others_read, rfl⟩⟩

theorem exists_ofMembers {members : List (String × Json)}
    (each : ∀ member ∈ members, ∃ value, ofJson member.2 = .ok value) :
    ∃ fields, ofMembers members = .ok fields := by
  induction members with
  | nil => exact ⟨[], rfl⟩
  | cons member rest ih =>
    obtain ⟨first, others⟩ := List.forall_mem_cons.mp each
    obtain ⟨value, read⟩ := first
    obtain ⟨fields, others_read⟩ := ih others
    exact ⟨(member.1, value) :: fields, ofMembers_cons.mpr ⟨value, fields, read, others_read, rfl⟩⟩

theorem exists_of_isForm {tree : Json} (form : IsForm tree) : ∃ value, ofJson tree = .ok value := by
  induction form with
  | leaf leaf => exact ⟨_, ofJson_single.mpr (.leaf leaf)⟩
  | list _ each =>
    obtain ⟨values, read⟩ := exists_ofItems each
    exact ⟨_, ofJson_single.mpr (.list read)⟩
  | map _ each =>
    obtain ⟨fields, read⟩ := exists_ofMembers each
    exact ⟨_, ofJson_single.mpr (.map read)⟩

/-- Whether a tree is of one of the forms does not depend on the order of members. -/
theorem isForm_of_canonical {canonicalTree : Json} (form : IsForm canonicalTree) {tree : Json}
    (distinct : tree.HasDistinctNames) (same : tree.canonical = canonicalTree) : IsForm tree := by
  -- The induction is on the form of the canonical tree, whose parts are canonical trees of the tree's parts.
  induction form generalizing tree with
  | leaf leaf =>
    obtain ⟨content, rfl, -, content_same⟩ := Json.eq_single_of_canonical distinct same
    rw [leaf.eq_of_canonical content_same]
    exact .leaf leaf
  | list _ each =>
    obtain ⟨content, rfl, inner_distinct, content_same⟩ := Json.eq_single_of_canonical distinct same
    obtain ⟨items, rfl, rfl⟩ := Json.eq_array_of_canonical content_same
    apply IsForm.list
    intro item member
    have item_distinct := Json.haveDistinctNames_iff.mp inner_distinct item member
    exact each item.canonical (List.mem_map_of_mem member) item_distinct rfl
  | map _ each =>
    obtain ⟨content, rfl, inner_distinct, content_same⟩ := Json.eq_single_of_canonical distinct same
    obtain ⟨members, rfl, all_distinct, perm⟩ := Json.eq_object_of_canonical inner_distinct content_same
    apply IsForm.map
    intro member belongs
    have listed := perm.mem_iff.mpr (List.mem_map_of_mem belongs)
    exact each _ listed (Json.membersHaveDistinctNames_iff.mp all_distinct member belongs) rfl

/-! ### One tree for every value -/

mutual

/-- The JSON form of a value in order has no two members of one name. -/
theorem hasDistinctNames_toJson : (value : WireValue) → value.IsOrdered → value.toJson.HasDistinctNames
  | .string text, _ => Json.hasDistinctNames_single "S" (IsLeaf.string text).hasDistinctNames
  | .number text, _ => Json.hasDistinctNames_single "N" (IsLeaf.number text).hasDistinctNames
  | .binary bytes, _ => Json.hasDistinctNames_single "B" (IsLeaf.binary bytes).hasDistinctNames
  | .stringSet texts, _ => Json.hasDistinctNames_single "SS" (IsLeaf.stringSet texts).hasDistinctNames
  | .numberSet texts, _ => Json.hasDistinctNames_single "NS" (IsLeaf.numberSet texts).hasDistinctNames
  | .binarySet blobs, _ => Json.hasDistinctNames_single "BS" (IsLeaf.binarySet blobs).hasDistinctNames
  | .bool b, _ => Json.hasDistinctNames_single "BOOL" (IsLeaf.bool b).hasDistinctNames
  | .null b, _ => Json.hasDistinctNames_single "NULL" (IsLeaf.null b).hasDistinctNames
  | .list items, ordered =>
    Json.hasDistinctNames_single "L" (haveDistinctNames_toJsonItems items ordered)
  | .map fields, ordered => by
    have distinct : (Fields.names (toJsonMembers fields)).Nodup := by
      rw [toJsonMembers_eq_map, Fields.names_map]
      exact ordered.1.nodup
    have below := membersHaveDistinctNames_toJsonMembers fields ordered.2
    exact Json.hasDistinctNames_single "M" ⟨distinct, below⟩

theorem haveDistinctNames_toJsonItems : (items : List WireValue) → AreOrdered items →
    Json.HaveDistinctNames (toJsonItems items)
  | [], _ => trivial
  | item :: rest, ordered =>
    ⟨hasDistinctNames_toJson item ordered.1, haveDistinctNames_toJsonItems rest ordered.2⟩

theorem membersHaveDistinctNames_toJsonMembers : (fields : List (String × WireValue)) →
    HaveOrdered fields → Json.MembersHaveDistinctNames (toJsonMembers fields)
  | [], _ => trivial
  | (_, value) :: rest, ordered =>
    ⟨hasDistinctNames_toJson value ordered.1, membersHaveDistinctNames_toJsonMembers rest ordered.2⟩

end

theorem ofJson_eq_ok_iff {tree : Json} (distinct : tree.HasDistinctNames) {value : WireValue} :
    ofJson tree = .ok value ↔ value.IsOrdered ∧ value.toJson = tree.canonical := by
  constructor
  · intro read
    have held := represents_of_ofJson tree value read
    exact ⟨held.ordered, held.same⟩
  · rintro ⟨ordered, same⟩
    have form : IsForm value.toJson := (represents_of_ofJson _ value (ofJson_toJson value ordered)).form
    obtain ⟨other, read⟩ := exists_of_isForm (isForm_of_canonical form distinct same.symm)
    have held := represents_of_ofJson tree other read
    -- Two values in order with one JSON form are the same, as each is read from it.
    have again : ofJson other.toJson = .ok value := by
      rw [held.same, ← same]
      exact ofJson_toJson value ordered
    rw [read, ← ofJson_toJson other held.ordered, again]

/--
Wire values and the trees that are read as such correspond to each other one to one, and these trees are the
ones of the listed forms.
-/
theorem toJson_bijective :
    (∀ value : WireValue, value.IsOrdered →
      value.toJson.HasDistinctNames ∧ ofJson value.toJson = .ok value) ∧
    (∀ (tree : Json) (value : WireValue), tree.HasDistinctNames →
      (ofJson tree = .ok value ↔ value.IsOrdered ∧ value.toJson = tree.canonical)) ∧
    (∀ tree : Json, (∃ value, ofJson tree = .ok value) ↔ IsForm tree) := by
  refine ⟨?_, ?_, ?_⟩
  · intro value ordered
    exact ⟨hasDistinctNames_toJson value ordered, ofJson_toJson value ordered⟩
  · intro tree value distinct
    exact ofJson_eq_ok_iff distinct
  · intro tree
    constructor
    · rintro ⟨value, read⟩
      exact (represents_of_ofJson tree value read).form
    · exact exists_of_isForm

/-- A map whose members are not in the order of their names, with a list of bytes and a null in it. -/
def nestedTree : Json :=
  .object [("M", .object [
    ("tags", .object [("L", .array [.object [("B", .string "aGk=")], .object [("NULL", .bool true)]])]),
    ("n", .object [("N", .string "3")])])]

def nestedValue : WireValue :=
  .map [("n", .number "3"), ("tags", .list [.binary [104, 105], .null true])]

theorem toJson_bijective_nested :
    nestedTree.HasDistinctNames ∧ nestedValue.IsOrdered ∧ ofJson nestedTree = .ok nestedValue ∧
      ofJson nestedValue.toJson = .ok nestedValue ∧ IsForm nestedTree := by
  have distinct : nestedTree.HasDistinctNames := by
    simp [nestedTree, Json.HasDistinctNames, Json.HaveDistinctNames, Json.MembersHaveDistinctNames,
      Fields.names]
  have ordered : nestedValue.IsOrdered := by
    refine ⟨?_, trivial, ⟨trivial, trivial, trivial⟩, trivial⟩
    have less : "n" < "tags" := by decide
    exact List.pairwise_pair.mpr less
  have read : ofJson nestedTree = .ok nestedValue :=
    (toJson_bijective.2.1 nestedTree nestedValue distinct).mpr ⟨ordered, rfl⟩
  refine ⟨distinct, ordered, read, (toJson_bijective.1 nestedValue ordered).2, ?_⟩
  exact (toJson_bijective.2.2 nestedTree).mp ⟨nestedValue, read⟩

end ItemMapper.WireValue
