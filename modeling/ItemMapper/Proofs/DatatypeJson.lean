import ItemMapper.Proofs.CanonicalTree
import ItemMapper.Proofs.Results
import ItemMapper.Wire.Datatypes

/-!
# The JSON form of datatype trees

A datatype tree is declared by tags and objects of tags. Only one thing that can be declared has no such
form: an encrypted type whose key has an empty name, for which no tag stands. Trees count up to the order of
members, as for wire values.

Main result: what is read from a tree is written as this tree, and what is written is read back exactly if
every encrypted type in it has a key with a name (`toJson_exact`).
-/

namespace ItemMapper

/-! ### Tags -/

namespace WireType

/-- An encrypted type has a key with a name. -/
def IsKeyed : WireType → Prop
  | .encrypted keyId => keyId ≠ ""
  | _ => True

theorem ofTag_encrypted {keyId : String} (named : keyId ≠ "") :
    ofTag (encrypted keyId).tag = .ok (.encrypted keyId) := by
  have dropped : dropMark? encryptedMark.toList (encrypted keyId).tag.toList = some keyId.toList := by
    rw [dropMark?_eq_some_iff, tag, String.toList_append]
  have letters : keyId.toList ≠ [] := by simpa using named
  obtain ⟨c, rest, same⟩ := List.exists_cons_of_ne_nil letters
  unfold ofTag
  rw [dropped, same]
  simp only
  rw [← same, String.ofList_toList]

/-- A tag is read as a type exactly if the type has this tag, unless a key has no name. -/
theorem ofTag_eq_ok_iff {text : String} {type : WireType} :
    ofTag text = .ok type ↔ type.IsKeyed ∧ type.tag = text := by
  constructor
  · intro read
    unfold ofTag at read
    split at read
    next => cases read
    next keyId letters dropped =>
      cases read
      constructor
      · rintro empty
        exact letters (String.ofList_eq_empty_iff.mp empty)
      · have whole := dropMark?_eq_some_iff.mp dropped
        rw [tag, ← String.toList_inj, String.toList_append, String.toList_ofList, whole]
    next =>
      -- Every other type has a tag of its own, and any other text is refused.
      split at read <;> cases read
      all_goals exact ⟨trivial, rfl⟩
  · rintro ⟨keyed, rfl⟩
    cases type with
    | encrypted keyId => exact ofTag_encrypted keyed
    | _ => rfl

/-- No tag is read as an encrypted type without a key's name, so the type is the one that was written. -/
theorem ofTag_tag_eq_ok_iff {type read : WireType} :
    ofTag type.tag = .ok read ↔ type.IsKeyed ∧ read = type := by
  constructor
  · intro found
    cases type with
    | encrypted keyId =>
      by_cases named : keyId = ""
      · subst named
        cases found
      · rw [ofTag_encrypted named] at found
        exact ⟨named, (Except.ok.inj found).symm⟩
    | _ =>
      cases found
      exact ⟨trivial, rfl⟩
  · rintro ⟨keyed, rfl⟩
    exact ofTag_eq_ok_iff.mpr ⟨keyed, rfl⟩

end WireType

/-! ### Trees of declarations -/

mutual

/-- Every encrypted type in a declaration, at whatever depth, has a key with a name. -/
def DatatypeNode.IsKeyed : DatatypeNode → Prop
  | .leaf type => type.IsKeyed
  | .nested fields => DatatypeMap.IsKeyed fields

def DatatypeMap.IsKeyed : DatatypeMap → Prop
  | [] => True
  | (_, node) :: rest => node.IsKeyed ∧ DatatypeMap.IsKeyed rest

end

mutual

/-- The fields of every subtree are in the order of their names. -/
def DatatypeNode.IsOrdered : DatatypeNode → Prop
  | .leaf _ => True
  | .nested fields => Fields.Ordered fields ∧ DatatypeMap.HaveOrdered fields

def DatatypeMap.HaveOrdered : List (String × DatatypeNode) → Prop
  | [] => True
  | (_, node) :: rest => node.IsOrdered ∧ DatatypeMap.HaveOrdered rest

end

namespace DatatypeNode

/-- A tree that stands for a declaration: a tag, or an object of such trees. -/
inductive IsForm : Json → Prop
  | leaf {type : WireType} : type.IsKeyed → IsForm (.string type.tag)
  | nested {members : List (String × Json)} : (∀ member ∈ members, IsForm member.2) →
      IsForm (.object members)

end DatatypeNode

theorem DatatypeMap.toMembers_eq_map (fields : List (String × DatatypeNode)) :
    toMembers fields = fields.map (Prod.map id DatatypeNode.toJson) := by
  induction fields with
  | nil => rfl
  | cons field rest ih =>
    rw [toMembers, ih]
    rfl

theorem DatatypeMap.haveOrdered_iff {fields : List (String × DatatypeNode)} :
    HaveOrdered fields ↔ ∀ field ∈ fields, field.2.IsOrdered := by
  induction fields with
  | nil => simp [HaveOrdered]
  | cons field rest ih => rw [HaveOrdered, ih, List.forall_mem_cons]

theorem DatatypeMap.isKeyed_iff {fields : List (String × DatatypeNode)} :
    IsKeyed fields ↔ ∀ field ∈ fields, field.2.IsKeyed := by
  induction fields with
  | nil => simp [IsKeyed]
  | cons field rest ih => rw [IsKeyed, ih, List.forall_mem_cons]

theorem DatatypeMap.ofMembers?_cons {name : String} {tree : Json} {rest : List (String × Json)}
    {fields : List (String × DatatypeNode)} :
    ofMembers? ((name, tree) :: rest) = some fields ↔
      ∃ node others, DatatypeNode.ofJson? tree = some node ∧ ofMembers? rest = some others ∧
        fields = (name, node) :: others := by
  rw [ofMembers?]
  cases DatatypeNode.ofJson? tree with
  | none => simp
  | some node => simp [eq_comm]

theorem DatatypeNode.ofJson?_string {text : String} {node : DatatypeNode} :
    ofJson? (.string text) = some node ↔
      ∃ type, WireType.ofTag text = .ok type ∧ node = .leaf type := by
  rw [ofJson?]
  cases WireType.ofTag text with
  | error fault => simp [Except.toOption]
  | ok type => simp [Except.toOption, eq_comm]

theorem DatatypeNode.ofJson?_object {members : List (String × Json)} {node : DatatypeNode} :
    ofJson? (.object members) = some node ↔
      ∃ fields, DatatypeMap.ofMembers? members = some fields ∧ node = .nested (Fields.ofList fields) := by
  simp [ofJson?, eq_comm]

/-! ### Reading what was written -/

mutual

theorem DatatypeNode.ofJson?_toJson : (node : DatatypeNode) → node.IsOrdered → (read : DatatypeNode) →
    (DatatypeNode.ofJson? node.toJson = some read ↔ node.IsKeyed ∧ read = node)
  | .leaf type, _, read => by
    rw [DatatypeNode.toJson, DatatypeNode.ofJson?_string, DatatypeNode.IsKeyed]
    constructor
    · rintro ⟨found, tag_read, rfl⟩
      obtain ⟨keyed, rfl⟩ := WireType.ofTag_tag_eq_ok_iff.mp tag_read
      exact ⟨keyed, rfl⟩
    · rintro ⟨keyed, rfl⟩
      exact ⟨type, WireType.ofTag_tag_eq_ok_iff.mpr ⟨keyed, rfl⟩, rfl⟩
  | .nested fields, ordered, read => by
    -- Members in order are taken in as they stand.
    have inside := DatatypeMap.ofMembers?_toMembers fields ordered.2
    have same := Fields.ofList_of_ordered ordered.1
    rw [DatatypeNode.toJson, DatatypeNode.ofJson?_object, DatatypeNode.IsKeyed]
    constructor
    · rintro ⟨found, fields_read, rfl⟩
      obtain ⟨keyed, rfl⟩ := (inside found).mp fields_read
      exact ⟨keyed, by rw [same]⟩
    · rintro ⟨keyed, rfl⟩
      exact ⟨fields, (inside fields).mpr ⟨keyed, rfl⟩, by rw [same]⟩

theorem DatatypeMap.ofMembers?_toMembers : (fields : List (String × DatatypeNode)) →
    DatatypeMap.HaveOrdered fields → (read : List (String × DatatypeNode)) →
    (DatatypeMap.ofMembers? (DatatypeMap.toMembers fields) = some read ↔
      DatatypeMap.IsKeyed fields ∧ read = fields)
  | [], _, read => by
    simp [DatatypeMap.toMembers, DatatypeMap.ofMembers?, DatatypeMap.IsKeyed, eq_comm]
  | (name, node) :: rest, ordered, read => by
    have first := DatatypeNode.ofJson?_toJson node ordered.1
    have others := DatatypeMap.ofMembers?_toMembers rest ordered.2
    rw [DatatypeMap.toMembers, DatatypeMap.ofMembers?_cons, DatatypeMap.IsKeyed]
    constructor
    · rintro ⟨found, tail, first_read, rest_read, rfl⟩
      obtain ⟨keyed, rfl⟩ := (first found).mp first_read
      obtain ⟨rest_keyed, rfl⟩ := (others tail).mp rest_read
      exact ⟨⟨keyed, rest_keyed⟩, rfl⟩
    · rintro ⟨⟨keyed, rest_keyed⟩, rfl⟩
      exact ⟨node, rest, (first node).mpr ⟨keyed, rfl⟩, (others rest).mpr ⟨rest_keyed, rfl⟩, rfl⟩

end

/-! ### Writing what was read -/

/-- A tree of the form of declarations, and what it declares, up to the order of members. -/
structure DatatypeNode.Represents (node : DatatypeNode) (tree : Json) : Prop where
  form : DatatypeNode.IsForm tree
  keyed : node.IsKeyed
  ordered : node.IsOrdered
  same : node.toJson = tree.canonical

mutual

theorem DatatypeNode.represents_of_ofJson? : (tree : Json) → (node : DatatypeNode) →
    DatatypeNode.ofJson? tree = some node → node.Represents tree
  | .string text, node, read => by
    obtain ⟨type, tag_read, rfl⟩ := DatatypeNode.ofJson?_string.mp read
    obtain ⟨keyed, rfl⟩ := WireType.ofTag_eq_ok_iff.mp tag_read
    exact ⟨.leaf keyed, keyed, trivial, rfl⟩
  | .object members, node, read => by
    obtain ⟨fields, fields_read, rfl⟩ := DatatypeNode.ofJson?_object.mp read
    obtain ⟨forms, keyed, ordered, same⟩ :=
      DatatypeMap.represents_of_ofMembers? members fields fields_read
    -- The members are put in order, which drops none but those with a name that comes again.
    refine ⟨.nested forms, ?_, ⟨Fields.ordered_ofList fields, ?_⟩, ?_⟩
    · apply DatatypeMap.isKeyed_iff.mpr
      intro field member
      exact DatatypeMap.isKeyed_iff.mp keyed field (Fields.mem_of_mem_ofList member)
    · apply DatatypeMap.haveOrdered_iff.mpr
      intro field member
      exact DatatypeMap.haveOrdered_iff.mp ordered field (Fields.mem_of_mem_ofList member)
    · rw [DatatypeNode.toJson, DatatypeMap.toMembers_eq_map, ← Fields.ofList_map,
        ← DatatypeMap.toMembers_eq_map, same]
      rfl
  | .null, _, read | .bool _, _, read | .number _, _, read | .array _, _, read
  | .flaw _ _, _, read => by cases read

theorem DatatypeMap.represents_of_ofMembers? : (members : List (String × Json)) →
    (fields : List (String × DatatypeNode)) → DatatypeMap.ofMembers? members = some fields →
    (∀ member ∈ members, DatatypeNode.IsForm member.2) ∧ DatatypeMap.IsKeyed fields ∧
      DatatypeMap.HaveOrdered fields ∧ DatatypeMap.toMembers fields = Json.canonicalMembers members
  | [], fields, read => by
    cases read
    exact ⟨nofun, trivial, trivial, rfl⟩
  | (name, tree) :: rest, fields, read => by
    obtain ⟨node, others, first_read, others_read, rfl⟩ := DatatypeMap.ofMembers?_cons.mp read
    have first := DatatypeNode.represents_of_ofJson? tree node first_read
    obtain ⟨forms, keyed, ordered, same⟩ := DatatypeMap.represents_of_ofMembers? rest others others_read
    refine ⟨List.forall_mem_cons.mpr ⟨first.form, forms⟩, ⟨first.keyed, keyed⟩,
      ⟨first.ordered, ordered⟩, ?_⟩
    rw [DatatypeMap.toMembers, Json.canonicalMembers, first.same, same]

end

/-! ### Every form is read -/

namespace DatatypeNode

theorem exists_ofMembers? {members : List (String × Json)}
    (each : ∀ member ∈ members, ∃ node, ofJson? member.2 = some node) :
    ∃ fields, DatatypeMap.ofMembers? members = some fields := by
  induction members with
  | nil => exact ⟨[], rfl⟩
  | cons member rest ih =>
    obtain ⟨⟨node, read⟩, others⟩ := List.forall_mem_cons.mp each
    obtain ⟨fields, others_read⟩ := ih others
    exact ⟨_, DatatypeMap.ofMembers?_cons.mpr ⟨node, fields, read, others_read, rfl⟩⟩

theorem exists_of_isForm {tree : Json} (form : IsForm tree) : ∃ node, ofJson? tree = some node := by
  induction form with
  | @leaf type keyed =>
    exact ⟨_, ofJson?_string.mpr ⟨type, WireType.ofTag_eq_ok_iff.mpr ⟨keyed, rfl⟩, rfl⟩⟩
  | nested _ each =>
    obtain ⟨fields, read⟩ := exists_ofMembers? each
    exact ⟨_, ofJson?_object.mpr ⟨fields, read, rfl⟩⟩

/-- Whether a tree stands for a declaration does not depend on the order of members. -/
theorem isForm_of_canonical {canonicalTree : Json} (form : IsForm canonicalTree) {tree : Json}
    (distinct : tree.HasDistinctNames) (same : tree.canonical = canonicalTree) : IsForm tree := by
  induction form generalizing tree with
  | leaf keyed =>
    rw [Json.eq_string_of_canonical same]
    exact .leaf keyed
  | nested _ each =>
    obtain ⟨members, rfl, all_distinct, perm⟩ := Json.eq_object_of_canonical distinct same
    apply IsForm.nested
    intro member belongs
    have listed := perm.mem_iff.mpr (List.mem_map_of_mem belongs)
    exact each _ listed (Json.membersHaveDistinctNames_iff.mp all_distinct member belongs) rfl

theorem ofJson?_eq_some_iff {tree : Json} (distinct : tree.HasDistinctNames) {node : DatatypeNode} :
    ofJson? tree = some node ↔ node.IsOrdered ∧ node.IsKeyed ∧ node.toJson = tree.canonical := by
  constructor
  · intro read
    have held := represents_of_ofJson? tree node read
    exact ⟨held.ordered, held.keyed, held.same⟩
  · rintro ⟨ordered, keyed, same⟩
    have back := (ofJson?_toJson node ordered node).mpr ⟨keyed, rfl⟩
    have form := (represents_of_ofJson? _ node back).form
    obtain ⟨other, read⟩ := exists_of_isForm (isForm_of_canonical form distinct same.symm)
    have held := represents_of_ofJson? tree other read
    -- Two declarations with one JSON form are the same, as each is read from it.
    have other_back := (ofJson?_toJson other held.ordered other).mpr ⟨held.keyed, rfl⟩
    rw [held.same, ← same, back] at other_back
    rw [read, Option.some.inj other_back]

/-! ### Trees without flaws -/

theorem membersIntact_iff {members : List (String × Json)} :
    Json.membersIntact members = true ↔ ∀ member ∈ members, member.2.isIntact = true := by
  induction members with
  | nil => simp [Json.membersIntact]
  | cons member rest ih => rw [Json.membersIntact, Bool.and_eq_true, ih, List.forall_mem_cons]

theorem isIntact_of_isForm {tree : Json} (form : IsForm tree) : tree.isIntact = true := by
  induction form with
  | leaf => rfl
  | nested _ each => exact membersIntact_iff.mpr each

theorem isNamed_of_isForm {tree : Json} (form : IsForm tree) : tree.isNamed = true := by
  cases form <;> rfl

theorem ofJson_eq_ok_iff {tree : Json} {node : DatatypeNode} :
    ofJson tree = .ok node ↔ ofJson? tree = some node := by
  rw [ofJson]
  cases read : ofJson? tree with
  | none => split <;> simp
  | some found =>
    have intact := isIntact_of_isForm (represents_of_ofJson? tree found read).form
    simp [intact]

end DatatypeNode

namespace DatatypeMap

theorem readMembers_eq_ok_iff {members : List (String × Json)} {fields : List (String × DatatypeNode)} :
    Json.readMembers DatatypeNode.ofJson members = .ok fields ↔ ofMembers? members = some fields := by
  induction members generalizing fields with
  | nil => simp [Json.readMembers, ofMembers?]
  | cons member rest ih =>
    obtain ⟨name, tree⟩ := member
    rw [Json.readMembers, ofMembers?_cons]
    constructor
    · intro read
      split at read
      next => cases read
      next =>
        obtain ⟨node, others, first, others_read, rfl⟩ := join_eq_ok_iff.mp read
        exact ⟨node, others, DatatypeNode.ofJson_eq_ok_iff.mp first, ih.mp others_read, rfl⟩
    · rintro ⟨node, others, first, others_read, rfl⟩
      have named := DatatypeNode.isNamed_of_isForm (DatatypeNode.represents_of_ofJson? tree node first).form
      rw [named, DatatypeNode.ofJson_eq_ok_iff.mpr first, ih.mpr others_read]
      rfl

/-- A datatype tree is read as the subtree that its object declares. -/
theorem ofJson_eq_ok_iff {tree : Json} {types : DatatypeMap} :
    ofJson tree = .ok types ↔ DatatypeNode.ofJson? tree = some (.nested types) := by
  cases tree with
  | object members =>
    rw [DatatypeNode.ofJson?_object, ofJson, Json.asFields, map_eq_ok_iff]
    simp only [readMembers_eq_ok_iff, DatatypeNode.nested.injEq, @eq_comm _ types]
  | string text =>
    rw [DatatypeNode.ofJson?_string]
    simp [ofJson, Json.asFields]
  | null | bool | number | array | flaw => simp [ofJson, Json.asFields, DatatypeNode.ofJson?]

end DatatypeMap

/-! ### One tree for every datatype tree -/

mutual

theorem DatatypeNode.hasDistinctNames_toJson : (node : DatatypeNode) → node.IsOrdered →
    node.toJson.HasDistinctNames
  | .leaf _, _ => trivial
  | .nested fields, ordered => by
    refine ⟨?_, DatatypeMap.membersHaveDistinctNames_toMembers fields ordered.2⟩
    rw [DatatypeMap.toMembers_eq_map, Fields.names_map]
    exact ordered.1.nodup

theorem DatatypeMap.membersHaveDistinctNames_toMembers : (fields : List (String × DatatypeNode)) →
    DatatypeMap.HaveOrdered fields → Json.MembersHaveDistinctNames (DatatypeMap.toMembers fields)
  | [], _ => trivial
  | (_, node) :: rest, ordered =>
    ⟨DatatypeNode.hasDistinctNames_toJson node ordered.1,
      DatatypeMap.membersHaveDistinctNames_toMembers rest ordered.2⟩

end

namespace DatatypeMap

/-- The fields of the tree and of every subtree are in the order of their names. -/
def IsOrdered (types : DatatypeMap) : Prop :=
  Fields.Ordered types ∧ HaveOrdered types

/--
A datatype tree is read back from its JSON form exactly if every encrypted type in it has a key with a name,
and then as it was; a JSON tree that is read is the form of what was read. Tags are read as types and objects
as subtrees, and a tag that is read is the one that the type has.
-/
theorem toJson_exact :
    (∀ types : DatatypeMap, types.IsOrdered → types.toJson.HasDistinctNames ∧
      ∀ read, ofJson types.toJson = .ok read ↔ types.IsKeyed ∧ read = types) ∧
    (∀ (tree : Json) (types : DatatypeMap), tree.HasDistinctNames →
      (ofJson tree = .ok types ↔
        types.IsOrdered ∧ types.IsKeyed ∧ types.toJson = tree.canonical)) ∧
    (∀ (tree : Json) (node : DatatypeNode), DatatypeNode.ofJson tree = .ok node →
      (∃ type, node = .leaf type ∧ tree = .string type.tag) ∨
        ∃ fields members, node = .nested fields ∧ tree = .object members) ∧
    ∀ (text : String) (type : WireType),
      WireType.ofTag text = .ok type ↔ type.IsKeyed ∧ type.tag = text := by
  refine ⟨?_, ?_, ?_, ?_⟩
  · intro types ordered
    refine ⟨DatatypeNode.hasDistinctNames_toJson (.nested types) ordered, ?_⟩
    intro read
    rw [ofJson_eq_ok_iff]
    have back := DatatypeNode.ofJson?_toJson (.nested types) ordered (.nested read)
    rwa [DatatypeNode.nested.injEq] at back
  · intro tree types distinct
    rw [ofJson_eq_ok_iff]
    exact DatatypeNode.ofJson?_eq_some_iff distinct
  · intro tree node read
    have held := DatatypeNode.represents_of_ofJson? tree node (DatatypeNode.ofJson_eq_ok_iff.mp read)
    cases node with
    | leaf type =>
      left
      exact ⟨type, rfl, Json.eq_string_of_canonical held.same.symm⟩
    | nested fields =>
      right
      cases held.form with
      | leaf => cases held.same
      | nested => exact ⟨fields, _, rfl, rfl⟩
  · intro text type
    exact WireType.ofTag_eq_ok_iff

/-- Members that are not in order, keys with colons and marks in their names, and a key without name. -/
theorem toJson_exact_settings :
    let tree : Json := .object [
      ("settings", .object [("theme", .string "S"), ("key", .string "ENCRYPTED:a:b")]),
      ("id", .string "ENCRYPTED:ENCRYPTED:")]
    let types : DatatypeMap := [("id", .leaf (.encrypted "ENCRYPTED:")),
      ("settings", .nested [("key", .leaf (.encrypted "a:b")), ("theme", .leaf .string)])]
    let keyless : DatatypeMap := [("id", .leaf (.encrypted ""))]
    tree.HasDistinctNames ∧ types.IsOrdered ∧ types.IsKeyed ∧ ofJson tree = .ok types ∧
      ofJson types.toJson = .ok types ∧ ∀ read, ofJson keyless.toJson ≠ .ok read := by
  intro tree types keyless
  have distinct : tree.HasDistinctNames := by
    simp [tree, Json.HasDistinctNames, Json.MembersHaveDistinctNames, Fields.names]
  have ordered : types.IsOrdered := by
    have outer : "id" < "settings" := by decide
    have inner : "key" < "theme" := by decide
    have nested : Fields.Ordered [("key", DatatypeNode.leaf (.encrypted "a:b")), ("theme", .leaf .string)] :=
      List.pairwise_pair.mpr inner
    exact ⟨List.pairwise_pair.mpr outer, trivial, ⟨nested, trivial, trivial, trivial⟩, trivial⟩
  have keyed : types.IsKeyed := by
    have outer : "ENCRYPTED:" ≠ "" := by decide
    have inner : "a:b" ≠ "" := by decide
    exact ⟨outer, ⟨inner, trivial, trivial⟩, trivial⟩
  have read : ofJson tree = .ok types := (toJson_exact.2.1 tree types distinct).mpr ⟨ordered, keyed, rfl⟩
  refine ⟨distinct, ordered, keyed, read, ?_, ?_⟩
  · exact ((toJson_exact.1 types ordered).2 types).mpr ⟨keyed, rfl⟩
  · intro other other_read
    have alone : keyless.IsOrdered := ⟨List.pairwise_singleton _ _, trivial, trivial⟩
    obtain ⟨named, -⟩ := (((toJson_exact.1 keyless alone).2 other).mp other_read).1
    exact named rfl

end DatatypeMap

end ItemMapper
