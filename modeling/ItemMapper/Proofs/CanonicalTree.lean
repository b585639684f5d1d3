import ItemMapper.Json.Basic
import ItemMapper.Proofs.NamedFields

/-!
# Canonical trees

Two JSON trees without a name twice in an object are the same up to the order of members if their canonical
trees are equal. What a canonical tree is made of tells what the tree is made of, up to that order: the same
leaves (`eq_string_of_canonical`, `eq_bool_of_canonical`), the canonical items one by one
(`eq_array_of_canonical`) and the canonical members in another order (`eq_object_of_canonical`).
-/

namespace ItemMapper

namespace Json

mutual

/-- No object in the tree has two members of one name. -/
def HasDistinctNames : Json → Prop
  | .array items => HaveDistinctNames items
  | .object members => (Fields.names members).Nodup ∧ MembersHaveDistinctNames members
  | _ => True

def HaveDistinctNames : List Json → Prop
  | [] => True
  | item :: rest => item.HasDistinctNames ∧ HaveDistinctNames rest

def MembersHaveDistinctNames : List (String × Json) → Prop
  | [] => True
  | (_, value) :: rest => value.HasDistinctNames ∧ MembersHaveDistinctNames rest

end

/-! ### Items and members -/

theorem canonicalItems_eq_map (items : List Json) : canonicalItems items = items.map canonical := by
  induction items with
  | nil => rfl
  | cons item rest ih => rw [canonicalItems, ih, List.map_cons]

theorem canonicalMembers_eq_map (members : List (String × Json)) :
    canonicalMembers members = members.map (Prod.map id canonical) := by
  induction members with
  | nil => rfl
  | cons member rest ih =>
    rw [canonicalMembers, ih]
    rfl

theorem names_canonicalMembers (members : List (String × Json)) :
    Fields.names (canonicalMembers members) = Fields.names members := by
  rw [canonicalMembers_eq_map, Fields.names_map]

theorem canonicalMembers_perm {members : List (String × Json)} (distinct : (Fields.names members).Nodup) :
    (Fields.ofList (canonicalMembers members)).Perm (members.map (Prod.map id canonical)) := by
  rw [← canonicalMembers_eq_map]
  apply Fields.ofList_perm
  rw [names_canonicalMembers]
  exact distinct

theorem haveDistinctNames_iff {items : List Json} :
    HaveDistinctNames items ↔ ∀ item ∈ items, item.HasDistinctNames := by
  induction items with
  | nil => simp [HaveDistinctNames]
  | cons item rest ih => rw [HaveDistinctNames, ih, List.forall_mem_cons]

theorem membersHaveDistinctNames_iff {members : List (String × Json)} :
    MembersHaveDistinctNames members ↔ ∀ member ∈ members, member.2.HasDistinctNames := by
  induction members with
  | nil => simp [MembersHaveDistinctNames]
  | cons member rest ih => rw [MembersHaveDistinctNames, ih, List.forall_mem_cons]

theorem hasDistinctNames_single (name : String) {content : Json} (distinct : content.HasDistinctNames) :
    (Json.object [(name, content)]).HasDistinctNames := by
  refine ⟨?_, distinct, trivial⟩
  rw [Fields.names, List.map_singleton]
  exact List.nodup_singleton name

/-! ### Trees with a given canonical tree -/

theorem eq_string_of_canonical {tree : Json} {text : String} (same : tree.canonical = .string text) :
    tree = .string text := by
  cases tree with
  | string value => exact same
  | null | bool | number | array | object | flaw => cases same

theorem eq_bool_of_canonical {tree : Json} {b : Bool} (same : tree.canonical = .bool b) :
    tree = .bool b := by
  cases tree with
  | bool value => exact same
  | null | string | number | array | object | flaw => cases same

theorem eq_array_of_canonical {tree : Json} {items : List Json} (same : tree.canonical = .array items) :
    ∃ inner, tree = .array inner ∧ inner.map canonical = items := by
  cases tree with
  | array inner =>
    refine ⟨inner, rfl, ?_⟩
    rw [← canonicalItems_eq_map]
    exact Json.array.inj same
  | null | bool | string | number | object | flaw => cases same

theorem eq_object_of_canonical {tree : Json} {members : List (String × Json)}
    (distinct : tree.HasDistinctNames) (same : tree.canonical = .object members) :
    ∃ inner, tree = .object inner ∧ MembersHaveDistinctNames inner ∧
      members.Perm (inner.map (Prod.map id canonical)) := by
  cases tree with
  | object inner =>
    refine ⟨inner, rfl, distinct.2, ?_⟩
    rw [← Json.object.inj same]
    exact canonicalMembers_perm distinct.1
  | null | bool | string | number | array | flaw => cases same

theorem eq_single_of_canonical {tree : Json} {name : String} {content : Json}
    (distinct : tree.HasDistinctNames) (same : tree.canonical = .object [(name, content)]) :
    ∃ inner : Json, tree = .object [(name, inner)] ∧ inner.HasDistinctNames ∧
      inner.canonical = content := by
  obtain ⟨members, rfl, inner_distinct, perm⟩ := eq_object_of_canonical distinct same
  have single : members.map (Prod.map id canonical) = [(name, content)] :=
    (List.singleton_perm.mp perm).symm
  obtain ⟨⟨other, inner⟩, rfl, pair_same⟩ := List.map_eq_singleton_iff.mp single
  cases pair_same
  exact ⟨inner, rfl, inner_distinct.1, rfl⟩

/-! ### Arrays of texts -/

theorem hasDistinctNames_texts {α : Type} (text : α → String) (values : List α) :
    (Json.array (values.map fun value => .string (text value))).HasDistinctNames := by
  apply haveDistinctNames_iff.mpr
  intro item member
  obtain ⟨value, -, rfl⟩ := List.mem_map.mp member
  exact trivial

theorem canonical_texts {α : Type} (text : α → String) (values : List α) :
    (Json.array (values.map fun value => .string (text value))).canonical =
      .array (values.map fun value => .string (text value)) := by
  rw [canonical, canonicalItems_eq_map, List.map_map]
  rfl

theorem eq_texts_of_map_canonical {α : Type} {text : α → String} {items : List Json} {values : List α}
    (same : items.map canonical = values.map fun value => .string (text value)) :
    items = values.map fun value => .string (text value) := by
  induction items generalizing values with
  | nil => exact same
  | cons item rest ih =>
    cases values with
    | nil => cases same
    | cons value others =>
      obtain ⟨first, rest_same⟩ := List.cons.inj same
      rw [List.map_cons, eq_string_of_canonical first, ih rest_same]

theorem eq_texts_of_canonical {tree : Json} {α : Type} {text : α → String} {values : List α}
    (same : tree.canonical = .array (values.map fun value => .string (text value))) :
    tree = .array (values.map fun value => .string (text value)) := by
  obtain ⟨items, rfl, items_same⟩ := eq_array_of_canonical same
  rw [eq_texts_of_map_canonical items_same]

end Json

end ItemMapper
