import ItemMapper.Json.Shape
import ItemMapper.Proofs.CanonicalTree
import ItemMapper.Proofs.Results
import Mathlib.Data.List.Perm.Basic

/-!
# Trees read as values

A reader gets a value from its form if it gets it from every tree that is the same up to the order of members
(`Reads`). Readers are put together from smaller ones, and so are such facts about them: of arrays, of objects
whose members are read alike (`reads_fields`), and of records, whose members may come in any order as long as
reading them in one order or another makes no difference (`reads_record`).
-/

namespace ItemMapper

/-- Two lists of pairs in order are the same if one is a permutation of the other. -/
theorem Fields.Ordered.eq_of_perm {α : Type} {first second : List (String × α)} (first_ordered : Ordered first)
    (second_ordered : Ordered second) (perm : first.Perm second) : first = second := by
  apply perm.eq_of_pairwise _ first_ordered second_ordered
  intro one other _ _ less more
  exact absurd more (String.lt_asymm less)

theorem Fields.ofList_of_perm {α : Type} {fields pairs : List (String × α)} (ordered : Ordered fields)
    (perm : pairs.Perm fields) : ofList pairs = fields := by
  have distinct : (names pairs).Nodup := (perm.map Prod.fst).nodup_iff.mpr ordered.nodup
  exact (ordered_ofList pairs).eq_of_perm ordered ((ofList_perm distinct).trans perm)

namespace Json

/-! ### Reading up to the order of members -/

/-- A reader gets a value from every tree that is the same as its form up to the order of members. -/
structure Reads {α : Type} (read : Json → Shaped α) (value : α) (form : Json) : Prop where
  distinct : form.HasDistinctNames
  named : form.isNamed
  reads : ∀ tree : Json, tree.HasDistinctNames → tree.canonical = form.canonical → read tree = .ok value

theorem Reads.of_form {α : Type} {read : Json → Shaped α} {value : α} {form : Json}
    (reads : Reads read value form) : read form = .ok value :=
  reads.reads form reads.distinct rfl

/-- Different values have different forms, also up to the order of members. -/
theorem Reads.eq_of_canonical {α : Type} {read : Json → Shaped α} {first second : α} {form other : Json}
    (first_reads : Reads read first form) (second_reads : Reads read second other)
    (same : form.canonical = other.canonical) : first = second := by
  have again := second_reads.reads form first_reads.distinct same
  rw [first_reads.of_form] at again
  exact Except.ok.inj again

theorem isNamed_canonical (tree : Json) : tree.canonical.isNamed = tree.isNamed := by
  cases tree <;> rfl

theorem eq_number_of_canonical {tree : Json} {number : Number} (same : tree.canonical = .number number) :
    tree = .number number := by
  cases tree with
  | number value => exact same
  | null | bool | string | array | object | flaw => cases same

theorem eq_null_of_canonical {tree : Json} (same : tree.canonical = .null) : tree = .null := by
  cases tree with
  | null => rfl
  | bool | number | string | array | object | flaw => cases same

/-- A leaf is the only tree of its form, since no members stand in it. -/
theorem reads_leaf {α : Type} {read : Json → Shaped α} {value : α} {form : Json}
    (distinct : form.HasDistinctNames) (named : form.isNamed)
    (unique : ∀ tree : Json, tree.canonical = form.canonical → tree = form) (found : read form = .ok value) :
    Reads read value form := by
  refine ⟨distinct, named, ?_⟩
  intro tree _ same
  rw [unique tree same, found]

theorem reads_string (text : String) : Reads asString text (.string text) :=
  reads_leaf trivial rfl (fun _ => eq_string_of_canonical) rfl

theorem reads_bool (b : Bool) : Reads asBool b (.bool b) :=
  reads_leaf trivial rfl (fun _ => eq_bool_of_canonical) rfl

theorem reads_float (x : Binary64) : Reads asFloat x (.number (.float x)) :=
  reads_leaf trivial rfl (fun _ => eq_number_of_canonical) rfl

theorem reads_variant {known : List String} {name : String} (member : name ∈ known) :
    Reads (asVariant known) name (.string name) :=
  reads_leaf trivial rfl (fun _ => eq_string_of_canonical) (if_pos member)

theorem reads_none {α : Type} (read : Json → Shaped α) : Reads (asOption read) none .null :=
  reads_leaf trivial rfl (fun _ => eq_null_of_canonical) rfl

variable {α β : Type} {read : Json → Shaped α} {value : α} {form : Json}

theorem Reads.bind (reads : Reads read value form) {next : α → Shaped β} {result : β}
    (made : next value = .ok result) : Reads (fun tree => read tree >>= next) result form := by
  refine ⟨reads.distinct, reads.named, ?_⟩
  intro tree distinct same
  exact bind_eq_ok_iff.mpr ⟨value, reads.reads tree distinct same, made⟩

/-- A value may be absent as `null`, so its form is a different one. -/
theorem Reads.present (reads : Reads read value form) (not_null : form ≠ .null) :
    Reads (asOption read) (some value) form := by
  refine ⟨reads.distinct, reads.named, ?_⟩
  intro tree distinct same
  have found := reads.reads tree distinct same
  cases tree with
  | null => exact absurd (eq_null_of_canonical same.symm) not_null
  | bool | number | string | array | object | flaw => exact map_eq_ok_iff.mpr ⟨value, found, rfl⟩

/-! ### Arrays and objects -/

theorem reads_list {form : α → Json} {values : List α} (each : ∀ value ∈ values, Reads read value (form value)) :
    Reads (asList read) values (.array (values.map form)) := by
  constructor
  case distinct =>
    apply haveDistinctNames_iff.mpr
    intro item member
    obtain ⟨value, inside, rfl⟩ := List.mem_map.mp member
    exact (each value inside).distinct
  case named => rfl
  case reads =>
    intro tree distinct same
    rw [canonical, canonicalItems_eq_map, List.map_map] at same
    obtain ⟨items, rfl, items_same⟩ := eq_array_of_canonical same
    have items_distinct := haveDistinctNames_iff.mp distinct
    -- Items and values are walked through together.
    have read_each : List.Forall₂ (fun item value => read item = .ok value) items values := by
      clear distinct same
      induction values generalizing items with
      | nil =>
        obtain rfl := List.map_eq_nil_iff.mp items_same
        exact .nil
      | cons value rest ih =>
        obtain ⟨item, others, rfl, item_same, others_same⟩ := List.map_eq_cons_iff.mp items_same
        obtain ⟨item_distinct, others_distinct⟩ := List.forall_mem_cons.mp items_distinct
        obtain ⟨first, others_reads⟩ := List.forall_mem_cons.mp each
        exact .cons (first.reads item item_distinct item_same)
          (ih others_reads others others_same others_distinct)
    exact mapM_eq_ok_iff_forall₂.mpr read_each

/-- A member is the same as another one up to the order of members further down. -/
structure Matches (member form : String × Json) : Prop where
  distinct : member.2.HasDistinctNames
  name : member.1 = form.1
  same : member.2.canonical = form.2.canonical

/-- The members of a tree belong to those of its form, in another order. -/
theorem exists_matched {entry : α → String × Json} {entries : List α} {tree : Json}
    (distinct : tree.HasDistinctNames) (names_distinct : (Fields.names (entries.map entry)).Nodup)
    (same : tree.canonical = (Json.object (entries.map entry)).canonical) :
    ∃ members others, tree = .object members ∧ others.Perm entries ∧
      List.Forall₂ (fun member other => Matches member (entry other)) members others := by
  rw [canonical] at same
  obtain ⟨members, rfl, members_distinct, perm⟩ := eq_object_of_canonical distinct same
  have matched := (canonicalMembers_perm names_distinct).symm.trans perm
  rw [List.map_map] at matched
  -- The permutation of the canonical members is one of the entries that they come from.
  have along : List.Forall₂ (fun member other => member = (Prod.map id canonical ∘ entry) other)
      (entries.map (Prod.map id canonical ∘ entry)) entries := by
    rw [List.forall₂_map_left_iff]
    exact List.forall₂_same.mpr fun _ _ => rfl
  obtain ⟨others, each, entries_perm⟩ := List.perm_comp_forall₂ matched.symm along
  rw [List.forall₂_map_left_iff] at each
  refine ⟨members, others, rfl, entries_perm, ?_⟩
  have both := (List.forall₂_and_left _ _).mpr ⟨membersHaveDistinctNames_iff.mp members_distinct, each⟩
  apply both.imp
  rintro member other ⟨member_distinct, pair_same⟩
  obtain ⟨name_same, same⟩ := Prod.mk.inj pair_same
  exact ⟨member_distinct, name_same, same⟩

theorem Reads.isNamed_of_matches {name : String} (reads : Reads read value form) {member : String × Json}
    (matches_form : Matches member (name, form)) : member.2.isNamed := by
  rw [← isNamed_canonical, matches_form.same, isNamed_canonical]
  exact reads.named

theorem Reads.of_matches {name : String} (reads : Reads read value form) {member : String × Json}
    (matches_form : Matches member (name, form)) : read member.2 = .ok value :=
  reads.reads member.2 matches_form.distinct matches_form.same

theorem hasDistinctNames_object {members : List (String × Json)} (distinct : (Fields.names members).Nodup)
    (each : ∀ member ∈ members, ∃ (read : Json → Shaped α) (value : α), Reads read value member.2) :
    (Json.object members).HasDistinctNames := by
  refine ⟨distinct, membersHaveDistinctNames_iff.mpr ?_⟩
  intro member listed
  obtain ⟨_, _, reads⟩ := each member listed
  exact reads.distinct

theorem readMembers_of_matches {form : α → Json} {members : List (String × Json)} {fields : List (String × α)}
    (each : ∀ field ∈ fields, Reads read field.2 (form field.2))
    (matched : List.Forall₂ (fun member field => Matches member (Prod.map id form field)) members fields) :
    readMembers read members = .ok fields := by
  induction matched with
  | nil => rfl
  | @cons member field _ _ first _ ih =>
    obtain ⟨field_reads, others_read⟩ := List.forall_mem_cons.mp each
    have named := field_reads.isNamed_of_matches first
    have found := field_reads.of_matches first
    have same : (member.1, field.2) = field := Prod.ext first.name rfl
    simp [readMembers, named, found, ih others_read, same, bind, Except.bind, pure, Except.pure]

theorem reads_fields {form : α → Json} {fields : Fields α} (ordered : Fields.Ordered fields)
    (each : ∀ field ∈ fields, Reads read field.2 (form field.2)) :
    Reads (asFields read) fields (.object (fields.map (Prod.map id form))) := by
  have names_distinct : (Fields.names (fields.map (Prod.map id form))).Nodup := by
    rw [Fields.names_map]
    exact ordered.nodup
  constructor
  case distinct =>
    apply hasDistinctNames_object names_distinct
    intro member listed
    obtain ⟨field, inside, rfl⟩ := List.mem_map.mp listed
    exact ⟨read, field.2, each field inside⟩
  case named => rfl
  case reads =>
    intro tree distinct same
    obtain ⟨members, others, rfl, perm, matched⟩ := exists_matched distinct names_distinct same
    have others_read : ∀ field ∈ others, Reads read field.2 (form field.2) := by
      intro field listed
      exact each field (perm.mem_iff.mp listed)
    have found := readMembers_of_matches others_read matched
    exact map_eq_ok_iff.mpr ⟨others, found, Fields.ofList_of_perm ordered perm⟩

/-! ### Records -/

variable {σ : Type} {fields : List (RecordField σ)} {built : Finset String → σ}

/--
A record takes in the value under a name, whatever it has taken in before. What has been taken in, and in which
order, shows in the names only.
-/
def TakesIn (fields : List (RecordField σ)) (built : Finset String → σ) (member : String × Json) : Prop :=
  ∃ field, (fields.find? fun field => field.name == member.1) = some field ∧
    ∀ seen, Reads (field.read (built seen)) (built (insert member.1 seen)) member.2

/-- A field that is read on its own and then stored takes in what it reads. -/
theorem TakesIn.of_field {name : String} {optional : Bool} {put : σ → α → σ} (reads : Reads read value form)
    (found : (fields.find? fun field => field.name == name) =
      some ⟨name, optional, fun draft tree => read tree >>= fun value => pure (put draft value)⟩)
    (stored : ∀ seen, put (built seen) value = built (insert name seen)) :
    TakesIn fields built (name, form) := by
  refine ⟨_, found, ?_⟩
  intro seen
  exact reads.bind (congrArg Except.ok (stored seen))

theorem readRecordMembers_of_matches {seen : List String} {members forms : List (String × Json)}
    (distinct : (seen ++ Fields.names forms).Nodup) (each : ∀ form ∈ forms, TakesIn fields built form)
    (matched : List.Forall₂ Matches members forms) :
    readRecordMembers fields seen (built seen.toFinset) members =
      .ok (built (seen ++ Fields.names forms).toFinset) := by
  induction matched generalizing seen with
  | nil => rw [Fields.names, List.map_nil, List.append_nil, readRecordMembers]
  | @cons member entry _ forms first _ ih =>
    obtain ⟨name, form⟩ := entry
    obtain rfl : member.1 = name := first.name
    obtain ⟨⟨field, found, takes⟩, others⟩ := List.forall_mem_cons.mp each
    have named := (takes seen.toFinset).isNamed_of_matches first
    have taken := (takes seen.toFinset).of_matches first
    have moved : (seen ++ Fields.names ((member.1, form) :: forms)).Perm
        (member.1 :: seen ++ Fields.names forms) := List.perm_middle
    have still_distinct := moved.nodup_iff.mp distinct
    -- The name comes for the first time, so it is not refused as a duplicate.
    have unseen : member.1 ∉ seen := by
      intro listed
      exact (List.nodup_cons.mp still_distinct).1 (List.mem_append_left _ listed)
    have rest_read := ih still_distinct others
    rw [List.toFinset_cons] at rest_read
    rw [List.toFinset_eq_of_perm _ _ moved, ← rest_read]
    simp [readRecordMembers, named, found, unseen, taken, bind, Except.bind]

/-- A record that takes in all members of a form has been read when it has taken them in. -/
theorem reads_record {record : String} {members : List (String × Json)} {start whole : σ}
    (built : Finset String → σ) (before : built ∅ = start)
    (distinct : (Fields.names members).Nodup) (each : ∀ member ∈ members, TakesIn fields built member)
    (after : built (Fields.names members).toFinset = whole) :
    Reads (asRecord record fields start) whole (.object members) := by
  obtain rfl := before
  obtain rfl := after
  constructor
  case distinct =>
    apply hasDistinctNames_object distinct
    intro member listed
    obtain ⟨field, _, reads⟩ := each member listed
    exact ⟨_, _, reads ∅⟩
  case named => rfl
  case reads =>
    intro tree tree_distinct same
    have listed : members.map id = members := List.map_id members
    rw [← listed] at same
    obtain ⟨inner, others, rfl, perm, matched⟩ := exists_matched tree_distinct (by rwa [listed]) same
    -- The tree has its members in an order of its own, but what has been taken in depends on the names only.
    have names_perm : (Fields.names others).Perm (Fields.names members) := perm.map Prod.fst
    have others_distinct := names_perm.nodup_iff.mpr distinct
    have others_taken : ∀ other ∈ others, TakesIn fields built other := by
      intro other listed
      exact each other (perm.mem_iff.mp listed)
    have found : readRecordMembers fields [] (built ∅) inner = .ok (built (Fields.names others).toFinset) :=
      @readRecordMembers_of_matches σ fields built [] inner others others_distinct others_taken matched
    rw [← List.toFinset_eq_of_perm _ _ names_perm]
    exact found

end Json
end ItemMapper
