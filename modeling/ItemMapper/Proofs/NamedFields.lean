import ItemMapper.Fields
import Mathlib.Data.List.Nodup

/-!
# Fields from pairs with different names

No pair with a name of its own gets lost when fields are made from a list of pairs (`ofList_perm`), and its
value is the one under its name (`get?_ofList`).
-/

namespace ItemMapper.Fields

variable {α : Type}

/-! ### Names -/

theorem names_cons (field : String × α) (rest : List (String × α)) :
    names (field :: rest) = field.1 :: names rest :=
  rfl

theorem names_append (first second : List (String × α)) :
    names (first ++ second) = names first ++ names second :=
  List.map_append

/-! ### The first field -/

theorem get?_cons_self (name : String) (value : α) (rest : List (String × α)) :
    get? ((name, value) :: rest) name = some value :=
  List.lookup_cons_self

theorem get?_cons_of_ne {name other : String} (different : name ≠ other) (value : α)
    (rest : List (String × α)) : get? ((other, value) :: rest) name = get? rest name := by
  have unequal : (name == other) = false := by simpa using different
  simp [get?, List.lookup_cons, unequal]

/-! ### Nothing gets lost -/

theorem insert_perm {fields : List (String × α)} {name : String} (absent : name ∉ names fields)
    (value : α) : (insert name value fields).Perm ((name, value) :: fields) := by
  induction fields with
  | nil => exact .refl _
  | cons first rest ih =>
    obtain ⟨different, absent_rest⟩ : name ≠ first.1 ∧ name ∉ names rest := by
      simpa [names] using absent
    by_cases less : name < first.1
    · simp [insert, less]
    · simp only [insert, less, different, if_false]
      exact ((ih absent_rest).cons first).trans (.swap _ _ _)

theorem insertAll_perm {fields pairs : List (String × α)} (distinct : (names (fields ++ pairs)).Nodup) :
    (insertAll fields pairs).Perm (fields ++ pairs) := by
  induction pairs generalizing fields with
  | nil => simp [insertAll]
  | cons pair rest ih =>
    -- The pair is moved to the front, where inserting it leaves it up to the order.
    have moved : (fields ++ pair :: rest).Perm (pair :: fields ++ rest) := List.perm_middle
    have all_distinct : (names (pair :: fields ++ rest)).Nodup :=
      (moved.map Prod.fst).nodup_iff.mp distinct
    have absent : pair.1 ∉ names fields := by
      intro member
      refine (List.nodup_cons.mp all_distinct).1 ?_
      exact (List.map_subset Prod.fst (List.subset_append_left fields rest)) member
    have inserted := insert_perm absent pair.2
    have still_distinct : (names (insert pair.1 pair.2 fields ++ rest)).Nodup :=
      ((inserted.append_right rest).map Prod.fst).nodup_iff.mpr all_distinct
    exact (ih still_distinct).trans ((inserted.append_right rest).trans moved.symm)

theorem ofList_perm {pairs : List (String × α)} (distinct : (names pairs).Nodup) :
    (ofList pairs).Perm pairs :=
  @insertAll_perm α [] pairs distinct

theorem mem_insertAll {fields pairs : List (String × α)} {pair : String × α}
    (member : pair ∈ insertAll fields pairs) : pair ∈ fields ∨ pair ∈ pairs := by
  induction pairs generalizing fields with
  | nil => exact .inl member
  | cons first rest ih =>
    rcases ih member with early | late
    · rcases mem_insert early with rfl | present
      · exact .inr List.mem_cons_self
      · exact .inl present
    · exact .inr (List.mem_cons_of_mem first late)

theorem mem_of_mem_ofList {pairs : List (String × α)} {pair : String × α} (member : pair ∈ ofList pairs) :
    pair ∈ pairs := by
  rcases mem_insertAll member with absent | found
  · exact absurd absent List.not_mem_nil
  · exact found

theorem get?_of_mem {fields : List (String × α)} (distinct : (names fields).Nodup) {name : String}
    {value : α} (member : (name, value) ∈ fields) : get? fields name = some value := by
  induction fields with
  | nil => exact absurd member List.not_mem_nil
  | cons first rest ih =>
    obtain ⟨other, present⟩ := first
    obtain ⟨absent, tail⟩ := List.nodup_cons.mp distinct
    rcases List.mem_cons.mp member with same | below
    · obtain ⟨rfl, rfl⟩ := Prod.mk.inj same
      exact get?_cons_self name value rest
    · have different : name ≠ other := by
        rintro rfl
        exact absent (List.mem_map.mpr ⟨(name, value), below, rfl⟩)
      rw [get?_cons_of_ne different]
      exact ih tail below

theorem mem_of_get? {fields : List (String × α)} {name : String} {value : α}
    (found : get? fields name = some value) : (name, value) ∈ fields := by
  obtain ⟨before, after, rfl, -⟩ := List.lookup_eq_some_iff.mp found
  exact List.mem_append_right before List.mem_cons_self

theorem get?_eq_some_iff {fields : List (String × α)} (distinct : (names fields).Nodup) {name : String}
    {value : α} : get? fields name = some value ↔ (name, value) ∈ fields :=
  ⟨mem_of_get?, get?_of_mem distinct⟩

/-- In fields made from pairs with different names, every pair is found. -/
theorem get?_ofList {pairs : List (String × α)} (distinct : (names pairs).Nodup) {name : String}
    {value : α} (member : (name, value) ∈ pairs) : get? (ofList pairs) name = some value := by
  have same := ofList_perm distinct
  exact get?_of_mem ((same.map Prod.fst).nodup_iff.mpr distinct) (same.mem_iff.mpr member)

/-- A name that is stored has a value, whatever is stored after it. -/
theorem exists_get?_insertAll {fields pairs : List (String × α)} {name : String}
    (listed : (∃ value, get? fields name = some value) ∨ name ∈ names pairs) :
    ∃ value, get? (insertAll fields pairs) name = some value := by
  induction pairs generalizing fields with
  | nil => simpa [insertAll, names] using listed
  | cons pair rest ih =>
    apply ih
    rw [get?_insert]
    by_cases same : name = pair.1
    · exact .inl ⟨pair.2, if_pos same⟩
    · rw [if_neg same]
      exact listed.imp_right fun member => by simpa [names, same] using member

/-- Pairs that agree on their names are all kept. -/
theorem get?_ofList_of_agree {pairs : List (String × α)}
    (agree : ∀ first ∈ pairs, ∀ second ∈ pairs, first.1 = second.1 → first.2 = second.2) {name : String}
    {value : α} : get? (ofList pairs) name = some value ↔ (name, value) ∈ pairs := by
  constructor
  · exact fun found => mem_of_mem_ofList (mem_of_get? found)
  · intro member
    obtain ⟨other, found⟩ : ∃ other, get? (ofList pairs) name = some other :=
      exists_get?_insertAll (.inr (List.mem_map_of_mem member))
    have listed := mem_of_mem_ofList (mem_of_get? found)
    obtain rfl : other = value := agree _ listed _ member rfl
    exact found

theorem Ordered.nodup {fields : List (String × α)} (ordered : Ordered fields) : (names fields).Nodup := by
  apply List.pairwise_map.mpr
  apply ordered.imp
  intro first second less same
  exact String.lt_irrefl _ (same ▸ less)

/-! ### Mapping the values -/

variable {β : Type}

theorem names_map (f : α → β) (fields : List (String × α)) :
    names (fields.map (Prod.map id f)) = names fields := by
  rw [names, List.map_map]
  rfl

theorem insert_map (f : α → β) (name : String) (value : α) (fields : List (String × α)) :
    insert name (f value) (fields.map (Prod.map id f)) = (insert name value fields).map (Prod.map id f) := by
  induction fields with
  | nil => rfl
  | cons first rest ih =>
    obtain ⟨other, present⟩ := first
    rw [List.map_cons, Prod.map_apply, insert, insert, ih]
    simp only [id_eq, apply_ite (List.map (Prod.map id f)), List.map_cons, Prod.map_apply]

theorem insertAll_map (f : α → β) (fields pairs : List (String × α)) :
    insertAll (fields.map (Prod.map id f)) (pairs.map (Prod.map id f)) =
      (insertAll fields pairs).map (Prod.map id f) := by
  induction pairs generalizing fields with
  | nil => rfl
  | cons pair rest ih =>
    have inserted := ih (insert pair.1 pair.2 fields)
    rw [← insert_map] at inserted
    exact inserted

theorem ofList_map (f : α → β) (pairs : List (String × α)) :
    ofList (pairs.map (Prod.map id f)) = (ofList pairs).map (Prod.map id f) :=
  insertAll_map f [] pairs

end ItemMapper.Fields
