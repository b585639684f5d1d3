import ItemMapper.Codec.Expectation
import ItemMapper.Proofs.EncryptedFields

/-!
# Expected values are written like items

The values that attributes are compared with form an item of their own, with a field for each attribute
(`comparedItem`). Conditions are written if that item is. Every field that it has on the wire is the expected value of
its attribute, be it nested, a set or an explicit null, and the conditions on existence stand beside them.

Main result: `writeExpected_like_item`, by an equation between the two (`writeExpected_eq_map`).
-/

namespace ItemMapper.Codec

/-- The item of the values that attributes are compared with. -/
def comparedItem : List (String × Expectation) → Item
  | [] => []
  | (name, .equals value) :: rest => (name, value) :: comparedItem rest
  | (_, .mustExist _) :: rest => comparedItem rest

/-- What stands for a condition on the attribute of a name when the compared values are written. -/
def Expectation.entry? (wire : WireItem) (name : String) : Expectation → Option ExpectedValue
  | .mustExist flag => some { mustExist := some flag }
  | .equals _ => (Fields.get? wire name).map fun value => { value := some value }

def expectedEntries (conditions : List (String × Expectation)) (wire : WireItem) : Fields ExpectedValue :=
  conditions.filterMap fun (name, expectation) => (expectation.entry? wire name).map (name, ·)

/-- What is expected of an attribute: the value that is written for it, or that it exists or not. -/
inductive IsExpected (conditions : Fields Expectation) (wire : WireItem) (name : String) : ExpectedValue → Prop
  | compared {value : WireValue} : Fields.get? wire name = some value →
      IsExpected conditions wire name { value := some value }
  | stated {flag : Bool} : Fields.get? conditions name = some (.mustExist flag) →
      IsExpected conditions wire name { mustExist := some flag }

variable {gateway : Gateway} {types : DatatypeMap} {nulls : Bool}

/-! ### Compared values -/

theorem mem_comparedItem {conditions : List (String × Expectation)} {name : String} {value : Value} :
    (name, value) ∈ comparedItem conditions ↔ (name, .equals value) ∈ conditions := by
  induction conditions with
  | nil => simp [comparedItem]
  | cons first rest ih =>
    obtain ⟨other, expectation⟩ := first
    cases expectation <;> simp [comparedItem, ih]

theorem mem_names_comparedItem {conditions : List (String × Expectation)} {name : String} :
    name ∈ Fields.names (comparedItem conditions) ↔ ∃ value, (name, .equals value) ∈ conditions := by
  simp [Fields.names, mem_comparedItem]

/-- What is written for an attribute was compared with it. -/
theorem exists_compared {conditions : List (String × Expectation)} {wire : WireItem} {name : String}
    {stored : WireValue} (written : writeItem gateway types nulls (comparedItem conditions) = .ok wire)
    (found : Fields.get? wire name = some stored) : ∃ value, (name, .equals value) ∈ conditions := by
  rw [← mem_names_comparedItem]
  -- A name without a compared value is not on the wire.
  by_contra absent
  rw [get?_writeFields_of_absent written absent] at found
  cases found

/-! ### The entries -/

theorem mem_expectedEntries {conditions : List (String × Expectation)} {wire : WireItem} {name : String}
    {entry : ExpectedValue} : (name, entry) ∈ expectedEntries conditions wire ↔
      ∃ expectation, (name, expectation) ∈ conditions ∧ expectation.entry? wire name = some entry := by
  simp only [expectedEntries, List.mem_filterMap, Option.map_eq_some_iff, Prod.exists, Prod.mk.injEq]
  constructor
  · rintro ⟨_, expectation, member, _, stands, rfl, rfl⟩
    exact ⟨expectation, member, stands⟩
  · rintro ⟨expectation, member, stands⟩
    exact ⟨name, expectation, member, entry, stands, rfl, rfl⟩

theorem ordered_expectedEntries {conditions : List (String × Expectation)} (ordered : Fields.Ordered conditions)
    (wire : WireItem) : Fields.Ordered (expectedEntries conditions wire) := by
  refine List.Pairwise.filterMap _ ?_ ordered
  rintro ⟨name, expectation⟩ ⟨other, second⟩ less made made_eq later later_eq
  obtain ⟨entry, -, rfl⟩ := Option.map_eq_some_iff.mp made_eq
  obtain ⟨other_entry, -, rfl⟩ := Option.map_eq_some_iff.mp later_eq
  exact less

/-- A field in front makes no difference to the conditions on other attributes. -/
theorem expectedEntries_keepField_append {conditions : List (String × Expectation)} {name : String}
    (absent : name ∉ Fields.names conditions) (written : Option WireValue) (wire : WireItem) :
    expectedEntries conditions (keepField nulls name written ++ wire) = expectedEntries conditions wire := by
  apply List.filterMap_congr
  rintro ⟨other, expectation⟩ member
  have different : other ≠ name := by
    rintro rfl
    exact absent (List.mem_map_of_mem member)
  cases expectation with
  | mustExist flag => rfl
  | equals value => simp only [Expectation.entry?, get?_keepField_append nulls name written wire different]

/-- The entries are the written fields, each as the value of its name, and the conditions on existence. -/
theorem get?_expectedEntries_iff {conditions : Fields Expectation} (ordered : Fields.Ordered conditions)
    {wire : WireItem} (written : writeItem gateway types nulls (comparedItem conditions) = .ok wire) {name : String}
    {entry : ExpectedValue} : Fields.get? (expectedEntries conditions wire) name = some entry ↔
      IsExpected conditions wire name entry := by
  rw [Fields.get?_eq_some_iff (ordered_expectedEntries ordered wire).nodup, mem_expectedEntries]
  constructor
  · rintro ⟨expectation, member, stands⟩
    cases expectation with
    | mustExist flag =>
      cases stands
      exact .stated (Fields.get?_of_mem ordered.nodup member)
    | equals value =>
      obtain ⟨stored, found, rfl⟩ := Option.map_eq_some_iff.mp stands
      exact .compared found
  · intro expected
    cases expected with
    | compared found =>
      obtain ⟨value, member⟩ := exists_compared written found
      exact ⟨.equals value, member, Option.map_eq_some_iff.mpr ⟨_, found, rfl⟩⟩
    | stated found => exact ⟨_, Fields.mem_of_get? found, rfl⟩

/-! ### Writing -/

theorem writeExpectation_equals (name : String) (value : Value) :
    writeExpectation gateway types nulls name (.equals value) =
      (writeField gateway nulls types name (joinPath "" name) value).map (keepExpected nulls name) :=
  rfl

/-- The entry of a compared value is what its written field holds, if it is kept at all. -/
theorem expectedEntries_equals {name : String} {wire : WireItem} (absent : Fields.get? wire name = none)
    (value : Value) (written : Option WireValue) (rest : List (String × Expectation)) :
    expectedEntries ((name, .equals value) :: rest) (keepField nulls name written ++ wire) =
      keepExpected nulls name written ++ expectedEntries rest (keepField nulls name written ++ wire) := by
  unfold expectedEntries
  rw [List.filterMap_cons]
  simp only [Expectation.entry?, get?_keepField_self absent]
  cases written with
  | some stored => rfl
  | none => cases nulls <;> rfl

theorem writeExpected_eq_map {conditions : List (String × Expectation)} (distinct : (Fields.names conditions).Nodup) :
    writeExpected gateway types nulls conditions =
      (writeItem gateway types nulls (comparedItem conditions)).map (expectedEntries conditions) := by
  induction conditions with
  | nil => rfl
  | cons first rest ih =>
    obtain ⟨name, expectation⟩ := first
    obtain ⟨absent, others_distinct⟩ := List.nodup_cons.mp distinct
    have others := ih others_distinct
    cases expectation with
    | mustExist flag =>
      rw [writeExpected, others, comparedItem]
      cases writeItem gateway types nulls (comparedItem rest) <;> rfl
    | equals value =>
      rw [writeExpected, others, writeExpectation_equals, comparedItem]
      unfold writeItem
      rw [writeFields]
      refine join_map fun written wire _ rest_written => ?_
      -- The others have different names, so this field and theirs do not get in the way of each other.
      have apart : name ∉ Fields.names (comparedItem rest) := by
        intro member
        obtain ⟨other, compared⟩ := mem_names_comparedItem.mp member
        exact absent (List.mem_map.mpr ⟨_, compared, rfl⟩)
      rw [expectedEntries_equals (get?_writeFields_of_absent rest_written apart),
        expectedEntries_keepField_append absent]

/--
If the item of the compared values cannot be written, the conditions fail with the same error. If it can, they are
written as the values of its wire form, each under its name, beside the conditions on existence, and nothing else.
-/
theorem writeExpected_like_item {conditions : Fields Expectation} (ordered : Fields.Ordered conditions) :
    (∀ fault, writeItem gateway types nulls (comparedItem conditions) = .error fault →
      writeExpected gateway types nulls conditions = .error fault) ∧
    ∀ wire, writeItem gateway types nulls (comparedItem conditions) = .ok wire →
      ∃ expected, writeExpected gateway types nulls conditions = .ok expected ∧ Fields.Ordered expected ∧
        ∀ name entry, Fields.get? expected name = some entry ↔ IsExpected conditions wire name entry := by
  rw [writeExpected_eq_map ordered.nodup]
  constructor
  · intro fault failed
    rw [failed]
    rfl
  · intro wire written
    rw [written]
    exact ⟨_, rfl, ordered_expectedEntries ordered wire, fun _ _ => get?_expectedEntries_iff ordered written⟩

/-- A null between the others is left out, and of two equal texts in a nested set one is kept. -/
theorem writeExpected_like_item_nested :
    let types : DatatypeMap := [("home", .nested [("rooms", .leaf .stringSet)])]
    let conditions : Fields Expectation := [("gone", .equals .null),
      ("home", .equals (.map [("rooms", .list [.string "hall", .string "hall"])])), ("mail", .mustExist false)]
    let wire : WireItem := [("home", .map [("rooms", .stringSet ["hall"])])]
    Fields.Ordered conditions ∧ writeItem ⟨none⟩ types false (comparedItem conditions) = .ok wire ∧
      writeExpected ⟨none⟩ types false conditions = .ok [
        ("home", { value := some (.map [("rooms", .stringSet ["hall"])]) }), ("mail", { mustExist := some false })] ∧
      ∀ name entry, IsExpected conditions wire name entry ↔
        name = "home" ∧ entry = { value := some (.map [("rooms", .stringSet ["hall"])]) } ∨
        name = "mail" ∧ entry = { mustExist := some false } := by
  intro types conditions wire
  have ordered : Fields.Ordered conditions := by
    unfold Fields.Ordered
    decide
  have written : writeItem ⟨none⟩ types false (comparedItem conditions) = .ok wire := rfl
  obtain ⟨expected, made, expected_ordered, each⟩ := (writeExpected_like_item ordered).2 wire written
  have shown : writeExpected ⟨none⟩ types false conditions = .ok [
      ("home", { value := some (.map [("rooms", .stringSet ["hall"])]) }), ("mail", { mustExist := some false })] :=
    rfl
  refine ⟨ordered, written, shown, fun name entry => ?_⟩
  obtain rfl := Except.ok.inj (made.symm.trans shown)
  rw [← each, Fields.get?_eq_some_iff expected_ordered.nodup]
  simp

end ItemMapper.Codec
