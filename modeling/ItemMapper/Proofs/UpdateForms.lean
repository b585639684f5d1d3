import ItemMapper.Proofs.UpdateMeaning

/-!
# The two forms of an update

A patch becomes an update expression or, in the older form, one entry for each attribute. Both start from
the same written changes, apart from setting a field to the empty text, so both fail with the same error or
say the same about every field (`compileUpdate_agrees`).
-/

namespace ItemMapper

/-! ### Entries for changes -/

/-- The entry of the older form for a change; a removal is a deletion without a value. -/
def WireChange.update : WireChange → AttributeUpdate
  | .set value => { value := some value, action := some .put }
  | .add value => { value := some value, action := some .add }
  | .delete value => { value := some value, action := some .delete }
  | .remove => { action := some .delete }

theorem WireChange.update_injective : Function.Injective update := by
  intro first second same
  cases first <;> cases second <;> simp_all [update]

namespace Patch

variable {gateway : Gateway} {types : DatatypeMap}

/-- Only setting the empty text is a removal in one form and a value in the other. -/
theorem attributeUpdate_eq_map {field : String} {change : FieldChange}
    (filled : change ≠ .set (.string "")) :
    attributeUpdate gateway types field change =
      (writeChange gateway types field change).map WireChange.update := by
  cases change with
  | remove => rfl
  | set value =>
    by_cases null : value = .null
    · subst null
      rfl
    · have not_null : value.isNull = false := by
        cases value <;> first | rfl | exact absurd rfl null
      have replaces : isRemoval value = false := by
        rw [Bool.eq_false_iff]
        intro removal
        rcases isRemoval_iff.mp removal with rfl | rfl
        · exact null rfl
        · exact filled rfl
      simp only [attributeUpdate, writeChange, writeReplacement, not_null, replaces, Bool.false_eq_true,
        if_false]
      rcases writeValue gateway types field value with cause | (_ | written) <;> rfl
  | add value =>
    rw [attributeUpdate, writeChange]
    cases writeAddend gateway types field value <;> rfl
  | delete value =>
    rw [attributeUpdate, writeChange]
    cases writeRemoved gateway types field value <;> rfl

theorem attributeUpdates_eq_map {patch : Patch}
    (filled : ∀ field, (field, FieldChange.set (.string "")) ∉ patch) :
    attributeUpdates gateway types patch =
      (patch.write gateway types).map (List.map (Prod.map id WireChange.update)) := by
  induction patch with
  | nil => rfl
  | cons entry rest ih =>
    obtain ⟨field, change⟩ := entry
    have first_filled : change ≠ .set (.string "") := by
      rintro rfl
      exact filled field List.mem_cons_self
    have rest_filled := ih fun other member => filled other (List.mem_cons_of_mem _ member)
    rw [attributeUpdates, write, attributeUpdate_eq_map first_filled, rest_filled]
    cases writeChange gateway types field change with
    | error cause => rfl
    | ok written => cases write gateway types rest <;> rfl

end Patch

variable {gateway : Gateway} {types : DatatypeMap}

theorem compileAttributeUpdates_eq_map {patch : Patch}
    (filled : ∀ field, (field, FieldChange.set (.string "")) ∉ patch) :
    compileAttributeUpdates gateway types patch = (patch.changes gateway types).map fun changes =>
      (Fields.ofList changes).map (Prod.map id WireChange.update) := by
  unfold compileAttributeUpdates Patch.changes
  rw [Patch.attributeUpdates_eq_map filled]
  cases patch.checkFields with
  | error cause => rfl
  | ok checked =>
    cases patch.write gateway types with
    | error cause => rfl
    | ok changes => exact congrArg Except.ok (Fields.ofList_map WireChange.update changes)

/-! ### What both forms say -/

/-- The plan has a clause that spells out a change of a field, under the verb of the change. -/
def ExpressionPlan.HasClause (plan : ExpressionPlan) (field : String) (change : WireChange) : Prop :=
  ∃ clause ∈ (plan.clauses.get change.verb).getD [],
    plan.resolve? change.verb clause = some (field, change)

theorem ExpressionPlan.Spells.hasClause_iff {plan : ExpressionPlan} {changes : List (String × WireChange)}
    (spells : plan.Spells changes) {field : String} {change : WireChange} :
    plan.HasClause field change ↔ (field, change) ∈ changes := by
  have same : some (field, change) ∈ ((plan.clauses.get change.verb).getD []).map
      (plan.resolve? change.verb) ↔ some (field, change) ∈
      (changes.filter fun other => other.2.verb == change.verb).map some := by
    rw [spells change.verb]
  simpa [HasClause] using same

/--
The results of the two forms agree: both fail with the same error, or the entries are for the fields of
the patch, and a field has the entry for a change exactly if a clause spells out this change.
-/
inductive FormsAgree (patch : Patch) :
    Result (ExpressionPlan × Scope) → Result (Fields AttributeUpdate) → Prop
  | fail (cause : Error) : FormsAgree patch (.error cause) (.error cause)
  | succeed {plan : ExpressionPlan} {after : Scope} {updates : Fields AttributeUpdate} :
      (Fields.names updates).Perm (patch.map Prod.fst) →
      (∀ field change, plan.HasClause field change ↔ Fields.get? updates field = some change.update) →
      FormsAgree patch (.ok (plan, after)) (.ok updates)

theorem get?_map_update {changes : List (String × WireChange)} (distinct : (changes.map Prod.fst).Nodup)
    {field : String} {change : WireChange} :
    Fields.get? ((Fields.ofList changes).map (Prod.map id WireChange.update)) field =
      some change.update ↔ (field, change) ∈ changes := by
  have same := Fields.ofList_perm distinct
  have names_distinct : (Fields.names ((Fields.ofList changes).map
      (Prod.map id WireChange.update))).Nodup := by
    rw [Fields.names_map]
    exact (same.map Prod.fst).nodup_iff.mpr distinct
  rw [Fields.get?_eq_some_iff names_distinct, ← same.mem_iff]
  constructor
  · intro member
    obtain ⟨⟨other, found⟩, inside, mapped⟩ := List.mem_map.mp member
    obtain ⟨rfl, alike⟩ := Prod.mk.inj mapped
    rwa [WireChange.update_injective alike] at inside
  · exact fun member => List.mem_map.mpr ⟨(field, change), member, rfl⟩

/-- The two forms of an update agree, unless the patch sets a field to the empty text. -/
theorem compileUpdate_agrees {patch : Patch} {scope : Scope} (reachable : scope.Reachable)
    (filled : ∀ field, (field, FieldChange.set (.string "")) ∉ patch) :
    FormsAgree patch (compileUpdate gateway types patch scope)
      (compileAttributeUpdates gateway types patch) := by
  rw [compileUpdate_eq_map, compileAttributeUpdates_eq_map filled]
  cases written : patch.changes gateway types with
  | error cause => exact .fail cause
  | ok changes =>
    obtain ⟨meaning, distinct⟩ := Patch.changes_spec written
    have spells := ExpressionPlan.spells_placeAll reachable.wellFormed distinct
    refine .succeed ?_ ?_
    · rw [Fields.names_map, ← meaning.fields]
      exact (Fields.ofList_perm distinct).map Prod.fst
    · intro field change
      rw [spells.hasClause_iff, get?_map_update distinct]

/-- Every kind of change, on fields whose names collide once they are cleaned. -/
theorem compileUpdate_agrees_colliding :
    let types : DatatypeMap := [("tags", .leaf .stringSet)]
    let patch : Patch := [("tags", .delete (.list [.string "x"])), ("a-b", .add (.number (.integer 2))),
      ("a_b", .set (.string "Ann")), ("tag-s", .set .null), ("gone", .remove)]
    let scope := Scope.ofNames [":a_b"]
    scope.Reachable ∧ (∀ field, (field, FieldChange.set (.string "")) ∉ patch) ∧
      ∃ plan after updates, compileUpdate .identity types patch scope = .ok (plan, after) ∧
        compileAttributeUpdates .identity types patch = .ok updates ∧
        FormsAgree patch (.ok (plan, after)) (.ok updates) := by
  intro types patch scope
  have reachable : scope.Reachable := .ofNames [":a_b"]
  have filled : ∀ field, (field, FieldChange.set (.string "")) ∉ patch := by
    intro field member
    simp [patch] at member
  have compiled : ∃ plan after, compileUpdate .identity types patch scope = .ok (plan, after) :=
    ⟨_, _, rfl⟩
  have updated : ∃ updates, compileAttributeUpdates .identity types patch = .ok updates := ⟨_, rfl⟩
  obtain ⟨plan, after, compiled⟩ := compiled
  obtain ⟨updates, updated⟩ := updated
  have agree := @compileUpdate_agrees .identity types patch scope reachable filled
  rw [compiled, updated] at agree
  exact ⟨reachable, filled, plan, after, updates, compiled, updated, agree⟩

end ItemMapper
