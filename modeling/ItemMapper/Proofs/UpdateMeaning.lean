import ItemMapper.Proofs.NamedFields
import ItemMapper.Proofs.PlacedChanges
import ItemMapper.Proofs.WrittenLeaf

/-!
# What a compiled update means

An update expression means the changes that its clauses spell out, with each alias and each placeholder
replaced by what it stands for. A compiled patch means its own changes (`compileUpdate_means`), also after
its text has been read again.
-/

namespace ItemMapper

/-! ### The meaning of a patch -/

/-- A set with at least one element. -/
def WireValue.IsFilledSet (value : WireValue) : Prop :=
  value.isSet ∧ value.setSize? ≠ some 0

namespace Patch

variable {gateway : Gateway} {types : DatatypeMap}

/-- What the change of a field means for the store, given how values of the field are written. -/
inductive Means (gateway : Gateway) (types : DatatypeMap) (field : String) :
    FieldChange → WireChange → Prop
  | remove : Means gateway types field .remove .remove
  | setNull : Means gateway types field (.set .null) .remove
  | setEmpty : Means gateway types field (.set (.string "")) .remove
  | setNothing {value : Value} : Codec.writeField gateway false types field field value = .ok none →
      Means gateway types field (.set value) .remove
  | set {value : Value} {written : WireValue} : value ≠ .string "" →
      Codec.writeField gateway false types field field value = .ok (some written) →
      Means gateway types field (.set value) (.set written)
  | add {value : Value} {written : WireValue} :
      Codec.writeField gateway false types field field value = .ok (some written) →
      written.isNumber ∨ written.IsFilledSet → Means gateway types field (.add value) (.add written)
  | delete {value : Value} {written : WireValue} :
      Codec.writeField gateway false types field field value = .ok (some written) →
      written.IsFilledSet → Means gateway types field (.delete value) (.delete written)

/-- What the changes of a patch mean, one by one. -/
def AllMean (gateway : Gateway) (types : DatatypeMap) (patch : Patch)
    (changes : List (String × WireChange)) : Prop :=
  List.Forall₂ (fun entry change => entry.1 = change.1 ∧ Means gateway types entry.1 entry.2 change.2)
    patch changes

/-! ### Written sets -/

theorem setSize?_writeField {field path : String} {value : Value} {written : WireValue}
    (wrote : Codec.writeField gateway false types field path value = .ok (some written)) :
    written.setSize? ≠ some 0 := by
  rcases Codec.writeField_cases wrote with ⟨fields, inner, -, rfl⟩ | ⟨-, leaf⟩
  · exact nofun
  · exact leaf.setSize?_ne_zero

/-! ### Written changes -/

theorem isRemoval_iff {value : Value} : isRemoval value ↔ value = .null ∨ value = .string "" := by
  cases value <;> simp [isRemoval, Value.isNull, Value.string?]

theorem writeAddend_eq_ok {field : String} {value : Value} {written : WireValue}
    (wrote : writeAddend gateway types field value = .ok written) :
    Codec.writeField gateway false types field field value = .ok (some written) ∧
      (written.isNumber ∨ written.IsFilledSet) := by
  obtain ⟨result, stored, checked⟩ := bind_eq_ok_iff.mp wrote
  cases result with
  | none => cases checked
  | some found =>
    simp only at checked
    split at checked
    next accepted =>
      obtain rfl := Except.ok.inj checked
      refine ⟨stored, ?_⟩
      rcases Bool.or_eq_true _ _ ▸ accepted with number | set
      · exact .inl number
      · exact .inr ⟨set, setSize?_writeField stored⟩
    next => cases checked

theorem writeRemoved_eq_ok {field : String} {value : Value} {written : WireValue}
    (wrote : writeRemoved gateway types field value = .ok written) :
    Codec.writeField gateway false types field field value = .ok (some written) ∧
      written.IsFilledSet := by
  obtain ⟨result, stored, checked⟩ := bind_eq_ok_iff.mp wrote
  cases result with
  | none => cases checked
  | some found =>
    simp only at checked
    split at checked
    next set =>
      obtain rfl := Except.ok.inj checked
      exact ⟨stored, set, setSize?_writeField stored⟩
    next => cases checked

theorem writeChange_means {field : String} {change : FieldChange} {written : WireChange}
    (wrote : writeChange gateway types field change = .ok written) :
    Means gateway types field change written := by
  cases change with
  | remove =>
    obtain rfl := Except.ok.inj wrote
    exact .remove
  | set value =>
    rw [writeChange] at wrote
    split at wrote
    next removal =>
      obtain rfl := Except.ok.inj wrote
      rcases isRemoval_iff.mp removal with rfl | rfl
      · exact .setNull
      · exact .setEmpty
    next replaces =>
      have not_empty : value ≠ .string "" := fun same => replaces (isRemoval_iff.mpr (.inr same))
      obtain ⟨result, stored, given⟩ := bind_eq_ok_iff.mp wrote
      cases result with
      | none =>
        obtain rfl := Except.ok.inj given
        exact .setNothing stored
      | some found =>
        obtain rfl := Except.ok.inj given
        exact .set not_empty stored
  | add value =>
    obtain ⟨found, added, rfl⟩ := map_eq_ok_iff.mp wrote
    obtain ⟨stored, accepted⟩ := writeAddend_eq_ok added
    exact .add stored accepted
  | delete value =>
    obtain ⟨found, removed, rfl⟩ := map_eq_ok_iff.mp wrote
    obtain ⟨stored, accepted⟩ := writeRemoved_eq_ok removed
    exact .delete stored accepted

theorem write_means {patch : Patch} {changes : List (String × WireChange)}
    (wrote : patch.write gateway types = .ok changes) : AllMean gateway types patch changes := by
  induction patch generalizing changes with
  | nil =>
    obtain rfl := Except.ok.inj wrote
    exact .nil
  | cons entry rest ih =>
    obtain ⟨written, others, first, rest_written, rfl⟩ := join_eq_ok_iff.mp wrote
    exact .cons ⟨rfl, writeChange_means first⟩ (ih rest_written)

end Patch

/-! ### The meaning of clauses -/

/-- All clauses, verb by verb. -/
def UpdateClauses.all (clauses : UpdateClauses) : List String :=
  Verb.all.flatMap fun verb => (clauses.get verb).getD []

namespace ExpressionPlan

/-- What a clause spells out under a verb, once its alias and its placeholder are looked up. -/
def resolve? (plan : ExpressionPlan) (verb : Verb) (clause : String) : Option (String × WireChange) :=
  match verb, ClauseText.words clause with
  | .remove, [name] => do
    let field ← Fields.get? plan.attributeNames name
    return (field, .remove)
  | .set, [name, sign, placeholder] => do
    guard (sign = "=")
    let field ← Fields.get? plan.attributeNames name
    let value ← Fields.get? plan.attributeValues placeholder
    return (field, .set value)
  | .add, [name, placeholder] => do
    let field ← Fields.get? plan.attributeNames name
    let value ← Fields.get? plan.attributeValues placeholder
    return (field, .add value)
  | .delete, [name, placeholder] => do
    let field ← Fields.get? plan.attributeNames name
    let value ← Fields.get? plan.attributeValues placeholder
    return (field, .delete value)
  | _, _ => none

/-- The plan spells out changes: under each verb those of this verb, in their order. -/
def Spells (plan : ExpressionPlan) (changes : List (String × WireChange)) : Prop :=
  ∀ verb, ((plan.clauses.get verb).getD []).map (plan.resolve? verb) =
    (changes.filter fun change => change.2.verb == verb).map some

/-- A name is a word of exactly one clause. -/
def MentionsOnce (plan : ExpressionPlan) (name : String) : Prop :=
  (plan.clauses.all.countP fun clause => name ∈ ClauseText.words clause) = 1

variable {scope : Scope} {placed : List PlacedChange}

theorem resolve?_clause {plan : ExpressionPlan} {change : PlacedChange} (formed : change.IsPlaced scope)
    (named : Fields.get? plan.attributeNames change.name = some change.field)
    (bound : ∀ binding, change.binding? = some binding →
      Fields.get? plan.attributeValues binding.1 = some binding.2) :
    plan.resolve? change.change.verb change.clause = some (change.field, change.change) := by
  have spelled := formed.words_clause
  cases formed with
  | remove _ => simp [resolve?, spelled, PlacedChange.words, WireChange.verb, named]
  | @value field name placeholder change value _ _ has_value =>
    have stored := bound (placeholder, value) (by simp [PlacedChange.binding?, has_value])
    cases change with
    | remove => cases has_value
    | _ =>
      obtain rfl := Option.some.inj has_value
      simp [resolve?, spelled, PlacedChange.words, WireChange.verb, named, stored]

theorem get_ofPlaced (placed : List PlacedChange) (verb : Verb) :
    (ofPlaced placed).clauses.get verb = some (clausesFor placed verb) := by
  cases verb <;> rfl

theorem clausesFor_cons (change : PlacedChange) (rest : List PlacedChange) (verb : Verb) :
    clausesFor (change :: rest) verb =
      if change.change.verb = verb then change.clause :: clausesFor rest verb
      else clausesFor rest verb := by
  by_cases same : change.change.verb = verb <;> simp [clausesFor, same]

/-- The clauses of a plan are those of its changes, in an order by verbs. -/
theorem countP_all (placed : List PlacedChange) (test : String → Bool) :
    (ofPlaced placed).clauses.all.countP test = placed.countP fun change => test change.clause := by
  have by_verb : (ofPlaced placed).clauses.all.countP test =
      (clausesFor placed .set).countP test + ((clausesFor placed .add).countP test +
        ((clausesFor placed .remove).countP test + (clausesFor placed .delete).countP test)) := by
    simp [UpdateClauses.all, Verb.all, get_ofPlaced]
  rw [by_verb]
  clear by_verb
  -- Each change adds its clause under one of the four verbs.
  induction placed with
  | nil => rfl
  | cons change rest ih =>
    simp only [clausesFor_cons, List.countP_cons]
    cases change.change.verb <;> simp [List.countP_cons] <;> omega

/-- Changes placed in a scope, with no alias and no placeholder that serves two of them. -/
structure ArePlaced (scope : Scope) (placed : List PlacedChange) : Prop where
  formed : ∀ change ∈ placed, change.IsPlaced scope
  names : (placed.map PlacedChange.name).Nodup
  placeholders : (placed.filterMap PlacedChange.placeholder).Nodup

/-- What the aliases of changes stand for. -/
theorem names_aliases (placed : List PlacedChange) :
    Fields.names (placed.map fun change => (change.name, change.field)) =
      placed.map PlacedChange.name := by
  simp [Fields.names]

theorem names_bindings (formed : ∀ change ∈ placed, change.IsPlaced scope) :
    Fields.names (placed.filterMap PlacedChange.binding?) =
      placed.filterMap PlacedChange.placeholder := by
  rw [Fields.names, List.map_filterMap]
  apply List.filterMap_congr
  intro change member
  cases formed change member with
  | remove _ => rfl
  | value _ _ has_value => simp [PlacedChange.binding?, has_value]

theorem names_attributeValues (formed : ∀ change ∈ placed, change.IsPlaced scope)
    (distinct : (placed.filterMap PlacedChange.placeholder).Nodup) :
    (Fields.names (ofPlaced placed).attributeValues).Perm (placed.filterMap PlacedChange.placeholder) := by
  rw [← names_bindings formed] at distinct ⊢
  exact (Fields.ofList_perm distinct).map Prod.fst

theorem spells_ofPlaced (are_placed : ArePlaced scope placed) :
    (ofPlaced placed).Spells (placed.map fun change => (change.field, change.change)) := by
  obtain ⟨formed, names, placeholders⟩ := are_placed
  rw [← names_aliases] at names
  rw [← names_bindings formed] at placeholders
  intro verb
  -- Both sides are the placed changes of the verb, so it is enough to resolve each clause.
  rw [get_ofPlaced, Option.getD_some, clausesFor, List.filter_map, List.map_map, List.map_map]
  apply List.map_congr_left
  intro change member
  obtain ⟨inside, same⟩ := List.mem_filter.mp member
  obtain rfl : change.change.verb = verb := by simpa using same
  apply resolve?_clause (formed change inside)
  · exact Fields.get?_ofList names (List.mem_map.mpr ⟨change, inside, rfl⟩)
  · intro binding bound
    exact Fields.get?_ofList placeholders (List.mem_filterMap.mpr ⟨change, inside, bound⟩)

/-- Different fields and a well-formed scope give different aliases; placeholders are always fresh. -/
theorem arePlaced_placeAll {scope : Scope} {changes : List (String × WireChange)}
    (well : scope.WellFormed) (distinct : (changes.map Prod.fst).Nodup) :
    ArePlaced (scope.placeAll changes).2 (scope.placeAll changes).1 := by
  have placement := Scope.placeAll_spec well changes
  exact ⟨placement.formed, placement.names_distinct distinct, placement.distinct⟩

theorem spells_placeAll {scope : Scope} {changes : List (String × WireChange)}
    (well : scope.WellFormed) (distinct : (changes.map Prod.fst).Nodup) :
    (ofPlaced (scope.placeAll changes).1).Spells changes := by
  have spelled := spells_ofPlaced (arePlaced_placeAll well distinct)
  rwa [(Scope.placeAll_spec well changes).complete] at spelled

theorem length_attributeNames (are_placed : ArePlaced scope placed) :
    (ofPlaced placed).attributeNames.length = placed.length := by
  have names := are_placed.names
  rw [← names_aliases] at names
  have same := (Fields.ofList_perm names).length_eq
  rwa [List.length_map] at same

theorem length_attributeValues (are_placed : ArePlaced scope placed) :
    (ofPlaced placed).attributeValues.length =
      placed.countP fun change => change.change.verb != .remove := by
  have placeholders := are_placed.placeholders
  rw [← names_bindings are_placed.formed] at placeholders
  have same := (Fields.ofList_perm placeholders).length_eq
  rw [List.length_filterMap_eq_countP] at same
  refine same.trans (List.countP_congr ?_)
  intro change member
  cases are_placed.formed change member with
  | remove _ => simp [PlacedChange.binding?, WireChange.verb]
  | @value field name placeholder change value _ _ has_value =>
    cases change with
    | remove => cases has_value
    | _ => simp [PlacedChange.binding?, WireChange.verb, WireChange.value?]

/-- Every alias of the plan is mentioned once. -/
theorem mentionsOnce_alias (are_placed : ArePlaced scope placed) {name : String}
    (listed : name ∈ Fields.names (ofPlaced placed).attributeNames) : (ofPlaced placed).MentionsOnce name := by
  obtain ⟨formed, names, -⟩ := are_placed
  have same : (Fields.names (ofPlaced placed).attributeNames).Perm (placed.map PlacedChange.name) := by
    rw [← names_aliases] at names ⊢
    exact (Fields.ofList_perm names).map Prod.fst
  have stands : name ∈ placed.map PlacedChange.name := same.mem_iff.mp listed
  obtain ⟨owner, inside, rfl⟩ := List.mem_map.mp stands
  -- The clause that mentions the alias is the one of its owner, and there is one owner.
  have once := List.count_eq_one_of_mem names stands
  rw [List.count_eq_countP, List.countP_map] at once
  rw [MentionsOnce, countP_all, ← once]
  apply List.countP_congr
  intro change member
  have named := (formed owner inside).name_formed
  simp [(formed change member).words_clause, (formed change member).mem_words_alias named]

/-- Every placeholder of the plan is mentioned once. -/
theorem mentionsOnce_placeholder (are_placed : ArePlaced scope placed) {name : String}
    (listed : name ∈ Fields.names (ofPlaced placed).attributeValues) : (ofPlaced placed).MentionsOnce name := by
  obtain ⟨formed, -, placeholders⟩ := are_placed
  have stands := (names_attributeValues formed placeholders).mem_iff.mp listed
  obtain ⟨owner, inside, owned⟩ := List.mem_filterMap.mp stands
  have once := List.count_eq_one_of_mem placeholders stands
  rw [List.count_eq_countP, List.countP_filterMap] at once
  rw [MentionsOnce, countP_all, ← once]
  apply List.countP_congr
  intro change member
  have named := (formed owner inside).placeholder_formed owned
  rw [decide_eq_true_iff, (formed change member).words_clause,
    (formed change member).mem_words_placeholder named]
  cases change.placeholder <;> simp

theorem areClauses_ofPlaced (are_placed : ArePlaced scope placed) : (ofPlaced placed).clauses.AreClauses := by
  intro verb list stored clause member
  rw [get_ofPlaced] at stored
  obtain rfl := Option.some.inj stored
  obtain ⟨change, inside, rfl⟩ := List.mem_map.mp member
  exact (are_placed.formed change (List.mem_filter.mp inside).1).isClause

end ExpressionPlan

/-! ### Compiled patches -/

theorem Patch.firstRepeated?_eq_none {seen names : List String}
    (unrepeated : firstRepeated? seen names = none) : names.Nodup ∧ ∀ name ∈ names, name ∉ seen := by
  induction names generalizing seen with
  | nil => exact ⟨List.nodup_nil, nofun⟩
  | cons name rest ih =>
    rw [firstRepeated?] at unrepeated
    split at unrepeated
    next => cases unrepeated
    next unseen =>
      obtain ⟨distinct, new⟩ := ih unrepeated
      refine ⟨List.nodup_cons.mpr ⟨fun member => new name member List.mem_cons_self, distinct⟩, ?_⟩
      refine List.forall_mem_cons.mpr ⟨unseen, ?_⟩
      intro other member in_seen
      exact new other member (List.mem_cons_of_mem _ in_seen)

theorem Patch.checkFields_eq_ok {patch : Patch} (checked : patch.checkFields = .ok ()) :
    (patch.map Prod.fst).Nodup := by
  unfold checkFields at checked
  split at checked
  next => cases checked
  next unrepeated => exact (firstRepeated?_eq_none unrepeated).1

variable {gateway : Gateway} {types : DatatypeMap}

theorem Patch.AllMean.fields {patch : Patch} {changes : List (String × WireChange)}
    (meaning : AllMean gateway types patch changes) : changes.map Prod.fst = patch.map Prod.fst := by
  induction meaning with
  | nil => rfl
  | cons first _ ih => rw [List.map_cons, List.map_cons, first.1, ih]

theorem Patch.changes_spec {patch : Patch} {changes : List (String × WireChange)}
    (written : patch.changes gateway types = .ok changes) :
    Patch.AllMean gateway types patch changes ∧ (changes.map Prod.fst).Nodup := by
  obtain ⟨⟨⟩, checked, written⟩ := bind_eq_ok_iff.mp written
  have meaning := write_means written
  refine ⟨meaning, ?_⟩
  rw [meaning.fields]
  exact checkFields_eq_ok checked

theorem compileUpdate_eq_map (patch : Patch) (scope : Scope) :
    compileUpdate gateway types patch scope = (patch.changes gateway types).map fun changes =>
      (.ofPlaced (scope.placeAll changes).1, (scope.placeAll changes).2) := by
  unfold compileUpdate Scope.compileUpdate
  cases patch.changes gateway types <;> rfl

/-- A compiled patch leaves a scope that can come about, so the next patch may be compiled in it. -/
theorem reachable_compileUpdate {patch : Patch} {scope after : Scope} {plan : ExpressionPlan}
    (reachable : scope.Reachable)
    (compiled : compileUpdate gateway types patch scope = .ok (plan, after)) : after.Reachable := by
  rw [compileUpdate_eq_map] at compiled
  obtain ⟨changes, -, placed⟩ := map_eq_ok_iff.mp compiled
  obtain ⟨-, rfl⟩ := Prod.mk.inj placed
  exact reachable.placeAll changes

/--
A compiled patch means its own changes. Its text is read back as its clauses; the clauses spell out the
changes, in the order of the patch; and every alias and every placeholder is mentioned exactly once.
-/
theorem compileUpdate_means {patch : Patch} {scope after : Scope} {plan : ExpressionPlan}
    (reachable : scope.Reachable)
    (compiled : compileUpdate gateway types patch scope = .ok (plan, after)) :
    UpdateClauses.ofText plan.text = plan.clauses.filled ∧
    ∃ changes, Patch.AllMean gateway types patch changes ∧ plan.Spells changes ∧
      plan.attributeNames.length = patch.length ∧
      plan.attributeValues.length = changes.countP (fun change => change.2.verb != .remove) ∧
      (∀ name ∈ Fields.names plan.attributeNames, plan.MentionsOnce name) ∧
      ∀ name ∈ Fields.names plan.attributeValues, plan.MentionsOnce name := by
  rw [compileUpdate_eq_map] at compiled
  obtain ⟨changes, written, placed⟩ := map_eq_ok_iff.mp compiled
  obtain ⟨rfl, -⟩ := Prod.mk.inj placed
  obtain ⟨meaning, distinct⟩ := Patch.changes_spec written
  have placement := Scope.placeAll_spec reachable.wellFormed changes
  have are_placed := ExpressionPlan.arePlaced_placeAll reachable.wellFormed distinct
  have same_length : (scope.placeAll changes).1.length = changes.length := by
    have mapped := congrArg List.length placement.complete
    rwa [List.length_map] at mapped
  refine ⟨UpdateClauses.ofText_text (ExpressionPlan.areClauses_ofPlaced are_placed),
    changes, meaning, ?_, ?_, ?_, ?_, ?_⟩
  · exact ExpressionPlan.spells_placeAll reachable.wellFormed distinct
  · rw [ExpressionPlan.length_attributeNames are_placed, same_length, List.Forall₂.length_eq meaning]
  · have counted := congrArg (List.countP fun change => change.2.verb != .remove) placement.complete
    rw [List.countP_map] at counted
    exact (ExpressionPlan.length_attributeValues are_placed).trans counted
  · exact fun name listed => ExpressionPlan.mentionsOnce_alias are_placed listed
  · exact fun name listed => ExpressionPlan.mentionsOnce_placeholder are_placed listed

/-- A patch of a set, an addition and a removal, whose fields collide once their names are cleaned. -/
theorem compileUpdate_means_colliding :
    let types : DatatypeMap := [("a-b", .leaf .numberSet)]
    let patch : Patch := [("a-b", .add (.list [.number (.integer 1)])), ("a_b", .set (.bool true)),
      ("SET", .set .null)]
    let scope := ((Scope.ofNames [":a_b"]).aliasOf "a b").2
    scope.Reachable ∧ ∃ plan after, compileUpdate .identity types patch scope = .ok (plan, after) ∧
      UpdateClauses.ofText plan.text = plan.clauses.filled ∧
      ∃ changes, Patch.AllMean .identity types patch changes ∧ plan.Spells changes ∧
        plan.attributeNames.length = 3 := by
  intro types patch scope
  have reachable : scope.Reachable := .aliasOf (.ofNames [":a_b"]) "a b"
  have compiled : ∃ plan after, compileUpdate .identity types patch scope = .ok (plan, after) :=
    ⟨_, _, rfl⟩
  obtain ⟨plan, after, compiled⟩ := compiled
  obtain ⟨read_back, changes, meaning, spelled, names, -⟩ := compileUpdate_means reachable compiled
  exact ⟨reachable, plan, after, compiled, read_back, changes, meaning, spelled, names⟩

end ItemMapper
