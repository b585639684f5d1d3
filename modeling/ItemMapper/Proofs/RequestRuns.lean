import ItemMapper.Expression.Calls
import ItemMapper.Proofs.DistinctElements
import ItemMapper.Proofs.UpdateMeaning

/-!
# Runs of calls on a scope

Every answer is a step between two scopes (`isStep_answer`) and a run is a chain of steps (`chain_run`), along
which nothing that was said about aliases is taken back and no placeholder comes again (`run_consistent`).
-/

namespace ItemMapper.Scope

variable {scope : Scope}

/-- Besides the aliases, the names in use are different. -/
structure IsSound (scope : Scope) : Prop extends WellFormed scope where
  used_distinct : scope.used.Nodup

/-! ### Values and conditions in a scope -/

/-- What the placing of values of a field gives. -/
structure IsBinding (scope : Scope) (values : List WireValue) (bound : List (String × WireValue))
    (after : Scope) : Prop where
  complete : bound.map Prod.snd = values
  aliases_same : after.aliases = scope.aliases
  names_same : after.aliasNames = scope.aliasNames
  formed : ∀ name ∈ bound.map Prod.fst, IsName ':' after.used name
  distinct : (bound.map Prod.fst).Nodup
  fresh : ∀ name ∈ bound.map Prod.fst, name ∉ scope.used
  used : after.used.Perm (bound.map Prod.fst ++ scope.used)

theorem bindAll_spec (scope : Scope) (field : String) (values : List WireValue) :
    IsBinding scope values (FilterClause.bindAll scope field values).1
      (FilterClause.bindAll scope field values).2 := by
  induction values generalizing scope with
  | nil => exact ⟨rfl, rfl, rfl, nofun, List.nodup_nil, nofun, .refl _⟩
  | cons value rest ih =>
    obtain ⟨complete, aliases_same, names_same, formed, distinct, fresh, used⟩ := ih (scope.allocate field).2
    have free := allocate_not_mem scope field
    have in_use : scope.used ⊆ (FilterClause.bindAll (scope.allocate field).2 field rest).2.used :=
      fun name member => used.mem_iff.mpr (List.mem_append_right _ (List.mem_cons_of_mem _ member))
    constructor
    case complete => rw [FilterClause.bindAll, List.map_cons, complete]
    case aliases_same => exact aliases_same
    case names_same => exact names_same
    case formed => exact List.forall_mem_cons.mpr ⟨(isName_allocate scope field).mono in_use, formed⟩
    case distinct =>
      -- The first placeholder is in use when the others are handed out.
      exact List.nodup_cons.mpr ⟨fun again => fresh _ again List.mem_cons_self, distinct⟩
    case fresh =>
      refine List.forall_mem_cons.mpr ⟨free, ?_⟩
      intro name member in_use
      exact fresh name member (List.mem_cons_of_mem _ in_use)
    case used => exact used.trans List.perm_middle

section

variable {field : String} {operator : FilterOperator} {first second : Option Value}

/-- The copy with the alias of the field takes the place of the scope. -/
theorem buildFilter_of_ok {written : FilterOperator} {values : List WireValue}
    (found : FilterClause.arguments field operator first second = .ok (written, values)) :
    scope.buildFilter field operator first second =
      let built := FilterClause.ofValues (scope.aliasOf field).2 field (scope.aliasOf field).1 values
        (FilterClause.statementText written (scope.aliasOf field).1)
      (.ok built.1, built.2) := by
  simp only [buildFilter, FilterClause.buildInPlace, found]

/-- The copy is dropped, and the alias with it. -/
theorem buildFilter_of_error {cause : Error}
    (failed : FilterClause.arguments field operator first second = .error cause) :
    scope.buildFilter field operator first second = (.error cause, scope) := by
  simp only [buildFilter, FilterClause.buildInPlace, failed]

end

/-! ### What answers say -/

namespace Answer

/-- The value placeholders that an answer hands out. -/
def placeholders : Answer → List String
  | .placeholder name => [name]
  | .plan (.ok compiled) => Fields.names compiled.attributeValues
  | .clause (.ok built) => Fields.names built.attributeValues
  | _ => []

/-- What an answer says that aliases stand for. -/
def attributeNames : Answer → List (String × String)
  | .named field name => [(name, field)]
  | .plan (.ok compiled) => compiled.attributeNames
  | .clause (.ok built) => built.attributeNames
  | _ => []

/-- The name that an answer takes out of circulation. -/
def reserved? : Answer → Option String
  | .reserved name _ => some name
  | _ => none

/-- The names that an answer puts in use. -/
def newlyUsed : Answer → List String
  | .reserved name true => [name]
  | answer => answer.placeholders

def IsFailure : Answer → Prop
  | .plan (.error _) | .clause (.error _) => True
  | _ => False

theorem placeholders_sublist (answer : Answer) : answer.placeholders.Sublist answer.newlyUsed := by
  cases answer with
  | reserved name free => exact List.nil_sublist (newlyUsed (.reserved name free))
  | _ => exact .refl _

end Answer

/-- What an answered call does to the scope. -/
structure IsStep (before : Scope) (answer : Answer) (after : Scope) : Prop where
  kept : before.aliases ⊆ after.aliases
  named : ∀ entry ∈ answer.attributeNames, entry.swap ∈ after.aliases
  wellFormed : after.WellFormed
  formed : ∀ name ∈ answer.placeholders, IsName ':' after.used name
  used : after.used.Perm (answer.newlyUsed ++ before.used)
  distinct : (answer.newlyUsed ++ before.used).Nodup
  reserved : ∀ name, answer.reserved? = some name → name ∈ after.used
  unchanged : answer.IsFailure → after = before

theorem IsStep.sound {before after : Scope} {answer : Answer} (step : IsStep before answer after) :
    after.IsSound where
  toWellFormed := step.wellFormed
  used_distinct := step.used.nodup_iff.mpr step.distinct

/-! ### Steps -/

theorem isStep_named (sound : scope.IsSound) (field : String) :
    IsStep scope (.named field (scope.aliasOf field).1) (scope.aliasOf field).2 := by
  obtain ⟨has_alias, kept⟩ := mem_aliases_aliasOf scope field
  constructor
  case kept => exact kept
  case named => exact List.forall_mem_singleton.mpr has_alias
  case wellFormed => exact wellFormed_aliasOf sound.toWellFormed field
  case formed => exact nofun
  case used =>
    rw [used_aliasOf]
    exact .refl _
  case distinct => exact sound.used_distinct
  case reserved => exact nofun
  case unchanged => exact nofun

theorem isStep_placeholder (sound : scope.IsSound) (field : String) :
    IsStep scope (.placeholder (scope.allocate field).1) (scope.allocate field).2 := by
  have free := allocate_not_mem scope field
  have in_use : scope.used ⊆ (scope.allocate field).2.used := List.subset_cons_self _ _
  constructor
  case kept => exact List.Subset.refl _
  case named => exact nofun
  case wellFormed => exact sound.toWellFormed.of_aliases rfl rfl
  case formed => exact List.forall_mem_singleton.mpr ((isName_allocate scope field).mono in_use)
  case used => exact .refl _
  case distinct => exact List.nodup_cons.mpr ⟨free, sound.used_distinct⟩
  case reserved => exact nofun
  case unchanged => exact nofun

/-- An answer that says nothing new may leave the scope as it is. -/
theorem isStep_refl (sound : scope.IsSound) {answer : Answer} (no_names : answer.attributeNames = [])
    (no_used : answer.newlyUsed = []) (known : ∀ name, answer.reserved? = some name → name ∈ scope.used) :
    IsStep scope answer scope := by
  have no_placeholders : answer.placeholders = [] := by
    have part := answer.placeholders_sublist
    rw [no_used] at part
    exact List.sublist_nil.mp part
  constructor
  case kept => exact List.Subset.refl _
  case named =>
    rw [no_names]
    exact nofun
  case wellFormed => exact sound.toWellFormed
  case formed =>
    rw [no_placeholders]
    exact nofun
  case used =>
    rw [no_used]
    exact .refl _
  case distinct =>
    rw [no_used]
    exact sound.used_distinct
  case reserved => exact known
  case unchanged => exact fun _ => rfl

theorem isStep_reserved (sound : scope.IsSound) (name : String) :
    IsStep scope (.reserved name (scope.reserve name).1) (scope.reserve name).2 := by
  by_cases taken : name ∈ scope.used
  · have found : scope.reserve name = (false, scope) := by simp only [reserve, taken, if_true]
    rw [found]
    apply isStep_refl sound rfl rfl
    rintro other ⟨⟩
    exact taken
  · have added : scope.reserve name = (true, { scope with used := name :: scope.used }) := by
      simp only [reserve, taken, if_false]
    rw [added]
    constructor
    case kept => exact List.Subset.refl _
    case named => exact nofun
    case wellFormed => exact sound.toWellFormed.of_aliases rfl rfl
    case formed => exact nofun
    case used => exact .refl _
    case distinct => exact List.nodup_cons.mpr ⟨taken, sound.used_distinct⟩
    case reserved =>
      rintro other ⟨⟩
      exact List.mem_cons_self
    case unchanged => exact nofun

theorem isStep_plan (sound : scope.IsSound) (changes : List (String × WireChange)) :
    IsStep scope (.plan (.ok (.ofPlaced (scope.placeAll changes).1))) (scope.placeAll changes).2 := by
  have placement := placeAll_spec sound.toWellFormed changes
  generalize scope.placeAll changes = result at placement ⊢
  obtain ⟨placed, after⟩ := result
  -- The plan has the placeholders of its changes, in another order.
  have names := ExpressionPlan.names_attributeValues placement.formed placement.distinct
  constructor
  case kept => exact placement.kept
  case named =>
    intro entry member
    obtain ⟨change, inside, rfl⟩ := List.mem_map.mp (Fields.mem_of_mem_ofList member)
    exact placement.aliased change inside
  case wellFormed => exact placement.wellFormed
  case formed =>
    intro name member
    obtain ⟨change, inside, given⟩ := List.mem_filterMap.mp (names.mem_iff.mp member)
    exact (placement.formed change inside).placeholder_formed given
  case used => exact placement.used.trans (names.symm.append_right _)
  case distinct =>
    refine (names.append_right _).nodup_iff.mpr (List.nodup_append'.mpr ?_)
    exact ⟨placement.distinct, sound.used_distinct, placement.fresh⟩
  case reserved => exact nofun
  case unchanged => exact nofun

theorem isStep_clause (sound : scope.IsSound) (field : String) (values : List WireValue)
    (statement : List String → String) :
    IsStep scope
      (.clause (.ok (FilterClause.ofValues (scope.aliasOf field).2 field (scope.aliasOf field).1 values
        statement).1))
      (FilterClause.ofValues (scope.aliasOf field).2 field (scope.aliasOf field).1 values statement).2 := by
  obtain ⟨has_alias, kept⟩ := mem_aliases_aliasOf scope field
  have well := wellFormed_aliasOf sound.toWellFormed field
  have binding := bindAll_spec (scope.aliasOf field).2 field values
  rw [FilterClause.ofValues]
  generalize FilterClause.bindAll (scope.aliasOf field).2 field values = result at binding ⊢
  obtain ⟨bound, after⟩ := result
  obtain ⟨-, aliases_same, names_same, formed, distinct, fresh, used⟩ := binding
  -- The alias of the field takes no placeholder away, so what is new is new for the scope before it, too.
  rw [used_aliasOf] at fresh used
  have names : (Fields.names (Fields.ofList bound)).Perm (bound.map Prod.fst) :=
    (Fields.ofList_perm distinct).map Prod.fst
  constructor
  case kept => exact aliases_same ▸ kept
  case named => exact List.forall_mem_singleton.mpr (aliases_same ▸ has_alias)
  case wellFormed => exact well.of_aliases aliases_same names_same
  case formed => exact fun name member => formed name (names.mem_iff.mp member)
  case used => exact used.trans (names.symm.append_right _)
  case distinct =>
    refine (names.append_right _).nodup_iff.mpr (List.nodup_append'.mpr ?_)
    exact ⟨distinct, sound.used_distinct, fresh⟩
  case reserved => exact nofun
  case unchanged => exact nofun

/-- Every answer is a step, whatever is asked. -/
theorem isStep_answer (sound : scope.IsSound) (call : Call) :
    IsStep scope (scope.answer call).1 (scope.answer call).2 := by
  cases call with
  | aliasOf field => exact isStep_named sound field
  | allocate field => exact isStep_placeholder sound field
  | reserve name => exact isStep_reserved sound name
  | update gateway types patch =>
    rw [answer, compileUpdate]
    cases patch.changes gateway types with
    | error cause => exact isStep_refl sound rfl rfl nofun
    | ok changes => exact isStep_plan sound changes
  | filter field operator first second =>
    rw [answer]
    cases found : FilterClause.arguments field operator first second with
    | error cause =>
      rw [buildFilter_of_error found]
      exact isStep_refl sound rfl rfl nofun
    | ok arguments =>
      rw [buildFilter_of_ok found]
      exact isStep_clause sound field arguments.2 _

/-! ### Runs -/

/-- Steps one after another, from a scope to the one after them. -/
inductive Chain : Scope → List Event → Scope → Prop
  | nil {scope : Scope} : scope.IsSound → Chain scope [] scope
  | cons {before after last : Scope} {answer : Answer} {events : List Event} :
      IsStep before answer after → Chain after events last → Chain before (⟨before, answer, after⟩ :: events) last

theorem chain_run (sound : scope.IsSound) (calls : List Call) : ∃ last, Chain scope (scope.run calls) last := by
  induction calls generalizing scope with
  | nil => exact ⟨scope, .nil sound⟩
  | cons call rest ih =>
    have step := isStep_answer sound call
    obtain ⟨last, others⟩ := ih step.sound
    exact ⟨last, .cons step others⟩

variable {last : Scope} {events : List Event}

theorem Chain.sound (chain : Chain scope events last) : last.IsSound := by
  induction chain with
  | nil sound => exact sound
  | cons _ _ ih => exact ih

theorem Chain.kept (chain : Chain scope events last) : scope.aliases ⊆ last.aliases := by
  induction chain with
  | nil _ => exact List.Subset.refl _
  | cons step _ ih => exact List.Subset.trans step.kept ih

/-- What an event says that aliases stand for: in its answer, and in the scope after it. -/
def Event.attributeNames (event : Event) : List (String × String) :=
  event.answer.attributeNames ++ event.after.attributeNames

/-- The last scope knows everything that was ever said about aliases. -/
theorem Chain.named (chain : Chain scope events last) :
    ∀ entry ∈ events.flatMap Event.attributeNames, entry.swap ∈ last.aliases := by
  induction chain with
  | nil _ => exact nofun
  | @cons before after last answer events step others ih =>
    intro entry member
    rcases List.mem_append.mp member with now | later
    · -- What is known after the step is known at the end, too.
      apply others.kept
      rcases List.mem_append.mp now with answered | listed
      · exact step.named entry answered
      · obtain ⟨pair, inside, rfl⟩ := List.mem_map.mp (Fields.mem_of_mem_ofList listed)
        exact inside
    · exact ih entry later

/-- No placeholder is handed out twice, or although its name is in use. -/
theorem Chain.fresh (chain : Chain scope events last) :
    (events.flatMap fun event => event.answer.placeholders).Nodup ∧
      ∀ name ∈ events.flatMap fun event => event.answer.placeholders, name ∉ scope.used := by
  induction chain with
  | nil _ => exact ⟨List.nodup_nil, nofun⟩
  | @cons before after last answer events step others ih =>
    obtain ⟨others_distinct, others_fresh⟩ := ih
    obtain ⟨new, -, apart⟩ := List.nodup_append'.mp step.distinct
    have handed_out := answer.placeholders_sublist
    -- The others are new for the scope after the step, where all these names are in use.
    have in_use : ∀ name, name ∈ answer.newlyUsed ∨ name ∈ before.used → name ∈ after.used :=
      fun name either => step.used.mem_iff.mpr (List.mem_append.mpr either)
    constructor
    · refine List.nodup_append'.mpr ⟨handed_out.nodup new, others_distinct, ?_⟩
      intro name now later
      exact others_fresh name later (in_use name (.inl (handed_out.subset now)))
    · intro name member used_before
      rcases List.mem_append.mp member with now | later
      · exact apart (handed_out.subset now) used_before
      · exact others_fresh name later (in_use name (.inr used_before))

/-- A name that has been reserved is not handed out later. -/
theorem Chain.reserved (chain : Chain scope events last) :
    events.Pairwise fun earlier later =>
      ∀ name, earlier.answer.reserved? = some name → name ∉ later.answer.placeholders := by
  induction chain with
  | nil _ => exact .nil
  | @cons before after last answer events step others ih =>
    refine List.pairwise_cons.mpr ⟨?_, ih⟩
    intro later inside name taken handed_out
    have fresh := others.fresh.2 name (List.mem_flatMap.mpr ⟨later, inside, handed_out⟩)
    exact fresh (step.reserved name taken)

/-- Each event of a run is a step to a sound scope. -/
theorem Chain.isStep (chain : Chain scope events last) :
    ∀ event ∈ events, event.after.IsSound ∧ IsStep event.before event.answer event.after := by
  induction chain with
  | nil _ => exact nofun
  | cons step others ih => exact List.forall_mem_cons.mpr ⟨⟨step.sound, step⟩, ih⟩

/-! ### Consistency -/

/-- A field has one alias and an alias one field, and all records of the aliases agree. -/
structure IsConsistent (scope : Scope) : Prop where
  fields_distinct : (scope.aliases.map Prod.fst).Nodup
  names_distinct : (scope.aliases.map Prod.snd).Nodup
  names_formed : ∀ entry ∈ scope.aliases, IsName '#' scope.aliasNames entry.2
  taken_iff : ∀ name, name ∈ scope.aliasNames ↔ ∃ field, (field, name) ∈ scope.aliases
  inverse : scope.attributeNames.Perm (scope.aliases.map Prod.swap)
  used_distinct : scope.used.Nodup

theorem IsSound.isConsistent (sound : scope.IsSound) : scope.IsConsistent := by
  obtain ⟨⟨fields_distinct, names_distinct, names_formed, names_agree⟩, used_distinct⟩ := sound
  constructor
  case fields_distinct => exact fields_distinct
  case names_distinct => rwa [names_agree]
  case names_formed =>
    intro entry member
    apply names_formed
    rw [← names_agree]
    exact List.mem_map_of_mem member
  case taken_iff =>
    intro name
    rw [← names_agree]
    simp
  case inverse =>
    have once : (Fields.names (scope.aliases.map Prod.swap)).Nodup := by
      rw [← names_agree] at names_distinct
      rw [Fields.names, List.map_map]
      exact names_distinct
    exact Fields.ofList_perm once
  case used_distinct => exact used_distinct

theorem isSound_ofNames (names : List String) : (ofNames names).IsSound where
  toWellFormed := (Reachable.ofNames names).wellFormed
  used_distinct := (isDistinctOf_eraseDups names).distinct

/--
However a scope is used, it stays consistent. Everything that is said about aliases agrees. No placeholder
is handed out twice, or although it was a name at the start or reserved before, and the names in use are
those at the start and the ones put in use since. A failure leaves the scope as it was.
-/
theorem run_consistent (names : List String) (calls : List Call) :
    let start := ofNames names
    let events := start.run calls
    let namings := events.flatMap Event.attributeNames
    let placeholders := events.flatMap fun event => event.answer.placeholders
    (∀ scope ∈ start :: events.map Event.after, scope.IsConsistent) ∧
    (∀ first ∈ namings, ∀ second ∈ namings, first.1 = second.1 ↔ first.2 = second.2) ∧
    placeholders.Nodup ∧ (∀ name ∈ placeholders, name ∉ names) ∧
    (∀ event ∈ events, ∀ name ∈ event.answer.placeholders, IsName ':' event.after.used name) ∧
    (events.Pairwise fun earlier later =>
      ∀ name, earlier.answer.reserved? = some name → name ∉ later.answer.placeholders) ∧
    (∀ event ∈ events, event.after.used.Perm (event.answer.newlyUsed ++ event.before.used)) ∧
    ∀ event ∈ events, event.answer.IsFailure → event.after = event.before := by
  intro start events namings placeholders
  have sound := isSound_ofNames names
  obtain ⟨last, chain⟩ : ∃ last, Chain start events last := chain_run sound calls
  obtain ⟨distinct, fresh⟩ := chain.fresh
  refine ⟨?_, ?_, distinct, ?_, ?_, chain.reserved, ?_, ?_⟩
  · refine List.forall_mem_cons.mpr ⟨sound.isConsistent, ?_⟩
    intro scope member
    obtain ⟨event, inside, rfl⟩ := List.mem_map.mp member
    exact (chain.isStep event inside).1.isConsistent
  · -- Both entries are in the last scope, where neither fields nor aliases repeat.
    intro first first_said second second_said
    have consistent := chain.sound.isConsistent
    have first_known := chain.named first first_said
    have second_known := chain.named second second_said
    constructor
    · intro same
      have pairs := List.inj_on_of_nodup_map consistent.names_distinct first_known second_known same
      exact congrArg Prod.fst pairs
    · intro same
      have pairs := List.inj_on_of_nodup_map consistent.fields_distinct first_known second_known same
      exact congrArg Prod.snd pairs
  · intro name handed_out at_start
    exact fresh name handed_out (List.mem_eraseDups.mpr at_start)
  · exact fun event inside => (chain.isStep event inside).2.formed
  · exact fun event inside => (chain.isStep event inside).2.used
  · exact fun event inside => (chain.isStep event inside).2.unchanged

/-- Fields that collide, a condition that fails after its alias, and a placeholder that has been reserved. -/
theorem run_consistent_colliding :
    let calls : List Call := [.aliasOf "a-b", .filter "a b" .between (some (.bool true)) none,
      .reserve ":a_b", .update .identity [] [("a_b", .set (.bool true)), ("a-b", .remove)],
      .filter "a_b" .equal (some (.bool false)) none, .allocate "age", .allocate "age"]
    let events := (ofNames [":age_2"]).run calls
    let placeholders := events.flatMap fun event => event.answer.placeholders
    placeholders = [":a_b_2", ":a_b_3", ":age", ":age_3"] ∧ placeholders.Nodup ∧
    events.map (fun event => event.answer.attributeNames) = [[("#a_b", "a-b")], [], [],
      [("#a_b", "a-b"), ("#a_b_2", "a_b")], [("#a_b_2", "a_b")], [], []] ∧
    (∃ event ∈ events, event.answer.IsFailure ∧ event.after = event.before) ∧
    ∀ scope ∈ events.map Event.after, scope.IsConsistent := by
  intro calls events placeholders
  obtain ⟨consistent, -, distinct, -, -, -, -, unchanged⟩ := run_consistent [":age_2"] calls
  have failing : ∃ event ∈ events, event.answer.IsFailure :=
    ⟨_, List.mem_cons_of_mem _ List.mem_cons_self, trivial⟩
  obtain ⟨event, inside, failed⟩ := failing
  refine ⟨by decide, distinct, by decide, ⟨event, inside, failed, unchanged event inside failed⟩, ?_⟩
  exact (List.forall_mem_cons.mp consistent).2

theorem isMarked_colon_a : IsMarked ':' ":a" :=
  ⟨['a'], List.cons_ne_nil _ _, List.forall_mem_singleton.mpr (by decide), by decide⟩

theorem allocate_namesUpTo : ((ofNames (namesUpTo ":a" 2147483646)).allocate "a").1 = ":a_-2147483648" := by
  have base : ":" ++ sanitize "a" = ":a" := by decide
  have exhausted := isExhausted_namesUpTo ":a"
  have allocated := allocate_of_isExhausted (base ▸ exhausted) fun _ => isMarked_of_mem_namesUpTo isMarked_colon_a
  rwa [base] at allocated

theorem placeholders_run_allocate (scope : Scope) (field : String) :
    ((scope.run [.allocate field]).flatMap fun event => event.answer.placeholders) =
      [(scope.allocate field).1] := rfl

/--
Names at the start may have any form. A placeholder that is handed out is not a marked word if its base is taken
with all the positive numbers.
-/
theorem run_unmarked :
    (∃ name ∈ (ofNames ["x y"]).used, ¬ IsMarked ':' name) ∧
    ∃ name ∈ ((ofNames (namesUpTo ":a" 2147483646)).run [.allocate "a"]).flatMap
      fun event => event.answer.placeholders, ¬ IsMarked ':' name := by
  constructor
  · have blank : ' ' ∈ "x y".toList := by decide
    exact ⟨"x y", List.mem_singleton_self _, not_isMarked_of_mem blank (by decide) (by decide)⟩
  · have sign : '-' ∈ ":a_-2147483648".toList := by decide
    rw [placeholders_run_allocate, allocate_namesUpTo]
    exact ⟨_, List.mem_singleton_self _, not_isMarked_of_mem sign (by decide) (by decide)⟩

end ItemMapper.Scope
