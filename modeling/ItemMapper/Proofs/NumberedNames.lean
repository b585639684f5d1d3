import ItemMapper.Proofs.RequestRuns

/-!
# Numbered names

A free name is searched by trying the base and then one number after another, which are words of 32 bits with a
sign (`Search`). The names that are tried are different, so the search ends before there are more of them than
names are taken. Unless the positive numbers are used up, it ends with the name that is handed out, under the
least number that is free (`isHandedOut_leastFree`).

Main result: both kinds of names are numbered in this way, each among its own, and an attribute that was given
an alias keeps it through all later calls (`hands_out_least`).
-/

namespace ItemMapper.Scope

/-! ### The search -/

/-- A name that is tried for a base: the base itself as the first one, or the base with a number. -/
structure Attempt where
  index : Int32
  name : String

/-- The name that is tried next. -/
def Attempt.next (base : String) (attempt : Attempt) : Attempt :=
  let index := attempt.index + 1
  ⟨index, base ++ "_" ++ toString index⟩

/-- The search goes on behind a name that is taken, and ends with the first one that is free. -/
inductive Search (taken : List String) (base : String) : Attempt → Attempt → Prop
  | free {last : Attempt} : last.name ∉ taken → Search taken base last last
  | taken {attempt last : Attempt} : attempt.name ∈ taken → Search taken base (attempt.next base) last →
      Search taken base attempt last

/-- The base if it is free, or else the base with the least number from two on that makes it free. -/
inductive IsLeastFree (taken : List String) (base : String) : Nat → String → Prop
  | base : base ∉ taken → IsLeastFree taken base 1 base
  | numbered {number : Nat} : base ∈ taken → 2 ≤ number → numbered base number ∉ taken →
      (∀ earlier, 2 ≤ earlier → earlier < number → numbered base earlier ∈ taken) →
      IsLeastFree taken base number (numbered base number)

/-- The attempt that makes a candidate. -/
def attemptAt (base : String) (index : Nat) : Attempt :=
  ⟨Int32.ofNat (index + 1), candidate base index⟩

variable {taken : List String} {base : String} {index : Nat}

theorem Search.unique {attempt first second : Attempt} (search : Search taken base attempt first)
    (search_again : Search taken base attempt second) : first = second := by
  induction search with
  | free is_free =>
    cases search_again with
    | free => rfl
    | taken is_taken => exact absurd is_taken is_free
  | taken is_taken _ ih =>
    cases search_again with
    | free is_free => exact absurd is_taken is_free
    | taken _ others => exact ih others

/-- Attempts make the candidates in their order, until each word has had its turn. -/
theorem next_attemptAt (base : String) (turn : index + 2 < 4294967298) :
    (attemptAt base index).next base = attemptAt base (index + 1) := by
  have counted : Int32.ofNat (index + 1) + 1 = Int32.ofNat (index + 2) := (Int32.ofNat_add (index + 1) 1).symm
  simp only [attemptAt, Attempt.next, candidate, number, counted, if_pos turn]
  rfl

/-- While candidates are taken, the search goes on to the next one. -/
theorem search_of_attemptAt {last : Attempt} (turn : index < 4294967297)
    (skipped : ∀ earlier < index, candidate base earlier ∈ taken)
    (search : Search taken base (attemptAt base index) last) : Search taken base ⟨1, base⟩ last := by
  induction index with
  | zero => exact search
  | succ index ih =>
    have here : (attemptAt base index).name ∈ taken := skipped index (Nat.lt_succ_self index)
    rw [← next_attemptAt base (by omega)] at search
    exact ih (by omega) (fun earlier before => skipped earlier (Nat.lt_succ_of_lt before)) (.taken here search)

/-- There are no more taken candidates than taken names. -/
theorem index_le_card (skipped : ∀ earlier < index, candidate base earlier ∈ taken) :
    index ≤ taken.toFinset.card := by
  have all_taken : (Finset.range index).image (candidate base) ⊆ taken.toFinset := by
    intro name member
    obtain ⟨earlier, before, rfl⟩ := Finset.mem_image.mp member
    exact List.mem_toFinset.mpr (skipped earlier (Finset.mem_range.mp before))
  have few := Finset.card_le_card all_taken
  rwa [Finset.card_image_of_injective _ (candidate_injective base), Finset.card_range] at few

/-- With all positive numbers taken, the search goes on with the least word. -/
theorem search_of_isExhausted (exhausted : IsExhausted taken base) (free : base ++ "_-2147483648" ∉ taken) :
    Search taken base ⟨1, base⟩ ⟨-2147483648, base ++ "_-2147483648"⟩ := by
  apply search_of_attemptAt (by decide) (isExhausted_iff.mp exhausted)
  rw [attemptAt, candidate_past_greatest]
  exact .free free

theorem IsLeastFree.isMarked {mark : Char} (marked : IsMarked mark base) {number : Nat} {name : String}
    (least : IsLeastFree taken base number name) : IsMarked mark name := by
  cases least with
  | base _ => exact marked
  | numbered _ _ _ _ => exact isMarked_numbered marked number

theorem isLeastFree_candidate (small : index < 2147483647) (free : candidate base index ∉ taken)
    (skipped : ∀ earlier < index, candidate base earlier ∈ taken) :
    IsLeastFree taken base (index + 1) (candidate base index) := by
  cases index with
  | zero => exact .base free
  | succ index =>
    rw [candidate_eq_numbered base (by omega)] at free ⊢
    refine .numbered (skipped 0 (Nat.succ_pos index)) (Nat.le_add_left 2 index) free ?_
    intro number two_or_more before
    obtain ⟨earlier, rfl⟩ : ∃ earlier, number = earlier + 2 := ⟨number - 2, by omega⟩
    rw [← candidate_eq_numbered base (by omega)]
    exact skipped (earlier + 1) (by omega)

/-- What the handing out of a name says of the names that are taken before and after it. -/
structure IsHandedOut (taken : List String) (base name : String) (after : List String) : Prop where
  ends : ¬ IsExhausted taken base → ∃ number,
    (∀ last, Search taken base ⟨1, base⟩ last ↔ last = ⟨Int32.ofNat number, name⟩) ∧
    IsLeastFree taken base number name ∧ number ≤ taken.toFinset.card + 1
  fresh : name ∉ taken
  taken_iff : ∀ other, other ∈ after ↔ other = name ∨ other ∈ taken

/-- The search ends with the name that is handed out, and with no other one. -/
theorem isHandedOut_leastFree (taken : List String) (base : String) :
    IsHandedOut taken base (leastFree taken base) (leastFree taken base :: taken) := by
  obtain ⟨index, -, found, free, skipped⟩ := leastFree_spec taken base
  rw [found]
  constructor
  case ends =>
    intro room
    have small : index < 2147483647 := by
      by_contra great
      exact room (isExhausted_iff.mpr fun earlier before => skipped earlier (by omega))
    have ends : Search taken base ⟨1, base⟩ (attemptAt base index) :=
      search_of_attemptAt (by omega) skipped (.free free)
    have few := Nat.succ_le_succ (index_le_card skipped)
    refine ⟨index + 1, ?_, isLeastFree_candidate small free skipped, few⟩
    intro last
    constructor
    · intro search
      exact search.unique ends
    · rintro rfl
      exact ends
  case fresh => exact free
  case taken_iff => exact fun other => List.mem_cons

/-! ### Aliases that stay -/

/-- The aliases of one scope are those of the same fields in another one. -/
def Keeps (before after : Scope) : Prop :=
  ∀ field name, before.aliases.lookup field = some name → after.aliases.lookup field = some name

theorem Keeps.refl (scope : Scope) : Keeps scope scope :=
  fun _ _ known => known

theorem Keeps.trans {first second third : Scope} (early : Keeps first second)
    (late : Keeps second third) : Keeps first third :=
  fun field name known => late field name (early field name known)

theorem aliasOf_of_known {scope : Scope} {field name : String}
    (known : scope.aliases.lookup field = some name) : scope.aliasOf field = (name, scope) := by
  rw [aliasOf, known]

theorem lookup_aliasOf (scope : Scope) (field : String) :
    (scope.aliasOf field).2.aliases.lookup field = some (scope.aliasOf field).1 := by
  cases known : scope.aliases.lookup field with
  | some name => rw [aliasOf_of_known known, known]
  | none =>
    simp only [aliasOf, known]
    exact List.lookup_cons_self

theorem keeps_aliasOf (scope : Scope) (field : String) : Keeps scope (scope.aliasOf field).2 := by
  cases known : scope.aliases.lookup field with
  | some name =>
    rw [aliasOf_of_known known]
    exact .refl scope
  | none =>
    intro other name known_other
    -- The field that gets an alias had none, so it is another one.
    have different : (other == field) = false := by
      rw [beq_eq_false_iff_ne]
      rintro rfl
      rw [known] at known_other
      cases known_other
    simp only [aliasOf, known]
    rw [List.lookup_cons, different]
    exact known_other

theorem keeps_allocate (scope : Scope) (field : String) : Keeps scope (scope.allocate field).2 :=
  .refl scope

theorem keeps_reserve (scope : Scope) (name : String) : Keeps scope (scope.reserve name).2 := by
  unfold reserve
  by_cases taken : name ∈ scope.used
  · simp only [taken, if_true]
    exact .refl scope
  · simp only [taken, if_false]
    exact .refl scope

theorem keeps_place (scope : Scope) (field : String) (change : WireChange) :
    Keeps scope (scope.place field change).2 := by
  have named := keeps_aliasOf scope field
  cases change <;> exact named

theorem keeps_placeAll (scope : Scope) (changes : List (String × WireChange)) :
    Keeps scope (scope.placeAll changes).2 := by
  induction changes generalizing scope with
  | nil => exact .refl scope
  | cons first rest ih => exact (keeps_place scope first.1 first.2).trans (ih _)

theorem keeps_bindAll (scope : Scope) (field : String) (values : List WireValue) :
    Keeps scope (FilterClause.bindAll scope field values).2 := by
  induction values generalizing scope with
  | nil => exact .refl scope
  | cons value rest ih => exact (keeps_allocate scope field).trans (ih _)

theorem keeps_compileUpdate (scope : Scope) (gateway : Gateway) (types : DatatypeMap) (patch : Patch) :
    Keeps scope (scope.compileUpdate gateway types patch).2 := by
  unfold compileUpdate
  cases patch.changes gateway types with
  | error cause => exact .refl scope
  | ok changes => exact keeps_placeAll scope changes

theorem keeps_buildFilter (scope : Scope) (field : String) (operator : FilterOperator)
    (first second : Option Value) : Keeps scope (scope.buildFilter field operator first second).2 := by
  cases found : FilterClause.arguments field operator first second with
  | error cause =>
    rw [buildFilter_of_error found]
    exact .refl scope
  | ok arguments =>
    rw [buildFilter_of_ok found]
    exact (keeps_aliasOf scope field).trans (keeps_bindAll _ field arguments.2)

/-- No call takes an alias away, or changes one. -/
theorem keeps_answer (scope : Scope) (call : Call) : Keeps scope (scope.answer call).2 := by
  cases call with
  | aliasOf field => exact keeps_aliasOf scope field
  | allocate field => exact keeps_allocate scope field
  | reserve name => exact keeps_reserve scope name
  | update gateway types patch => exact keeps_compileUpdate scope gateway types patch
  | filter field operator first second => exact keeps_buildFilter scope field operator first second

theorem keeps_run (scope : Scope) (calls : List Call) :
    ∀ event ∈ scope.run calls, Keeps scope event.after := by
  induction calls generalizing scope with
  | nil => exact nofun
  | cons call rest ih =>
    have first := keeps_answer scope call
    refine List.forall_mem_cons.mpr ⟨first, ?_⟩
    intro event member
    exact first.trans (ih _ event member)

/-! ### Names that are handed out -/

/--
Placeholders and new aliases are names that were free among the placeholders, or among the aliases, and the other
kind of names stays as it was. As long as not all positive numbers of a base are taken, its least name that is free
is handed out. A field has the same alias in every scope that comes after the one in which it was given.
-/
theorem hands_out_least (scope : Scope) (field : String) :
    (let name := (scope.allocate field).1
     let after := (scope.allocate field).2
     IsHandedOut scope.used (":" ++ sanitize field) name after.used ∧
      after.aliases = scope.aliases ∧ after.aliasNames = scope.aliasNames) ∧
    (scope.aliases.lookup field = none →
      let name := (scope.aliasOf field).1
      let after := (scope.aliasOf field).2
      IsHandedOut scope.aliasNames ("#" ++ sanitize field) name after.aliasNames ∧
        after.used = scope.used ∧
        ∀ calls : List Call, ∀ later ∈ after :: (after.run calls).map Event.after,
          later.aliasOf field = (name, later)) := by
  refine ⟨⟨isHandedOut_leastFree scope.used _, rfl, rfl⟩, ?_⟩
  intro unknown name after
  have known : after.aliases.lookup field = some name := lookup_aliasOf scope field
  refine ⟨?_, ?_, ?_⟩
  · simp only [name, after, aliasOf, unknown]
    exact isHandedOut_leastFree scope.aliasNames _
  · simp only [after, aliasOf, unknown]
  · intro calls later member
    rcases List.mem_cons.mp member with rfl | member
    · exact aliasOf_of_known known
    · obtain ⟨event, among, rfl⟩ := List.mem_map.mp member
      exact aliasOf_of_known (keeps_run after calls event among field name known)

/-- Names that look numbered already leave the numbers between them. -/
theorem hands_out_least_between :
    let scope := ((ofNames [":age", ":age_2", ":age_4"]).aliasOf "first-name").2
    let scope := (scope.aliasOf "first_name_2").2
    (scope.allocate "age").1 = ":age_3" ∧ ¬ IsExhausted scope.used ":age" ∧
    IsHandedOut scope.used ":age" ":age_3" (scope.allocate "age").2.used ∧
    scope.aliases.lookup "first_name" = none ∧ (scope.aliasOf "first_name").1 = "#first_name_3" ∧
    ¬ IsExhausted scope.aliasNames "#first_name" ∧
    IsHandedOut scope.aliasNames "#first_name" "#first_name_3" (scope.aliasOf "first_name").2.aliasNames ∧
    ∀ later ∈ ((scope.aliasOf "first_name").2.run [.aliasOf "first.name", .reserve "#first_name_3"]).map
      Event.after, later.aliasOf "first_name" = ("#first_name_3", later) := by
  intro first scope
  have unknown : scope.aliases.lookup "first_name" = none := by decide
  have placeholder : (scope.allocate "age").1 = ":age_3" := by decide
  have alias_name : (scope.aliasOf "first_name").1 = "#first_name_3" := by decide
  have base : "#" ++ sanitize "first_name" = "#first_name" := by decide
  have room : ¬ IsExhausted scope.used ":age" := by
    rintro ⟨-, numbers_taken⟩
    exact absurd (numbers_taken 3 (by decide) (by decide)) (by decide)
  have alias_room : ¬ IsExhausted scope.aliasNames "#first_name" := by
    rintro ⟨-, numbers_taken⟩
    exact absurd (numbers_taken 3 (by decide) (by decide)) (by decide)
  obtain ⟨⟨allocated, -, -⟩, -⟩ := hands_out_least scope "age"
  obtain ⟨-, named⟩ := hands_out_least scope "first_name"
  obtain ⟨aliased, -, stays⟩ := named unknown
  rw [base, alias_name] at aliased
  refine ⟨placeholder, room, allocated, unknown, alias_name, alias_room, aliased, ?_⟩
  intro later member
  rw [← alias_name]
  exact stays _ later (List.mem_cons_of_mem _ member)

/-- So the name that is handed out past the greatest number is not the one with the least number that is free. -/
theorem allocate_past_greatest :
    let scope := ofNames (namesUpTo ":a" 2147483646)
    Search scope.used ":a" ⟨1, ":a"⟩ ⟨-2147483648, (scope.allocate "a").1⟩ ∧
    ¬ ∃ number, IsLeastFree scope.used ":a" number (scope.allocate "a").1 := by
  intro scope
  have free : ":a" ++ "_-2147483648" ∉ scope.used :=
    negative_not_mem_ofNames (fun _ => isMarked_of_mem_namesUpTo isMarked_colon_a) ":a"
  have exhausted := (isExhausted_namesUpTo ":a").ofNames
  rw [allocate_namesUpTo]
  refine ⟨search_of_isExhausted exhausted free, ?_⟩
  rintro ⟨number, least⟩
  have sign : '-' ∈ ":a_-2147483648".toList := by decide
  exact not_isMarked_of_mem sign (by decide) (by decide) (least.isMarked isMarked_colon_a)

end ItemMapper.Scope
