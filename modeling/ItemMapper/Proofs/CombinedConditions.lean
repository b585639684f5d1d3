import ItemMapper.Proofs.BuiltConditions

/-!
# Combined conditions

Conditions that were built in one scope keep their aliases and placeholders when they are combined, since no
placeholder is handed out twice and an alias always stands for the same field (`IsCombined`). Each of them is
a group of its own: the parentheses in a condition match (`IsCondition.isBalanced`), so that the outermost
parentheses of the combined statement are those around the conditions (`parts_joined`).

Main result: combining conditions loses and confuses nothing (`combine_isCombined`).
-/

namespace ItemMapper

/-! ### Parentheses -/

namespace ClauseText

/-- A text whose parentheses match; it has no other brackets. -/
inductive IsBalanced : List Char → Prop
  | nil : IsBalanced []
  | plain {c : Char} {rest : List Char} : (∀ depth, depthAfter depth c = depth) → IsBalanced rest →
      IsBalanced (c :: rest)
  | group {inner rest : List Char} : IsBalanced inner → IsBalanced rest →
      IsBalanced ('(' :: (inner ++ ')' :: rest))

theorem IsBalanced.append {front back : List Char} (front_balanced : IsBalanced front)
    (back_balanced : IsBalanced back) : IsBalanced (front ++ back) := by
  induction front_balanced with
  | nil => exact back_balanced
  | plain plain _ ih => exact .plain plain ih
  | group inner _ _ ih =>
    rw [List.cons_append, List.append_assoc, List.cons_append]
    exact .group inner ih

theorem isBalanced_of_plain {cs : List Char} (plain : ∀ c ∈ cs, ∀ depth, depthAfter depth c = depth) :
    IsBalanced cs := by
  induction cs with
  | nil => exact .nil
  | cons c rest ih =>
    apply IsBalanced.plain (plain c List.mem_cons_self)
    exact ih fun d member => plain d (List.mem_cons_of_mem _ member)

/--
A text cut at its outermost parentheses, if it starts inside of so many brackets: the part in front of the
first cut, and those behind, which stand by turns inside and outside of parentheses.
-/
def cutFrom (depth : Nat) : List Char → List Char × List (List Char)
  | [] => ([], [])
  | c :: rest =>
    let (first, others) := cutFrom (depthAfter depth c) rest
    if (c = '(' ∧ depth = 0) ∨ (c = ')' ∧ depth = 1) then ([], first :: others) else (c :: first, others)

/-- The parts of a text, by turns outside and inside of its outermost parentheses. -/
def parts (text : String) : List String :=
  ((cutFrom 0 text.toList).1 :: (cutFrom 0 text.toList).2).map String.ofList

theorem cutFrom_plain {c : Char} (plain : ∀ depth, depthAfter depth c = depth) (depth : Nat)
    (rest : List Char) :
    cutFrom depth (c :: rest) = (c :: (cutFrom depth rest).1, (cutFrom depth rest).2) := by
  have no_cut : ¬ ((c = '(' ∧ depth = 0) ∨ (c = ')' ∧ depth = 1)) := by
    rintro (⟨rfl, -⟩ | ⟨rfl, -⟩)
    · exact absurd (plain 0) (by decide)
    · exact absurd (plain 1) (by decide)
  rw [cutFrom, plain]
  simp only [if_neg no_cut]

theorem cutFrom_append_plain {cs : List Char} (plain : ∀ c ∈ cs, ∀ depth, depthAfter depth c = depth)
    (depth : Nat) (rest : List Char) :
    cutFrom depth (cs ++ rest) = (cs ++ (cutFrom depth rest).1, (cutFrom depth rest).2) := by
  induction cs with
  | nil => rfl
  | cons c cs ih =>
    have others := ih fun d member => plain d (List.mem_cons_of_mem _ member)
    rw [List.cons_append, cutFrom_plain (plain c List.mem_cons_self), others]
    rfl

/-- Inside of parentheses nothing is cut in a text whose own parentheses match. -/
theorem IsBalanced.cutFrom_append {cs : List Char} (balanced : IsBalanced cs) (depth : Nat)
    (rest : List Char) : cutFrom (depth + 1) (cs ++ rest) =
      (cs ++ (cutFrom (depth + 1) rest).1, (cutFrom (depth + 1) rest).2) := by
  induction balanced generalizing depth rest with
  | nil => rfl
  | plain plain _ ih =>
    rw [List.cons_append, cutFrom_plain plain, ih]
    rfl
  | @group inner behind _ _ inner_ih behind_ih =>
    have opened : depthAfter (depth + 1) '(' = depth + 2 := rfl
    have closed : depthAfter (depth + 2) ')' = depth + 1 := rfl
    rw [List.cons_append, List.append_assoc, List.cons_append, cutFrom, opened, inner_ih, cutFrom, closed,
      behind_ih]
    simp

/-- The outermost parentheses are found around a text whose own parentheses match. -/
theorem IsBalanced.cutFrom_group {cs : List Char} (balanced : IsBalanced cs) (rest : List Char) :
    cutFrom 0 ('(' :: (cs ++ ')' :: rest)) = ([], cs :: (cutFrom 0 rest).1 :: (cutFrom 0 rest).2) := by
  have opened : depthAfter 0 '(' = 1 := rfl
  have closed : depthAfter 1 ')' = 0 := rfl
  rw [cutFrom, opened, balanced.cutFrom_append 0, cutFrom, closed]
  simp

/-- A text without brackets. -/
def IsPlain (text : String) : Prop :=
  ∀ c ∈ text.toList, ∀ depth, depthAfter depth c = depth

theorem isPlain_of_all {text : String}
    (none_here : text.toList.all fun c => c ∉ ['(', ')', '[', ']']) : IsPlain text := by
  intro c member depth
  have different : c ∉ ['(', ')', '[', ']'] := by simpa using List.all_eq_true.mp none_here c member
  simp only [List.mem_cons, List.not_mem_nil, or_false, not_or] at different
  obtain ⟨not_open, not_close, not_open_square, not_close_square⟩ := different
  simp [depthAfter, not_open, not_close, not_open_square, not_close_square]

theorem isPlain_of_isName {mark : Char} (sign : mark = '#' ∨ mark = ':') {taken : List String} {name : String}
    (named : Scope.IsName mark taken name) : IsPlain name :=
  fun c member => ((isWord_of_isName sign named).plain c member).2

theorem IsPlain.append {front back : String} (front_plain : IsPlain front) (back_plain : IsPlain back) :
    IsPlain (front ++ back) := by
  intro c member
  rw [String.toList_append] at member
  rcases List.mem_append.mp member with first | second
  · exact front_plain c first
  · exact back_plain c second

theorem isPlain_intercalate {joint : String} (joint_plain : IsPlain joint) {texts : List String}
    (each : ∀ text ∈ texts, IsPlain text) : IsPlain (joint.intercalate texts) := by
  induction texts with
  | nil => exact isPlain_of_all rfl
  | cons first rest ih =>
    have first_plain := each first List.mem_cons_self
    by_cases more : rest = []
    · subst more
      simpa using first_plain
    · rw [String.intercalate_cons_of_ne_nil more]
      exact (first_plain.append joint_plain).append (ih fun text member => each text (List.mem_cons_of_mem _ member))

/-- A text in parentheses, behind another text. -/
theorem isBalanced_call {front inner : String} (front_plain : IsPlain front) (inner_plain : IsPlain inner) :
    IsBalanced (front ++ "(" ++ inner ++ ")").toList := by
  have spelled : (front ++ "(" ++ inner ++ ")").toList = front.toList ++ '(' :: (inner.toList ++ ')' :: []) := by
    simp [String.toList_append]
  rw [spelled]
  exact (isBalanced_of_plain front_plain).append (.group (isBalanced_of_plain inner_plain) .nil)

end ClauseText

namespace FilterClause

open ClauseText

theorem isPlain_of_mem {operator : FilterOperator} {word : String} (listed : (operator, word) ∈ signs ++ words) :
    IsPlain word := by
  apply isPlain_of_all
  fin_cases listed <;> decide

/-- The parentheses in a condition match. -/
theorem IsCondition.isBalanced {name : String} {operator : FilterOperator} {first second : Option Value}
    {bound : List (String × WireValue)} {statement : String}
    (condition : IsCondition name operator first second bound statement) {aliasNames used : List String}
    (name_formed : Scope.IsName '#' aliasNames name)
    (formed : ∀ placeholder ∈ bound.map Prod.fst, Scope.IsName ':' used placeholder) :
    IsBalanced statement.toList := by
  have name_plain : IsPlain name := isPlain_of_isName (.inl rfl) name_formed
  have plain : ∀ placeholder ∈ bound.map Prod.fst, IsPlain placeholder :=
    fun placeholder member => isPlain_of_isName (.inr rfl) (formed placeholder member)
  cases condition with
  | isIn _ _ _ =>
    have comma : IsPlain ", " := isPlain_of_all (by decide)
    have word : IsPlain " IN " := isPlain_of_all (by decide)
    have balanced := isBalanced_call (name_plain.append word) (isPlain_intercalate comma plain)
    -- The joint of a list opens its group, so it is taken apart at the parenthesis.
    have joint : " IN (" = " IN " ++ "(" := by decide
    rwa [joint, ← String.append_assoc]
  | between _ _ =>
    have low := plain _ List.mem_cons_self
    have high := plain _ (List.mem_cons_of_mem _ List.mem_cons_self)
    have between : IsPlain " BETWEEN " := isPlain_of_all (by decide)
    have joint : IsPlain " AND " := isPlain_of_all (by decide)
    exact isBalanced_of_plain ((((name_plain.append between).append low).append joint).append high)
  | comparison compares _ =>
    have value := plain _ List.mem_cons_self
    have blank : IsPlain " " := isPlain_of_all (by decide)
    have sign := isPlain_of_mem (List.mem_append_left _ compares)
    exact isBalanced_of_plain ((((name_plain.append blank).append sign).append blank).append value)
  | absent =>
    have word : IsPlain "attribute_not_exists" := isPlain_of_all (by decide)
    exact isBalanced_call word name_plain
  | present =>
    have word : IsPlain "attribute_exists" := isPlain_of_all (by decide)
    exact isBalanced_call word name_plain
  | applied function _ _ =>
    have value := plain _ List.mem_cons_self
    have comma : IsPlain ", " := isPlain_of_all (by decide)
    have word := isPlain_of_mem (List.mem_append_right _ function)
    have balanced := isBalanced_call word ((name_plain.append comma).append value)
    rwa [← String.append_assoc, ← String.append_assoc] at balanced
  | alone function _ => exact isBalanced_call (isPlain_of_mem (List.mem_append_right _ function)) name_plain

theorem IsBuilt.isBalanced {scope after : Scope} {field : String} {operator : FilterOperator}
    {first second : Option Value} {clause : FilterClause}
    (built : IsBuilt scope field operator first second clause after) : IsBalanced clause.statement.toList := by
  obtain ⟨bound, condition, -, mentioned⟩ := built.condition
  exact condition.isBalanced built.alias_formed (mentioned ▸ built.formed)

/-! ### Combined statements -/

theorem isPlain_word (conjunction : Conjunction) : IsPlain (" " ++ conjunction.word ++ " ") := by
  apply isPlain_of_all
  cases conjunction <;> decide

variable {conjunction : Conjunction} {clauses : List FilterClause}

theorem cutFrom_joined (each : ∀ clause ∈ clauses, IsBalanced clause.statement.toList)
    (some_clause : clauses ≠ []) : cutFrom 0 (joined conjunction clauses).toList =
      ([], ((clauses.map statement).intersperse (" " ++ conjunction.word ++ " ") ++ [""]).map String.toList) := by
  induction clauses with
  | nil => exact absurd rfl some_clause
  | cons clause rest ih =>
    have balanced := each clause List.mem_cons_self
    by_cases more : rest = []
    · subst more
      have alone : (joined conjunction [clause]).toList = '(' :: (clause.statement.toList ++ ')' :: []) := by
        simp [joined]
      rw [alone, balanced.cutFrom_group]
      simp [cutFrom]
    · have others := ih (fun other member => each other (List.mem_cons_of_mem _ member)) more
      have split : (joined conjunction (clause :: rest)).toList = '(' :: (clause.statement.toList ++
          ')' :: ((" " ++ conjunction.word ++ " ").toList ++ (joined conjunction rest).toList)) := by
        rw [joined, List.map_cons, String.intercalate_cons_of_ne_nil (by simpa using more)]
        simp [joined]
      -- The group is cut out, nothing is cut in the joint behind it, and the rest starts with a cut.
      obtain ⟨second, behind, rfl⟩ := List.exists_cons_of_ne_nil more
      rw [split, balanced.cutFrom_group, cutFrom_append_plain (isPlain_word conjunction), others]
      simp

/-- The outermost parentheses of a combined statement are those around the conditions. -/
theorem parts_joined (each : ∀ clause ∈ clauses, IsBalanced clause.statement.toList)
    (some_clause : clauses ≠ []) : parts (joined conjunction clauses) =
      "" :: (clauses.map statement).intersperse (" " ++ conjunction.word ++ " ") ++ [""] := by
  have same : String.ofList ∘ String.toList = id := by
    funext text
    exact String.ofList_toList
  rw [parts, cutFrom_joined each some_clause, List.map_cons, List.map_map, same, List.map_id]
  rfl

/-! ### Combined bindings -/

/-- Conditions whose placeholders are different, and which agree on what their aliases stand for. -/
structure AreApart (clauses : List FilterClause) : Prop where
  placeholders_distinct : (Fields.names (clauses.flatMap attributeValues)).Nodup
  aliases_agree : ∀ first ∈ clauses.flatMap attributeNames, ∀ second ∈ clauses.flatMap attributeNames,
    first.1 = second.1 → first.2 = second.2
  aliases_distinct : ∀ clause ∈ clauses, (Fields.names clause.attributeNames).Nodup

/-- What a combined condition binds is what the conditions bind on their own, and nothing else. -/
structure IsCombined (clauses : List FilterClause) (combined : FilterClause) : Prop where
  names_bound : ∀ name field, Fields.get? combined.attributeNames name = some field ↔
    ∃ clause ∈ clauses, Fields.get? clause.attributeNames name = some field
  values_bound : ∀ placeholder value, Fields.get? combined.attributeValues placeholder = some value ↔
    ∃ clause ∈ clauses, Fields.get? clause.attributeValues placeholder = some value
  names_distinct : (Fields.names combined.attributeNames).Nodup
  values_distinct : (Fields.names combined.attributeValues).Nodup
  values_counted :
    combined.attributeValues.length = (clauses.map fun clause => clause.attributeValues.length).sum

theorem combine_singleton (conjunction : Conjunction) (clause : FilterClause) :
    combine conjunction [clause] = clause := rfl

theorem combine_of_ne_singleton (conjunction : Conjunction) (several : clauses.length ≠ 1) :
    combine conjunction clauses =
      ⟨joined conjunction clauses, Fields.ofList (clauses.flatMap attributeNames),
        Fields.ofList (clauses.flatMap attributeValues)⟩ := by
  simp only [Fields.ofList, Fields.insertAll, List.foldl_flatMap]
  unfold combine
  split
  next => exact absurd rfl several
  next => rfl

theorem AreApart.values_distinct (apart : AreApart clauses) {clause : FilterClause} (member : clause ∈ clauses) :
    (Fields.names clause.attributeValues).Nodup := by
  have distinct := apart.placeholders_distinct
  rw [Fields.names, List.map_flatMap, List.nodup_flatMap] at distinct
  exact distinct.1 clause member

theorem AreApart.isCombined (apart : AreApart clauses) (conjunction : Conjunction) :
    IsCombined clauses (combine conjunction clauses) := by
  by_cases single : clauses.length = 1
  · obtain ⟨clause, rfl⟩ := List.length_eq_one_iff.mp single
    rw [combine_singleton]
    constructor
    case names_bound => simp
    case values_bound => simp
    case names_distinct => exact apart.aliases_distinct clause List.mem_cons_self
    case values_distinct => exact apart.values_distinct List.mem_cons_self
    case values_counted => simp
  · rw [combine_of_ne_singleton conjunction single]
    have values_perm := Fields.ofList_perm apart.placeholders_distinct
    constructor
    case names_bound =>
      intro name field
      rw [Fields.get?_ofList_of_agree apart.aliases_agree, List.mem_flatMap]
      apply exists_congr
      intro clause
      apply and_congr_right
      intro member
      exact (Fields.get?_eq_some_iff (apart.aliases_distinct clause member)).symm
    case values_bound =>
      intro placeholder value
      have distinct := (values_perm.map Prod.fst).nodup_iff.mpr apart.placeholders_distinct
      rw [Fields.get?_eq_some_iff distinct, values_perm.mem_iff, List.mem_flatMap]
      apply exists_congr
      intro clause
      apply and_congr_right
      intro member
      exact (Fields.get?_eq_some_iff (apart.values_distinct member)).symm
    case names_distinct => exact (Fields.ordered_ofList _).nodup
    case values_distinct => exact (Fields.ordered_ofList _).nodup
    case values_counted => rw [values_perm.length_eq, List.length_flatMap]

end FilterClause

/-! ### Conditions of a run -/

namespace Scope

/-- The condition that was built, if one was asked for and nothing failed. -/
def Answer.built? : Answer → Option FilterClause
  | .clause (.ok built) => some built
  | _ => none

/-- The conditions that were built in a run. -/
def conditions (events : List Event) : List FilterClause :=
  events.filterMap fun event => event.answer.built?

theorem Answer.eq_of_built? {answer : Answer} {found : FilterClause} (built : answer.built? = some found) :
    answer = .clause (.ok found) := by
  unfold built? at built
  split at built
  next => rw [Option.some.inj built]
  next => cases built

variable {scope last : Scope} {events : List Event}

theorem exists_built_of_answer {call : Call} {clause : FilterClause}
    (answered : (scope.answer call).1 = .clause (.ok clause)) :
    ∃ field operator first second after,
      scope.buildFilter field operator first second = (.ok clause, after) := by
  cases call with
  | filter field operator first second =>
    rcases built : scope.buildFilter field operator first second with ⟨result, after⟩
    rw [answer, built] at answered
    cases answered
    exact ⟨field, operator, first, second, after, built⟩
  | _ => cases answered

/-- Each condition of a run was built in some scope that it went through. -/
theorem exists_isBuilt (sound : scope.IsSound) (calls : List Call) :
    ∀ clause ∈ conditions (scope.run calls), ∃ before field operator first second after,
      FilterClause.IsBuilt before field operator first second clause after := by
  induction calls generalizing scope with
  | nil => exact nofun
  | cons call rest ih =>
    have step := isStep_answer sound call
    intro clause member
    obtain ⟨event, inside, built⟩ := List.mem_filterMap.mp member
    rcases List.mem_cons.mp inside with rfl | later
    · obtain ⟨field, operator, first, second, after, found⟩ := exists_built_of_answer (Answer.eq_of_built? built)
      exact ⟨_, _, _, _, _, _, FilterClause.isBuilt_of_buildFilter sound.toWellFormed found⟩
    · exact ih step.sound clause (List.mem_filterMap.mpr ⟨event, later, built⟩)

/-- The placeholders of the conditions are among those that are handed out. -/
theorem placeholders_conditions (events : List Event) :
    ((conditions events).flatMap fun clause => Fields.names clause.attributeValues).Sublist
      (events.flatMap fun event => event.answer.placeholders) := by
  induction events with
  | nil => exact .refl _
  | cons event rest ih =>
    rw [conditions, List.filterMap_cons, List.flatMap_cons]
    cases built : event.answer.built? with
    | none => exact ih.trans (List.sublist_append_right _ _)
    | some clause =>
      rw [Answer.eq_of_built? built]
      exact (List.Sublist.refl _).append ih

theorem attributeNames_conditions {events : List Event} {clause : FilterClause}
    (member : clause ∈ conditions events) :
    clause.attributeNames ⊆ events.flatMap Event.attributeNames := by
  obtain ⟨event, inside, built⟩ := List.mem_filterMap.mp member
  intro entry named
  refine List.mem_flatMap.mpr ⟨event, inside, List.mem_append_left _ ?_⟩
  rw [Answer.eq_of_built? built]
  exact named

/-- Conditions of a run, each listed once, can be told apart. -/
theorem Chain.areApart (chain : Chain scope events last) {clauses : List FilterClause}
    (listed : clauses.Subperm (conditions events))
    (aliases_distinct : ∀ clause ∈ clauses, (Fields.names clause.attributeNames).Nodup) :
    FilterClause.AreApart clauses := by
  constructor
  case placeholders_distinct =>
    obtain ⟨in_order, same, part⟩ := listed
    rw [Fields.names, List.map_flatMap]
    apply (same.flatMap_right _).nodup_iff.mp
    apply ((part.flatMap _).trans (placeholders_conditions events)).nodup
    exact chain.fresh.1
  case aliases_agree =>
    intro first first_said second second_said same
    -- Aliases agree because all of them are known to the last scope, where each has one field.
    have known : ∀ entry ∈ clauses.flatMap FilterClause.attributeNames, entry.swap ∈ last.aliases := by
      intro entry said
      obtain ⟨clause, inside, named⟩ := List.mem_flatMap.mp said
      exact chain.named entry (attributeNames_conditions (listed.subset inside) named)
    exact congrArg Prod.fst (List.inj_on_of_nodup_map chain.sound.isConsistent.names_distinct
      (known first first_said) (known second second_said) same)
  case aliases_distinct => exact aliases_distinct

end Scope

namespace FilterClause

open ClauseText Scope

/--
Conditions of a run on one scope, each listed once, lose nothing when they are combined. A single one stays
as it is; of several, each is a group of its own, with the conjunction between them.
-/
theorem combine_isCombined (names : List String) (calls : List Call) (conjunction : Conjunction)
    {clauses : List FilterClause}
    (listed : clauses.Subperm (conditions ((Scope.ofNames names).run calls))) :
    IsCombined clauses (combine conjunction clauses) ∧
    (∀ clause, clauses = [clause] → combine conjunction clauses = clause) ∧
    (2 ≤ clauses.length → parts (combine conjunction clauses).statement =
      "" :: (clauses.map statement).intersperse (match conjunction with
        | .all => " AND "
        | .any => " OR ") ++ [""]) := by
  have sound := isSound_ofNames names
  obtain ⟨last, chain⟩ := chain_run sound calls
  have built : ∀ clause ∈ clauses, ∃ before field operator first second after,
      IsBuilt before field operator first second clause after :=
    fun clause member => exists_isBuilt sound calls clause (listed.subset member)
  refine ⟨?_, ?_, ?_⟩
  · apply AreApart.isCombined
    apply chain.areApart listed
    intro clause member
    obtain ⟨before, field, operator, first, second, after, built⟩ := built clause member
    rw [built.named]
    exact List.nodup_singleton _
  · rintro clause rfl
    exact combine_singleton conjunction clause
  · intro several
    have not_single : clauses.length ≠ 1 := by omega
    have some_clause : clauses ≠ [] := List.ne_nil_of_length_pos (by omega)
    have balanced : ∀ clause ∈ clauses, IsBalanced clause.statement.toList := by
      intro clause member
      obtain ⟨before, field, operator, first, second, after, built⟩ := built clause member
      exact built.isBalanced
    rw [combine_of_ne_singleton conjunction not_single]
    cases conjunction with
    | all => exact parts_joined balanced some_clause
    | any => exact parts_joined balanced some_clause

/-- Fields that collide, a range, a list and a function, with another call in between, in reverse order. -/
theorem combine_isCombined_reversed :
    let calls : List Call := [.filter "a-b" .between (some (.bool true)) (some (.bool false)),
      .allocate "a_b", .filter "a b" .isIn (some (.list [.string "x"])) none, .filter "a-b" .size none none]
    let conditions := conditions ((Scope.ofNames [":a_b_3"]).run calls)
    conditions.reverse.Subperm conditions ∧
    parts (combine .all conditions.reverse).statement = ["", "size(#a_b)", " AND ",
      "#a_b_2 IN (:a_b_5)", " AND ", "#a_b BETWEEN :a_b AND :a_b_2", ""] ∧
    parts (combine .any conditions.reverse).statement = ["", "size(#a_b)", " OR ",
      "#a_b_2 IN (:a_b_5)", " OR ", "#a_b BETWEEN :a_b AND :a_b_2", ""] ∧
    IsCombined conditions.reverse (combine .all conditions.reverse) ∧
    IsCombined conditions.reverse (combine .any conditions.reverse) := by
  intro calls conditions
  have listed : conditions.reverse.Subperm conditions := conditions.reverse_perm.subperm
  have several : 2 ≤ conditions.reverse.length := by decide
  obtain ⟨all_combined, -, all_grouped⟩ := combine_isCombined [":a_b_3"] calls .all listed
  obtain ⟨any_combined, -, any_grouped⟩ := combine_isCombined [":a_b_3"] calls .any listed
  refine ⟨listed, (all_grouped several).trans ?_, (any_grouped several).trans ?_, all_combined, any_combined⟩
  · decide
  · decide

end FilterClause
end ItemMapper
