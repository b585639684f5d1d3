import ItemMapper.Proofs.ReadClauses
import ItemMapper.Proofs.RequestRuns
import ItemMapper.Proofs.WrittenLeaf

/-!
# Conditions and what they mention

A condition is a text over an alias and some placeholders. Which ones it mentions can be told from the text
alone, since they are its parts that start with `#` and with `:` (`marksIn`). The forms that conditions have
are given by `IsCondition`, one rule for each form.

Main result: a condition is built exactly if its operator gets the values that it needs, and then it binds
exactly what it mentions (`build_isBuilt`).
-/

namespace ItemMapper

/-! ### Marked names -/

namespace ClauseText

/-- Whether a character may stand in an alias or placeholder: in its mark, its word or the sign of its number. -/
def isNamePart (c : Char) : Bool :=
  c.isAlphanum || c = '_' || c = '#' || c = ':' || c = '-'

/-- The names in a text that start with a mark, in their order. -/
def marksIn (mark : Char) (text : String) : List String :=
  ((text.toList.splitOnP fun c => !isNamePart c).filter fun word => word.head? = some mark).map String.ofList

theorem splitOnP_boundary {c : Char} (boundary : isNamePart c = false) (cs rest : List Char) :
    (cs ++ c :: rest).splitOnP (fun c => !isNamePart c) =
      cs.splitOnP (fun c => !isNamePart c) ++ rest.splitOnP fun c => !isNamePart c := by
  apply List.splitOnP_append_cons
  rw [boundary]
  rfl

theorem marksIn_append (mark : Char) {front back : String}
    (apart : (∀ c ∈ front.toList.getLast?, isNamePart c = false) ∨ ∀ c ∈ back.toList.head?, isNamePart c = false) :
    marksIn mark (front ++ back) = marksIn mark front ++ marksIn mark back := by
  simp only [marksIn, String.toList_append]
  generalize front.toList = cs at apart ⊢
  generalize back.toList = ds at apart ⊢
  -- Splitting at a boundary before or behind the joint leaves an empty part there, which has no mark.
  rcases apart with left | right
  · rcases List.eq_nil_or_concat cs with rfl | ⟨before, last, rfl⟩
    · simp
    · have boundary := left last (by simp)
      rw [List.concat_eq_append, List.append_assoc, List.singleton_append, splitOnP_boundary boundary,
        splitOnP_boundary boundary]
      simp
  · cases ds with
    | nil => simp
    | cons first behind =>
      have alone := splitOnP_boundary (right first rfl) [] behind
      rw [List.nil_append] at alone
      rw [splitOnP_boundary (right first rfl), alone]
      simp

/-- A text between two others that keeps their names apart, and has no marked name itself. -/
structure IsJoint (text : String) : Prop where
  starts : text.toList.head?.map isNamePart = some false
  ends : text.toList.getLast?.map isNamePart = some false
  unmarked : marksIn '#' text = [] ∧ marksIn ':' text = []

variable {mark : Char} (sign : mark = '#' ∨ mark = ':')
include sign

theorem marksIn_joint {text : String} (joint : IsJoint text) (front back : String) :
    marksIn mark (front ++ text ++ back) = marksIn mark front ++ marksIn mark back := by
  have none_here : marksIn mark text = [] := by
    rcases sign with rfl | rfl
    · exact joint.unmarked.1
    · exact joint.unmarked.2
  obtain ⟨first, is_first, first_boundary⟩ := Option.map_eq_some_iff.mp joint.starts
  obtain ⟨last, is_last, last_boundary⟩ := Option.map_eq_some_iff.mp joint.ends
  have before : ∀ c ∈ text.toList.head?, isNamePart c = false := by
    simpa [is_first] using first_boundary
  have behind : ∀ c ∈ (front ++ text).toList.getLast?, isNamePart c = false := by
    simpa [List.getLast?_append, is_last] using last_boundary
  rw [marksIn_append mark (.inl behind), marksIn_append mark (.inr before), none_here, List.append_nil]

theorem marksIn_closed {text : String} (joint : IsJoint text) (front : String) :
    marksIn mark (front ++ text) = marksIn mark front := by
  have nothing : marksIn mark "" = [] := rfl
  have closed := marksIn_joint sign joint front ""
  rwa [String.append_empty, nothing, List.append_nil] at closed

/-- Texts between joints are found again. -/
theorem marksIn_intercalate {joint : String} (apart : IsJoint joint) (texts : List String) :
    marksIn mark (joint.intercalate texts) = texts.flatMap (marksIn mark) := by
  induction texts with
  | nil => rfl
  | cons first rest ih =>
    by_cases more : rest = []
    · subst more
      simp
    · rw [String.intercalate_cons_of_ne_nil more, marksIn_joint sign apart, ih, List.flatMap_cons]

omit sign in
theorem isNamePart_of_isMarked {sign : Char} (either : sign = '#' ∨ sign = ':') {name : String}
    (marked : Scope.IsMarked sign name) : ∀ c ∈ name.toList, isNamePart c := by
  obtain ⟨word, -, letters, chars⟩ := marked
  rw [chars]
  refine List.forall_mem_cons.mpr ⟨?_, fun c member => by simp [isNamePart, letters c member]⟩
  rcases either with rfl | rfl <;> rfl

omit sign in
theorem isNamePart_of_isName {sign : Char} (either : sign = '#' ∨ sign = ':') {taken : List String} {name : String}
    (named : Scope.IsName sign taken name) : ∀ c ∈ name.toList, isNamePart c := by
  cases named with
  | marked marked => exact isNamePart_of_isMarked either marked
  | @negative base number marked _ =>
    have front := isNamePart_of_isMarked either marked
    have digits : ∀ c ∈ Nat.toDigits 10 number, isNamePart c := by
      intro c member
      simp [isNamePart, Scope.isAlphanum_of_isDigit (Decimal.isDigit_of_mem_toDigits member)]
    have spelled : (base ++ "_-" ++ toString number).toList =
        base.toList ++ '_' :: '-' :: Nat.toDigits 10 number := by simp
    rw [spelled]
    exact List.forall_mem_append.mpr ⟨front, List.forall_mem_cons.mpr ⟨rfl, List.forall_mem_cons.mpr ⟨rfl, digits⟩⟩⟩

omit sign in
theorem marksIn_of_isName {sign : Char} (either : sign = '#' ∨ sign = ':') {taken : List String} {name : String}
    (named : Scope.IsName sign taken name) : marksIn mark name = if sign = mark then [name] else [] := by
  have parts := isNamePart_of_isName either named
  have whole : name.toList.splitOnP (fun c => !isNamePart c) = [name.toList] :=
    List.splitOnP_eq_singleton fun c member => by simp [parts c member]
  rw [marksIn, whole, List.filter_singleton, named.head?_eq]
  by_cases same : sign = mark <;> simp [same]

end ClauseText

namespace FilterClause

/-! ### Forms of conditions -/

/-- A value that is there and not null. -/
def IsGiven (value : Option Value) : Prop :=
  ∃ given, value = some given ∧ given ≠ .null

/-- Whether an operator gets the values that it needs. -/
def IsUsable (operator : FilterOperator) (first second : Option Value) : Prop :=
  match operator with
  | .isIn => ∃ items, first = some (.list items) ∧ items ≠ [] ∧ ∀ item ∈ items, item ≠ .null
  | .between => IsGiven first ∧ IsGiven second
  | .equal | .notEqual | .less | .lessEqual | .greater | .greaterEqual => IsGiven first
  | .attributeExists | .attributeNotExists | .attributeType | .beginsWith | .contains | .notContains
  | .size => True

/-- The comparisons with one value, and how each of them is written. -/
def signs : List (FilterOperator × String) :=
  [(.equal, "="), (.notEqual, "<>"), (.less, "<"), (.lessEqual, "<="), (.greater, ">"), (.greaterEqual, ">=")]

/-- The functions, and how each of them is written. -/
def words : List (FilterOperator × String) :=
  [(.attributeExists, "attribute_exists"), (.attributeNotExists, "attribute_not_exists"),
    (.attributeType, "attribute_type"), (.beginsWith, "begins_with"), (.contains, "contains"),
    (.notContains, "NOT contains"), (.size, "size")]

/--
The statements about the attribute behind an alias, for an operator and its values, with the placeholders in
the statement and what they stand for.
-/
inductive IsCondition (name : String) :
    FilterOperator → Option Value → Option Value → List (String × WireValue) → String → Prop
  | isIn {items : List Value} {second : Option Value} {bound : List (String × WireValue)} :
      items ≠ [] → (∀ item ∈ items, item ≠ .null) → bound.map Prod.snd = items.map Value.natural →
      IsCondition name .isIn (some (.list items)) second bound
        (name ++ " IN (" ++ ", ".intercalate (bound.map Prod.fst) ++ ")")
  | between {low high : Value} {p q : String} : low ≠ .null → high ≠ .null →
      IsCondition name .between (some low) (some high) [(p, low.natural), (q, high.natural)]
        (name ++ " BETWEEN " ++ p ++ " AND " ++ q)
  | comparison {operator : FilterOperator} {sign : String} {value : Value} {second : Option Value} {p : String} :
      (operator, sign) ∈ signs → value ≠ .null →
      IsCondition name operator (some value) second [(p, value.natural)] (name ++ " " ++ sign ++ " " ++ p)
  /-- A truth value under `attribute_exists` says which of the two functions is meant. -/
  | absent {second : Option Value} :
      IsCondition name .attributeExists (some (.bool false)) second []
        ("attribute_not_exists" ++ "(" ++ name ++ ")")
  | present {second : Option Value} :
      IsCondition name .attributeExists (some (.bool true)) second [] ("attribute_exists" ++ "(" ++ name ++ ")")
  | applied {operator : FilterOperator} {word : String} {value : Value} {second : Option Value} {p : String} :
      (operator, word) ∈ words → (operator = .attributeExists → ∀ truth, value ≠ .bool truth) → value ≠ .null →
      IsCondition name operator (some value) second [(p, value.natural)] (word ++ "(" ++ name ++ ", " ++ p ++ ")")
  | alone {operator : FilterOperator} {word : String} {first second : Option Value} :
      (operator, word) ∈ words → ¬ IsGiven first →
      IsCondition name operator first second [] (word ++ "(" ++ name ++ ")")

variable {name : String} {operator : FilterOperator} {first second : Option Value}

theorem isUsable_of_mem_words {word : String} (function : (operator, word) ∈ words) :
    IsUsable operator first second := by
  fin_cases function <;> trivial

theorem IsCondition.isUsable {bound : List (String × WireValue)} {statement : String}
    (condition : IsCondition name operator first second bound statement) : IsUsable operator first second := by
  cases condition with
  | isIn some_item present _ => exact ⟨_, rfl, some_item, present⟩
  | between low high => exact ⟨⟨_, rfl, low⟩, ⟨_, rfl, high⟩⟩
  | comparison compares present => fin_cases compares <;> exact ⟨_, rfl, present⟩
  | absent => trivial
  | present => trivial
  | applied function _ _ => exact isUsable_of_mem_words function
  | alone function _ => exact isUsable_of_mem_words function

/-! ### The values of conditions -/

theorem bind_marshal?_eq_some_iff {value : Option Value} {wire : WireValue} :
    value.bind Value.marshal? = some wire ↔ ∃ given, value = some given ∧ given ≠ .null ∧ given.natural = wire := by
  simp [Option.bind_eq_some_iff, Codec.marshal?_eq_some_iff]

theorem bind_marshal?_eq_none_iff {value : Option Value} :
    value.bind Value.marshal? = none ↔ ¬ IsGiven value := by
  cases value with
  | none => simp [IsGiven]
  | some given => cases given <;> simp [IsGiven, Value.marshal?, Value.isNull]

theorem alternatives_eq_ok_iff {field : String} {values : List WireValue} :
    alternatives field first = .ok values ↔
      ∃ items, first = some (.list items) ∧ items ≠ [] ∧ (∀ item ∈ items, item ≠ .null) ∧
        items.map Value.natural = values := by
  constructor
  · intro result
    unfold alternatives at result
    split at result
    next items =>
      obtain ⟨found, read, result⟩ := bind_eq_ok_iff.mp result
      have each : List.Forall₂ (fun item wire => item ≠ .null ∧ item.natural = wire) items found := by
        apply (mapM_eq_ok_iff_forall₂.mp read).imp
        intro item wire marshalled
        split at marshalled
        next given => exact Codec.marshal?_eq_some_iff.mp (given.trans (congrArg some (Except.ok.inj marshalled)))
        next => cases marshalled
      obtain ⟨present, same⟩ := (List.forall₂_and_left _ _).mp each
      obtain rfl : items.map Value.natural = found := by
        rwa [← List.forall₂_map_left_iff, List.forall₂_eq_eq_eq] at same
      by_cases nothing : items = []
      · subst nothing
        cases result
      · refine ⟨items, rfl, nothing, present, ?_⟩
        simpa [nothing, pure, Except.pure] using result
    next => cases result
  · rintro ⟨items, rfl, some_item, present, rfl⟩
    have read : ∀ item ∈ items, item.marshal? = some item.natural :=
      fun item member => Codec.marshal?_eq_some_iff.mpr ⟨present item member, rfl⟩
    refine bind_eq_ok_iff.mpr ⟨items.map Value.natural, mapM_eq_ok fun item member => ?_, ?_⟩
    · rw [read item member]
    · simp [some_item, pure, Except.pure]

theorem effective_of_truth (truth : Bool) : effective .attributeExists (some (.bool truth)) =
    (if truth then .attributeExists else .attributeNotExists, none) := by
  cases truth <;> rfl

theorem effective_eq_self (other : operator = .attributeExists → ∀ truth, first ≠ some (.bool truth)) :
    effective operator first = (operator, first.bind Value.marshal?) := by
  unfold effective
  split
  next => exact absurd rfl (other rfl false)
  next => exact absurd rfl (other rfl true)
  next => rfl

section

variable {field : String} (not_in : operator ≠ .isIn) (not_between : operator ≠ .between)
include not_in not_between

/-- A comparison or a function is written with the value that is there. -/
theorem arguments_of_given {written : FilterOperator} {value : WireValue}
    (given : effective operator first = (written, some value)) :
    arguments field operator first second = .ok (written, [value]) := by
  cases operator <;> first
    | contradiction
    | simp only [arguments, given]

/-- Only a function is written without a value. -/
theorem arguments_of_missing {written : FilterOperator} (given : effective operator first = (written, none)) :
    arguments field operator first second =
      if written.isFunction then .ok (written, []) else .error (.compile field (.withoutValue written)) := by
  cases operator <;> first
    | contradiction
    | simp only [arguments, given]

theorem mem_signs (not_function : ¬ operator.isFunction) : (operator, operator.text) ∈ signs := by
  cases operator <;> first
    | contradiction
    | simp [signs, FilterOperator.text]

end

theorem mem_words (function : operator.isFunction) : (operator, operator.text) ∈ words := by
  cases operator <;> first
    | contradiction
    | simp [words, FilterOperator.text]

theorem statementText_of_isFunction (function : operator.isFunction) (name : String)
    (placeholders : List String) : statementText operator name placeholders =
      operator.text ++ "(" ++ ", ".intercalate (name :: placeholders) ++ ")" := by
  simp only [statementText, function, if_true, functionText]

theorem statementText_of_mem_signs {sign : String} (compares : (operator, sign) ∈ signs) (name p : String) :
    statementText operator name [p] = name ++ " " ++ operator.text ++ " " ++ p := by
  fin_cases compares <;> simp [statementText, FilterOperator.isFunction]

theorem statementText_between (name p q : String) :
    statementText .between name [p, q] = name ++ " BETWEEN " ++ p ++ " AND " ++ q := by
  simp [statementText, FilterOperator.isFunction, String.intercalate_cons_cons, String.append_assoc]

section

variable {field : String} {written : FilterOperator} {values : List WireValue} {bound : List (String × WireValue)}

theorem isCondition_between (found : arguments field .between first second = .ok (written, values))
    (complete : bound.map Prod.snd = values) :
    IsCondition name .between first second bound (statementText written name (bound.map Prod.fst)) := by
  simp only [arguments] at found
  split at found
  next low high low_given high_given =>
    obtain ⟨rfl, rfl⟩ := Prod.mk.inj (Except.ok.inj found)
    obtain ⟨first, rfl, first_present, rfl⟩ := bind_marshal?_eq_some_iff.mp low_given
    obtain ⟨second, rfl, second_present, rfl⟩ := bind_marshal?_eq_some_iff.mp high_given
    obtain ⟨⟨p, -⟩, ⟨q, -⟩, rfl, rfl, rfl⟩ : ∃ low high, bound = [low, high] ∧
        low.2 = first.natural ∧ high.2 = second.natural := by
      simpa [List.map_eq_cons_iff] using complete
    rw [List.map_cons, List.map_singleton, statementText_between]
    exact .between first_present second_present
  next => cases found

theorem isCondition_truth {truth : Bool}
    (found : arguments field .attributeExists (some (.bool truth)) second = .ok (written, values))
    (complete : bound.map Prod.snd = values) :
    IsCondition name .attributeExists (some (.bool truth)) second bound
      (statementText written name (bound.map Prod.fst)) := by
  have missing : arguments field .attributeExists (some (.bool truth)) second = _ :=
    arguments_of_missing (by decide) (by decide) (effective_of_truth truth)
  rw [missing] at found
  cases truth with
  | false =>
    obtain ⟨rfl, rfl⟩ := Prod.mk.inj (Except.ok.inj found)
    obtain rfl := List.map_eq_nil_iff.mp complete
    exact .absent
  | true =>
    obtain ⟨rfl, rfl⟩ := Prod.mk.inj (Except.ok.inj found)
    obtain rfl := List.map_eq_nil_iff.mp complete
    exact .present

/-- Apart from ranges, lists and truth values, an operator is written as it is. -/
theorem isCondition_as_is (not_in : operator ≠ .isIn) (not_between : operator ≠ .between)
    (not_truth : operator = .attributeExists → ∀ truth, first ≠ some (.bool truth))
    (found : arguments field operator first second = .ok (written, values))
    (complete : bound.map Prod.snd = values) :
    IsCondition name operator first second bound (statementText written name (bound.map Prod.fst)) := by
  have as_is := effective_eq_self not_truth
  -- A null marshals to nothing, like a value that is missing.
  cases marshalled : first.bind Value.marshal? with
  | none =>
    rw [marshalled] at as_is
    rw [arguments_of_missing not_in not_between as_is] at found
    by_cases function : operator.isFunction
    · rw [if_pos function] at found
      obtain ⟨rfl, rfl⟩ := Prod.mk.inj (Except.ok.inj found)
      obtain rfl := List.map_eq_nil_iff.mp complete
      rw [statementText_of_isFunction function, List.map_nil, String.intercalate_singleton]
      exact .alone (mem_words function) (bind_marshal?_eq_none_iff.mp marshalled)
    · rw [if_neg function] at found
      cases found
  | some wire =>
    rw [marshalled] at as_is
    rw [arguments_of_given not_in not_between as_is] at found
    obtain ⟨rfl, rfl⟩ := Prod.mk.inj (Except.ok.inj found)
    obtain ⟨value, rfl, present, rfl⟩ := bind_marshal?_eq_some_iff.mp marshalled
    obtain ⟨⟨p, -⟩, rfl, rfl⟩ := List.map_eq_singleton_iff.mp complete
    by_cases function : operator.isFunction
    · rw [statementText_of_isFunction function, List.map_singleton, String.intercalate_cons_cons,
        String.intercalate_singleton, ← String.append_assoc, ← String.append_assoc]
      refine .applied (mem_words function) ?_ present
      rintro exists_operator truth rfl
      exact not_truth exists_operator truth rfl
    · have compares := mem_signs not_in not_between function
      rw [List.map_singleton, statementText_of_mem_signs compares]
      exact .comparison compares present

/-- The values that are bound make a statement of the form that is due. -/
theorem isCondition_of_arguments (found : arguments field operator first second = .ok (written, values))
    (complete : bound.map Prod.snd = values) :
    IsCondition name operator first second bound (statementText written name (bound.map Prod.fst)) := by
  by_cases is_in : operator = .isIn
  · subst is_in
    obtain ⟨found_values, listed, same⟩ := map_eq_ok_iff.mp found
    obtain ⟨rfl, rfl⟩ := Prod.mk.inj same
    obtain ⟨items, rfl, some_item, present, rfl⟩ := alternatives_eq_ok_iff.mp listed
    exact .isIn some_item present complete
  by_cases is_between : operator = .between
  · subst is_between
    exact isCondition_between found complete
  by_cases is_truth : operator = .attributeExists ∧ ∃ truth, first = some (.bool truth)
  · obtain ⟨rfl, truth, rfl⟩ := is_truth
    exact isCondition_truth found complete
  · apply isCondition_as_is is_in is_between _ found complete
    intro exists_operator truth same
    exact is_truth ⟨exists_operator, truth, same⟩

end

theorem isGiven_of_mem_signs {sign : String} (compares : (operator, sign) ∈ signs)
    (usable : IsUsable operator first second) : IsGiven first := by
  fin_cases compares <;> exact usable

theorem exists_arguments (field : String) (usable : IsUsable operator first second) :
    ∃ result, arguments field operator first second = .ok result := by
  by_cases is_in : operator = .isIn
  · subst is_in
    obtain ⟨items, rfl, some_item, present⟩ := usable
    have listed : alternatives field (some (.list items)) = .ok (items.map Value.natural) :=
      alternatives_eq_ok_iff.mpr ⟨items, rfl, some_item, present, rfl⟩
    exact ⟨_, map_eq_ok_iff.mpr ⟨_, listed, rfl⟩⟩
  by_cases is_between : operator = .between
  · subst is_between
    obtain ⟨⟨low, rfl, low_present⟩, ⟨high, rfl, high_present⟩⟩ := usable
    have low_given := bind_marshal?_eq_some_iff.mpr ⟨low, rfl, low_present, rfl⟩
    have high_given := bind_marshal?_eq_some_iff.mpr ⟨high, rfl, high_present, rfl⟩
    exact ⟨(.between, [low.natural, high.natural]), by simp only [arguments, low_given, high_given]⟩
  rcases written : effective operator first with ⟨effective, value⟩
  cases value with
  | some value => exact ⟨_, arguments_of_given is_in is_between written⟩
  | none =>
    have function : effective.isFunction := by
      by_cases is_truth : operator = .attributeExists ∧ ∃ truth, first = some (.bool truth)
      · obtain ⟨rfl, truth, rfl⟩ := is_truth
        rw [effective_of_truth] at written
        obtain rfl := (Prod.mk.inj written).1
        cases truth <;> rfl
      · rw [effective_eq_self fun is_exists truth same => is_truth ⟨is_exists, truth, same⟩] at written
        obtain ⟨rfl, missing⟩ := Prod.mk.inj written
        -- A comparison would have got its value.
        by_contra not_function
        have compares := mem_signs is_in is_between not_function
        exact bind_marshal?_eq_none_iff.mp missing (isGiven_of_mem_signs compares usable)
    exact ⟨_, (arguments_of_missing is_in is_between written).trans (if_pos function)⟩

/-! ### What conditions mention -/

/-- The texts between the aliases, placeholders and operators of conditions. -/
def joints : List String :=
  [" ", "(", ", ", ")", " IN (", " BETWEEN ", " AND "]

theorem isJoint_of_mem {text : String} (member : text ∈ joints) : ClauseText.IsJoint text := by
  fin_cases member <;> exact ⟨by decide, by decide, by decide⟩

/-- How operators are written has no marked name. -/
theorem marksIn_eq_nil {word : String} (listed : (operator, word) ∈ signs ++ words) {mark : Char}
    (sign : mark = '#' ∨ mark = ':') : ClauseText.marksIn mark word = [] := by
  rcases sign with rfl | rfl <;> fin_cases listed <;> decide

open ClauseText in
/-- A condition mentions its alias first, and then its placeholders in their order. -/
theorem IsCondition.marksIn_statement {bound : List (String × WireValue)} {statement : String}
    (condition : IsCondition name operator first second bound statement) {mark : Char}
    (sign : mark = '#' ∨ mark = ':') :
    marksIn mark statement = (name :: bound.map Prod.fst).flatMap (marksIn mark) := by
  have joint : ∀ {text}, text ∈ joints → ∀ front back,
      marksIn mark (front ++ text ++ back) = marksIn mark front ++ marksIn mark back :=
    fun member => marksIn_joint sign (isJoint_of_mem member)
  have closed : ∀ front, marksIn mark (front ++ ")") = marksIn mark front :=
    marksIn_closed sign (isJoint_of_mem (by decide))
  cases condition with
  | isIn _ _ _ =>
    rw [closed, joint (by decide), marksIn_intercalate sign (isJoint_of_mem (by decide)), List.flatMap_cons]
  | between _ _ =>
    rw [joint (by decide), joint (by decide)]
    simp
  | comparison compares _ =>
    rw [joint (by decide), joint (by decide), marksIn_eq_nil (List.mem_append_left _ compares) sign]
    simp
  | absent =>
    have listed : (.attributeNotExists, "attribute_not_exists") ∈ signs ++ words := by decide
    rw [closed, joint (by decide), marksIn_eq_nil listed sign]
    simp
  | present =>
    have listed : (.attributeExists, "attribute_exists") ∈ signs ++ words := by decide
    rw [closed, joint (by decide), marksIn_eq_nil listed sign]
    simp
  | applied function _ _ =>
    rw [closed, joint (by decide), joint (by decide), marksIn_eq_nil (List.mem_append_right _ function) sign]
    simp
  | alone function _ =>
    rw [closed, joint (by decide), marksIn_eq_nil (List.mem_append_right _ function) sign]
    simp

open ClauseText in
theorem flatMap_marksIn {sign : Char} (either : sign = '#' ∨ sign = ':') {taken names : List String}
    (each : ∀ name ∈ names, Scope.IsName sign taken name) (mark : Char) :
    names.flatMap (marksIn mark) = if sign = mark then names else [] := by
  induction names with
  | nil => simp
  | cons first rest ih =>
    have tail := ih fun name member => each name (List.mem_cons_of_mem _ member)
    rw [List.flatMap_cons, tail, marksIn_of_isName either (each first List.mem_cons_self)]
    by_cases same : sign = mark <;> simp [same]

/-- Among names, the ones that a condition mentions are told apart by their marks. -/
theorem IsCondition.marksIn_eq {bound : List (String × WireValue)} {statement : String}
    (condition : IsCondition name operator first second bound statement) {names_taken taken : List String}
    (name_formed : Scope.IsName '#' names_taken name)
    (formed : ∀ placeholder ∈ bound.map Prod.fst, Scope.IsName ':' taken placeholder) :
    ClauseText.marksIn '#' statement = [name] ∧ ClauseText.marksIn ':' statement = bound.map Prod.fst := by
  constructor
  · rw [condition.marksIn_statement (.inl rfl), List.flatMap_cons,
      ClauseText.marksIn_of_isName (.inl rfl) name_formed, flatMap_marksIn (.inr rfl) formed]
    simp
  · rw [condition.marksIn_statement (.inr rfl), List.flatMap_cons,
      ClauseText.marksIn_of_isName (.inl rfl) name_formed, flatMap_marksIn (.inr rfl) formed]
    simp

/-! ### Building -/

open ClauseText in
/--
A condition on a field that was built in a scope. It binds its one alias and the placeholders that it
mentions, which are new and different, and nothing else is put in use.
-/
structure IsBuilt (scope : Scope) (field : String) (operator : FilterOperator) (first second : Option Value)
    (clause : FilterClause) (after : Scope) : Prop where
  named : clause.attributeNames = [((scope.aliasOf field).1, field)]
  aliases : after.aliases = (scope.aliasOf field).2.aliases
  alias_formed : Scope.IsName '#' after.aliasNames (scope.aliasOf field).1
  alias_mentioned : marksIn '#' clause.statement = [(scope.aliasOf field).1]
  condition : ∃ bound, IsCondition (scope.aliasOf field).1 operator first second bound clause.statement ∧
    clause.attributeValues.Perm bound ∧ bound.map Prod.fst = marksIn ':' clause.statement
  formed : ∀ placeholder ∈ marksIn ':' clause.statement, Scope.IsName ':' after.used placeholder
  distinct : (marksIn ':' clause.statement).Nodup
  fresh : ∀ placeholder ∈ marksIn ':' clause.statement, placeholder ∉ scope.used
  used : after.used.Perm (marksIn ':' clause.statement ++ scope.used)

theorem isBuilt_ofValues {scope : Scope} (well : scope.WellFormed) {field : String} {written : FilterOperator}
    {values : List WireValue} (found : arguments field operator first second = .ok (written, values)) :
    let built := ofValues (scope.aliasOf field).2 field (scope.aliasOf field).1 values
      (statementText written (scope.aliasOf field).1)
    IsBuilt scope field operator first second built.1 built.2 := by
  -- The alias is a name, and so is each placeholder; the statement is made of them.
  have well_named := Scope.wellFormed_aliasOf well field
  have name_formed : Scope.IsName '#' (scope.aliasOf field).2.aliasNames (scope.aliasOf field).1 := by
    apply well_named.names_formed
    rw [← well_named.names_agree]
    exact List.mem_map_of_mem (Scope.mem_aliases_aliasOf scope field).1
  have binding := Scope.bindAll_spec (scope.aliasOf field).2 field values
  rw [ofValues]
  generalize bindAll (scope.aliasOf field).2 field values = placed at binding ⊢
  obtain ⟨bound, after⟩ := placed
  dsimp only at binding ⊢
  obtain ⟨complete, aliases_same, names_same, formed, distinct, fresh, used⟩ := binding
  rw [Scope.used_aliasOf] at fresh used
  rw [← names_same] at name_formed
  have condition : IsCondition (scope.aliasOf field).1 operator first second bound
      (statementText written (scope.aliasOf field).1 (bound.map Prod.fst)) :=
    isCondition_of_arguments found complete
  generalize statementText written (scope.aliasOf field).1 (bound.map Prod.fst) = statement at condition ⊢
  obtain ⟨alias_mentioned, mentioned⟩ := condition.marksIn_eq name_formed formed
  constructor
  case named => rfl
  case aliases => exact aliases_same
  case alias_formed => exact name_formed
  case alias_mentioned => exact alias_mentioned
  case condition => exact ⟨bound, condition, Fields.ofList_perm distinct, mentioned.symm⟩
  case formed => rwa [mentioned]
  case distinct => rwa [mentioned]
  case fresh => rwa [mentioned]
  case used => rwa [mentioned]

/-- Handed on with the condition or not, the scope afterwards is the same. -/
theorem build_eq_ok_iff {scope : Scope} {field : String} {clause : FilterClause} {after : Scope} :
    build field operator scope first second = .ok (clause, after) ↔
      scope.buildFilter field operator first second = (.ok clause, after) := by
  rw [build]
  rcases scope.buildFilter field operator first second with ⟨result, left⟩
  cases result <;> simp [Except.map]

theorem isBuilt_of_buildFilter {scope : Scope} (well : scope.WellFormed) {field : String} {clause : FilterClause}
    {after : Scope} (built : scope.buildFilter field operator first second = (.ok clause, after)) :
    IsBuilt scope field operator first second clause after := by
  cases found : arguments field operator first second with
  | error cause =>
    rw [Scope.buildFilter_of_error found] at built
    cases built
  | ok written =>
    rw [Scope.buildFilter_of_ok found] at built
    cases built
    exact isBuilt_ofValues well found

/--
A condition is built exactly if its operator gets the values that it needs. Then it has the form that is due,
and binds exactly the alias and the placeholders that it mentions.
-/
theorem build_isBuilt {scope : Scope} (reachable : scope.Reachable) (field : String)
    (operator : FilterOperator) (first second : Option Value) :
    ((∃ clause after, build field operator scope first second = .ok (clause, after)) ↔
      IsUsable operator first second) ∧
    ∀ clause after, build field operator scope first second = .ok (clause, after) →
      IsBuilt scope field operator first second clause after := by
  have each : ∀ clause after, build field operator scope first second = .ok (clause, after) →
      IsBuilt scope field operator first second clause after :=
    fun _ _ built => isBuilt_of_buildFilter reachable.wellFormed (build_eq_ok_iff.mp built)
  refine ⟨⟨?_, ?_⟩, each⟩
  · rintro ⟨clause, after, built⟩
    obtain ⟨bound, condition, -⟩ := (each clause after built).condition
    exact condition.isUsable
  · intro usable
    obtain ⟨⟨written, values⟩, found⟩ := exists_arguments field usable
    exact ⟨_, _, build_eq_ok_iff.mpr (Scope.buildFilter_of_ok found)⟩

/-- A list, a comparison, a range and functions, for fields whose alias and whose second placeholder are taken. -/
theorem build_isBuilt_colliding :
    let scope := ((Scope.ofNames [":a_b_2"]).aliasOf "a b").2
    let values : Option Value := some (.list [.bool true, .list [.null]])
    scope.Reachable ∧
    (∃ clause after, build "a-b" .isIn scope values none = .ok (clause, after) ∧
      clause.statement = "#a_b_2 IN (:a_b, :a_b_3)" ∧
      clause.attributeValues = [(":a_b", .bool true), (":a_b_3", .list [.null true])] ∧
      ClauseText.marksIn ':' clause.statement = [":a_b", ":a_b_3"] ∧
      IsBuilt scope "a-b" .isIn values none clause after) ∧
    (∃ clause after, build "a-b" .notEqual scope (some (.string "x")) none = .ok (clause, after) ∧
      clause.statement = "#a_b_2 <> :a_b" ∧ clause.attributeValues = [(":a_b", .string "x")] ∧
      IsBuilt scope "a-b" .notEqual (some (.string "x")) none clause after) ∧
    (∃ clause after, build "a b" .between scope (some (.bool false)) (some (.bool true)) = .ok (clause, after) ∧
      clause.statement = "#a_b BETWEEN :a_b AND :a_b_3" ∧
      clause.attributeValues = [(":a_b", .bool false), (":a_b_3", .bool true)] ∧
      IsBuilt scope "a b" .between (some (.bool false)) (some (.bool true)) clause after) ∧
    (∃ clause after, build "a.b" .notContains scope (some (.string "x")) none = .ok (clause, after) ∧
      clause.statement = "NOT contains(#a_b_2, :a_b)" ∧ clause.attributeValues = [(":a_b", .string "x")] ∧
      IsBuilt scope "a.b" .notContains (some (.string "x")) none clause after) ∧
    ∃ clause after, build "a b" .attributeExists scope (some (.bool false)) none = .ok (clause, after) ∧
      clause.statement = "attribute_not_exists(#a_b)" ∧ clause.attributeValues = [] ∧
      IsBuilt scope "a b" .attributeExists (some (.bool false)) none clause after := by
  intro scope values
  have reachable : scope.Reachable := .aliasOf (.ofNames [":a_b_2"]) "a b"
  have each : ∀ field operator first second clause after,
      build field operator scope first second = .ok (clause, after) →
      IsBuilt scope field operator first second clause after :=
    fun field operator first second => (build_isBuilt reachable field operator first second).2
  refine ⟨reachable, ?_, ?_, ?_, ?_, ?_⟩
  · exact ⟨_, _, rfl, by decide, by cbv, by decide, each _ _ _ _ _ _ rfl⟩
  · exact ⟨_, _, rfl, by decide, by cbv, each _ _ _ _ _ _ rfl⟩
  · exact ⟨_, _, rfl, by decide, by cbv, each _ _ _ _ _ _ rfl⟩
  · exact ⟨_, _, rfl, by decide, by cbv, each _ _ _ _ _ _ rfl⟩
  · exact ⟨_, _, rfl, by decide, by cbv, each _ _ _ _ _ _ rfl⟩

end FilterClause
end ItemMapper
