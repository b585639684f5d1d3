import ItemMapper.Proofs.RenderedClauses

/-!
# Well-formed clauses

What a clause may look like, said of its text alone: no blanks around it, all brackets closed, and neither a
comma nor a whole verb outside of them (`IsWellFormed`). A text is well formed exactly if it is a clause in
the eyes of the scanner (`isWellFormed_iff_isClause`), and scanning it tells whether it is one
(`isWellFormed_iff_scanned`).

Main result: well-formed clauses are read back from their expression, whatever the verbs that have none
(`ofText_text_of_isWellFormed`).
-/

namespace ItemMapper

namespace ClauseText

/-! ### Whole words -/

/-- What stands around a whole word: no word reaches up to it, and none goes on behind it. -/
structure IsBoundary (before after : List Char) : Prop where
  left : ∀ c ∈ before.getLast?, isWordChar c = false
  right : ∀ c ∈ after.head?, isWordChar c = false

theorem startsWithWord_iff {word cs : List Char} :
    startsWithWord word cs = true ↔
      ∃ after, cs = word ++ after ∧ ∀ c ∈ after.head?, isWordChar c = false := by
  rw [startsWithWord, Bool.and_eq_true, List.isPrefixOf_iff_prefix]
  constructor
  · rintro ⟨⟨after, rfl⟩, ends⟩
    refine ⟨after, rfl, ?_⟩
    rw [List.drop_left] at ends
    cases after with
    | nil => simp
    | cons c rest => simpa using ends
  · rintro ⟨after, rfl, ends⟩
    refine ⟨List.prefix_append word after, ?_⟩
    rw [List.drop_left]
    cases after with
    | nil => rfl
    | cons c rest => simpa using ends

theorem verbAt?_eq_none_iff {cs : List Char} :
    verbAt? cs = none ↔ ∀ (verb : Verb) (after : List Char), cs = verb.keyword ++ after →
      ¬ ∀ c ∈ after.head?, isWordChar c = false := by
  have listed : ∀ verb : Verb, verb ∈ Verb.all := by
    intro verb
    cases verb <;> decide
  simp only [verbAt?, List.find?_eq_none, startsWithWord_iff, listed, forall_const, not_exists, not_and]

theorem endsInWord_eq_false_iff {cs : List Char} :
    endsInWord false cs = false ↔ ∀ c ∈ cs.getLast?, isWordChar c = false := by
  rcases List.eq_nil_or_concat cs with rfl | ⟨before, last, rfl⟩
  · simp [endsInWord]
  · simp [endsInWord]

/-! ### Commas -/

theorem splitFrom_eq_self_iff {depth : Nat} {cs : List Char} :
    splitFrom depth cs = (cs, []) ↔
      ∀ before after, cs = before ++ ',' :: after → depthOf depth before ≠ 0 := by
  refine ⟨?_, splitFrom_eq_self⟩
  intro whole before after split
  induction before generalizing depth cs with
  | nil =>
    -- A comma outside of brackets would end the first part here.
    rintro rfl
    subst split
    simp [splitFrom] at whole
  | cons c before ih =>
    subst split
    rcases tail : splitFrom (depthAfter depth c) (before ++ ',' :: after) with ⟨first, others⟩
    rw [List.cons_append, splitFrom, tail] at whole
    by_cases cut : c = ',' && depth = 0
    · simp [cut] at whole
    · obtain ⟨rfl, rfl⟩ : first = before ++ ',' :: after ∧ others = [] := by simpa [cut] using whole
      exact ih tail rfl

/-! ### Well-formed clauses -/

/--
A text that closes its brackets and has no blank at either end; no comma and no whole verb in it stands
outside of brackets.
-/
structure IsWellFormed (cs : List Char) : Prop where
  filled : cs ≠ []
  solidStart : ∀ c ∈ cs.head?, Text.isBlank c = false
  solidEnd : ∀ c ∈ cs.getLast?, Text.isBlank c = false
  closed : depthOf 0 cs = 0
  noComma : ∀ before after, cs = before ++ ',' :: after → depthOf 0 before ≠ 0
  noVerb : ∀ (verb : Verb) (before after : List Char), cs = before ++ verb.keyword ++ after →
    IsBoundary before after → depthOf 0 before ≠ 0

theorem isWellFormed_iff_isClause {cs : List Char} : IsWellFormed cs ↔ IsClause cs := by
  constructor
  · intro formed
    refine ⟨formed.filled, ?_, formed.closed, formed.noComma, ?_⟩
    · apply Text.trim_eq_self_iff.mpr
      exact ⟨Text.trimStart_eq_self_iff.mpr formed.solidStart,
        Text.trimEnd_eq_self_iff.mpr formed.solidEnd⟩
    · intro before after split outside start
      apply verbAt?_eq_none_iff.mpr
      rintro verb rest rfl right
      have boundary : IsBoundary before rest := ⟨endsInWord_eq_false_iff.mp start, right⟩
      exact formed.noVerb verb before rest (by rw [split, List.append_assoc]) boundary outside
  · intro clause
    obtain ⟨from_start, from_end⟩ := Text.trim_eq_self_iff.mp clause.trimmed
    refine ⟨clause.filled, Text.trimStart_eq_self_iff.mp from_start,
      Text.trimEnd_eq_self_iff.mp from_end, clause.closed, clause.noComma, ?_⟩
    intro verb before after split boundary outside
    have start := endsInWord_eq_false_iff.mpr boundary.left
    have none_here := clause.noVerb before (verb.keyword ++ after)
      (by rw [split, List.append_assoc]) outside start
    exact verbAt?_eq_none_iff.mp none_here verb after rfl boundary.right

theorem isWellFormed_iff_scanned {cs : List Char} :
    IsWellFormed cs ↔ cs ≠ [] ∧ Text.trim cs = cs ∧ depthOf 0 cs = 0 ∧ splitFrom 0 cs = (cs, []) ∧
      segments cs = [] := by
  rw [isWellFormed_iff_isClause, splitFrom_eq_self_iff]
  constructor
  · intro clause
    exact ⟨clause.filled, clause.trimmed, clause.closed, clause.noComma,
      segmentsFrom_eq_nil clause.noVerb 0⟩
  · rintro ⟨filled, trimmed, closed, noComma, quiet⟩
    exact ⟨filled, trimmed, closed, noComma, verbAt?_of_segmentsFrom_eq_nil quiet⟩

instance (cs : List Char) : Decidable (IsWellFormed cs) :=
  decidable_of_iff _ isWellFormed_iff_scanned.symm

end ClauseText

/-! ### Expressions -/

namespace UpdateClauses

theorem text_filled (clauses : UpdateClauses) : clauses.filled.text = clauses.text := by
  have same : clauses.filled.verbChars = clauses.verbChars := by
    funext verb
    rw [verbChars_eq_block, verbChars_eq_block, get_filled, get_filled, Option.filter_filter]
    simp
  rw [text, text, chars, chars, same]

/--
Well-formed clauses are read back from their expression, without the verbs that have none, and what was read
has the same expression again.
-/
theorem ofText_text_of_isWellFormed {clauses : UpdateClauses}
    (each : ∀ verb list, clauses.get verb = some list → ∀ clause ∈ list,
      ClauseText.IsWellFormed clause.toList) :
    ofText clauses.text = clauses.filled ∧ (ofText clauses.text).text = clauses.text := by
  have areClauses : clauses.AreClauses := by
    intro verb list stored clause member
    exact ClauseText.isWellFormed_iff_isClause.mp (each verb list stored clause member)
  have read := ofText_text areClauses
  refine ⟨read, ?_⟩
  rw [read, text_filled]

/-- Nested functions, verbs in brackets and in words, an empty list and a verb that does not occur. -/
theorem ofText_text_of_isWellFormed_nested :
    let clauses : UpdateClauses :=
      { set := some ["#list = list_append(if_not_exists(#list, :empty), :items)", "#n = size(SET) - ADDED"]
        add := some []
        remove := some ["#a[1]", "#été.c"] }
    (∀ verb list, clauses.get verb = some list → ∀ clause ∈ list,
      ClauseText.IsWellFormed clause.toList) ∧
    ofText clauses.text = { clauses with add := none } := by
  intro clauses
  have each : ∀ verb list, clauses.get verb = some list → ∀ clause ∈ list,
      ClauseText.IsWellFormed clause.toList := by
    intro verb list stored
    cases verb with
    | set =>
      obtain rfl := Option.some.inj stored
      decide
    | add =>
      obtain rfl := Option.some.inj stored
      decide
    | remove =>
      obtain rfl := Option.some.inj stored
      decide
    | delete => cases stored
  exact ⟨each, (ofText_text_of_isWellFormed each).1⟩

end UpdateClauses

end ItemMapper
