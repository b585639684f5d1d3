import ItemMapper.Expression.Update
import ItemMapper.Proofs.RenderedClauses
import ItemMapper.Proofs.Scopes

/-!
# Changes with their aliases and placeholders

A change that got its alias and its placeholder becomes a clause of a few words with blanks between them.
Such a clause is one for the scanner (`isClause_clause`), its words can be told apart again
(`words_clause`), and no alias or placeholder serves two changes (`placeAll_spec`).
-/

namespace ItemMapper

/-! ### Words of clauses -/

/-- The words of a clause, between its blanks. -/
def ClauseText.words (clause : String) : List String :=
  (clause.toList.splitOn ' ').map String.ofList

namespace ClauseText

/-- A word of a clause: without blanks, brackets and commas, and no verb. -/
structure IsWord (cs : List Char) : Prop where
  filled : cs ≠ []
  solid : ∀ c ∈ cs, Text.isBlank c = false
  plain : ∀ c ∈ cs, c ≠ ',' ∧ ∀ depth, depthAfter depth c = depth
  quiet : ∀ position, segmentsFrom position 0 false cs = []

theorem intercalate_cons {word : List Char} {rest : List (List Char)} (more : rest ≠ []) :
    [' '].intercalate (word :: rest) = word ++ ' ' :: [' '].intercalate rest := by
  obtain ⟨second, others, rfl⟩ := List.exists_cons_of_ne_nil more
  simp [List.intercalate_cons_cons]

theorem plain_intercalate {words : List (List Char)} (each : ∀ cs ∈ words, IsWord cs) :
    ∀ c ∈ [' '].intercalate words, c ≠ ',' ∧ ∀ depth, depthAfter depth c = depth := by
  induction words with
  | nil => exact fun c member => absurd member List.not_mem_nil
  | cons word rest ih =>
    have tail := ih fun cs member => each cs (List.mem_cons_of_mem _ member)
    have first := (each word List.mem_cons_self).plain
    by_cases more : rest = []
    · subst more
      rw [List.intercalate_singleton]
      exact first
    · intro c member
      rw [intercalate_cons more] at member
      rcases List.mem_append.mp member with inside | behind
      · exact first c inside
      · rcases List.mem_cons.mp behind with rfl | behind
        · exact ⟨by decide, fun _ => rfl⟩
        · exact tail c behind

theorem segmentsFrom_intercalate {words : List (List Char)} (each : ∀ cs ∈ words, IsWord cs)
    (position : Nat) : segmentsFrom position 0 false ([' '].intercalate words) = [] := by
  induction words generalizing position with
  | nil => rfl
  | cons word rest ih =>
    have tail := ih fun cs member => each cs (List.mem_cons_of_mem _ member)
    have first := each word List.mem_cons_self
    by_cases more : rest = []
    · subst more
      rw [List.intercalate_singleton]
      exact first.quiet position
    · have outside := depthOf_plain (fun c member => (first.plain c member).2) 0
      rw [intercalate_cons more, segmentsFrom_append rfl, first.quiet, segmentsFrom_boundary rfl, outside]
      exact tail _

/-- A text of words starts and ends with a character that is not blank. -/
theorem ends_intercalate {words : List (List Char)} (each : ∀ cs ∈ words, IsWord cs)
    (some_word : words ≠ []) :
    (∃ c rest, [' '].intercalate words = c :: rest ∧ Text.isBlank c = false) ∧
    ∃ rest c, [' '].intercalate words = rest ++ [c] ∧ Text.isBlank c = false := by
  induction words with
  | nil => exact absurd rfl some_word
  | cons word rest ih =>
    obtain ⟨filled, solid, -, -⟩ := each word List.mem_cons_self
    obtain ⟨c, cs, rfl⟩ := List.exists_cons_of_ne_nil filled
    have first := solid c List.mem_cons_self
    by_cases more : rest = []
    · subst more
      rw [List.intercalate_singleton]
      refine ⟨⟨c, cs, rfl, first⟩, ?_⟩
      rcases List.eq_nil_or_concat (c :: cs) with none_left | ⟨front, last, split⟩
      · exact absurd none_left filled
      · rw [List.concat_eq_append] at split
        exact ⟨front, last, split, solid last (by simp [split])⟩
    · obtain ⟨-, front, last, split, solid_last⟩ :=
        ih (fun cs member => each cs (List.mem_cons_of_mem _ member)) more
      rw [intercalate_cons more]
      refine ⟨⟨c, cs ++ ' ' :: [' '].intercalate rest, rfl, first⟩, ?_⟩
      refine ⟨c :: cs ++ ' ' :: front, last, ?_, solid_last⟩
      rw [split]
      simp

/-- Words with blanks between them make a clause. -/
theorem isClause_intercalate {words : List (List Char)} (each : ∀ cs ∈ words, IsWord cs)
    (some_word : words ≠ []) : IsClause ([' '].intercalate words) := by
  have plain := plain_intercalate each
  obtain ⟨⟨c, rest, start, solid_start⟩, front, d, stop, solid_stop⟩ := ends_intercalate each some_word
  constructor
  case filled => simp [start]
  case trimmed =>
    refine Text.trim_eq_self_iff.mpr ⟨?_, ?_⟩
    · rw [start]
      simp [Text.trimStart, solid_start]
    · rw [stop]
      simp [Text.trimEnd, solid_stop]
  case closed => exact depthOf_plain (fun c member => (plain c member).2) 0
  case noComma =>
    intro before after split
    have member : ',' ∈ [' '].intercalate words := by simp [split]
    exact absurd rfl (plain ',' member).1
  case noVerb => exact verbAt?_of_segmentsFrom_eq_nil (segmentsFrom_intercalate each 0)

theorem words_intercalate {words : List String} (each : ∀ word ∈ words, IsWord word.toList)
    (some_word : words ≠ []) {clause : String}
    (spelled : clause.toList = [' '].intercalate (words.map String.toList)) :
    ClauseText.words clause = words := by
  have no_blank : ∀ cs ∈ words.map String.toList, ' ' ∉ cs := by
    intro cs member blank
    obtain ⟨word, inside, rfl⟩ := List.mem_map.mp member
    have solid := (each word inside).solid ' ' blank
    cases solid
  rw [ClauseText.words, spelled, List.splitOn_intercalate ' ' no_blank (by simpa using some_word),
    List.map_map]
  simp

end ClauseText

/-! ### Aliases and placeholders as words -/

theorem Scope.not_isBlank_of_letter {c : Char} (letter : c.isAlphanum ∨ c = '_') : Text.isBlank c = false := by
  rcases letter with alphanumeric | rfl
  · exact Text.not_isBlank_of_isAlphanum alphanumeric
  · rfl

/-- No verb starts in a word whose own start is none. -/
theorem ClauseText.segmentsFrom_word {cs : List Char} (letters : ∀ c ∈ cs, isWordChar c)
    (no_verb : verbAt? cs = none) (position : Nat) : segmentsFrom position 0 false cs = [] := by
  apply segmentsFrom_eq_nil
  intro before after split _ fresh
  rcases List.eq_nil_or_concat before with rfl | ⟨front, last, rfl⟩
  · obtain rfl : cs = after := split
    exact no_verb
  · -- Behind the first character every place is inside of the word.
    have letter := letters last (by simp [split])
    rw [List.concat_eq_append, endsInWord_append] at fresh
    exact absurd letter (by simpa [endsInWord] using fresh)

theorem ClauseText.isWordChar_of_isDigit {c : Char} (digit : c.isDigit) : isWordChar c := by
  simp [isWordChar, Char.isAlphanum, digit]

/-- No verb starts with a digit. -/
theorem ClauseText.verbAt?_of_areDigits {cs : List Char} (digits : ∀ c ∈ cs, c.isDigit) : verbAt? cs = none := by
  cases cs with
  | nil => rfl
  | cons c rest =>
    have different : ∀ letter : Char, letter.isDigit = false → (letter == c) = false := by
      intro letter no_digit
      rw [beq_eq_false_iff_ne]
      rintro rfl
      rw [digits letter List.mem_cons_self] at no_digit
      cases no_digit
    simp [verbAt?, Verb.all, Verb.keyword, startsWithWord, List.isPrefixOf, different 'S' rfl, different 'A' rfl,
      different 'R' rfl, different 'D' rfl]

theorem ClauseText.isWordChar_of_isMarked {mark : Char} (sign : mark = '#' ∨ mark = ':') {name : String}
    (marked : Scope.IsMarked mark name) : ∀ c ∈ name.toList, isWordChar c := by
  obtain ⟨letters, -, each, chars⟩ := marked
  intro c member
  rw [chars] at member
  rcases List.mem_cons.mp member with rfl | letter
  · rcases sign with rfl | rfl <;> rfl
  · rcases each c letter with alphanumeric | underscore
    · simp [isWordChar, alphanumeric]
    · simp [isWordChar, underscore]

theorem ClauseText.isWord_of_isMarked {mark : Char} (sign : mark = '#' ∨ mark = ':') {name : String}
    (marked : Scope.IsMarked mark name) : IsWord name.toList := by
  have in_word := isWordChar_of_isMarked sign marked
  obtain ⟨letters, -, each, chars⟩ := marked
  have solid_mark : Text.isBlank mark = false := by rcases sign with rfl | rfl <;> rfl
  have no_verb : verbAt? (mark :: letters) = none := by
    rcases sign with rfl | rfl <;> rfl
  rw [chars] at in_word ⊢
  constructor
  case filled => exact List.cons_ne_nil _ _
  case solid =>
    intro c member
    rcases List.mem_cons.mp member with rfl | letter
    · exact solid_mark
    · exact Scope.not_isBlank_of_letter (each c letter)
  case plain =>
    intro c member
    refine ⟨?_, depthAfter_of_isWordChar (in_word c member)⟩
    rintro rfl
    cases in_word ',' member
  case quiet => exact segmentsFrom_word in_word no_verb

/-- A word stays one with a negative number behind it. -/
theorem ClauseText.IsWord.negative {cs digits : List Char} (word : IsWord cs)
    (each : ∀ c ∈ digits, c.isDigit) : IsWord (cs ++ '-' :: digits) := by
  constructor
  case filled => exact List.append_ne_nil_of_right_ne_nil _ (List.cons_ne_nil _ _)
  case solid =>
    refine List.forall_mem_append.mpr ⟨word.solid, List.forall_mem_cons.mpr ⟨rfl, ?_⟩⟩
    exact fun c member => Text.isBlank_of_isDigit (each c member)
  case plain =>
    refine List.forall_mem_append.mpr ⟨word.plain, List.forall_mem_cons.mpr ⟨⟨by decide, fun _ => rfl⟩, ?_⟩⟩
    intro c member
    refine ⟨?_, depthAfter_of_isWordChar (isWordChar_of_isDigit (each c member))⟩
    rintro rfl
    cases each ',' member
  case quiet =>
    intro position
    have outside := depthOf_plain (fun c member => (word.plain c member).2) 0
    rw [segmentsFrom_append rfl, word.quiet, segmentsFrom_boundary rfl, outside]
    exact segmentsFrom_word (fun c member => isWordChar_of_isDigit (each c member)) (verbAt?_of_areDigits each) _

theorem ClauseText.isWord_of_isName {mark : Char} (sign : mark = '#' ∨ mark = ':') {taken : List String}
    {name : String} (named : Scope.IsName mark taken name) : IsWord name.toList := by
  cases named with
  | marked marked => exact isWord_of_isMarked sign marked
  | @negative base number marked _ =>
    have front := isWord_of_isMarked sign marked.underscore
    have spelled : (base ++ "_-" ++ toString number).toList =
        (base ++ "_").toList ++ '-' :: Nat.toDigits 10 number := by simp
    rw [spelled]
    exact front.negative fun c member => Decimal.isDigit_of_mem_toDigits member

theorem ClauseText.isWord_equals : IsWord ['='] := by
  constructor
  case filled => exact List.cons_ne_nil _ _
  case solid => simp [Text.isBlank]
  case plain => simp [depthAfter]
  case quiet => exact fun position => segmentsFrom_boundary rfl position 0 false []

/-! ### Placed changes -/

namespace PlacedChange

open ClauseText Scope

/-- A change with an alias of a scope, and with a placeholder of it if it has a value. -/
inductive IsPlaced (scope : Scope) : PlacedChange → Prop
  | remove {field name : String} : IsName '#' scope.aliasNames name → IsPlaced scope ⟨field, name, none, .remove⟩
  | value {field name placeholder : String} {change : WireChange} {value : WireValue} :
      IsName '#' scope.aliasNames name → IsName ':' scope.used placeholder → change.value? = some value →
      IsPlaced scope ⟨field, name, some placeholder, change⟩

variable {scope : Scope} {placed : PlacedChange}

theorem IsPlaced.name_formed (formed : placed.IsPlaced scope) : IsName '#' scope.aliasNames placed.name := by
  cases formed with
  | remove named => exact named
  | value named _ _ => exact named

theorem IsPlaced.placeholder_formed (formed : placed.IsPlaced scope) {placeholder : String}
    (given : placed.placeholder = some placeholder) : IsName ':' scope.used placeholder := by
  cases formed with
  | remove _ => cases given
  | value _ named _ => exact Option.some.inj given ▸ named

/-- The words of the clause for a change. -/
def words (placed : PlacedChange) : List String :=
  match placed.placeholder, placed.change with
  | none, _ => [placed.name]
  | some placeholder, .set _ => [placed.name, "=", placeholder]
  | some placeholder, _ => [placed.name, placeholder]

theorem words_ne_nil (placed : PlacedChange) : placed.words ≠ [] := by
  unfold words
  split <;> exact List.cons_ne_nil _ _

theorem toList_clause (placed : PlacedChange) :
    placed.clause.toList = [' '].intercalate (placed.words.map String.toList) := by
  obtain ⟨field, name, placeholder, change⟩ := placed
  cases placeholder with
  | none => simp [clause, words, List.intercalate_singleton]
  | some placeholder =>
    cases change <;> simp [clause, words, List.intercalate_cons_cons, List.intercalate_singleton]

theorem IsPlaced.isWord (formed : placed.IsPlaced scope) : ∀ word ∈ placed.words, IsWord word.toList := by
  cases formed with
  | remove named =>
    intro word member
    obtain rfl := List.mem_singleton.mp member
    exact isWord_of_isName (.inl rfl) named
  | @value field name placeholder change value alias_named placeholder_named has_value =>
    have first := isWord_of_isName (.inl rfl) alias_named
    have last := isWord_of_isName (.inr rfl) placeholder_named
    cases change <;> simp [words, first, last, isWord_equals]

theorem IsPlaced.isClause (formed : placed.IsPlaced scope) : IsClause placed.clause.toList := by
  rw [toList_clause]
  refine isClause_intercalate ?_ (by simpa using placed.words_ne_nil)
  intro cs member
  obtain ⟨word, inside, rfl⟩ := List.mem_map.mp member
  exact formed.isWord word inside

/-- The words of a clause are those that it was made of. -/
theorem IsPlaced.words_clause (formed : placed.IsPlaced scope) : ClauseText.words placed.clause = placed.words :=
  words_intercalate formed.isWord placed.words_ne_nil placed.toList_clause

/-- Words with different marks are different. -/
theorem ne_of_isName {aliasNames used : List String} {first second : String}
    (alias_named : IsName '#' aliasNames first) (placeholder_named : IsName ':' used second) : first ≠ second := by
  rintro rfl
  have alias_mark := alias_named.head?_eq
  rw [placeholder_named.head?_eq] at alias_mark
  cases alias_mark

theorem ne_equals_of_isName {mark : Char} (different : mark ≠ '=') {taken : List String} {name : String}
    (named : IsName mark taken name) : name ≠ "=" := by
  rintro rfl
  exact different (Option.some.inj named.head?_eq).symm

/-- An alias occurs in the clause that has it as its name, and in no other one. -/
theorem IsPlaced.mem_words_alias (formed : placed.IsPlaced scope) {taken : List String} {name : String}
    (named : IsName '#' taken name) : name ∈ placed.words ↔ placed.name = name := by
  have no_sign := ne_equals_of_isName (by decide) named
  cases formed with
  | remove own_named => simp [words, eq_comm]
  | @value field own placeholder change value own_named placeholder_named has_value =>
    have differs := ne_of_isName named placeholder_named
    cases change <;> simp [words, no_sign, differs, eq_comm]

/-- A placeholder occurs in the clause that has it as its value, and in no other one. -/
theorem IsPlaced.mem_words_placeholder (formed : placed.IsPlaced scope) {taken : List String} {name : String}
    (named : IsName ':' taken name) : name ∈ placed.words ↔ placed.placeholder = some name := by
  have no_sign := ne_equals_of_isName (by decide) named
  cases formed with
  | @remove field own own_named =>
    have differs := (ne_of_isName own_named named).symm
    simp [words, differs]
  | @value field own placeholder change value own_named placeholder_named has_value =>
    have differs := (ne_of_isName own_named named).symm
    cases change with
    | remove => cases has_value
    | _ => simp [words, no_sign, differs, eq_comm]

end PlacedChange

/-! ### Placing -/

namespace Scope

/-- What the placing of changes gives, from a scope to the scope after it. -/
structure IsPlacement (scope : Scope) (changes : List (String × WireChange))
    (placed : List PlacedChange) (after : Scope) : Prop where
  complete : placed.map (fun change => (change.field, change.change)) = changes
  formed : ∀ change ∈ placed, change.IsPlaced after
  aliased : ∀ change ∈ placed, (change.field, change.name) ∈ after.aliases
  kept : scope.aliases ⊆ after.aliases
  wellFormed : after.WellFormed
  distinct : (placed.filterMap PlacedChange.placeholder).Nodup
  fresh : ∀ name ∈ placed.filterMap PlacedChange.placeholder, name ∉ scope.used
  used : after.used.Perm (placed.filterMap PlacedChange.placeholder ++ scope.used)

variable {scope : Scope}

/-- A removal takes no placeholder; any other change takes one that was free. -/
theorem place_cases (scope : Scope) (field : String) (change : WireChange) :
    (change = .remove ∧ scope.place field change =
      (⟨field, (scope.aliasOf field).1, none, change⟩, (scope.aliasOf field).2)) ∨
    (∃ value, change.value? = some value ∧ scope.place field change =
      (⟨field, (scope.aliasOf field).1, some ((scope.aliasOf field).2.allocate field).1, change⟩,
        ((scope.aliasOf field).2.allocate field).2)) := by
  cases change with
  | remove => exact .inl ⟨rfl, rfl⟩
  | set value => exact .inr ⟨value, rfl, rfl⟩
  | add value => exact .inr ⟨value, rfl, rfl⟩
  | delete value => exact .inr ⟨value, rfl, rfl⟩

/-- Placing one change and then the others. -/
theorem isPlacement_cons {field : String} {change : WireChange} {changes : List (String × WireChange)}
    {placed : List PlacedChange} {after : Scope}
    (others : IsPlacement (scope.place field change).2 changes placed after) :
    IsPlacement scope ((field, change) :: changes) ((scope.place field change).1 :: placed) after := by
  obtain ⟨complete, formed, aliased, kept, well_after, distinct, fresh, used⟩ := others
  obtain ⟨has_alias, kept_alias⟩ := mem_aliases_aliasOf scope field
  -- The scope after all changes knows the alias.
  have name_formed : (field, (scope.aliasOf field).1) ∈ after.aliases →
      IsName '#' after.aliasNames (scope.aliasOf field).1 := by
    intro known
    apply well_after.names_formed
    rw [← well_after.names_agree]
    exact List.mem_map_of_mem known
  rcases place_cases scope field change with ⟨rfl, found⟩ | ⟨value, has_value, found⟩
  · rw [found] at kept fresh used ⊢
    rw [used_aliasOf] at fresh used
    have known := kept has_alias
    constructor
    case complete => rw [List.map_cons, complete]
    case formed => exact List.forall_mem_cons.mpr ⟨.remove (name_formed known), formed⟩
    case aliased => exact List.forall_mem_cons.mpr ⟨known, aliased⟩
    case kept => exact List.Subset.trans kept_alias kept
    case wellFormed => exact well_after
    case distinct => exact distinct
    case fresh => exact fresh
    case used => exact used
  · rw [found] at kept fresh used ⊢
    have known := kept has_alias
    have free := allocate_not_mem (scope.aliasOf field).2 field
    have in_use : (scope.aliasOf field).2.used ⊆ after.used := fun name member =>
      used.mem_iff.mpr (List.mem_append_right _ (List.mem_cons_of_mem _ member))
    have named := (isName_allocate (scope.aliasOf field).2 field).mono in_use
    constructor
    case complete => rw [List.map_cons, complete]
    case formed => exact List.forall_mem_cons.mpr ⟨.value (name_formed known) named has_value, formed⟩
    case aliased => exact List.forall_mem_cons.mpr ⟨known, aliased⟩
    case kept => exact List.Subset.trans kept_alias kept
    case wellFormed => exact well_after
    case distinct =>
      -- The placeholder is in use when the others are handed out.
      exact List.nodup_cons.mpr ⟨fun again => fresh _ again List.mem_cons_self, distinct⟩
    case fresh =>
      rw [← used_aliasOf scope field]
      refine List.forall_mem_cons.mpr ⟨free, ?_⟩
      intro name member in_use
      exact fresh name member (List.mem_cons_of_mem _ in_use)
    case used =>
      rw [← used_aliasOf scope field]
      exact used.trans List.perm_middle

theorem placeAll_spec (well : scope.WellFormed) (changes : List (String × WireChange)) :
    IsPlacement scope changes (scope.placeAll changes).1 (scope.placeAll changes).2 := by
  induction changes generalizing scope with
  | nil => exact ⟨rfl, nofun, nofun, List.Subset.refl _, well, List.nodup_nil, nofun, .refl _⟩
  | cons first rest ih =>
    obtain ⟨field, change⟩ := first
    -- The others are placed from the scope that the first change leaves.
    have well_next : (scope.place field change).2.WellFormed := by
      rcases place_cases scope field change with ⟨-, found⟩ | ⟨value, -, found⟩
      · rw [found]
        exact wellFormed_aliasOf well field
      · rw [found]
        exact (wellFormed_aliasOf well field).of_aliases rfl rfl
    exact isPlacement_cons (ih well_next)

theorem Reachable.place (reachable : scope.Reachable) (field : String) (change : WireChange) :
    (scope.place field change).2.Reachable := by
  rcases place_cases scope field change with ⟨-, found⟩ | ⟨value, -, found⟩
  · rw [found]
    exact reachable.aliasOf field
  · rw [found]
    exact (reachable.aliasOf field).allocate field

theorem Reachable.placeAll (reachable : scope.Reachable) (changes : List (String × WireChange)) :
    (scope.placeAll changes).2.Reachable := by
  induction changes generalizing scope with
  | nil => exact reachable
  | cons first rest ih => exact ih (reachable.place first.1 first.2)

/-- Changes of different fields have different aliases. -/
theorem IsPlacement.names_distinct {changes : List (String × WireChange)} {placed : List PlacedChange}
    {after : Scope} (placement : IsPlacement scope changes placed after)
    (distinct : (changes.map Prod.fst).Nodup) : (placed.map PlacedChange.name).Nodup := by
  have fields : (placed.map PlacedChange.field).Nodup := by
    rw [← placement.complete, List.map_map] at distinct
    exact distinct
  refine List.pairwise_map.mpr ((List.pairwise_map.mp fields).imp_of_mem ?_)
  intro first second first_placed second_placed different same
  -- In the scope afterwards an alias belongs to one field.
  have first_alias := placement.aliased first first_placed
  have second_alias := placement.aliased second second_placed
  have well := placement.wellFormed
  have names_distinct : (after.aliases.map Prod.snd).Nodup := well.names_agree ▸ well.names_distinct
  have pairs := List.inj_on_of_nodup_map names_distinct first_alias second_alias same
  exact different (congrArg Prod.fst pairs)

end Scope

end ItemMapper
