import ItemMapper.Expression.Scope
import ItemMapper.Proofs.NumberText
import Mathlib

/-!
# Aliases and placeholders

A scope hands out the first free candidate for a name (`leastFree_spec`). In every scope that can come
about, different attributes have different aliases, and an alias is a mark with a word behind it
(`Reachable.wellFormed`). Only if a base is taken with all its positive numbers, its number is a negative one
(`isName_leastFree`).
-/

namespace ItemMapper.Scope

/-! ### Numbers -/

theorem number_eq (count : Nat) : number count =
    if count < 2147483648 then (count : Int)
    else if count < 4294967298 then (count : Int) - 4294967296 else count := by
  by_cases word : count < 4294967298
  · rw [number, if_pos word, if_pos word, Int32.toInt_ofNat', Int32.size, Int.bmod]
    split <;> split <;> omega
  · rw [number, if_neg word, if_neg word, ite_self]

theorem number_of_lt {count : Nat} (small : count < 2147483648) : number count = count := by
  rw [number_eq, if_pos small]

theorem number_inj {first second : Nat} (first_counted : 2 ≤ first) (second_counted : 2 ≤ second)
    (same : number first = number second) : first = second := by
  rw [number_eq, number_eq] at same
  split at same <;> split at same <;> omega

theorem toString_number_inj {first second : Int} (same : toString first = toString second) : first = second := by
  have read := congrArg String.toInt? same
  exact Option.some.inj ((Int.toInt?_repr first).symm.trans (read.trans (Int.toInt?_repr second)))

/-! ### Free names -/

theorem candidate_injective (base : String) : Function.Injective (candidate base) := by
  intro first second same
  cases first with
  | zero =>
    cases second with
    | zero => rfl
    | succ second =>
      -- A numbered candidate is longer than the name itself.
      have chars := congrArg (fun text => text.toList.length) same
      simp [candidate] at chars
  | succ first =>
    cases second with
    | zero =>
      have chars := congrArg (fun text => text.toList.length) same
      simp [candidate] at chars
    | succ second =>
      have digits : toString (number (first + 2)) = toString (number (second + 2)) := by
        simpa [candidate, String.append_assoc] using same
      have counts := number_inj (Nat.le_add_left 2 first) (Nat.le_add_left 2 second) (toString_number_inj digits)
      omega

/-- The base with a number. -/
def numbered (base : String) (number : Nat) : String :=
  base ++ "_" ++ toString number

theorem candidate_eq_numbered (base : String) {index : Nat} (small : index + 2 < 2147483648) :
    candidate base (index + 1) = numbered base (index + 2) := by
  rw [candidate, number_of_lt small]
  rfl

/-- All names for a base are taken, up to the greatest number of a word with a sign. -/
def IsExhausted (taken : List String) (base : String) : Prop :=
  base ∈ taken ∧ ∀ number, 2 ≤ number → number ≤ 2147483647 → numbered base number ∈ taken

/-- The first candidate that is not taken is found, after no more candidates than names are taken. -/
theorem leastFree_spec (taken : List String) (base : String) :
    ∃ index, index ≤ taken.length ∧ leastFree taken base = candidate base index ∧
      candidate base index ∉ taken ∧ ∀ earlier < index, candidate base earlier ∈ taken := by
  let free := fun index => decide (candidate base index ∉ taken)
  have search : leastFree taken base =
      (((List.range (taken.length + 1)).find? free).map (candidate base)).getD base := by
    rw [leastFree, List.find?_map]
    rfl
  cases found : (List.range (taken.length + 1)).find? free with
  | none =>
    -- All candidates would be taken, but there are more of them than names.
    have all_taken : (List.range (taken.length + 1)).map (candidate base) ⊆ taken := by
      intro name member
      obtain ⟨index, inside, rfl⟩ := List.mem_map.mp member
      have not_free := List.find?_eq_none.mp found index inside
      simpa [free] using not_free
    have distinct : ((List.range (taken.length + 1)).map (candidate base)).Nodup :=
      List.Nodup.map (candidate_injective base) List.nodup_range
    have short := (List.subperm_of_subset distinct all_taken).length_le
    rw [List.length_map, List.length_range] at short
    omega
  | some index =>
    obtain ⟨is_free, inside, none_before⟩ := List.find?_range_eq_some.mp found
    refine ⟨index, ?_, ?_, ?_, ?_⟩
    · have bound := List.mem_range.mp inside
      omega
    · rw [search, found]
      rfl
    · simpa [free] using is_free
    · intro earlier before
      simpa [free] using none_before earlier before

theorem leastFree_not_mem (taken : List String) (base : String) : leastFree taken base ∉ taken := by
  obtain ⟨index, -, found, free, -⟩ := leastFree_spec taken base
  rw [found]
  exact free

/-- The names for a base with a positive number are its first candidates. -/
theorem isExhausted_iff {taken : List String} {base : String} :
    IsExhausted taken base ↔ ∀ index < 2147483647, candidate base index ∈ taken := by
  constructor
  · rintro ⟨base_taken, numbers_taken⟩ index small
    cases index with
    | zero => exact base_taken
    | succ index =>
      rw [candidate_eq_numbered base (by omega)]
      exact numbers_taken (index + 2) (by omega) (by omega)
  · intro each
    refine ⟨each 0 (by omega), ?_⟩
    intro number two_or_more small
    obtain ⟨earlier, rfl⟩ : ∃ earlier, number = earlier + 2 := ⟨number - 2, by omega⟩
    rw [← candidate_eq_numbered base (by omega)]
    exact each (earlier + 1) (by omega)

/-- Behind the greatest word comes the least one. -/
theorem candidate_past_greatest (base : String) : candidate base 2147483647 = base ++ "_-2147483648" := by
  have least : number 2147483648 = -2147483648 := by
    rw [number_eq]
    rfl
  rw [candidate, least, String.append_assoc]
  rfl

theorem leastFree_of_isExhausted {taken : List String} {base : String} (exhausted : IsExhausted taken base)
    (free : base ++ "_-2147483648" ∉ taken) : leastFree taken base = base ++ "_-2147483648" := by
  obtain ⟨index, -, found, index_free, skipped⟩ := leastFree_spec taken base
  have great : 2147483647 ≤ index := by
    by_contra small
    exact index_free (isExhausted_iff.mp exhausted index (by omega))
  have small : index ≤ 2147483647 := by
    by_contra greater
    exact free (candidate_past_greatest base ▸ skipped 2147483647 (by omega))
  rw [found, le_antisymm small great, candidate_past_greatest]

/-- A base and so many names with a number for it. -/
def namesUpTo (base : String) (count : Nat) : List String :=
  base :: (List.range count).map fun index => numbered base (index + 2)

theorem mem_namesUpTo_iff {base name : String} {count : Nat} : name ∈ namesUpTo base count ↔
    name = base ∨ ∃ number, 2 ≤ number ∧ number < count + 2 ∧ numbered base number = name := by
  rw [namesUpTo, List.mem_cons, List.mem_map]
  apply or_congr_right
  constructor
  · rintro ⟨index, inside, same⟩
    exact ⟨index + 2, Nat.le_add_left 2 index, Nat.add_lt_add_right (List.mem_range.mp inside) 2, same⟩
  · rintro ⟨number, two_or_more, small, same⟩
    refine ⟨number - 2, List.mem_range.mpr (by omega), ?_⟩
    rwa [Nat.sub_add_cancel two_or_more]

theorem isExhausted_namesUpTo (base : String) : IsExhausted (namesUpTo base 2147483646) base := by
  refine ⟨mem_namesUpTo_iff.mpr (.inl rfl), ?_⟩
  intro number two_or_more small
  exact mem_namesUpTo_iff.mpr (.inr ⟨number, two_or_more, by omega, rfl⟩)

/-! ### Words -/

/-- A mark with a word behind it, of letters, digits and underscores. -/
def IsMarked (mark : Char) (name : String) : Prop :=
  ∃ word, word ≠ [] ∧ (∀ c ∈ word, c.isAlphanum ∨ c = '_') ∧ name.toList = mark :: word

/-- A marked word. Only if a base is taken with all its positive numbers, it may have a negative one. -/
inductive IsName (mark : Char) (taken : List String) : String → Prop
  | marked {name : String} : IsMarked mark name → IsName mark taken name
  | negative {base : String} (number : Nat) : IsMarked mark base → IsExhausted taken base →
      IsName mark taken (base ++ "_-" ++ toString number)

theorem IsMarked.head?_eq {mark : Char} {name : String} (marked : IsMarked mark name) :
    name.toList.head? = some mark := by
  obtain ⟨word, -, -, chars⟩ := marked
  rw [chars, List.head?_cons]

theorem IsName.head?_eq {mark : Char} {taken : List String} {name : String} (named : IsName mark taken name) :
    name.toList.head? = some mark := by
  cases named with
  | marked marked => exact marked.head?_eq
  | negative number marked _ =>
    rw [String.toList_append, String.toList_append, List.append_assoc, List.head?_append, marked.head?_eq]
    rfl

theorem IsName.mono {mark : Char} {taken others : List String} (more : taken ⊆ others) {name : String}
    (named : IsName mark taken name) : IsName mark others name := by
  cases named with
  | marked marked => exact .marked marked
  | negative number marked exhausted =>
    refine .negative number marked ⟨more exhausted.1, ?_⟩
    exact fun other two_or_more small => more (exhausted.2 other two_or_more small)

/-- As long as no base is taken with all its positive numbers, names are marked words. -/
theorem IsName.isMarked {mark : Char} {taken : List String} (room : ∀ base, ¬ IsExhausted taken base)
    {name : String} (named : IsName mark taken name) : IsMarked mark name := by
  cases named with
  | marked marked => exact marked
  | negative _ _ exhausted => exact absurd exhausted (room _)

theorem sanitizeChars_spec (cs : List Char) :
    sanitizeChars cs ≠ [] ∧ ∀ c ∈ sanitizeChars cs, c.isAlphanum ∨ c = '_' := by
  simp only [sanitizeChars]
  split
  next =>
    refine ⟨List.cons_ne_nil _ _, ?_⟩
    intro c member
    exact .inr (List.mem_singleton.mp member)
  next full =>
    refine ⟨by simpa using full, ?_⟩
    intro c member
    obtain ⟨d, -, rfl⟩ := List.mem_map.mp member
    split
    next kept => simpa [isNameChar] using kept
    next => exact .inr rfl

theorem isMarked_sanitize {mark : Char} {text : String} (alone : text.toList = [mark]) (field : String) :
    IsMarked mark (text ++ sanitize field) := by
  obtain ⟨filled, letters⟩ := sanitizeChars_spec field.toList
  exact ⟨sanitizeChars field.toList, filled, letters, by simp [sanitize, alone]⟩

theorem isAlphanum_of_isDigit {c : Char} (digit : c.isDigit) : c.isAlphanum := by
  simp [Char.isAlphanum, digit]

theorem IsMarked.append {mark : Char} {base letters : String} (marked : IsMarked mark base)
    (each : ∀ c ∈ letters.toList, c.isAlphanum ∨ c = '_') : IsMarked mark (base ++ letters) := by
  obtain ⟨word, filled, base_letters, chars⟩ := marked
  refine ⟨word ++ letters.toList, by simp [filled], List.forall_mem_append.mpr ⟨base_letters, each⟩, ?_⟩
  rw [String.toList_append, chars, List.cons_append]

theorem IsMarked.underscore {mark : Char} {base : String} (marked : IsMarked mark base) :
    IsMarked mark (base ++ "_") :=
  marked.append (List.forall_mem_singleton.mpr (.inr rfl))

theorem isMarked_numbered {mark : Char} {base : String} (marked : IsMarked mark base) (number : Nat) :
    IsMarked mark (numbered base number) := by
  apply marked.underscore.append
  intro c member
  rw [Nat.toString_eq_repr, Nat.toList_repr] at member
  exact .inl (isAlphanum_of_isDigit (Decimal.isDigit_of_mem_toDigits member))

theorem isMarked_of_mem_namesUpTo {mark : Char} {base name : String} {count : Nat} (marked : IsMarked mark base)
    (member : name ∈ namesUpTo base count) : IsMarked mark name := by
  rcases mem_namesUpTo_iff.mp member with rfl | ⟨number, -, -, rfl⟩
  · exact marked
  · exact isMarked_numbered marked number

theorem not_isMarked_of_mem {mark c : Char} {name : String} (member : c ∈ name.toList) (not_mark : c ≠ mark)
    (no_letter : ¬ (c.isAlphanum ∨ c = '_')) : ¬ IsMarked mark name := by
  rintro ⟨word, -, letters, chars⟩
  rw [chars] at member
  rcases List.mem_cons.mp member with same | inside
  · exact not_mark same
  · exact no_letter (letters c inside)

theorem isName_leastFree {mark : Char} {base : String} (marked : IsMarked mark base) (taken : List String) :
    IsName mark taken (leastFree taken base) := by
  obtain ⟨index, -, found, -, skipped⟩ := leastFree_spec taken base
  rw [found]
  cases index with
  | zero => exact .marked marked
  | succ index =>
    rw [candidate]
    -- A number is written with its digits, behind a sign if it is negative.
    cases written : number (index + 2) with
    | ofNat digits => exact .marked (isMarked_numbered marked digits)
    | negSucc digits =>
      have great : 2147483647 ≤ index + 1 := by
        by_contra small
        rw [number_of_lt (by omega)] at written
        cases written
      have spelled : base ++ "_" ++ toString (Int.negSucc digits) = base ++ "_-" ++ toString (digits + 1) := by
        rw [String.append_assoc, String.append_assoc]
        rfl
      rw [spelled]
      exact .negative (digits + 1) marked (isExhausted_iff.mpr fun earlier small => skipped earlier (by omega))

/-! ### Handing out -/

/-- The alias of an attribute is unique, and has its form. -/
structure WellFormed (scope : Scope) : Prop where
  fields_distinct : (scope.aliases.map Prod.fst).Nodup
  names_distinct : scope.aliasNames.Nodup
  names_formed : ∀ name ∈ scope.aliasNames, IsName '#' scope.aliasNames name
  names_agree : scope.aliases.map Prod.snd = scope.aliasNames

variable {scope : Scope}

theorem isName_allocate (scope : Scope) (field : String) : IsName ':' scope.used (scope.allocate field).1 :=
  isName_leastFree (isMarked_sanitize rfl field) scope.used

theorem allocate_not_mem (scope : Scope) (field : String) : (scope.allocate field).1 ∉ scope.used :=
  leastFree_not_mem scope.used _

theorem IsExhausted.ofNames {names : List String} {base : String} (exhausted : IsExhausted names base) :
    IsExhausted (ofNames names).used base := by
  refine ⟨List.mem_eraseDups.mpr exhausted.1, ?_⟩
  exact fun number two_or_more small => List.mem_eraseDups.mpr (exhausted.2 number two_or_more small)

theorem negative_not_mem_ofNames {names : List String} (marked : ∀ name ∈ names, IsMarked ':' name)
    (base : String) : base ++ "_-2147483648" ∉ (ofNames names).used := by
  intro taken
  have sign : '-' ∈ (base ++ "_-2147483648").toList := by simp
  exact not_isMarked_of_mem sign (by decide) (by decide) (marked _ (List.mem_eraseDups.mp taken))

/-- A field whose placeholder is taken with all its positive numbers gets one with a negative number. -/
theorem allocate_of_isExhausted {names : List String} {field : String}
    (exhausted : IsExhausted names (":" ++ sanitize field)) (marked : ∀ name ∈ names, IsMarked ':' name) :
    ((ofNames names).allocate field).1 = ":" ++ sanitize field ++ "_-2147483648" :=
  leastFree_of_isExhausted exhausted.ofNames (negative_not_mem_ofNames marked _)

/-- Asking for an alias finds the one that there is, or adds one that was free. -/
theorem aliasOf_cases (scope : Scope) (field : String) :
    (∃ name, scope.aliases.lookup field = some name ∧ scope.aliasOf field = (name, scope)) ∨
    (∃ name, scope.aliases.lookup field = none ∧ name ∉ scope.aliasNames ∧ IsName '#' scope.aliasNames name ∧
      scope.aliasOf field = (name, { scope with
        aliases := (field, name) :: scope.aliases
        aliasNames := name :: scope.aliasNames })) := by
  cases known : scope.aliases.lookup field with
  | some name =>
    left
    exact ⟨name, rfl, by simp only [aliasOf, known]⟩
  | none =>
    right
    exact ⟨leastFree scope.aliasNames ("#" ++ sanitize field), rfl, leastFree_not_mem _ _,
      isName_leastFree (isMarked_sanitize rfl field) _, by simp only [aliasOf, known]⟩

theorem wellFormed_aliasOf (well : scope.WellFormed) (field : String) :
    (scope.aliasOf field).2.WellFormed := by
  rcases aliasOf_cases scope field with ⟨name, -, found⟩ | ⟨name, unknown, free, formed, added⟩
  · rw [found]
    exact well
  · rw [added]
    -- The field had no alias, and its alias is no other field's.
    have new_field : field ∉ scope.aliases.map Prod.fst := by
      intro member
      obtain ⟨pair, inside, same⟩ := List.mem_map.mp member
      have differs := List.lookup_eq_none_iff.mp unknown pair inside
      simp [same] at differs
    constructor
    case fields_distinct => exact List.nodup_cons.mpr ⟨new_field, well.fields_distinct⟩
    case names_distinct => exact List.nodup_cons.mpr ⟨free, well.names_distinct⟩
    case names_formed =>
      have more : scope.aliasNames ⊆ name :: scope.aliasNames := List.subset_cons_self _ _
      exact List.forall_mem_cons.mpr ⟨formed.mono more, fun other old => (well.names_formed other old).mono more⟩
    case names_agree => exact congrArg (name :: ·) well.names_agree

/-- After asking for the alias of an attribute, the scope has it, besides all that it had before. -/
theorem mem_aliases_aliasOf (scope : Scope) (field : String) :
    (field, (scope.aliasOf field).1) ∈ (scope.aliasOf field).2.aliases ∧
      scope.aliases ⊆ (scope.aliasOf field).2.aliases := by
  rcases aliasOf_cases scope field with ⟨name, known, found⟩ | ⟨name, -, -, -, added⟩
  · rw [found]
    obtain ⟨before, after, split, -⟩ := List.lookup_eq_some_iff.mp known
    exact ⟨by simp [split], List.Subset.refl _⟩
  · rw [added]
    exact ⟨List.mem_cons_self, List.subset_cons_self _ _⟩

/-- Aliases and placeholders are kept apart, so an alias takes no placeholder away. -/
theorem used_aliasOf (scope : Scope) (field : String) : (scope.aliasOf field).2.used = scope.used := by
  rcases aliasOf_cases scope field with ⟨name, -, found⟩ | ⟨name, -, -, -, added⟩
  · rw [found]
  · rw [added]

/-- The scopes that can come about: from names in use, by handing out and taking away names. -/
inductive Reachable : Scope → Prop
  | ofNames (names : List String) : Reachable (ofNames names)
  | aliasOf {scope : Scope} : Reachable scope → (field : String) → Reachable (scope.aliasOf field).2
  | allocate {scope : Scope} : Reachable scope → (field : String) → Reachable (scope.allocate field).2
  | reserve {scope : Scope} : Reachable scope → (name : String) → Reachable (scope.reserve name).2

theorem WellFormed.of_aliases {other : Scope} (well : scope.WellFormed)
    (same : other.aliases = scope.aliases) (same_names : other.aliasNames = scope.aliasNames) :
    other.WellFormed := by
  constructor
  case fields_distinct =>
    rw [same]
    exact well.fields_distinct
  case names_distinct =>
    rw [same_names]
    exact well.names_distinct
  case names_formed =>
    rw [same_names]
    exact well.names_formed
  case names_agree =>
    rw [same, same_names]
    exact well.names_agree

theorem Reachable.wellFormed (reachable : scope.Reachable) : scope.WellFormed := by
  induction reachable with
  | ofNames names => exact ⟨List.nodup_nil, List.nodup_nil, nofun, rfl⟩
  | aliasOf _ field well => exact wellFormed_aliasOf well field
  | allocate _ field well => exact well.of_aliases rfl rfl
  | @reserve scope _ name well =>
    -- Taking a placeholder away leaves the aliases alone.
    unfold Scope.reserve
    split
    · exact well
    · exact well.of_aliases rfl rfl

end ItemMapper.Scope
