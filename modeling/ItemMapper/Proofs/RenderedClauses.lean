import ItemMapper.Expression.ClauseText
import ItemMapper.Proofs.Trimming
import Mathlib.Data.List.Basic

/-!
# Reading rendered clauses

An update expression that was rendered from clauses is read back as these clauses, as long as each clause
is a clause in the eyes of the scanner (`IsClause`). The scanner works with positions in the whole text,
so the argument cuts the text at blanks and commas, where no word goes on.

Main result: reading the rendered text of clauses gives these clauses without empty lists
(`ofText_text`).
-/

namespace ItemMapper

namespace ClauseText

/-! ### Scanning a text in parts -/

/-- The number of open brackets after a text, if there are some in front of it. -/
def depthOf (depth : Nat) (cs : List Char) : Nat :=
  cs.foldl depthAfter depth

/-- Whether a word reaches to the end of a text, if one does or does not reach to its start. -/
def endsInWord (afterWord : Bool) (cs : List Char) : Bool :=
  cs.foldl (fun _ c => isWordChar c) afterWord

theorem depthOf_append (depth : Nat) (cs ds : List Char) :
    depthOf depth (cs ++ ds) = depthOf (depthOf depth cs) ds :=
  List.foldl_append

theorem endsInWord_append (afterWord : Bool) (cs ds : List Char) :
    endsInWord afterWord (cs ++ ds) = endsInWord (endsInWord afterWord cs) ds :=
  List.foldl_append

theorem depthOf_plain {cs : List Char} (plain : ∀ c ∈ cs, ∀ depth, depthAfter depth c = depth)
    (depth : Nat) : depthOf depth cs = depth := by
  induction cs generalizing depth with
  | nil => rfl
  | cons c rest ih =>
    have first := plain c List.mem_cons_self depth
    have others := ih (fun d member => plain d (List.mem_cons_of_mem _ member)) depth
    rw [depthOf, List.foldl_cons, first]
    exact others

theorem depthAfter_of_isWordChar {c : Char} (inWord : isWordChar c) (depth : Nat) :
    depthAfter depth c = depth := by
  have different : ∀ d, isWordChar d = false → c ≠ d := by
    rintro d outside rfl
    rw [outside] at inWord
    cases inWord
  -- Brackets belong to no word.
  have no_open := different '(' rfl
  have no_open_square := different '[' rfl
  have no_close := different ')' rfl
  have no_close_square := different ']' rfl
  simp [depthAfter, no_open, no_open_square, no_close, no_close_square]

/-- A word that ends in front of a character without word does not look beyond it. -/
theorem startsWithWord_append {word : List Char} (letters : ∀ c ∈ word, isWordChar c) {c : Char}
    (boundary : isWordChar c = false) (cs rest : List Char) :
    startsWithWord word (cs ++ c :: rest) = startsWithWord word cs := by
  -- Word and text are walked through together; the text may end first, in front of the boundary.
  induction word generalizing cs with
  | nil =>
    cases cs with
    | nil => simp [startsWithWord, boundary]
    | cons d ds => simp [startsWithWord]
  | cons w ws ih =>
    have others : ∀ x ∈ ws, isWordChar x := fun x member => letters x (List.mem_cons_of_mem _ member)
    cases cs with
    | nil =>
      have first := letters w List.mem_cons_self
      have different : w ≠ c := by
        rintro rfl
        rw [boundary] at first
        cases first
      simp [startsWithWord, List.isPrefixOf, different]
    | cons d ds =>
      have tail := ih others ds
      simp only [startsWithWord] at tail
      simp only [startsWithWord, List.cons_append, List.isPrefixOf, List.length_cons,
        List.drop_succ_cons, Bool.and_assoc]
      rw [tail]

theorem isWordChar_of_mem_keyword {verb : Verb} {c : Char} (member : c ∈ verb.keyword) :
    isWordChar c := by
  have each : verb.keyword.all isWordChar := by cases verb <;> rfl
  exact List.all_eq_true.mp each c member

theorem verbAt?_append {c : Char} (boundary : isWordChar c = false) (cs rest : List Char) :
    verbAt? (cs ++ c :: rest) = verbAt? cs := by
  unfold verbAt?
  congr
  funext verb
  exact startsWithWord_append (fun _ => isWordChar_of_mem_keyword) boundary cs rest

theorem verbAt?_of_boundary {c : Char} (boundary : isWordChar c = false) (rest : List Char) :
    verbAt? (c :: rest) = none :=
  verbAt?_append boundary [] rest

/-- The verbs in front of a character without word are found on their own. -/
theorem segmentsFrom_append {c : Char} (boundary : isWordChar c = false) (position depth : Nat)
    (afterWord : Bool) (cs rest : List Char) :
    segmentsFrom position depth afterWord (cs ++ c :: rest) =
      segmentsFrom position depth afterWord cs ++
        segmentsFrom (position + cs.length) (depthOf depth cs) (endsInWord afterWord cs) (c :: rest) := by
  -- Position, depth and word state move on with the text, so all of them are generalized.
  induction cs generalizing position depth afterWord with
  | nil => rfl
  | cons d ds ih =>
    have tail := ih (position + 1) (depthAfter depth d) (isWordChar d)
    have same := verbAt?_append boundary (d :: ds) rest
    have next : position + (d :: ds).length = position + 1 + ds.length := by
      rw [List.length_cons]
      omega
    rw [List.cons_append] at same ⊢
    rw [segmentsFrom, segmentsFrom, same, tail, next]
    by_cases start : depth = 0 && !afterWord
    · cases verbAt? (d :: ds) <;> simp [start, depthOf, endsInWord]
    · simp [start, depthOf, endsInWord]

theorem segmentsFrom_boundary {c : Char} (boundary : isWordChar c = false) (position depth : Nat)
    (afterWord : Bool) (rest : List Char) :
    segmentsFrom position depth afterWord (c :: rest) =
      segmentsFrom (position + 1) (depthAfter depth c) false rest := by
  rw [segmentsFrom, verbAt?_of_boundary boundary, boundary]
  simp

/-- A text has no verb if none starts at any place of it outside of brackets. -/
theorem segmentsFrom_eq_nil {depth : Nat} {afterWord : Bool} {cs : List Char}
    (noVerb : ∀ before after, cs = before ++ after → depthOf depth before = 0 →
      endsInWord afterWord before = false → verbAt? after = none) (position : Nat) :
    segmentsFrom position depth afterWord cs = [] := by
  induction cs generalizing position depth afterWord with
  | nil => rfl
  | cons c rest ih =>
    have others := @ih (depthAfter depth c) (isWordChar c) (fun before after split outside start =>
      noVerb (c :: before) after (by rw [split, List.cons_append]) outside start) (position + 1)
    rw [segmentsFrom, others]
    by_cases start : depth = 0 && !afterWord
    · obtain ⟨outside, fresh⟩ : depth = 0 ∧ afterWord = false := by simpa using start
      have none_here := noVerb [] (c :: rest) rfl outside fresh
      simp [none_here]
    · simp [start]

/-- Where no verb is found, none starts at any place outside of brackets. -/
theorem verbAt?_of_segmentsFrom_eq_nil {position depth : Nat} {afterWord : Bool} {cs : List Char}
    (quiet : segmentsFrom position depth afterWord cs = []) :
    ∀ before after, cs = before ++ after → depthOf depth before = 0 →
      endsInWord afterWord before = false → verbAt? after = none := by
  induction cs generalizing position depth afterWord with
  | nil =>
    intro before after split _ _
    obtain ⟨-, rfl⟩ := List.append_eq_nil_iff.mp split.symm
    rfl
  | cons c rest ih =>
    rw [segmentsFrom] at quiet
    intro before after split outside start
    cases before with
    | nil =>
      -- The place is the start of the text, where the scanner has looked for a verb.
      obtain rfl : after = c :: rest := split.symm
      have here : (decide (depth = 0) && !afterWord) = true := by
        obtain rfl : depth = 0 := outside
        obtain rfl : afterWord = false := start
        rfl
      rw [if_pos here] at quiet
      cases found : verbAt? (c :: rest) with
      | none => rfl
      | some verb => simp [found] at quiet
    | cons d before =>
      obtain ⟨rfl, tail_split⟩ := List.cons.inj split
      have tail_quiet : segmentsFrom (position + 1) (depthAfter depth c) (isWordChar c) rest = [] := by
        split at quiet
        next =>
          split at quiet
          next => exact absurd quiet (List.cons_ne_nil _ _)
          next => exact quiet
        next => exact quiet
      exact ih tail_quiet before after tail_split outside start

/-! ### Commas -/

/-- A text that ends outside of all brackets, without comma there, is the part in front of a comma. -/
theorem splitFrom_append {depth : Nat} {cs : List Char} (closed : depthOf depth cs = 0)
    (noComma : ∀ before after, cs = before ++ ',' :: after → depthOf depth before ≠ 0)
    (rest : List Char) :
    splitFrom depth (cs ++ ',' :: rest) = (cs, (splitFrom 0 rest).1 :: (splitFrom 0 rest).2) := by
  induction cs generalizing depth with
  | nil =>
    obtain rfl : depth = 0 := closed
    simp [splitFrom, depthAfter]
  | cons c cs ih =>
    have tail := @ih (depthAfter depth c) closed fun before after split =>
      noComma (c :: before) after (by rw [split, List.cons_append])
    -- A comma here would stand inside of brackets, so the text is not cut in front of it.
    have inside : ¬ (c = ',' ∧ depth = 0) := by
      rintro ⟨rfl, rfl⟩
      exact noComma [] cs rfl rfl
    rw [List.cons_append, splitFrom, tail]
    simp [inside]

theorem splitFrom_eq_self {depth : Nat} {cs : List Char}
    (noComma : ∀ before after, cs = before ++ ',' :: after → depthOf depth before ≠ 0) :
    splitFrom depth cs = (cs, []) := by
  induction cs generalizing depth with
  | nil => rfl
  | cons c cs ih =>
    have tail := @ih (depthAfter depth c) fun before after split =>
      noComma (c :: before) after (by rw [split, List.cons_append])
    have inside : ¬ (c = ',' ∧ depth = 0) := by
      rintro ⟨rfl, rfl⟩
      exact noComma [] cs rfl rfl
    rw [splitFrom, tail]
    simp [inside]

/-! ### Clauses -/

/--
A clause as the scanner sees it: a text without blanks around it that closes its brackets, and that has
neither a comma nor a verb outside of them.
-/
structure IsClause (cs : List Char) : Prop where
  filled : cs ≠ []
  trimmed : Text.trim cs = cs
  closed : depthOf 0 cs = 0
  noComma : ∀ before after, cs = before ++ ',' :: after → depthOf 0 before ≠ 0
  noVerb : ∀ before after, cs = before ++ after → depthOf 0 before = 0 →
    endsInWord false before = false → verbAt? after = none

theorem isClause_chars {clauses : List String} (each : ∀ clause ∈ clauses, IsClause clause.toList) :
    ∀ cs ∈ clauses.map String.toList, IsClause cs := by
  rintro cs member
  obtain ⟨clause, found, rfl⟩ := List.mem_map.mp member
  exact each clause found

/-- Clauses behind a verb, with the commas between them. -/
def body (clauses : List (List Char)) : List Char :=
  [',', ' '].intercalate clauses

theorem body_cons {first : List Char} {rest : List (List Char)} (more : rest ≠ []) :
    body (first :: rest) = first ++ ',' :: ' ' :: body rest := by
  obtain ⟨second, others, rfl⟩ := List.exists_cons_of_ne_nil more
  simp [body, List.intercalate_cons_cons]

theorem depthOf_body {clauses : List (List Char)} (each : ∀ cs ∈ clauses, IsClause cs) :
    depthOf 0 (body clauses) = 0 := by
  induction clauses with
  | nil => rfl
  | cons first rest ih =>
    have tail := ih fun cs member => each cs (List.mem_cons_of_mem _ member)
    have closed := (each first List.mem_cons_self).closed
    by_cases more : rest = []
    · subst more
      simpa [body] using closed
    · rw [body_cons more, depthOf_append, closed]
      exact tail

theorem segmentsFrom_body {clauses : List (List Char)} (each : ∀ cs ∈ clauses, IsClause cs)
    (position : Nat) : segmentsFrom position 0 false (body clauses) = [] := by
  induction clauses generalizing position with
  | nil => rfl
  | cons first rest ih =>
    have tail := ih fun cs member => each cs (List.mem_cons_of_mem _ member)
    have clause := each first List.mem_cons_self
    have quiet := segmentsFrom_eq_nil clause.noVerb position
    by_cases more : rest = []
    · subst more
      simpa [body] using quiet
    · -- Neither the comma nor the blank behind it belongs to a word.
      rw [body_cons more, segmentsFrom_append rfl, quiet, segmentsFrom_boundary rfl,
        segmentsFrom_boundary rfl, clause.closed]
      exact tail _

/-- A blank in front of a clause is trimmed away, and so are those behind it. -/
theorem trim_padded {cs : List Char} (filled : cs ≠ []) (trimmed : Text.trim cs = cs) {pad : List Char}
    (blank : ∀ c ∈ pad, Text.isBlank c) : Text.trim (' ' :: (cs ++ pad)) = cs := by
  obtain ⟨start_trimmed, end_trimmed⟩ := Text.trim_eq_self_iff.mp trimmed
  obtain ⟨c, rest, rfl⟩ := List.exists_cons_of_ne_nil filled
  have solid : Text.isBlank c = false := by
    cases found : Text.isBlank c with
    | false => rfl
    | true =>
      -- Trimming would have taken at least the first character.
      have shorter : (rest.dropWhile Text.isBlank).length ≤ rest.length :=
        (List.dropWhile_suffix _).length_le
      have dropped : rest.dropWhile Text.isBlank = c :: rest := by
        simpa [Text.trimStart, List.dropWhile_cons, found] using start_trimmed
      rw [dropped, List.length_cons] at shorter
      omega
  have from_start : Text.trimStart (' ' :: (c :: rest ++ pad)) = c :: rest ++ pad := by
    have space : Text.isBlank ' ' := rfl
    simp [Text.trimStart, space, solid]
  rw [Text.trim, from_start, Text.trimEnd, List.reverse_append,
    List.dropWhile_append_of_pos fun x member => blank x (List.mem_reverse.mp member)]
  exact end_trimmed

theorem splitFrom_blank (cs : List Char) :
    splitFrom 0 (' ' :: cs) = (' ' :: (splitFrom 0 cs).1, (splitFrom 0 cs).2) := by
  simp [splitFrom, depthAfter]

theorem IsClause.noComma_padded {cs pad : List Char} (clause : IsClause cs) (noComma : ',' ∉ pad)
    (before after : List Char) (split : cs ++ pad = before ++ ',' :: after) : depthOf 0 before ≠ 0 := by
  -- The comma stands in the padding, which has none, or in the clause.
  rcases List.append_eq_append_iff.mp split with ⟨others, rfl, in_pad⟩ | ⟨others, in_clause, rest⟩
  · exact absurd (by simp [in_pad]) noComma
  · cases others with
    | nil =>
      have in_pad : ',' ∈ pad := by
        rw [List.nil_append] at rest
        exact rest ▸ List.mem_cons_self
      exact absurd in_pad noComma
    | cons c others =>
      obtain ⟨rfl, -⟩ := List.cons.inj rest
      exact clause.noComma before others in_clause

theorem splitFrom_body {clauses : List (List Char)} (each : ∀ cs ∈ clauses, IsClause cs)
    (some_clause : clauses ≠ []) {pad : List Char} (blank : ∀ c ∈ pad, c = ' ') :
    ((splitFrom 0 (' ' :: (body clauses ++ pad))).1 ::
      (splitFrom 0 (' ' :: (body clauses ++ pad))).2).map Text.trim = clauses := by
  induction clauses with
  | nil => exact absurd rfl some_clause
  | cons first rest ih =>
    have clause := each first List.mem_cons_self
    by_cases more : rest = []
    · subst more
      have noComma : ',' ∉ pad := by
        intro member
        exact absurd (blank _ member) (by decide)
      have blanks : ∀ c ∈ pad, Text.isBlank c := by
        rintro c member
        rw [blank c member]
        rfl
      have whole := splitFrom_eq_self (clause.noComma_padded noComma)
      have trimmed := trim_padded clause.filled clause.trimmed blanks
      simp [splitFrom_blank, body, List.intercalate_singleton, whole, trimmed]
    · have tail := ih (fun cs member => each cs (List.mem_cons_of_mem _ member)) more
      have trimmed := @trim_padded first clause.filled clause.trimmed [] nofun
      rw [List.append_nil] at trimmed
      rw [body_cons more, List.append_assoc, List.cons_append, List.cons_append, splitFrom_blank,
        splitFrom_append clause.closed clause.noComma, List.map_cons, trimmed, tail]

/-- The parts of the clauses behind a verb are these clauses. -/
theorem clausesOf_body {clauses : List String} (each : ∀ clause ∈ clauses, IsClause clause.toList)
    (some_clause : clauses ≠ []) {pad : List Char} (blank : ∀ c ∈ pad, c = ' ') :
    clausesOf (' ' :: (body (clauses.map String.toList) ++ pad)) = clauses := by
  have parts := splitFrom_body (isClause_chars each) (by simpa using some_clause) blank
  have kept : ∀ clause ∈ clauses, ((fun part : List Char =>
      if part.isEmpty then none else some (String.ofList part)) ∘ String.toList) clause = some clause := by
    rintro clause member
    have filled := (each clause member).filled
    simp only [Function.comp_apply, List.isEmpty_iff, filled, if_false, String.ofList_toList]
  simp only [clausesOf]
  rw [parts, List.filterMap_map, List.filterMap_congr kept, List.filterMap_some]

/-! ### Verbs with their clauses -/

/-- A verb with the clauses behind it. -/
def block (verb : Verb) (clauses : List String) : List Char :=
  verb.keyword ++ ' ' :: body (clauses.map String.toList)

/-- Verbs with their clauses, with blanks between them. -/
def expression (blocks : List (Verb × List String)) : List Char :=
  [' '].intercalate (blocks.map fun (verb, clauses) => block verb clauses)

/-- Every verb has clauses, and they are clauses for the scanner. -/
def AreBlocks (blocks : List (Verb × List String)) : Prop :=
  ∀ part ∈ blocks, part.2 ≠ [] ∧ ∀ clause ∈ part.2, IsClause clause.toList

theorem depthOf_block {verb : Verb} {clauses : List String}
    (each : ∀ clause ∈ clauses, IsClause clause.toList) : depthOf 0 (block verb clauses) = 0 := by
  have outside : depthOf 0 verb.keyword = 0 := by cases verb <;> rfl
  rw [block, depthOf_append, outside]
  exact depthOf_body (isClause_chars each)

theorem segmentsFrom_block {verb : Verb} {clauses : List String}
    (each : ∀ clause ∈ clauses, IsClause clause.toList) (position : Nat) :
    segmentsFrom position 0 false (block verb clauses) =
      [⟨verb, position + verb.keyword.length⟩] := by
  have quiet := fun start => segmentsFrom_body (isClause_chars each) start
  have found : segmentsFrom position 0 false verb.keyword =
      [⟨verb, position + verb.keyword.length⟩] := by
    cases verb <;> rfl
  have outside : depthOf 0 verb.keyword = 0 := by cases verb <;> rfl
  rw [block, segmentsFrom_append rfl, found, segmentsFrom_boundary rfl, outside]
  simp [depthAfter, quiet]

theorem expression_cons (verb : Verb) (clauses : List String) {rest : List (Verb × List String)}
    (more : rest ≠ []) :
    expression ((verb, clauses) :: rest) = block verb clauses ++ ' ' :: expression rest := by
  obtain ⟨second, others, rfl⟩ := List.exists_cons_of_ne_nil more
  simp [expression, List.intercalate_cons_cons]

theorem segmentsFrom_expression_cons {verb : Verb} {clauses : List String}
    {rest : List (Verb × List String)} (more : rest ≠ [])
    (each : ∀ clause ∈ clauses, IsClause clause.toList) (position : Nat) :
    segmentsFrom position 0 false (expression ((verb, clauses) :: rest)) =
      ⟨verb, position + verb.keyword.length⟩ ::
        segmentsFrom (position + (block verb clauses).length + 1) 0 false (expression rest) := by
  rw [expression_cons verb clauses more, segmentsFrom_append rfl, segmentsFrom_block each,
    segmentsFrom_boundary rfl, depthOf_block each]
  rfl

/-- The first verb of an expression stands at its start. -/
theorem segmentsFrom_expression_head {verb : Verb} {clauses : List String}
    {rest : List (Verb × List String)} (each : ∀ clause ∈ clauses, IsClause clause.toList)
    (position : Nat) :
    ∃ segment others, segmentsFrom position 0 false (expression ((verb, clauses) :: rest)) =
      segment :: others ∧ segment.start = position := by
  have start : (⟨verb, position + verb.keyword.length⟩ : Segment).start = position :=
    Nat.add_sub_cancel _ _
  by_cases more : rest = []
  · subst more
    refine ⟨_, [], ?_, start⟩
    have alone : expression [(verb, clauses)] = block verb clauses := List.intercalate_singleton
    rw [alone]
    exact segmentsFrom_block each position
  · exact ⟨_, _, segmentsFrom_expression_cons more each position, start⟩

/-- What lies between a verb and the next one, or the end, are the clauses of the verb. -/
theorem clausesOf_slice_block {verb : Verb} {clauses : List String} (some_clause : clauses ≠ [])
    (each : ∀ clause ∈ clauses, IsClause clause.toList) {pad : List Char} (blank : ∀ c ∈ pad, c = ' ')
    (before after : List Char) :
    clausesOf (slice (before ++ (block verb clauses ++ pad ++ after))
      (before.length + verb.keyword.length)
      (before.length + (block verb clauses ++ pad).length)) = clauses := by
  -- Everything is measured from the end of the verb.
  have between : slice (before ++ (block verb clauses ++ pad ++ after))
      (before.length + verb.keyword.length) (before.length + (block verb clauses ++ pad).length) =
      ' ' :: (body (clauses.map String.toList) ++ pad) := by
    have whole : before ++ (block verb clauses ++ pad ++ after) = (before ++ verb.keyword) ++
        (' ' :: (body (clauses.map String.toList) ++ pad) ++ after) := by
      simp [block]
    have start : before.length + verb.keyword.length = (before ++ verb.keyword).length :=
      List.length_append.symm
    have size : before.length + (block verb clauses ++ pad).length - (before ++ verb.keyword).length =
        (' ' :: (body (clauses.map String.toList) ++ pad)).length := by
      simp only [block, List.length_append, List.length_cons]
      omega
    rw [slice, whole, start, size, List.drop_left, List.take_left]
  rw [between]
  exact clausesOf_body each some_clause blank

theorem gather_cons_cons (cs : List Char) (found : UpdateClauses) (segment next : Segment)
    (rest : List Segment) :
    gather cs found (segment :: next :: rest) =
      gather cs (found.append segment.verb (clausesOf (slice cs segment.bodyStart next.start)))
        (next :: rest) :=
  rfl

/-- Gathering the clauses of an expression adds them verb by verb. -/
theorem gather_expression {blocks : List (Verb × List String)} (each : AreBlocks blocks)
    (before : List Char) (found : UpdateClauses) :
    gather (before ++ expression blocks) found
        (segmentsFrom before.length 0 false (expression blocks)) =
      blocks.foldl (fun found part => found.append part.1 part.2) found := by
  -- What has been read lies in front, so that positions stay those of the whole text.
  induction blocks generalizing before found with
  | nil => rfl
  | cons part rest ih =>
    obtain ⟨verb, clauses⟩ := part
    obtain ⟨some_clause, are_clauses⟩ := each (verb, clauses) List.mem_cons_self
    have others : AreBlocks rest := fun part member => each part (List.mem_cons_of_mem _ member)
    cases rest with
    | nil =>
      have alone : expression [(verb, clauses)] = block verb clauses := List.intercalate_singleton
      have read := @clausesOf_slice_block verb clauses some_clause are_clauses [] nofun before []
      simp only [List.append_nil] at read
      rw [alone, segmentsFrom_block are_clauses]
      simp only [gather, List.length_append, read, List.foldl_cons, List.foldl_nil]
    | cons second rest =>
      have more : second :: rest ≠ [] := List.cons_ne_nil _ _
      have blank : ∀ c ∈ [' '], c = ' ' := fun c member => List.mem_singleton.mp member
      have read := @clausesOf_slice_block verb clauses some_clause are_clauses [' '] blank before
        (expression (second :: rest))
      have tail := ih others (before ++ (block verb clauses ++ [' '])) (found.append verb clauses)
      -- The clauses of this verb reach to the next one, which comes behind the blank.
      have next : before.length + (block verb clauses).length + 1 =
          (before ++ (block verb clauses ++ [' '])).length := by
        simp only [List.length_append, List.length_singleton]
        omega
      have whole : before ++ expression ((verb, clauses) :: second :: rest) =
          before ++ (block verb clauses ++ [' '] ++ expression (second :: rest)) := by
        rw [expression_cons verb clauses more]
        simp
      obtain ⟨segment, segments, found_next, start⟩ := @segmentsFrom_expression_head second.1 second.2
        rest (others second List.mem_cons_self).2 (before.length + (block verb clauses).length + 1)
      rw [← next, found_next] at tail
      rw [segmentsFrom_expression_cons more are_clauses, found_next, whole]
      have stop : segment.start = before.length + (block verb clauses ++ [' ']).length := by
        rw [start, List.length_append, List.length_singleton]
        omega
      rw [gather_cons_cons, stop, read]
      simpa using tail

end ClauseText

/-! ### Rendered clauses -/

namespace UpdateClauses

/-- The clauses without empty lists: a verb without clauses does not occur. -/
def filled (clauses : UpdateClauses) : UpdateClauses where
  set := clauses.set.filter fun list => !list.isEmpty
  add := clauses.add.filter fun list => !list.isEmpty
  remove := clauses.remove.filter fun list => !list.isEmpty
  delete := clauses.delete.filter fun list => !list.isEmpty

theorem get_filled (clauses : UpdateClauses) (verb : Verb) :
    clauses.filled.get verb = (clauses.get verb).filter fun list => !list.isEmpty := by
  cases verb <;> rfl

/-- The verbs that have clauses, with them. -/
def blocks (clauses : UpdateClauses) : List (Verb × List String) :=
  Verb.all.filterMap fun verb => (clauses.filled.get verb).map fun list => (verb, list)

theorem verbChars_eq_block (clauses : UpdateClauses) (verb : Verb) :
    clauses.verbChars verb = (clauses.filled.get verb).map (ClauseText.block verb) := by
  rw [get_filled, verbChars]
  cases clauses.get verb with
  | none => rfl
  | some list => cases list <;> rfl

theorem chars_eq_expression (clauses : UpdateClauses) :
    clauses.chars = ClauseText.expression clauses.blocks := by
  rw [chars, ClauseText.expression, blocks, List.map_filterMap]
  congr
  funext verb
  rw [verbChars_eq_block, Option.map_map]
  rfl

theorem foldl_blocks_eq (clauses : UpdateClauses) (verbs : List Verb) (found : UpdateClauses) :
    (verbs.filterMap fun verb => (clauses.filled.get verb).map fun list => (verb, list)).foldl
        (fun found part => found.append part.1 part.2) found =
      verbs.foldl (fun found verb => found.append verb ((clauses.get verb).getD [])) found := by
  induction verbs generalizing found with
  | nil => rfl
  | cons verb rest ih =>
    rw [List.filterMap_cons, List.foldl_cons, ← ih, get_filled]
    cases clauses.get verb with
    | none => rfl
    | some list => cases list <;> rfl

/-- Adding the clauses of a verb that has none yet stores them. -/
theorem append_getD {found : UpdateClauses} {verb : Verb} (free : found.get verb = none)
    (list : Option (List String)) :
    found.append verb (list.getD []) = found.put verb (list.filter fun list => !list.isEmpty) := by
  have kept : found = found.put verb none := by
    rw [← free]
    cases verb <;> rfl
  cases list with
  | none => exact kept
  | some list =>
    cases list with
    | nil => exact kept
    | cons clause rest => simp [append, free, Option.filter]

theorem foldl_blocks (clauses : UpdateClauses) :
    clauses.blocks.foldl (fun found part => found.append part.1 part.2) {} = clauses.filled := by
  rw [blocks, foldl_blocks_eq]
  simp only [Verb.all, List.foldl_cons, List.foldl_nil]
  rw [@append_getD _ .set rfl, @append_getD _ .add rfl, @append_getD _ .remove rfl,
    @append_getD _ .delete rfl]
  rfl

/-- Every text under a verb is a clause for the scanner. -/
def AreClauses (clauses : UpdateClauses) : Prop :=
  ∀ verb list, clauses.get verb = some list → ∀ clause ∈ list, ClauseText.IsClause clause.toList

theorem areBlocks_blocks {clauses : UpdateClauses} (each : clauses.AreClauses) :
    ClauseText.AreBlocks clauses.blocks := by
  rintro ⟨verb, list⟩ member
  obtain ⟨verb, -, found⟩ := List.mem_filterMap.mp member
  obtain ⟨list, stands, same⟩ := Option.map_eq_some_iff.mp found
  obtain ⟨rfl, rfl⟩ := Prod.mk.inj same
  rw [get_filled] at stands
  obtain ⟨stored, full⟩ := Option.filter_eq_some_iff.mp stands
  exact ⟨by simpa using full, each verb list stored⟩

/-- Rendered clauses are read back, without the verbs that have none. -/
theorem ofText_text {clauses : UpdateClauses} (each : clauses.AreClauses) :
    ofText clauses.text = clauses.filled := by
  have gathered := ClauseText.gather_expression (areBlocks_blocks each) [] {}
  rw [ofText, text, String.toList_ofList, chars_eq_expression, ClauseText.read]
  exact gathered.trans (foldl_blocks clauses)

end UpdateClauses

end ItemMapper
