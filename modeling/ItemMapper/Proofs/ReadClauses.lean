import ItemMapper.Proofs.WellFormedClauses

/-!
# Clauses of any text

Whatever text is read as an update expression, each of its clauses stood in the text between two places where
no word goes on, and no verb started in it there. So none starts in the clause alone (`IsQuiet.alone`), and
the clause is one for the scanner in any other company, too (`areGathered_read`). This takes a text in which no
blank belongs to a word, and which closes its brackets.

Main result: the clauses that are read from such a text are read again from the expression that is rendered
from them (`ofText_text_ofText`).
-/

namespace ItemMapper

namespace ClauseText

/-! ### Verbs in their places -/

/-- No verb starts in a part of a text, which is read from the start of the text and on behind the part. -/
def IsQuiet (front part back : List Char) : Prop :=
  ∀ before after, part = before ++ after → after ≠ [] → depthOf 0 (front ++ before) = 0 →
    endsInWord false (front ++ before) = false → verbAt? (after ++ back) = none

/-- No word goes on from one text into the next one. -/
def IsApart (front back : List Char) : Prop :=
  (∀ c ∈ front.getLast?, isWordChar c = false) ∨ ∀ c ∈ back.head?, isWordChar c = false

theorem endsInWord_concat (afterWord : Bool) (cs : List Char) (c : Char) :
    endsInWord afterWord (cs ++ [c]) = isWordChar c := by
  simp [endsInWord]

theorem endsInWord_of_ne_nil {cs : List Char} (filled : cs ≠ []) (first second : Bool) :
    endsInWord first cs = endsInWord second cs := by
  rw [← List.dropLast_concat_getLast filled, endsInWord_concat, endsInWord_concat]

theorem verbAt?_eq_some {cs : List Char} {verb : Verb} (found : verbAt? cs = some verb) :
    ∃ after, cs = verb.keyword ++ after ∧ ∀ c ∈ after.head?, isWordChar c = false := by
  have starts : startsWithWord verb.keyword cs = true := by simpa using List.find?_some found
  exact startsWithWord_iff.mp starts

/-- A verb at the start of a text does not depend on what follows, if no word goes on there. -/
theorem verbAt?_append_of_isApart {cs rest : List Char} (apart : IsApart cs rest) (filled : cs ≠ []) :
    verbAt? (cs ++ rest) = verbAt? cs := by
  rcases apart with left | right
  · have boundary : isWordChar (cs.getLast filled) = false := left _ (List.getLast?_eq_some_getLast filled)
    rw [← List.dropLast_concat_getLast filled, List.append_assoc, List.singleton_append,
      verbAt?_append boundary, verbAt?_append boundary]
  · cases rest with
    | nil => rw [List.append_nil]
    | cons c rest => exact verbAt?_append (right c rfl) cs rest

/-- If no verb starts in a part in its place, none starts in the part alone. -/
theorem IsQuiet.alone {front part back : List Char} (quiet : IsQuiet front part back)
    (outside : depthOf 0 front = 0) (left : IsApart front part) (right : IsApart part back) :
    ∀ before after, part = before ++ after → depthOf 0 before = 0 → endsInWord false before = false →
      verbAt? after = none := by
  intro before after split depth fresh
  by_cases ended : after = []
  · rw [ended]
    rfl
  · have in_place : verbAt? (after ++ back) = verbAt? after := by
      apply verbAt?_append_of_isApart _ ended
      refine right.imp_left fun last c found => last c ?_
      rwa [split, List.getLast?_append_of_ne_nil _ ended]
    have same_depth : depthOf 0 (front ++ before) = 0 := by rw [depthOf_append, outside, depth]
    by_cases at_start : before = []
    · -- At the start of the part, what stands in front of it counts.
      subst at_start
      rcases left with front_ends | part_starts
      · rw [← in_place]
        apply quiet [] after split ended same_depth
        rw [List.append_nil]
        exact endsInWord_eq_false_iff.mpr front_ends
      · obtain ⟨c, rest, rfl⟩ := List.exists_cons_of_ne_nil ended
        exact verbAt?_of_boundary (part_starts c (by simp [split])) rest
    · rw [← in_place]
      apply quiet before after split ended same_depth
      rw [endsInWord_append, endsInWord_of_ne_nil at_start _ false]
      exact fresh

/-- A part of a part is quiet in its place. -/
theorem IsQuiet.part {front left middle right back : List Char}
    (quiet : IsQuiet front (left ++ middle ++ right) back) :
    IsQuiet (front ++ left) middle (right ++ back) := by
  rintro before after rfl filled depth fresh
  have found := quiet (left ++ before) (after ++ right) (by simp) (by simp [filled])
    (by rwa [← List.append_assoc]) (by rwa [← List.append_assoc])
  rwa [List.append_assoc] at found

/-! ### The verbs of a text, one after another -/

theorem keyword_ne_nil (verb : Verb) : verb.keyword ≠ [] := by
  cases verb <;> exact List.cons_ne_nil _ _

theorem segmentsFrom_in_word {word : List Char} (letters : ∀ c ∈ word, isWordChar c) (position : Nat)
    (rest : List Char) :
    segmentsFrom position 0 true (word ++ rest) = segmentsFrom (position + word.length) 0 true rest := by
  induction word generalizing position with
  | nil => rfl
  | cons c word ih =>
    have letter := letters c List.mem_cons_self
    have others := ih (fun d member => letters d (List.mem_cons_of_mem _ member)) (position + 1)
    rw [List.cons_append, segmentsFrom, depthAfter_of_isWordChar letter, letter, others, List.length_cons]
    simp [Nat.add_comm, Nat.add_left_comm]

/-- What the scanner finds in the rest of a text, behind a front that it has gone through. -/
def segmentsBehind (front rest : List Char) : List Segment :=
  segmentsFrom front.length (depthOf 0 front) (endsInWord false front) rest

theorem depthOf_keyword (verb : Verb) : depthOf 0 verb.keyword = 0 :=
  depthOf_plain (fun _ member => depthAfter_of_isWordChar (isWordChar_of_mem_keyword member)) 0

theorem segmentsBehind_keyword {front : List Char} (outside : depthOf 0 front = 0) (verb : Verb)
    (rest : List Char) : segmentsBehind (front ++ verb.keyword) rest =
      segmentsFrom (front.length + verb.keyword.length) 0 true rest := by
  have still_outside : depthOf 0 (front ++ verb.keyword) = 0 := by
    rw [depthOf_append, outside, depthOf_keyword]
  have in_word : endsInWord false (front ++ verb.keyword) = true := by
    rw [endsInWord_append]
    cases verb <;> rfl
  rw [segmentsBehind, still_outside, in_word, List.length_append]

/-- At each character a verb is found, or else the scanner goes on behind the character. -/
theorem segmentsBehind_cons (front : List Char) (c : Char) (rest : List Char) :
    (∃ verb after, depthOf 0 front = 0 ∧ endsInWord false front = false ∧ c :: rest = verb.keyword ++ after ∧
      (∀ d ∈ after.head?, isWordChar d = false) ∧ segmentsBehind front (c :: rest) =
        ⟨verb, (front ++ verb.keyword).length⟩ :: segmentsBehind (front ++ verb.keyword) after) ∨
    ((depthOf 0 front = 0 → endsInWord false front = false → verbAt? (c :: rest) = none) ∧
      segmentsBehind front (c :: rest) = segmentsBehind (front ++ [c]) rest) := by
  have next : segmentsBehind (front ++ [c]) rest =
      segmentsFrom (front.length + 1) (depthAfter (depthOf 0 front) c) (isWordChar c) rest := by
    simp [segmentsBehind, depthOf, endsInWord]
  rw [next, segmentsBehind, segmentsFrom]
  by_cases start : depthOf 0 front = 0 ∧ endsInWord false front = false
  · obtain ⟨outside, fresh⟩ := start
    cases found : verbAt? (c :: rest) with
    | none =>
      right
      simp [outside, fresh]
    | some verb =>
      left
      obtain ⟨after, split, ends⟩ := verbAt?_eq_some found
      refine ⟨verb, after, outside, fresh, split, ends, ?_⟩
      -- The scanner goes on inside of the verb, where it finds nothing.
      obtain ⟨letter, word, spelled⟩ := List.exists_cons_of_ne_nil (keyword_ne_nil verb)
      obtain ⟨rfl, rfl⟩ : c = letter ∧ rest = word ++ after := by simpa [spelled] using split
      have letters : ∀ d ∈ c :: word, isWordChar d := by
        rw [← spelled]
        exact fun _ => isWordChar_of_mem_keyword
      have others := segmentsFrom_in_word (fun d member => letters d (List.mem_cons_of_mem _ member))
        (front.length + 1) after
      have first := letters c List.mem_cons_self
      rw [segmentsBehind_keyword outside, outside, fresh, depthAfter_of_isWordChar first, first, others]
      simp [spelled, Nat.add_comm, Nat.add_left_comm]
  · right
    constructor
    · intro outside fresh
      exact absurd ⟨outside, fresh⟩ start
    · have inside : ¬ ((decide (depthOf 0 front = 0) && !endsInWord false front) = true) := by
        simpa using start
      rw [if_neg inside]

/-! ### Parts that are cut out -/

/--
A part of a text between two places where no word goes on; it starts and ends outside of brackets, and neither a
verb starts in it nor does a blank in it belong to a word.
-/
structure IsCutOut (front part back : List Char) : Prop where
  quiet : IsQuiet front part back
  outside : depthOf 0 front = 0
  closed : depthOf 0 part = 0
  left : IsApart front part
  right : IsApart part back
  spaced : ∀ c ∈ part, Text.isBlank c → isWordChar c = false

/-- A part is cut at a place where a character without word stands. -/
theorem IsCutOut.part {front left middle right back : List Char}
    (cut : IsCutOut front (left ++ middle ++ right) back) (left_closed : depthOf 0 left = 0)
    (closed : depthOf 0 middle = 0) (left_ends : ∀ c ∈ left.getLast?, isWordChar c = false)
    (right_starts : ∀ c ∈ right.head?, isWordChar c = false) :
    IsCutOut (front ++ left) middle (right ++ back) := by
  constructor
  case quiet => exact cut.quiet.part
  case outside => rw [depthOf_append, cut.outside, left_closed]
  case closed => exact closed
  case left =>
    by_cases at_start : left = []
    · subst at_start
      rw [List.append_nil]
      refine cut.left.imp_right fun starts c first => starts c ?_
      simp [Option.mem_def.mp first]
    · left
      rwa [List.getLast?_append_of_ne_nil _ at_start]
  case right =>
    by_cases at_end : right = []
    · subst at_end
      rw [List.nil_append]
      refine cut.right.imp_left fun ends c last => ends c ?_
      simp [Option.mem_def.mp last]
    · right
      rwa [List.head?_append_of_ne_nil _ at_end]
  case spaced =>
    intro c member
    exact cut.spaced c (by simp [member])

theorem depthAfter_of_isBlank {c : Char} (blank : Text.isBlank c) (depth : Nat) : depthAfter depth c = depth := by
  have different := fun d => Text.ne_of_isBlank blank (d := d)
  simp [depthAfter, different '(' rfl, different '[' rfl, different ')' rfl, different ']' rfl]

/-- A part without comma outside of brackets becomes a clause when it is trimmed. -/
theorem IsCutOut.isClause_trim {front part back : List Char} (cut : IsCutOut front part back)
    (noComma : ∀ before after, part = before ++ ',' :: after → depthOf 0 before ≠ 0)
    (filled : Text.trim part ≠ []) : IsClause (Text.trim part) := by
  obtain ⟨left, right, split, left_blank, right_blank⟩ := Text.exists_trim part
  have left_plain : depthOf 0 left = 0 :=
    depthOf_plain (fun c member => depthAfter_of_isBlank (left_blank c member)) 0
  have closed : depthOf 0 (Text.trim part) = 0 := by
    have whole := cut.closed
    rw [split, depthOf_append, depthOf_append, left_plain,
      depthOf_plain fun c member => depthAfter_of_isBlank (right_blank c member)] at whole
    exact whole
  have trimmed : IsCutOut (front ++ left) (Text.trim part) (right ++ back) := by
    have spaced := cut.spaced
    rw [split] at cut
    apply cut.part left_plain closed
    · intro c last
      have member := List.mem_of_mem_getLast? last
      have within : c ∈ part := by
        rw [split]
        exact List.mem_append_left _ (List.mem_append_left _ member)
      exact spaced c within (left_blank c member)
    · intro c first
      have member := List.mem_of_mem_head? first
      have within : c ∈ part := by
        rw [split]
        exact List.mem_append_right _ member
      exact spaced c within (right_blank c member)
  constructor
  case filled => exact filled
  case trimmed => exact Text.trim_trim part
  case closed => exact closed
  case noComma =>
    intro before after inside
    have found := noComma (left ++ before) (after ++ right) (by rw [split, inside]; simp)
    rwa [depthOf_append, left_plain] at found
  case noVerb => exact trimmed.quiet.alone trimmed.outside trimmed.left trimmed.right

/-- A text has no comma outside of brackets, or there is a first one. -/
theorem exists_first_comma (depth : Nat) (cs : List Char) :
    (∀ before after, cs = before ++ ',' :: after → depthOf depth before ≠ 0) ∨
    ∃ first rest, cs = first ++ ',' :: rest ∧ depthOf depth first = 0 ∧
      ∀ before after, first = before ++ ',' :: after → depthOf depth before ≠ 0 := by
  induction cs generalizing depth with
  | nil =>
    left
    intro before after split
    simp at split
  | cons c rest ih =>
    by_cases here : c = ',' ∧ depth = 0
    · obtain ⟨rfl, rfl⟩ := here
      right
      exact ⟨[], rest, rfl, rfl, by simp⟩
    · rcases ih (depthAfter depth c) with noComma | ⟨first, others, rfl, outside, noComma⟩
      all_goals
        have extended : ∀ tail : List Char,
            (∀ before after, tail = before ++ ',' :: after → depthOf (depthAfter depth c) before ≠ 0) →
            ∀ before after, c :: tail = before ++ ',' :: after → depthOf depth before ≠ 0 := by
          rintro tail noComma before after split
          cases before with
          | nil =>
            obtain ⟨rfl, rfl⟩ := List.cons.inj split
            exact fun outside => here ⟨rfl, outside⟩
          | cons d before =>
            obtain ⟨rfl, rfl⟩ := List.cons.inj split
            exact noComma before after rfl
      · exact .inl (extended rest noComma)
      · exact .inr ⟨c :: first, others, rfl, outside, extended first noComma⟩

theorem IsCutOut.isClause_of_mem_split {front part back piece : List Char} (cut : IsCutOut front part back)
    (member : piece ∈ (splitFrom 0 part).1 :: (splitFrom 0 part).2) (filled : Text.trim piece ≠ []) :
    IsClause (Text.trim piece) := by
  rcases exists_first_comma 0 part with noComma | ⟨first, rest, split, outside, noComma⟩
  · rw [splitFrom_eq_self noComma] at member
    obtain rfl : piece = part := by simpa using member
    exact cut.isClause_trim noComma filled
  · -- What stands behind the first comma is a part of its own, and a shorter one.
    have shorter : rest.length < part.length := by
      rw [split, List.length_append, List.length_cons]
      omega
    subst split
    rw [splitFrom_append outside noComma] at member
    have rest_closed : depthOf 0 rest = 0 := by
      have whole := cut.closed
      rw [depthOf_append, outside] at whole
      exact whole
    rcases List.mem_cons.mp member with rfl | behind
    · have first_cut : IsCutOut (front ++ []) piece (',' :: rest ++ back) :=
        IsCutOut.part (by simpa using cut) rfl outside (by simp) (by simp; rfl)
      exact first_cut.isClause_trim noComma filled
    · have rest_cut : IsCutOut (front ++ (first ++ [','])) rest ([] ++ back) := by
        apply IsCutOut.part (by simpa using cut) _ rest_closed (by simp; rfl) (by simp)
        rw [depthOf_append, outside]
        rfl
      exact rest_cut.isClause_of_mem_split behind filled
termination_by part.length

theorem IsCutOut.isClause_of_mem_clausesOf {front part back : List Char} (cut : IsCutOut front part back)
    {clause : String} (member : clause ∈ clausesOf part) : IsClause clause.toList := by
  obtain ⟨trimmed, listed, found⟩ := List.mem_filterMap.mp member
  obtain ⟨piece, among, rfl⟩ := List.mem_map.mp listed
  have filled : Text.trim piece ≠ [] := by
    intro nothing
    simp [nothing] at found
  obtain rfl : String.ofList (Text.trim piece) = clause := by simpa [filled] using found
  rw [String.toList_ofList]
  exact cut.isClause_of_mem_split among filled

end ClauseText

/-! ### Gathered clauses -/

namespace UpdateClauses

theorem get_append (clauses : UpdateClauses) (verb : Verb) {more : List String} (filled : more ≠ [])
    (other : Verb) : (clauses.append verb more).get other =
      if other = verb then some ((clauses.get verb).getD [] ++ more) else clauses.get other := by
  rw [append, if_neg (by simpa using filled)]
  cases verb <;> cases other <;> rfl

/-- Clauses as they are gathered from a text: no verb is listed without clauses. -/
structure AreGathered (clauses : UpdateClauses) : Prop where
  areClauses : clauses.AreClauses
  listed : ∀ verb, clauses.get verb ≠ some []

theorem eq_of_get {clauses others : UpdateClauses} (same : ∀ verb, clauses.get verb = others.get verb) :
    clauses = others := by
  cases clauses
  cases others
  simp only [mk.injEq]
  exact ⟨same .set, same .add, same .remove, same .delete⟩

theorem AreGathered.filled_eq {clauses : UpdateClauses} (gathered : clauses.AreGathered) :
    clauses.filled = clauses := by
  apply eq_of_get
  intro verb
  have some_clause := gathered.listed verb
  rw [get_filled]
  cases stored : clauses.get verb with
  | none => rfl
  | some list =>
    have different : list ≠ [] := by simpa [stored] using some_clause
    simp [Option.filter, different]

theorem AreGathered.nothing : AreGathered {} := by
  constructor <;> rintro ⟨⟩ <;> nofun

theorem AreGathered.append {clauses : UpdateClauses} (gathered : clauses.AreGathered) (verb : Verb)
    {more : List String} (each : ∀ clause ∈ more, ClauseText.IsClause clause.toList) :
    (clauses.append verb more).AreGathered := by
  by_cases nothing : more = []
  · subst nothing
    exact gathered
  constructor
  case areClauses =>
    intro other list stored clause member
    rw [get_append clauses verb nothing] at stored
    by_cases same : other = verb
    · rw [if_pos same] at stored
      obtain rfl := Option.some.inj stored
      rcases List.mem_append.mp member with before | new
      · obtain ⟨list, earlier, within⟩ : ∃ list, clauses.get verb = some list ∧ clause ∈ list := by
          cases earlier : clauses.get verb with
          | none => simp [earlier] at before
          | some list => exact ⟨list, rfl, by simpa [earlier] using before⟩
        exact gathered.areClauses verb list earlier clause within
      · exact each clause new
    · rw [if_neg same] at stored
      exact gathered.areClauses other list stored clause member
  case listed =>
    intro other
    rw [get_append clauses verb nothing]
    by_cases same : other = verb
    · simp [same, nothing]
    · rw [if_neg same]
      exact gathered.listed other

end UpdateClauses

namespace ClauseText

theorem slice_append (front part back : List Char) :
    slice (front ++ part ++ back) front.length (front ++ part).length = part := by
  simp [slice]

theorem IsQuiet.nil (front back : List Char) : IsQuiet front [] back := by
  intro before after split filled
  exact absurd (List.append_eq_nil_iff.mp split.symm).2 filled

/-- A part stays quiet if the next character starts no verb. -/
theorem IsQuiet.concat {front part rest : List Char} {c : Char} (quiet : IsQuiet front part (c :: rest))
    (next : depthOf 0 (front ++ part) = 0 → endsInWord false (front ++ part) = false →
      verbAt? (c :: rest) = none) : IsQuiet front (part ++ [c]) rest := by
  intro before after split filled outside fresh
  rcases List.eq_nil_or_concat after with nothing | ⟨tail, last, rfl⟩
  · exact absurd nothing filled
  · rw [List.concat_eq_append, ← List.append_assoc] at split
    obtain ⟨rfl, same⟩ := List.append_inj' split rfl
    obtain rfl : c = last := List.singleton_inj.mp same
    rw [List.concat_eq_append, List.append_assoc, List.singleton_append]
    by_cases here : tail = []
    · subst here
      rw [List.append_nil] at next
      exact next outside fresh
    · exact quiet before tail rfl here outside fresh

/-- A part between a verb and the next place that may end it is cut out of a text that closes its brackets. -/
theorem isCutOut_behind {front part back : List Char} (quiet : IsQuiet front part back)
    (outside : depthOf 0 front = 0) (closed : depthOf 0 (front ++ part) = 0)
    (starts : ∀ c ∈ (part ++ back).head?, isWordChar c = false)
    (ends : back = [] ∨ endsInWord false (front ++ part) = false)
    (spaced : ∀ c ∈ part, Text.isBlank c → isWordChar c = false) : IsCutOut front part back := by
  constructor
  case quiet => exact quiet
  case outside => exact outside
  case closed =>
    rw [depthOf_append, outside] at closed
    exact closed
  case left =>
    right
    intro c first
    apply starts c
    rw [List.head?_append, Option.mem_def.mp first]
    rfl
  case right =>
    rcases ends with rfl | fresh
    · exact .inr nofun
    · left
      intro c last
      apply endsInWord_eq_false_iff.mp fresh
      rw [List.getLast?_append, Option.mem_def.mp last]
      rfl
  case spaced => exact spaced

/-- What is gathered behind a verb are clauses, if what was gathered before are some. -/
theorem areGathered_gather {text : List Char} (spaced : ∀ c ∈ text, Text.isBlank c → isWordChar c = false)
    (closed : depthOf 0 text = 0) {front part rest : List Char} (whole : text = front ++ part ++ rest)
    (outside : depthOf 0 front = 0) (quiet : IsQuiet front part rest)
    (starts : ∀ c ∈ (part ++ rest).head?, isWordChar c = false) (verb : Verb) {found : UpdateClauses}
    (gathered : found.AreGathered) :
    (gather text found (⟨verb, front.length⟩ :: segmentsBehind (front ++ part) rest)).AreGathered := by
  have part_spaced : ∀ c ∈ part, Text.isBlank c → isWordChar c = false :=
    fun c member => spaced c (by simp [whole, member])
  cases rest with
  | nil =>
    have cut : IsCutOut front part [] := by
      apply isCutOut_behind quiet outside _ starts (.inl rfl) part_spaced
      rwa [whole, List.append_nil] at closed
    have between : slice text front.length text.length = part := by
      have sliced := slice_append front part []
      rwa [List.append_nil, ← List.append_nil (front ++ part), ← whole] at sliced
    simp only [segmentsBehind, segmentsFrom, gather, between]
    exact gathered.append verb fun _ => cut.isClause_of_mem_clausesOf
  | cons c rest =>
    rcases segmentsBehind_cons (front ++ part) c rest with
      ⟨next, after, next_outside, fresh, split, ends, others⟩ | ⟨none_here, others⟩
    · -- The part ends in front of the next verb, behind which another one starts.
      have cut := isCutOut_behind quiet outside next_outside starts (.inr fresh) part_spaced
      have stop : (⟨next, (front ++ part ++ next.keyword).length⟩ : Segment).start = (front ++ part).length := by
        rw [Segment.start, List.length_append, Nat.add_sub_cancel]
      have further : text = front ++ part ++ next.keyword ++ [] ++ after := by
        rw [whole, split]
        simp
      have still_outside : depthOf 0 (front ++ part ++ next.keyword) = 0 := by
        rw [depthOf_append, next_outside, depthOf_keyword]
      have shorter : after.length < (c :: rest).length := by
        have some_letter := List.length_pos_of_ne_nil (keyword_ne_nil next)
        rw [split, List.length_append]
        omega
      rw [others, gather_cons_cons, stop, whole, slice_append]
      have step := areGathered_gather spaced closed further still_outside (.nil _ _) ends next
        (gathered.append verb fun _ => cut.isClause_of_mem_clausesOf)
      rw [List.append_nil, whole] at step
      exact step
    · rw [others, List.append_assoc]
      apply areGathered_gather spaced closed _ outside (quiet.concat none_here) _ verb gathered
      · simp [whole]
      · simpa using starts
termination_by rest.length

/-- What stands in front of the first verb is left out. -/
theorem areGathered_gather_front {text : List Char}
    (spaced : ∀ c ∈ text, Text.isBlank c → isWordChar c = false) (closed : depthOf 0 text = 0)
    {front rest : List Char} (whole : text = front ++ rest) :
    (gather text {} (segmentsBehind front rest)).AreGathered := by
  induction rest generalizing front with
  | nil => exact .nothing
  | cons c rest ih =>
    rcases segmentsBehind_cons front c rest with ⟨verb, after, outside, -, split, ends, others⟩ | ⟨-, others⟩
    · have further : text = front ++ verb.keyword ++ [] ++ after := by
        rw [whole, split]
        simp
      have still_outside : depthOf 0 (front ++ verb.keyword) = 0 := by
        rw [depthOf_append, outside, depthOf_keyword]
      have behind := areGathered_gather spaced closed further still_outside (.nil _ _) ends verb .nothing
      rw [List.append_nil] at behind
      rwa [others]
    · rw [others]
      exact ih (by simp [whole])

theorem areGathered_read {text : List Char} (spaced : ∀ c ∈ text, Text.isBlank c → isWordChar c = false)
    (closed : depthOf 0 text = 0) : (read text).AreGathered :=
  areGathered_gather_front spaced closed (List.nil_append text).symm

theorem isWordChar_of_isBlank {c : Char} (blank : Text.isBlank c) (ascii : c.toNat < 128) :
    isWordChar c = false := by
  have not_letter : c.isAlphanum = false := by
    rw [← Bool.not_eq_true]
    intro letter
    exact Text.ne_of_isBlank blank (Text.not_isBlank_of_isAlphanum letter) rfl
  have different := fun d => Text.ne_of_isBlank blank (d := d)
  simp [isWordChar, not_letter, ascii, different '_' rfl, different '#' rfl, different ':' rfl,
    different '.' rfl]

end ClauseText

/-! ### Reading again -/

namespace UpdateClauses

/-- The clauses of a text without foreign blanks, which closes its brackets, are read again from their expression. -/
theorem ofText_text_ofText {text : String} (ascii : ∀ c ∈ text.toList, Text.isBlank c → c.toNat < 128)
    (closed : ClauseText.depthOf 0 text.toList = 0) : ofText (ofText text).text = ofText text := by
  have spaced : ∀ c ∈ text.toList, Text.isBlank c → ClauseText.isWordChar c = false :=
    fun c member blank => ClauseText.isWordChar_of_isBlank blank (ascii c member blank)
  have gathered := ClauseText.areGathered_read spaced closed
  exact (ofText_text gathered.areClauses).trans gathered.filled_eq

/-- Junk in front, verbs that come again, in brackets and in words, empty clauses and a stray bracket. -/
theorem ofText_text_ofText_repeated :
    let text := "x, y SET #a = f(SET, [:b]),  #c = :d ADD #e :f,,\tSET\nREMOVE ADDED, #g[1] )SET #h = (ADD)"
    (∀ c ∈ text.toList, Text.isBlank c → c.toNat < 128) ∧ ClauseText.depthOf 0 text.toList = 0 ∧
    ofText text =
      { set := some ["#a = f(SET, [:b])", "#c = :d", "#h = (ADD)"]
        add := some ["#e :f"]
        remove := some ["ADDED", "#g[1] )"] } ∧
    ofText (ofText text).text = ofText text := by
  intro text
  have ascii : ∀ c ∈ text.toList, Text.isBlank c → c.toNat < 128 := by
    have each : text.toList.all fun c => !Text.isBlank c || c.toNat < 128 := by decide
    simpa [imp_iff_not_or] using each
  have closed : ClauseText.depthOf 0 text.toList = 0 := by decide
  exact ⟨ascii, closed, by decide +kernel, ofText_text_ofText ascii closed⟩

/-- A foreign blank belongs to a word, so that no verb starts behind it until it is trimmed away. -/
example : ofText (ofText "SET a,\u00a0ADD b").text ≠ ofText "SET a,\u00a0ADD b" := by decide +kernel

/-- A bracket that stays open hides the verbs that are written behind it. -/
example : ofText (ofText "SET a REMOVE b SET (c").text ≠ ofText "SET a REMOVE b SET (c" := by decide +kernel

end UpdateClauses

end ItemMapper
