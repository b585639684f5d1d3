import ItemMapper.Proofs.EncodedText

/-!
# Clauses by their bytes

The scan by bytes and the one by characters find the same verbs of a text (`finds_text`). So every part between
two verbs can be cut out of the text, and its commas are counted by the brackets of the part as by those of the
whole text, since outside of brackets is where each part starts.

Main result: the scan lists the verbs of a text in order, each with a part that can be cut out, and reading by
bytes gives what reading by characters gives (`segments_exact`).
-/

namespace ItemMapper.ClauseBytes

open ClauseText (Segment)

/-! ### Two scans -/

/-- No verb starts at a byte beyond ASCII. -/
theorem segmentsAt_foreign {left part right : Bytes} (foreign : ∀ b ∈ part, 128 ≤ b.toNat) :
    segmentsAt (left ++ part ++ right) left.length =
      segmentsAt (left ++ part ++ right) (left ++ part).length := by
  induction part generalizing left with
  | nil => rw [List.append_nil]
  | cons b part ih =>
    obtain ⟨beyond, others⟩ := List.forall_mem_cons.mp foreign
    have here : (left ++ b :: part ++ right)[left.length]? = some b := by simp
    have none_here : ∀ verb, ¬ StandsAt (left ++ b :: part ++ right) verb left.length := by
      intro verb stands
      have first := getElem?_of_spelled stands.spelled (length_keyword_pos verb)
      rw [Nat.add_zero, here, Option.some.injEq] at first
      have letter : (keyword verb).all fun b => b.toNat < 128 := by cases verb <;> rfl
      have ascii := List.all_eq_true.mp letter _ (first ▸ List.getElem_mem _)
      have small : b.toNat < 128 := by simpa using ascii
      omega
    have next := @ih (left ++ [b]) others
    rw [segmentsAt_of_not_standsAt (by simp) none_here]
    simpa using next

/-- Where no verb starts among the characters, the scan by bytes goes on behind the next character. -/
theorem segmentsAt_behind_char {front rest : List Char} {c : Char}
    (none_here : ClauseText.depthOf 0 front = 0 → ClauseText.endsInWord false front = false →
      ClauseText.verbAt? (c :: rest) = none) :
    segmentsAt (encoded (front ++ c :: rest)) (encoded front).length =
      segmentsAt (encoded (front ++ c :: rest)) (encoded (front ++ [c])).length := by
  have bytes : encoded (front ++ c :: rest) = encoded front ++ String.utf8EncodeChar c ++ encoded rest := by
    rw [← encoded_singleton, ← encoded_append, ← encoded_append, List.append_assoc, List.singleton_append]
  rw [encoded_append front [c], encoded_singleton]
  by_cases ascii : c.toNat < 128
  · have nothing : ∀ verb, ¬ StandsAt (encoded (front ++ c :: rest)) verb (encoded front).length := by
      intro verb stands
      obtain ⟨outside, fresh, after, split, ends⟩ := standsAt_iff.mp stands
      exact ClauseText.verbAt?_eq_none_iff.mp (none_here outside fresh) verb after split ends
    rw [segmentsAt_of_not_standsAt (by simp [bytes, Char.utf8Size_pos]) nothing, encodeChar_of_ascii ascii,
      List.length_append, List.length_singleton]
  · rw [bytes]
    exact segmentsAt_foreign fun b => foreign_of_mem_encodeChar (by omega)

/-- What both scans find in a text behind a front: the verbs, by their bytes and by their characters. -/
inductive Finds (text : List Char) : List Char → List Segment → List Segment → Prop
  | nothing {front back : List Char} : text = front ++ back → Finds text front [] []
  | verb {front between after : List Char} {verb : Verb} {byBytes byChars : List Segment} :
      text = front ++ between ++ verb.keyword ++ after →
      ClauseText.depthOf 0 (front ++ between) = 0 →
      Finds text (front ++ between ++ verb.keyword) byBytes byChars →
      Finds text front (⟨verb, (encoded (front ++ between ++ verb.keyword)).length⟩ :: byBytes)
        (⟨verb, (front ++ between ++ verb.keyword).length⟩ :: byChars)

variable {text front : List Char} {byBytes byChars : List Segment}

/-- What is found behind more of a text is found behind less of it. -/
theorem Finds.behind {more : List Char} (finds : Finds text (front ++ more) byBytes byChars) :
    Finds text front byBytes byChars := by
  generalize behind : front ++ more = start at finds
  cases finds with
  | nothing split =>
    subst behind
    rw [List.append_assoc] at split
    exact .nothing split
  | @verb _ between after verb byBytes byChars split outside others =>
    subst behind
    have same : front ++ more ++ between = front ++ (more ++ between) := List.append_assoc ..
    rw [same] at split outside others ⊢
    exact .verb split outside others

theorem finds_behind {text front rest : List Char} (split : text = front ++ rest) :
    Finds text front (segmentsAt (encoded text) (encoded front).length)
      (ClauseText.segmentsBehind front rest) := by
  -- The recursion is on the characters left, of which both scans take a whole word or a single one.
  cases rest with
  | nil =>
    rw [List.append_nil] at split
    subst split
    rw [segmentsAt_of_le (Nat.le_refl _)]
    exact .nothing (List.append_nil text).symm
  | cons c rest =>
    rcases ClauseText.segmentsBehind_cons front c rest with
      ⟨verb, after, outside, fresh, spelled, ends, found⟩ | ⟨none_here, found⟩
    · have stands : StandsAt (encoded text) verb (encoded front).length := by
        rw [split]
        exact standsAt_iff.mpr ⟨outside, fresh, after, spelled, ends⟩
      have shorter : after.length < (c :: rest).length := by
        have some_letter := List.length_pos_of_ne_nil (ClauseText.keyword_ne_nil verb)
        rw [spelled, List.length_append]
        omega
      have further : text = front ++ [] ++ verb.keyword ++ after := by
        rw [split, spelled]
        simp
      have others : Finds text (front ++ [] ++ verb.keyword) _ _ := finds_behind further
      have nothing_between : ClauseText.depthOf 0 (front ++ []) = 0 := by rw [List.append_nil, outside]
      have both := Finds.verb further nothing_between others
      rw [List.append_nil] at both
      rw [segmentsAt_of_standsAt stands, keyword_eq_encoded, ← List.length_append, ← encoded_append, found]
      exact both
    · rw [split, segmentsAt_behind_char none_here, found]
      have further : front ++ c :: rest = front ++ [c] ++ rest := by simp
      exact (finds_behind further).behind
termination_by rest.length

theorem finds_text (text : List Char) :
    Finds text [] (segments (encoded text)) (ClauseText.segments text) :=
  finds_behind (List.nil_append text).symm

/-! ### Commas -/

theorem charIndices_concat (offset : Nat) (front : List Char) (c : Char) :
    charIndices offset (front ++ [c]) = charIndices offset front ++ [(offset + (encoded front).length, c)] := by
  induction front generalizing offset with
  | nil => rfl
  | cons d front ih =>
    have width : (encoded (d :: front)).length = d.utf8Size + (encoded front).length := by
      rw [encoded, List.flatMap_cons, List.length_append, String.length_utf8EncodeChar]
      rfl
    rw [List.cons_append, charIndices, ih, charIndices, List.cons_append, width, Nat.add_assoc]

theorem slice?_encoded (front part back : List Char) :
    slice? (String.ofList (front ++ part ++ back)) (encoded front).length (encoded (front ++ part)).length =
      some (String.ofList part) := by
  have cut := slice?_append (String.ofList front) (String.ofList part) (String.ofList back)
  simpa only [← String.ofList_append, utf8ByteSize_ofList] using cut

/-- What is known of a cut behind the characters that it has gone through. -/
structure Cut.IsBehind (cut : Cut) (front : List Char) : Prop where
  depth_eq : cut.depth = ClauseText.depthOf 0 front
  parts_eq : ∃ before part, front = before ++ part ∧ cut.start = (encoded before).length ∧
    ∀ rest, (ClauseText.splitFrom 0 (front ++ rest)).1 :: (ClauseText.splitFrom 0 (front ++ rest)).2 =
      cut.parts.map String.toList ++
        (part ++ (ClauseText.splitFrom cut.depth rest).1) :: (ClauseText.splitFrom cut.depth rest).2

theorem Cut.isBehind_nil : Cut.IsBehind {} [] where
  depth_eq := rfl
  parts_eq := ⟨[], [], rfl, rfl, fun _ => rfl⟩

/-- The next character can be taken, whatever it is. -/
theorem Cut.IsBehind.step {cut : Cut} {front rest : List Char} {c : Char} (behind : cut.IsBehind front) :
    ∃ next, Cut.step (String.ofList (front ++ c :: rest)) cut ((encoded front).length, c) = some next ∧
      next.IsBehind (front ++ [c]) := by
  obtain ⟨depth_eq, before, part, rfl, start_eq, parts_eq⟩ := behind
  by_cases comma : c = ',' ∧ cut.depth = 0
  · obtain ⟨rfl, outside⟩ := comma
    have sliced := slice?_encoded before part (',' :: rest)
    refine ⟨⟨cut.depth, (encoded (before ++ part)).length + 1, cut.parts ++ [String.ofList part]⟩, ?_, ?_, ?_⟩
    · rw [Cut.step, if_pos ⟨rfl, outside⟩, start_eq, sliced]
      rfl
    · rw [ClauseText.depthOf_append, ← depth_eq]
      rfl
    · refine ⟨before ++ part ++ [','], [], by simp, ?_, ?_⟩
      · rw [encoded_append _ [','], List.length_append]
        rfl
      · intro others
        rw [List.append_assoc, parts_eq]
        simp [ClauseText.splitFrom, ClauseText.depthAfter, outside]
  · refine ⟨{ cut with depth := ClauseText.depthAfter cut.depth c }, ?_, ?_, ?_⟩
    · rw [Cut.step, if_neg comma]
    · rw [ClauseText.depthOf_append, ← depth_eq]
      rfl
    · refine ⟨before, part ++ [c], by simp, start_eq, ?_⟩
      intro others
      rw [List.append_assoc, parts_eq, List.singleton_append, ClauseText.splitFrom]
      simp [comma]

/-- However far the cut goes, it counts the brackets of what it has gone through. -/
theorem exists_cut (front back : List Char) :
    ∃ cut, (charIndices 0 front).foldlM (Cut.step (String.ofList (front ++ back))) {} = some cut ∧
      cut.IsBehind front := by
  induction front using List.reverseRecOn generalizing back with
  | nil => exact ⟨{}, rfl, Cut.isBehind_nil⟩
  | append_singleton front c ih =>
    obtain ⟨cut, reached, behind⟩ := ih (c :: back)
    obtain ⟨next, stepped, next_behind⟩ := @Cut.IsBehind.step cut front back c behind
    refine ⟨next, ?_, next_behind⟩
    rw [List.append_assoc, List.singleton_append, charIndices_concat, List.foldlM_append, reached, Nat.zero_add]
    simpa using stepped

theorem filter_trimText (parts : List String) :
    (parts.map Text.trimText).filter (fun part => !part.isEmpty) =
      ((parts.map String.toList).map Text.trim).filterMap fun part =>
        if part.isEmpty then none else some (String.ofList part) := by
  induction parts with
  | nil => rfl
  | cons part rest ih =>
    simp only [List.map_cons, List.filter_cons, List.filterMap_cons, ih, Text.trimText]
    by_cases blank : Text.trim part.toList = []
    · simp [blank]
    · simp [blank]

theorem clausesOf?_eq (cs : List Char) :
    clausesOf? (String.ofList cs) = some (ClauseText.clausesOf cs) := by
  obtain ⟨cut, reached, -, before, part, split, start_eq, parts_eq⟩ := exists_cut cs []
  have sliced := slice?_encoded before part []
  rw [List.append_nil] at reached sliced
  rw [← split, ← start_eq, ← utf8ByteSize_ofList] at sliced
  -- With nothing left to cut, the parts are those of the whole text.
  have whole := parts_eq []
  have pieces : (ClauseText.splitFrom 0 cs).1 :: (ClauseText.splitFrom 0 cs).2 =
      (cut.parts ++ [String.ofList part]).map String.toList := by
    simpa [ClauseText.splitFrom] using whole
  rw [clausesOf?, String.toList_ofList, reached, Option.bind_eq_bind, Option.bind_some, sliced,
    Option.bind_eq_bind, Option.bind_some, filter_trimText, ← pieces]
  rfl

/-! ### Bodies -/

/-- The end of a body that reaches up to a verb. -/
theorem bodyEnd?_of_verb (front : List Char) (verb : Verb) (size : Nat) (rest : List Segment) :
    bodyEnd? size (⟨verb, (encoded (front ++ verb.keyword)).length⟩ :: rest) =
      some (encoded front).length := by
  have width : (encoded (front ++ verb.keyword)).length = (encoded front).length + (keyword verb).length := by
    rw [encoded_append, List.length_append, ← keyword_eq_encoded]
  simp [bodyEnd?, width]

/-- The clauses of a verb are gathered once its body is cut out. -/
theorem gather?_cons {text : String} {segment : Segment} {rest : List Segment} {stop : Nat} {body : List Char}
    (ends : bodyEnd? text.utf8ByteSize rest = some stop)
    (sliced : slice? text segment.bodyStart stop = some (String.ofList body)) (clauses : UpdateClauses) :
    gather? text clauses (segment :: rest) =
      gather? text (clauses.append segment.verb (ClauseText.clausesOf body)) rest := by
  rw [gather?, ends, Option.bind_eq_bind, Option.bind_some, sliced, Option.bind_eq_bind, Option.bind_some,
    clausesOf?_eq]
  rfl

/-- Behind a verb, both readings gather the same clauses. -/
theorem gather?_of_finds (finds : Finds text front byBytes byChars) (verb : Verb) (clauses : UpdateClauses) :
    gather? (String.ofList text) clauses (⟨verb, (encoded front).length⟩ :: byBytes) =
      some (ClauseText.gather text clauses (⟨verb, front.length⟩ :: byChars)) := by
  induction finds generalizing verb clauses with
  | @nothing front back split =>
    subst split
    have sliced := slice?_encoded front back []
    have between := ClauseText.slice_append front back []
    rw [List.append_nil, ← utf8ByteSize_ofList (front ++ back)] at sliced
    rw [List.append_nil] at between
    rw [gather?_cons rfl sliced]
    simp only [gather?, ClauseText.gather, between]
  | @verb front between after next byBytes byChars split outside finds ih =>
    have split' : text = front ++ between ++ (next.keyword ++ after) := by rw [split, List.append_assoc]
    have sliced := slice?_encoded front between (next.keyword ++ after)
    have between_eq := ClauseText.slice_append front between (next.keyword ++ after)
    have stop : (⟨next, (front ++ between ++ next.keyword).length⟩ : Segment).start = (front ++ between).length := by
      rw [Segment.start, List.length_append, Nat.add_sub_cancel]
    rw [← split'] at sliced between_eq
    rw [gather?_cons (bodyEnd?_of_verb (front ++ between) next _ byBytes) sliced, ClauseText.gather_cons_cons,
      stop, between_eq]
    exact ih next _

theorem read?_eq (text : String) : read? text = some (UpdateClauses.ofText text) := by
  have both := finds_text text.toList
  rw [read?, utf8_eq_encoded, UpdateClauses.ofText, ClauseText.read]
  generalize segments (encoded text.toList) = byBytes at both ⊢
  generalize ClauseText.segments text.toList = byChars at both ⊢
  cases both with
  | nothing => rfl
  | verb _ _ others =>
    -- What stands in front of the first verb is skipped by both.
    have gathered := gather?_of_finds others
    rw [String.ofList_toList] at gathered
    exact gathered _ _

/--
A part of a text that can be cut out between two offsets, and that counts the brackets in front of each of its
characters as the whole text does.
-/
structure IsBody (text : String) (start stop : Nat) (body : String) : Prop where
  ordered : start ≤ stop
  within : stop ≤ text.utf8ByteSize
  start_valid : String.Pos.Raw.IsValid text ⟨start⟩
  stop_valid : String.Pos.Raw.IsValid text ⟨stop⟩
  sliced : slice? text start stop = some body
  counts : ∀ front back : String, body = front ++ back →
    ∃ cut, (charIndices 0 front.toList).foldlM (Cut.step body) {} = some cut ∧
      cut.depth = depthAt (utf8 text) (start + front.utf8ByteSize)

theorem possible_of_slice? {text part : String} {start stop : Nat} (sliced : slice? text start stop = some part) :
    String.Pos.Raw.IsValid text ⟨start⟩ ∧ String.Pos.Raw.IsValid text ⟨stop⟩ ∧ start ≤ stop := by
  rw [slice?] at sliced
  split at sliced
  next possible => exact possible
  next => cases sliced

/-- A part that starts outside of brackets is a body. -/
theorem isBody_encoded {front : List Char} (outside : ClauseText.depthOf 0 front = 0) (part back : List Char) :
    IsBody (String.ofList (front ++ part ++ back)) (encoded front).length (encoded (front ++ part)).length
      (String.ofList part) := by
  have sliced := slice?_encoded front part back
  obtain ⟨start_valid, stop_valid, ordered⟩ := possible_of_slice? sliced
  refine ⟨ordered, stop_valid.le_utf8ByteSize, start_valid, stop_valid, sliced, ?_⟩
  intro before after split
  obtain rfl : part = before.toList ++ after.toList := by
    rw [← String.toList_append, ← split, String.toList_ofList]
  obtain ⟨cut, reached, behind⟩ := exists_cut before.toList after.toList
  refine ⟨cut, reached, ?_⟩
  have depth := depthAt_encoded (front ++ before.toList) (after.toList ++ back)
  have place : (encoded (front ++ before.toList)).length = (encoded front).length + before.utf8ByteSize := by
    rw [encoded_append, List.length_append, ← utf8ByteSize_ofList before.toList, String.ofList_toList]
  rw [place, ClauseText.depthOf_append, outside] at depth
  rw [behind.depth_eq, utf8_ofList, ← depth]
  simp only [List.append_assoc]

/-- Behind a verb, every part up to the next verb is a body. -/
theorem Finds.bodies (finds : Finds text front byBytes byChars) (outside : ClauseText.depthOf 0 front = 0)
    (verb : Verb) : ∀ segment rest, segment :: rest <:+ ⟨verb, (encoded front).length⟩ :: byBytes →
      ∃ stop body, bodyEnd? (String.ofList text).utf8ByteSize rest = some stop ∧
        IsBody (String.ofList text) segment.bodyStart stop body := by
  induction finds generalizing verb with
  | @nothing front back split =>
    intro segment rest suffix
    have alone : segment :: rest = [⟨verb, (encoded front).length⟩] := by
      rcases List.suffix_cons_iff.mp suffix with same | shorter
      · exact same
      · exact absurd (List.suffix_nil.mp shorter) (List.cons_ne_nil _ _)
    obtain ⟨rfl, rfl⟩ := List.cons.inj alone
    have body := isBody_encoded outside back []
    rw [List.append_nil, ← split] at body
    exact ⟨_, _, by rw [bodyEnd?, utf8ByteSize_ofList], body⟩
  | @verb front between after next byBytes byChars split between_outside finds ih =>
    intro segment rest suffix
    rcases List.suffix_cons_iff.mp suffix with same | further
    · obtain ⟨rfl, rfl⟩ := List.cons.inj same
      have body := isBody_encoded outside between (next.keyword ++ after)
      rw [← List.append_assoc, ← split] at body
      exact ⟨_, _, bodyEnd?_of_verb _ _ _ _, body⟩
    · have still_outside : ClauseText.depthOf 0 (front ++ between ++ next.keyword) = 0 := by
        rw [ClauseText.depthOf_append, between_outside, ClauseText.depthOf_keyword]
      exact ih still_outside next segment rest further

theorem bodies_of_suffix (text : String) {segment : Segment} {rest : List Segment}
    (suffix : segment :: rest <:+ segments (utf8 text)) :
    ∃ stop body, bodyEnd? text.utf8ByteSize rest = some stop ∧ IsBody text segment.bodyStart stop body := by
  have both := finds_text text.toList
  rw [utf8_eq_encoded] at suffix
  generalize segments (encoded text.toList) = byBytes at both suffix
  generalize ClauseText.segments text.toList = byChars at both
  cases both with
  | nothing => exact absurd (List.suffix_nil.mp suffix) (List.cons_ne_nil _ _)
  | @verb _ between _ verb _ _ _ between_outside others =>
    have outside : ClauseText.depthOf 0 ([] ++ between ++ verb.keyword) = 0 := by
      rw [ClauseText.depthOf_append, between_outside, ClauseText.depthOf_keyword]
    have bodies := others.bodies outside verb segment rest suffix
    rwa [String.ofList_toList] at bodies

/-! ### The scan -/

/-- The verbs that are found, with the offsets at which they stand, in the order of the text. -/
theorem exists_places (bytes : Bytes) : ∃ places : List (Verb × Nat),
    (places.Pairwise fun first second => first.2 < second.2) ∧
    (∀ verb position, (verb, position) ∈ places ↔ StandsAt bytes verb position) ∧
    segments bytes = places.map fun place => ⟨place.1, place.2 + (keyword place.1).length⟩ := by
  have placed : ∀ segment ∈ segments bytes, StandsAt bytes segment.verb segment.start ∧
      segment.bodyStart = segment.start + (keyword segment.verb).length := by
    rintro ⟨verb, stop⟩ member
    obtain ⟨position, stands, rfl⟩ := mem_segments_iff.mp member
    rw [start_eq]
    exact ⟨stands, rfl⟩
  refine ⟨(segments bytes).map fun segment => (segment.verb, segment.start), ?_, ?_, ?_⟩
  · rw [List.pairwise_map]
    apply (segmentsAt_pairwise bytes 0).imp_of_mem
    intro first second member _ behind
    have some_letter := length_keyword_pos first.verb
    have stop := (placed first member).2
    show first.start < second.start
    omega
  · intro verb position
    constructor
    · intro member
      obtain ⟨segment, found, same⟩ := List.mem_map.mp member
      obtain ⟨rfl, rfl⟩ := Prod.mk.inj same
      exact (placed segment found).1
    · intro stands
      have found : ⟨verb, position + (keyword verb).length⟩ ∈ segments bytes :=
        mem_segments_iff.mpr ⟨position, stands, rfl⟩
      exact List.mem_map.mpr ⟨_, found, by rw [start_eq]⟩
  · rw [List.map_map]
    refine (List.map_id _).symm.trans (List.map_congr_left fun segment member => ?_)
    rw [Function.comp_apply, ← (placed segment member).2]
    rfl

/--
The scan lists the verbs that stand in a text, in order, each with the offset just behind its word. What stands
behind each of them, up to the next one or to the end of the text, is a body. So nothing is asked for that is
not possible, and reading by bytes gives what reading by characters gives.
-/
theorem segments_exact (text : String) :
    (∃ places : List (Verb × Nat), (places.Pairwise fun first second => first.2 < second.2) ∧
      (∀ verb position, (verb, position) ∈ places ↔ StandsAt (utf8 text) verb position) ∧
      segments (utf8 text) = places.map fun place => ⟨place.1, place.2 + (keyword place.1).length⟩) ∧
    (∀ segment rest, segment :: rest <:+ segments (utf8 text) →
      ∃ stop body, bodyEnd? text.utf8ByteSize rest = some stop ∧ IsBody text segment.bodyStart stop body) ∧
    read? text = some (UpdateClauses.ofText text) :=
  ⟨exists_places (utf8 text), fun _ _ => bodies_of_suffix text, read?_eq text⟩

/-- Verbs side by side, in words, in brackets and behind stray ones, and next to characters beyond ASCII. -/
theorem segments_exact_crowded :
    let text := "é SET ADD-SETADD (REMOVE, ]),]ü[,]𝒫 , REMOVE x DELETE REMOVE y"
    segments (utf8 text) = [⟨.set, 6⟩, ⟨.add, 10⟩, ⟨.delete, 59⟩, ⟨.remove, 66⟩] ∧
    (∃ stop body, bodyEnd? text.utf8ByteSize [⟨.delete, 59⟩, ⟨.remove, 66⟩] = some stop ∧ IsBody text 10 stop body) ∧
    read? text = some { add := some ["-SETADD (REMOVE, ])", "]ü[,]𝒫", "REMOVE x"], remove := some ["y"] } := by
  intro text
  obtain ⟨-, bodies, read⟩ := segments_exact text
  have found : segments (utf8 text) = [⟨.set, 6⟩, ⟨.add, 10⟩, ⟨.delete, 59⟩, ⟨.remove, 66⟩] := by decide +kernel
  refine ⟨found, ?_, ?_⟩
  · apply bodies ⟨.add, 10⟩
    rw [found]
    exact List.suffix_cons _ _
  · rw [read]
    decide +kernel

end ItemMapper.ClauseBytes
