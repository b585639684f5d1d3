import ItemMapper.Expression.ClauseBytes
import Mathlib.Data.List.Basic

/-!
# Verbs by their bytes

A verb stands at an offset if its word starts and ends there as a whole word, outside of brackets (`StandsAt`).
The scan finds these verbs and no others (`mem_segments_iff`), in the order of the text (`segmentsAt_pairwise`):
the bytes that it jumps over belong to a word, so that no verb can start behind one of them.
-/

namespace ItemMapper.ClauseBytes

open ClauseText (Segment)

/-! ### Where verbs stand -/

/-- The number of open brackets in front of an offset. -/
def depthAt (bytes : Bytes) (offset : Nat) : Nat :=
  (bytes.take offset).foldl depthAfter 0

/-- A verb stands at an offset as a whole word, outside of brackets. -/
structure StandsAt (bytes : Bytes) (verb : Verb) (offset : Nat) : Prop where
  outside : depthAt bytes offset = 0
  fresh : offset = 0 ∨ ∃ b ∈ bytes[offset - 1]?, isWordByte b = false
  spelled : keyword verb <+: bytes.drop offset
  ends : ∀ b ∈ bytes[offset + (keyword verb).length]?, isWordByte b = false

/-- The words that can stand in a text. -/
theorem keywords : Verb.all.map keyword = ["SET", "ADD", "REMOVE", "DELETE"].map utf8 := rfl

variable {bytes : Bytes} {verb other : Verb} {offset position : Nat}

theorem isWordByte_of_mem_keyword {b : UInt8} (member : b ∈ keyword verb) : isWordByte b := by
  have each : (keyword verb).all isWordByte := by cases verb <;> rfl
  exact List.all_eq_true.mp each b member

theorem isBracket_of_mem_keyword {b : UInt8} (member : b ∈ keyword verb) : isBracket b = false := by
  have each : (keyword verb).all fun b => !isBracket b := by cases verb <;> rfl
  simpa using List.all_eq_true.mp each b member

theorem depthAfter_of_not_isBracket {b : UInt8} (plain : isBracket b = false) (depth : Nat) :
    depthAfter depth b = depth := by
  simp only [isBracket, Bool.or_eq_false_iff, decide_eq_false_iff_not] at plain
  simp [depthAfter, plain]

theorem foldl_depthAfter_plain {part : Bytes} (plain : ∀ b ∈ part, isBracket b = false) (depth : Nat) :
    part.foldl depthAfter depth = depth := by
  induction part generalizing depth with
  | nil => rfl
  | cons b rest ih =>
    obtain ⟨first, others⟩ := List.forall_mem_cons.mp plain
    rw [List.foldl_cons, depthAfter_of_not_isBracket first]
    exact ih others depth

theorem depthAt_succ (inside : offset < bytes.length) :
    depthAt bytes (offset + 1) = depthAfter (depthAt bytes offset) bytes[offset] := by
  rw [depthAt, List.take_succ_eq_append_getElem inside, List.foldl_append]
  rfl

/-- The bytes of a word that stands at an offset. -/
theorem getElem?_of_spelled (spelled : keyword verb <+: bytes.drop offset) {index : Nat}
    (inside : index < (keyword verb).length) : bytes[offset + index]? = some (keyword verb)[index] := by
  obtain ⟨rest, split⟩ := spelled
  rw [← List.getElem?_drop, ← split, List.getElem?_append_left inside, List.getElem?_eq_getElem inside]

theorem StandsAt.not_isBracket (stands : StandsAt bytes verb offset) :
    ∀ b ∈ bytes[offset]?, isBracket b = false := by
  have first := getElem?_of_spelled stands.spelled (length_keyword_pos verb)
  rw [Nat.add_zero] at first
  intro b found
  obtain rfl := Option.some.inj (first.symm.trans found)
  exact isBracket_of_mem_keyword (List.getElem_mem _)

theorem StandsAt.inside (stands : StandsAt bytes verb offset) :
    offset + (keyword verb).length ≤ bytes.length := by
  have short := stands.spelled.length_le
  have some_letter := length_keyword_pos verb
  rw [List.length_drop] at short
  omega

theorem StandsAt.depthAt_behind (stands : StandsAt bytes verb offset) :
    depthAt bytes (offset + (keyword verb).length) = 0 := by
  have word : (bytes.drop offset).take (keyword verb).length = keyword verb :=
    (List.prefix_iff_eq_take.mp stands.spelled).symm
  have outside := stands.outside
  rw [depthAt] at outside
  rw [depthAt, List.take_add, word, List.foldl_append, outside]
  exact foldl_depthAfter_plain (fun _ => isBracket_of_mem_keyword) 0

/-- No verb stands in the word of another one. -/
theorem StandsAt.behind_of_lt (stands : StandsAt bytes verb offset) (stands_later : StandsAt bytes other position)
    (later : offset < position) : offset + (keyword verb).length ≤ position := by
  by_contra within
  obtain ⟨index, rfl⟩ : ∃ index, position = offset + index + 1 := ⟨position - offset - 1, by omega⟩
  have before : index < (keyword verb).length := by omega
  rcases stands_later.fresh with at_start | ⟨b, found, boundary⟩
  · exact absurd at_start (Nat.succ_ne_zero _)
  · -- The byte in front of the later verb is a letter of the earlier one.
    rw [Nat.add_sub_cancel, getElem?_of_spelled stands.spelled before] at found
    obtain rfl := Option.some.inj found
    have letter := isWordByte_of_mem_keyword (List.getElem_mem before)
    rw [boundary] at letter
    cases letter

theorem mem_all (verb : Verb) : verb ∈ Verb.all := by
  cases verb <;> decide

/-- Verbs start with different letters. -/
theorem eq_of_spelled (spelled : keyword verb <+: bytes.drop offset)
    (spelled_other : keyword other <+: bytes.drop offset) : verb = other := by
  have letters : ∀ verb ∈ Verb.all, ∀ other ∈ Verb.all, (keyword verb).head? = (keyword other).head? →
      verb = other := by decide
  apply letters verb (mem_all verb) other (mem_all other)
  have first := getElem?_of_spelled spelled (length_keyword_pos verb)
  have first_other := getElem?_of_spelled spelled_other (length_keyword_pos other)
  rw [List.head?_eq_getElem?, List.head?_eq_getElem?, List.getElem?_eq_getElem (length_keyword_pos verb),
    List.getElem?_eq_getElem (length_keyword_pos other), ← first, ← first_other]

theorem keywordAt_iff : keywordAt bytes offset verb ↔ keyword verb <+: bytes.drop offset ∧
    ∀ b ∈ bytes[offset + (keyword verb).length]?, isWordByte b = false := by
  rw [keywordAt, Bool.and_eq_true, List.isPrefixOf_iff_prefix]
  cases bytes[offset + (keyword verb).length]? <;> simp

theorem find?_of_standsAt (stands : StandsAt bytes verb offset) :
    Verb.all.find? (keywordAt bytes offset) = some verb := by
  have here : keywordAt bytes offset verb := keywordAt_iff.mpr ⟨stands.spelled, stands.ends⟩
  cases found : Verb.all.find? (keywordAt bytes offset) with
  | none => exact absurd here (List.find?_eq_none.mp found verb (mem_all verb))
  | some first =>
    have also := (keywordAt_iff.mp (List.find?_some found)).1
    rw [eq_of_spelled also stands.spelled]

/-! ### The scan -/

/-- What the scan finds from an offset on. -/
def segmentsAt (bytes : Bytes) (offset : Nat) : List Segment :=
  segmentsFrom bytes offset (depthAt bytes offset)

/-- The check of the byte in front, which is there. -/
theorem fresh_iff_checked (inside : offset < bytes.length) :
    (offset = 0 ∨ ∃ b ∈ bytes[offset - 1]?, isWordByte b = false) ↔
      (offset = 0 ∨ isWordByte (bytes.get ⟨offset - 1, pred_lt_length inside⟩) = false) := by
  rw [List.getElem?_eq_getElem (pred_lt_length inside)]
  simp

/-- At each byte a verb is found, behind which the scan goes on, or else it goes on at the next byte. -/
theorem segmentsAt_cases (inside : offset < bytes.length) :
    (∃ verb, StandsAt bytes verb offset ∧ segmentsAt bytes offset =
      ⟨verb, offset + (keyword verb).length⟩ :: segmentsAt bytes (offset + (keyword verb).length)) ∨
    ((∀ verb, ¬ StandsAt bytes verb offset) ∧ segmentsAt bytes offset = segmentsAt bytes (offset + 1)) := by
  have next := depthAt_succ inside
  rw [segmentsAt, segmentsFrom, dif_pos inside]
  by_cases bracket : isBracket bytes[offset]
  · -- Verbs start with a letter.
    right
    refine ⟨?_, ?_⟩
    · intro verb stands
      rw [stands.not_isBracket _ (List.getElem?_eq_getElem inside)] at bracket
      cases bracket
    · rw [if_pos bracket, segmentsAt, next]
  · have plain : isBracket bytes[offset] = false := by simpa using bracket
    rw [depthAfter_of_not_isBracket plain] at next
    have checked := fresh_iff_checked inside
    rw [if_neg bracket]
    by_cases start : depthAt bytes offset = 0 ∧
        (offset = 0 ∨ isWordByte (bytes.get ⟨offset - 1, pred_lt_length inside⟩) = false)
    · obtain ⟨outside, boundary⟩ := start
      rw [if_pos ⟨outside, boundary⟩]
      cases found : Verb.all.find? (keywordAt bytes offset) with
      | none =>
        right
        refine ⟨?_, ?_⟩
        · intro verb stands
          rw [find?_of_standsAt stands] at found
          cases found
        · rw [segmentsAt, next]
      | some verb =>
        left
        obtain ⟨spelled, ends⟩ := keywordAt_iff.mp (List.find?_some found)
        have stands : StandsAt bytes verb offset := ⟨outside, checked.mpr boundary, spelled, ends⟩
        refine ⟨verb, stands, ?_⟩
        -- The scan keeps its depth behind the word, and the word leaves it as it is.
        rw [segmentsAt, stands.depthAt_behind, outside]
    · right
      refine ⟨?_, ?_⟩
      · intro verb stands
        exact start ⟨stands.outside, checked.mp stands.fresh⟩
      · rw [if_neg start, segmentsAt, next]

theorem segmentsAt_of_standsAt (stands : StandsAt bytes verb offset) : segmentsAt bytes offset =
    ⟨verb, offset + (keyword verb).length⟩ :: segmentsAt bytes (offset + (keyword verb).length) := by
  have inside : offset < bytes.length := by
    have within := stands.inside
    have some_letter := length_keyword_pos verb
    omega
  rcases segmentsAt_cases inside with ⟨first, also, found⟩ | ⟨none_here, -⟩
  · obtain rfl := eq_of_spelled also.spelled stands.spelled
    exact found
  · exact absurd stands (none_here verb)

theorem segmentsAt_of_not_standsAt (inside : offset < bytes.length)
    (none_here : ∀ verb, ¬ StandsAt bytes verb offset) :
    segmentsAt bytes offset = segmentsAt bytes (offset + 1) := by
  rcases segmentsAt_cases inside with ⟨verb, stands, -⟩ | ⟨-, found⟩
  · exact absurd stands (none_here verb)
  · exact found

theorem segmentsAt_of_le (behind : bytes.length ≤ offset) : segmentsAt bytes offset = [] := by
  rw [segmentsAt, segmentsFrom, dif_neg (by omega)]

/-- The verbs that are found from an offset on are those that stand there. -/
theorem mem_segmentsAt_iff {offset stop : Nat} : ⟨verb, stop⟩ ∈ segmentsAt bytes offset ↔
    ∃ position, offset ≤ position ∧ StandsAt bytes verb position ∧ stop = position + (keyword verb).length := by
  by_cases inside : offset < bytes.length
  · rcases segmentsAt_cases inside with ⟨first, stands, found⟩ | ⟨none_here, found⟩
    · have some_letter := length_keyword_pos first
      have others := @mem_segmentsAt_iff (offset + (keyword first).length) stop
      rw [found, List.mem_cons, others]
      constructor
      · rintro (same | ⟨position, later, stands_there, ends⟩)
        · obtain ⟨rfl, rfl⟩ := Segment.mk.inj same
          exact ⟨offset, Nat.le_refl _, stands, rfl⟩
        · exact ⟨position, by omega, stands_there, ends⟩
      · rintro ⟨position, later, stands_there, ends⟩
        rcases Nat.eq_or_lt_of_le later with rfl | behind
        · left
          rw [ends, eq_of_spelled stands_there.spelled stands.spelled]
        · -- A verb further on is not in the word of this one, so it is not jumped over.
          right
          exact ⟨position, stands.behind_of_lt stands_there behind, stands_there, ends⟩
    · have others := @mem_segmentsAt_iff (offset + 1) stop
      rw [found, others]
      constructor
      · rintro ⟨position, later, stands, ends⟩
        exact ⟨position, by omega, stands, ends⟩
      · rintro ⟨position, later, stands, ends⟩
        have different : offset ≠ position := by
          rintro rfl
          exact none_here verb stands
        exact ⟨position, by omega, stands, ends⟩
  · rw [segmentsAt_of_le (by omega)]
    constructor
    · exact nofun
    · rintro ⟨position, later, stands, -⟩
      have within := stands.inside
      have some_letter := length_keyword_pos verb
      omega
termination_by bytes.length - offset

theorem start_eq (verb : Verb) (position : Nat) :
    (⟨verb, position + (keyword verb).length⟩ : Segment).start = position := by
  rw [Segment.start, length_keyword, Nat.add_sub_cancel]

/-- Each verb is found behind the one before it. -/
theorem segmentsAt_pairwise (bytes : Bytes) (offset : Nat) :
    (segmentsAt bytes offset).Pairwise fun first second => first.bodyStart ≤ second.start := by
  by_cases inside : offset < bytes.length
  · rcases segmentsAt_cases inside with ⟨verb, -, found⟩ | ⟨-, found⟩
    · have some_letter := length_keyword_pos verb
      rw [found]
      refine List.pairwise_cons.mpr ⟨?_, segmentsAt_pairwise bytes _⟩
      rintro ⟨other, stop⟩ member
      obtain ⟨position, later, -, rfl⟩ := mem_segmentsAt_iff.mp member
      rw [start_eq]
      exact later
    · rw [found]
      exact segmentsAt_pairwise bytes _
  · rw [segmentsAt_of_le (by omega)]
    exact .nil
termination_by bytes.length - offset

theorem segments_eq (bytes : Bytes) : segments bytes = segmentsAt bytes 0 := rfl

theorem mem_segments_iff {stop : Nat} : ⟨verb, stop⟩ ∈ segments bytes ↔
    ∃ position, StandsAt bytes verb position ∧ stop = position + (keyword verb).length := by
  rw [segments_eq, mem_segmentsAt_iff]
  simp

end ItemMapper.ClauseBytes
