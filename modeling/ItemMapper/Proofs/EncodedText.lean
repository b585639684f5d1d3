import ItemMapper.Proofs.Base64Text
import ItemMapper.Proofs.ByteSegments
import ItemMapper.Proofs.ReadClauses

/-!
# Characters and their bytes

What the scan by bytes asks of a byte, the scan by characters asks of the character: whether it belongs to a
word, and how many brackets are open after it. A character beyond ASCII has several bytes, all of which belong
to a word, and none of which is a bracket or a letter of a verb. So a verb stands at the offset of a character
exactly if it is found there among the characters (`standsAt_iff`), and nowhere else.

A text can be cut where one part of its characters ends and the next one starts (`slice?_append`).
-/

namespace ItemMapper

/-! ### Bytes of characters -/

theorem utf8_eq_encoded (text : String) : utf8 text = encoded text.toList := by
  rw [← utf8_ofList, String.ofList_toList]

theorem encoded_append (cs ds : List Char) : encoded (cs ++ ds) = encoded cs ++ encoded ds :=
  List.flatMap_append

theorem encoded_singleton (c : Char) : encoded [c] = String.utf8EncodeChar c :=
  List.flatMap_singleton ..

theorem utf8ByteSize_ofList (cs : List Char) : (String.ofList cs).utf8ByteSize = (encoded cs).length := by
  rw [← utf8_ofList, utf8, Array.length_toList]
  rfl

theorem foreign_of_mem_encodeChar {c : Char} (foreign : 128 ≤ c.toNat) {b : UInt8}
    (member : b ∈ String.utf8EncodeChar c) : 128 ≤ b.toNat := by
  have beyond : ¬ c.val.toNat ≤ 0x7f := Nat.not_le.mpr foreign
  simp only [String.utf8EncodeChar, if_neg beyond] at member
  -- There are two, three or four bytes, each of which has its highest bit set.
  split at member
  next =>
    simp only [List.mem_cons, List.not_mem_nil, or_false] at member
    rcases member with rfl | rfl <;> rw [UInt8.toNat_ofNat'] <;> omega
  next =>
    split at member
    next =>
      simp only [List.mem_cons, List.not_mem_nil, or_false] at member
      rcases member with rfl | rfl | rfl <;> rw [UInt8.toNat_ofNat'] <;> omega
    next =>
      simp only [List.mem_cons, List.not_mem_nil, or_false] at member
      rcases member with rfl | rfl | rfl | rfl <;> rw [UInt8.toNat_ofNat'] <;> omega

/-- No character has bytes with which those of another one start. -/
theorem encoded_prefix_iff {cs ds : List Char} : encoded cs <+: encoded ds ↔ cs <+: ds := by
  constructor
  · rintro ⟨rest, split⟩
    apply List.isPrefix_of_utf8Encode_append_eq_utf8Encode rest.toByteArray
    rw [List.utf8Encode, List.utf8Encode, ← List.toByteArray_append]
    exact congrArg List.toByteArray split
  · rintro ⟨rest, rfl⟩
    exact ⟨encoded rest, (encoded_append cs rest).symm⟩

namespace ClauseBytes

/-! ### Cutting -/

theorem isValid_append (front back : String) :
    String.Pos.Raw.IsValid (front ++ back) ⟨front.utf8ByteSize⟩ :=
  String.Pos.Raw.isValid_iff_exists_append.mpr ⟨front, back, rfl, rfl⟩

/-- A text can be cut between its parts. -/
theorem slice?_append (front part back : String) :
    slice? (front ++ part ++ back) front.utf8ByteSize (front ++ part).utf8ByteSize = some part := by
  have start : String.Pos.Raw.IsValid (front ++ part ++ back) ⟨front.utf8ByteSize⟩ := by
    rw [String.append_assoc]
    exact isValid_append front (part ++ back)
  have ordered : front.utf8ByteSize ≤ (front ++ part).utf8ByteSize := by
    rw [String.utf8ByteSize_append]
    exact Nat.le_add_right _ _
  rw [slice?, dif_pos ⟨start, isValid_append (front ++ part) back, ordered⟩, Option.some.injEq]
  apply String.toByteArray_inj.mp
  rw [String.toByteArray_extract, String.offset_pos, String.offset_pos, String.toByteArray_append,
    String.toByteArray_append, ByteArray.append_assoc, String.utf8ByteSize_append]
  have behind := @ByteArray.extract_append_size_add front.toByteArray (part.toByteArray ++ back.toByteArray)
    0 part.utf8ByteSize
  exact behind.trans (ByteArray.extract_append_eq_left rfl)

/-! ### Words and brackets -/

theorem isWordChar_of_foreign {c : Char} (foreign : 128 ≤ c.toNat) : ClauseText.isWordChar c := by
  simp [ClauseText.isWordChar, foreign]

theorem isBracket_of_foreign {b : UInt8} (foreign : 128 ≤ b.toNat) : isBracket b = false := by
  have each : ∀ n < 256, 128 ≤ n → isBracket (UInt8.ofNat n) = false := by decide +kernel
  rw [← UInt8.ofNat_toNat (x := b)]
  exact each b.toNat b.toNat_lt foreign

theorem isWordByte_of_mem_encodeChar {c : Char} {b : UInt8} (member : b ∈ String.utf8EncodeChar c) :
    isWordByte b = ClauseText.isWordChar c := by
  by_cases ascii : c.toNat < 128
  · rw [encodeChar_of_ascii ascii] at member
    obtain rfl := List.mem_singleton.mp member
    have code : (UInt8.ofNat c.toNat).toNat = c.toNat := Base64.toNat_ofNat_of_lt (by omega)
    simp only [isWordByte, code, Char.ofNat_toNat, ClauseText.isWordChar]
  · have foreign : 128 ≤ c.toNat := by omega
    have beyond := foreign_of_mem_encodeChar foreign member
    rw [isWordChar_of_foreign foreign]
    simp [isWordByte, beyond]

theorem foldl_depthAfter_encodeChar (c : Char) (depth : Nat) :
    (String.utf8EncodeChar c).foldl depthAfter depth = ClauseText.depthAfter depth c := by
  by_cases ascii : c.toNat < 128
  · have code : (UInt8.ofNat c.toNat).toNat = c.toNat := Base64.toNat_ofNat_of_lt (by omega)
    rw [encodeChar_of_ascii ascii, List.foldl_cons, List.foldl_nil]
    simp only [depthAfter, code, Char.ofNat_toNat, ClauseText.depthAfter]
  · have foreign : 128 ≤ c.toNat := by omega
    rw [ClauseText.depthAfter_of_isWordChar (isWordChar_of_foreign foreign)]
    exact foldl_depthAfter_plain
      (fun b member => isBracket_of_foreign (foreign_of_mem_encodeChar foreign member)) depth

theorem foldl_depthAfter_encoded (cs : List Char) (depth : Nat) :
    (encoded cs).foldl depthAfter depth = ClauseText.depthOf depth cs := by
  induction cs generalizing depth with
  | nil => rfl
  | cons c rest ih =>
    rw [encoded, List.flatMap_cons, List.foldl_append, foldl_depthAfter_encodeChar]
    exact ih _

theorem depthAt_encoded (front back : List Char) :
    depthAt (encoded (front ++ back)) (encoded front).length = ClauseText.depthOf 0 front := by
  rw [depthAt, encoded_append, List.take_left, foldl_depthAfter_encoded]

/-! ### Where verbs stand -/

variable {front rest : List Char} {verb : Verb}

theorem keyword_eq_encoded (verb : Verb) : keyword verb = encoded verb.keyword :=
  utf8_ofList verb.keyword

theorem fresh_iff : ((encoded front).length = 0 ∨
    ∃ b ∈ (encoded (front ++ rest))[(encoded front).length - 1]?, isWordByte b = false) ↔
      ClauseText.endsInWord false front = false := by
  rcases List.eq_nil_or_concat front with rfl | ⟨before, c, rfl⟩
  · simp [encoded, ClauseText.endsInWord]
  · -- The byte in front is the last one of the last character.
    obtain ⟨first, b, split⟩ : ∃ first b, String.utf8EncodeChar c = first ++ [b] := by
      have filled := @String.utf8EncodeChar_ne_nil c
      exact ⟨_, _, (List.dropLast_concat_getLast filled).symm⟩
    have same := isWordByte_of_mem_encodeChar (c := c) (b := b) (by simp [split])
    have bytes : encoded (before ++ [c]) = encoded before ++ first ++ [b] := by
      rw [encoded_append, encoded_singleton, split, List.append_assoc]
    have in_front : (encoded (before ++ [c] ++ rest))[(encoded (before ++ [c])).length - 1]? = some b := by
      rw [encoded_append, bytes]
      simp
    rw [List.concat_eq_append, in_front, ClauseText.endsInWord_concat, ← same, bytes]
    simp

theorem ends_iff {after : List Char} : (∀ b ∈ (encoded after).head?, isWordByte b = false) ↔
    ∀ c ∈ after.head?, ClauseText.isWordChar c = false := by
  cases after with
  | nil => simp [encoded]
  | cons c after =>
    obtain ⟨b, others, split⟩ := List.exists_cons_of_ne_nil (@String.utf8EncodeChar_ne_nil c)
    have same := isWordByte_of_mem_encodeChar (c := c) (b := b) (by simp [split])
    have first : (encoded (c :: after)).head? = some b := by
      rw [encoded, List.flatMap_cons, split]
      rfl
    simp [first, same]

/-- At the offset of a character, a verb stands among the bytes if it starts among the characters. -/
theorem standsAt_iff : StandsAt (encoded (front ++ rest)) verb (encoded front).length ↔
    ClauseText.depthOf 0 front = 0 ∧ ClauseText.endsInWord false front = false ∧
      ∃ after, rest = verb.keyword ++ after ∧ ∀ c ∈ after.head?, ClauseText.isWordChar c = false := by
  have behind : (encoded (front ++ rest)).drop (encoded front).length = encoded rest := by
    rw [encoded_append, List.drop_left]
  have next : ∀ after, rest = verb.keyword ++ after →
      (encoded (front ++ rest))[(encoded front).length + (keyword verb).length]? = (encoded after).head? := by
    rintro after rfl
    rw [← List.getElem?_drop, behind, encoded_append, ← keyword_eq_encoded, ← List.head?_drop, List.drop_left]
  constructor
  · rintro ⟨outside, fresh, spelled, ends⟩
    rw [depthAt_encoded] at outside
    rw [behind, keyword_eq_encoded] at spelled
    obtain ⟨after, split⟩ := encoded_prefix_iff.mp spelled
    rw [next after split.symm] at ends
    exact ⟨outside, fresh_iff.mp fresh, after, split.symm, ends_iff.mp ends⟩
  · rintro ⟨outside, fresh, after, split, ends⟩
    constructor
    case outside => rw [depthAt_encoded, outside]
    case fresh => exact fresh_iff.mpr fresh
    case spelled =>
      rw [behind, keyword_eq_encoded, encoded_prefix_iff]
      exact ⟨after, split.symm⟩
    case ends =>
      rw [next after split]
      exact ends_iff.mpr ends

end ClauseBytes

end ItemMapper
