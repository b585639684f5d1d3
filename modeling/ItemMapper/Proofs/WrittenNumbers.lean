import ItemMapper.Proofs.NumberReach
import ItemMapper.Proofs.WrittenLeaf

/-!
# What is written as a set of numbers

A text is admitted to a set of numbers by the wide grammar, and read back by the strict one, in an
arithmetic that does not reach all doubles. So a set of numbers is read back, with one number for each
element, if every text among the elements is a number to the reader (`Number.IsReadable`), and cannot be
read if one of them is not.

Main result: both cases, for every value that is written as a set of numbers (`numberSet_written_read`).
-/

namespace ItemMapper

/-! ### Texts that are read as numbers -/

/-- A text in the strict grammar whose number is within the reader's reach. -/
def Number.IsReadable (cs : List Char) : Prop :=
  ∃ literal : Decimal, literal.Spells cs ∧ literal.isStrict ∧ literal.toNumber.isSome

theorem Number.isReadable_iff {cs : List Char} : IsReadable cs ↔ ∃ n, read? cs = some n := by
  simp only [IsReadable, read?_eq_some_iff, Option.isSome_iff_exists]
  grind

/-- Texts in the strict grammar are read at least up to 10^307. -/
theorem Number.isReadable_of_isModest {cs : List Char} {literal : Decimal} (spelled : literal.Spells cs)
    (strict : literal.isStrict) (modest : literal.IsModest) : IsReadable cs := by
  refine ⟨literal, spelled, strict, ?_⟩
  cases spelled with
  | parts _ whole pointed _ =>
    cases pointed with
    | absent => exact Decimal.toNumber_isSome whole nofun modest
    | present digits => exact Decimal.toNumber_isSome whole digits modest

/-- A literal that is rounded to the greatest double, but lies beyond the reader's reach. -/
example : isFiniteLiteral "1.7976931348623158e308".toList ∧
    Number.read? "1.7976931348623158e308".toList = none := by
  decide +kernel

namespace Codec

theorem readNumber_eq_ok_iff {path text : String} {n : Number} :
    readNumber path text = .ok n ↔ Number.read? (Text.trim text.toList) = some n := by
  unfold readNumber
  split
  next found => simp [found]
  next missing => simp [missing]

theorem readNumber_eq_error_iff {path text : String} {fault : Error} :
    readNumber path text = .error fault ↔
      Number.read? (Text.trim text.toList) = none ∧ fault = .read path (.invalidNumber text) := by
  unfold readNumber
  split
  next found => simp [found]
  next missing => simp [missing, eq_comm]

theorem readNumber_eq_error {path text : String} {fault : Error}
    (failed : readNumber path text = .error fault) :
    fault = .read path (.invalidNumber text) ∧ ¬Number.IsReadable (Text.trim text.toList) := by
  obtain ⟨missing, reason⟩ := readNumber_eq_error_iff.mp failed
  refine ⟨reason, ?_⟩
  rw [Number.isReadable_iff, missing]
  rintro ⟨n, found⟩
  cases found

/-! ### Elements of sets of numbers -/

theorem trim_trimText (text : String) :
    Text.trim (Text.trimText text).toList = Text.trim text.toList := by
  rw [Text.trimText, String.toList_ofList, Text.trim_trim]

/-- Every text among the elements of a value is a number to the reader. -/
def HasReadableTexts (value : Value) : Prop :=
  ∀ text, .string text ∈ elements value → Number.IsReadable (Text.trim text.toList)

/-- Every number among the elements of a value is an integer. -/
def HasIntegers (value : Value) : Prop :=
  ∀ n, .number n ∈ elements value → ∃ k, Number.IsWord k ∧ n = .integer k

variable {value : Value} {texts : List String}

theorem trimText_mem_toSet (made : toSet toSetNumber value = .ok texts) {given : String}
    (present : .string given ∈ elements value) : Text.trimText given ∈ texts := by
  obtain ⟨found, mapped, kept⟩ := bind_eq_ok_iff.mp made
  cases kept
  obtain ⟨text, member, element_made⟩ := exists_of_mapM_ok mapped present
  rcases toSetNumber_eq_ok_iff.mp element_made with ⟨n, same, -⟩ | ⟨other, same, -, rfl⟩
  · cases same
  · cases same
    exact List.mem_eraseDups.mpr member

/-- A failing element is a text that is no number to the reader. -/
theorem exists_unreadable (integers : HasIntegers value) (made : toSet toSetNumber value = .ok texts)
    {place text : String} (member : text ∈ texts) {fault : Error}
    (failed : readNumber place text = .error fault) :
    ∃ given, .string given ∈ elements value ∧ ¬Number.IsReadable (Text.trim given.toList) ∧
      fault = .read place (.invalidNumber (Text.trimText given)) := by
  obtain ⟨element, present, element_made⟩ := (mem_toSet_iff made).mp member
  obtain ⟨reason, unreadable⟩ := readNumber_eq_error failed
  rcases toSetNumber_eq_ok_iff.mp element_made with ⟨n, rfl, rfl⟩ | ⟨given, rfl, -, rfl⟩
  · -- The text of an integer is always read.
    obtain ⟨k, word, rfl⟩ := integers n present
    have read := readNumber_integerText word place
    rw [show (Number.integer k).text = integerText k from rfl, read] at failed
    cases failed
  · rw [trim_trimText] at unreadable
    exact ⟨given, present, unreadable, reason⟩

/--
A set of numbers is read back, with the number that each element denotes, if every text that it was
written from is a number to the reader; else reading it fails with one of the texts that are not.
-/
theorem numberSet_written_read {gateway : Gateway} {path : String} {wire : WireValue}
    (integers : HasIntegers value)
    (written : writeAttribute gateway (some .numberSet) path value = .ok (some wire))
    (decrypting : Bool) (place : String) :
    ∃ texts, wire = .numberSet texts ∧
      (HasReadableTexts value → ∃ ns,
        List.Forall₂ (fun text n => Number.read? (Text.trim text.toList) = some n) texts ns ∧
        readAttribute gateway decrypting (some .numberSet) place wire = .ok (.list (ns.map .number))) ∧
      (¬HasReadableTexts value → ∃ text, .string text ∈ elements value ∧
        ¬Number.IsReadable (Text.trim text.toList) ∧
        readAttribute gateway decrypting (some .numberSet) place wire =
          .error (.read place (.invalidNumber (Text.trimText text)))) := by
  cases isWrittenLeaf_of_writeAttribute written with
  | @numberSet texts made full =>
    refine ⟨texts, rfl, ?_, ?_⟩
    · intro readable
      cases read : texts.mapM (readNumber place) with
      | ok ns =>
        refine ⟨ns, ?_, ?_⟩
        · have each := mapM_eq_ok_iff_forall₂.mp read
          simpa only [readNumber_eq_ok_iff] using each
        · rw [readAttribute, readValue, read]
          rfl
      | error fault =>
        obtain ⟨text, member, failed⟩ := exists_of_mapM_error read
        obtain ⟨given, present, unreadable, -⟩ := exists_unreadable integers made member failed
        exact absurd (readable given present) unreadable
    · intro unreadable
      cases read : texts.mapM (readNumber place) with
      | error fault =>
        obtain ⟨text, member, failed⟩ := exists_of_mapM_error read
        obtain ⟨given, present, given_unreadable, rfl⟩ := exists_unreadable integers made member failed
        refine ⟨given, present, given_unreadable, ?_⟩
        rw [readAttribute, readValue, read]
        rfl
      | ok ns =>
        -- With all elements read, every text would be a number to the reader.
        refine absurd ?_ unreadable
        intro given present
        obtain ⟨n, -, element_read⟩ := exists_of_mapM_ok read (trimText_mem_toSet made present)
        rw [readNumber_eq_ok_iff, trim_trimText] at element_read
        exact Number.isReadable_iff.mpr ⟨n, element_read⟩
  | natural free => cases free

/-- An integer, a text with blanks around it, and a text with a sign that the strict grammar does not have. -/
theorem numberSet_written_read_mixed :
    let value : Value := .list [.number (.integer 7), .string " -2.5e3 ", .string "+5"]
    let wire : WireValue := .numberSet ["7", "-2.5e3", "+5"]
    HasIntegers value ∧ writeAttribute ⟨none⟩ (some .numberSet) "ns" value = .ok (some wire) ∧
      ∃ texts, wire = .numberSet texts ∧
        (HasReadableTexts value → ∃ ns,
          List.Forall₂ (fun text n => Number.read? (Text.trim text.toList) = some n) texts ns ∧
          readAttribute ⟨none⟩ false (some .numberSet) "ns" wire = .ok (.list (ns.map .number))) ∧
        (¬HasReadableTexts value → ∃ text, .string text ∈ elements value ∧
          ¬Number.IsReadable (Text.trim text.toList) ∧
          readAttribute ⟨none⟩ false (some .numberSet) "ns" wire =
            .error (.read "ns" (.invalidNumber (Text.trimText text)))) := by
  intro value wire
  have integers : HasIntegers value := by
    intro n member
    have first : n = .integer 7 := by simpa [value, elements] using member
    exact ⟨7, by decide, first⟩
  have written : writeAttribute ⟨none⟩ (some .numberSet) "ns" value = .ok (some wire) := rfl
  exact ⟨integers, written, numberSet_written_read integers written false "ns"⟩

/-- A plus sign is admitted to a set of numbers, which then cannot be read. -/
theorem numberSet_unread_with_plus :
    writeAttribute ⟨none⟩ (some .numberSet) "ns" (.list [.string "+5"]) = .ok (some (.numberSet ["+5"])) ∧
    readAttribute ⟨none⟩ false (some .numberSet) "ns" (.numberSet ["+5"]) =
      .error (.read "ns" (.invalidNumber "+5")) :=
  ⟨rfl, rfl⟩

end Codec

end ItemMapper
