import ItemMapper.Text.Blank
import Mathlib.Data.List.Basic
import Mathlib.Data.List.TakeWhile

/-!
# Trimming

A text is trimmed if neither its first nor its last character is blank; trimming gives such a text
(`trim_trim`), and one without blanks is trimmed already.
-/

namespace ItemMapper.Text

theorem not_isBlank_of_isAlphanum {c : Char} (alphanumeric : c.isAlphanum) : isBlank c = false := by
  -- No blank has a code between those of the digits and letters.
  have ranges : (65 ≤ c.toNat ∧ c.toNat ≤ 90) ∨ (97 ≤ c.toNat ∧ c.toNat ≤ 122) ∨
      (48 ≤ c.toNat ∧ c.toNat ≤ 57) := by
    rcases Bool.or_eq_true_iff.mp alphanumeric with letter | digit
    · rcases Bool.or_eq_true_iff.mp letter with upper | lower
      · exact .inl (of_decide_eq_true upper)
      · exact .inr (.inl ((Bool.and_eq_true_iff.mp lower).imp of_decide_eq_true of_decide_eq_true))
    · exact .inr (.inr ((Bool.and_eq_true_iff.mp digit).imp of_decide_eq_true of_decide_eq_true))
  simp only [isBlank, Bool.or_eq_false_iff, Bool.and_eq_false_iff, decide_eq_false_iff_not,
    beq_eq_false_iff_ne]
  omega

theorem ne_of_isBlank {c d : Char} (blank : isBlank c) (solid : isBlank d = false) : c ≠ d := by
  rintro rfl
  rw [solid] at blank
  cases blank

theorem trimStart_eq_self_iff {cs : List Char} :
    trimStart cs = cs ↔ ∀ c ∈ cs.head?, isBlank c = false := by
  cases cs with
  | nil => simp [trimStart]
  | cons c rest =>
    constructor
    · intro kept
      -- A dropped first character would make the text shorter.
      cases blank : isBlank c with
      | false => simpa using blank
      | true =>
        have dropped : trimStart (c :: rest) = rest.dropWhile isBlank := by simp [trimStart, blank]
        have shorter := (List.dropWhile_suffix isBlank (l := rest)).length_le
        rw [← dropped, kept, List.length_cons] at shorter
        omega
    · intro solid
      simp [trimStart, solid c rfl]

theorem trimEnd_eq_self_iff {cs : List Char} :
    trimEnd cs = cs ↔ ∀ c ∈ cs.getLast?, isBlank c = false := by
  have mirrored := @trimStart_eq_self_iff cs.reverse
  rw [List.head?_reverse, trimStart] at mirrored
  rw [← mirrored, trimEnd, List.reverse_eq_iff]

theorem trim_eq_self_iff {cs : List Char} :
    trim cs = cs ↔ trimStart cs = cs ∧ trimEnd cs = cs := by
  constructor
  · intro trimmed
    have start_suffix : trimStart cs <:+ cs := List.dropWhile_suffix isBlank
    have end_length : (trim cs).length ≤ (trimStart cs).length := by
      have shorter : ((trimStart cs).reverse.dropWhile isBlank).length ≤ (trimStart cs).reverse.length :=
        (List.dropWhile_suffix isBlank).length_le
      simpa [trim, trimEnd] using shorter
    rw [trimmed] at end_length
    have same : trimStart cs = cs := start_suffix.eq_of_length_le end_length
    refine ⟨same, ?_⟩
    rwa [trim, same] at trimmed
  · rintro ⟨from_start, from_end⟩
    rw [trim, from_start, from_end]

theorem trim_eq_self {cs : List Char} (solid : ∀ c ∈ cs, isBlank c = false) : trim cs = cs := by
  apply trim_eq_self_iff.mpr
  constructor
  · exact trimStart_eq_self_iff.mpr fun c first => solid c (List.mem_of_mem_head? first)
  · exact trimEnd_eq_self_iff.mpr fun c last => solid c (List.mem_of_mem_getLast? last)

theorem not_isBlank_of_trimStart {cs : List Char} {c : Char} (first : c ∈ (trimStart cs).head?) :
    isBlank c = false := by
  induction cs with
  | nil => cases first
  | cons other rest ih =>
    cases blank : isBlank other with
    | true =>
      have dropped : trimStart (other :: rest) = trimStart rest := by simp [trimStart, blank]
      rw [dropped] at first
      exact ih first
    | false =>
      have kept : trimStart (other :: rest) = other :: rest := by simp [trimStart, blank]
      rw [kept] at first
      cases first
      exact blank

theorem trimEnd_prefix (cs : List Char) : trimEnd cs <+: cs := by
  have behind := List.reverse_prefix.mpr (List.dropWhile_suffix isBlank (l := cs.reverse))
  rwa [List.reverse_reverse] at behind

/-- Trimming drops blanks only. -/
theorem exists_trim (cs : List Char) :
    ∃ front back, cs = front ++ trim cs ++ back ∧ (∀ c ∈ front, isBlank c) ∧ ∀ c ∈ back, isBlank c := by
  refine ⟨cs.takeWhile isBlank, ((trimStart cs).reverse.takeWhile isBlank).reverse, ?_, ?_, ?_⟩
  · have started : cs.takeWhile isBlank ++ trimStart cs = cs := List.takeWhile_append_dropWhile
    have ended := congrArg List.reverse (List.takeWhile_append_dropWhile (p := isBlank) (l := (trimStart cs).reverse))
    rw [List.reverse_append, List.reverse_reverse] at ended
    rw [List.append_assoc, trim, trimEnd, ended, started]
  · intro c member
    exact List.mem_takeWhile_imp member
  · intro c member
    exact List.mem_takeWhile_imp (List.mem_reverse.mp member)

/-- A trimmed text is left as it is. -/
theorem trim_trim (cs : List Char) : trim (trim cs) = trim cs := by
  apply trim_eq_self_iff.mpr
  constructor
  · -- What is dropped behind leaves the first character, or nothing.
    rw [trimStart_eq_self_iff]
    intro c first
    obtain ⟨rest, front⟩ := trimEnd_prefix (trimStart cs)
    have still_first : c ∈ (trimStart cs).head? := by
      have first_eq : (trimEnd (trimStart cs)).head? = some c := first
      rw [← front, List.head?_append, first_eq]
      rfl
    exact not_isBlank_of_trimStart still_first
  · rw [trimEnd_eq_self_iff]
    intro c last
    rw [trim, trimEnd, List.getLast?_reverse] at last
    exact not_isBlank_of_trimStart last

/-- Blanks around a trimmed text are dropped. -/
theorem trim_surrounded {front cs back : List Char} (front_blank : ∀ c ∈ front, isBlank c)
    (back_blank : ∀ c ∈ back, isBlank c) (trimmed : trim cs = cs) : trim (front ++ cs ++ back) = cs := by
  obtain ⟨from_start, from_end⟩ := trim_eq_self_iff.mp trimmed
  have started : trimStart (front ++ cs ++ back) = trimStart (cs ++ back) := by
    rw [List.append_assoc, trimStart, List.dropWhile_append_of_pos front_blank, trimStart]
  have ended : trimEnd (cs ++ back) = cs := by
    have back_reversed : ∀ c ∈ back.reverse, isBlank c := fun c member => back_blank c (List.mem_reverse.mp member)
    rw [trimEnd, List.reverse_append, List.dropWhile_append_of_pos back_reversed]
    exact from_end
  rw [trim, started]
  cases cs with
  | nil =>
    have nothing : trimStart ([] ++ back) = [] := List.dropWhile_eq_nil_iff.mpr back_blank
    rw [nothing]
    rfl
  | cons c rest =>
    have kept : trimStart (c :: rest ++ back) = c :: rest ++ back := by
      rw [trimStart_eq_self_iff] at from_start ⊢
      exact from_start
    rw [kept, ended]

/-- A text is trimmed if it has something solid at both ends. -/
theorem trim_of_ends {front back : List Char} (between : List Char) (front_solid : ∀ c ∈ front, isBlank c = false)
    (back_solid : ∀ c ∈ back, isBlank c = false) (some_front : front ≠ []) (some_back : back ≠ []) :
    trim (front ++ (between ++ back)) = front ++ (between ++ back) := by
  rw [trim_eq_self_iff, trimStart_eq_self_iff, trimEnd_eq_self_iff]
  constructor
  · intro c first
    rw [List.head?_append_of_ne_nil _ some_front] at first
    exact front_solid c (List.mem_of_mem_head? first)
  · intro c last
    rw [← List.append_assoc, List.getLast?_append_of_ne_nil _ some_back] at last
    exact back_solid c (List.mem_of_mem_getLast? last)

end ItemMapper.Text
