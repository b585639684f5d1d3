import Mathlib.Data.List.Nodup
import Mathlib.Data.List.Induction

/-!
# Distinct elements

Dropping repetitions from a list leaves its elements in the order in which they first occur, each of them once
(`isDistinctOf_eraseDups`). The induction goes by the end of the list: another element there is kept or not,
and what was kept before stays.
-/

namespace ItemMapper

/-- The elements of a list, each of them once, in the order of their first occurrences. -/
structure IsDistinctOf {α : Type} [BEq α] (found whole : List α) : Prop where
  distinct : found.Nodup
  same : ∀ x, x ∈ found ↔ x ∈ whole
  ordered : found.Pairwise fun x y => whole.idxOf x < whole.idxOf y

variable {α : Type} [BEq α] [LawfulBEq α]

/-- Another element at the end counts only if it is new. -/
theorem eraseDups_concat (xs : List α) (x : α) :
    (xs ++ [x]).eraseDups = xs.eraseDups ++ if x ∈ xs then [] else [x] := by
  rw [List.eraseDups_append]
  by_cases again : x ∈ xs
  · simp [List.removeAll, again]
  · simp [List.removeAll, again, List.eraseDups_cons]

theorem isDistinctOf_eraseDups (xs : List α) : IsDistinctOf xs.eraseDups xs := by
  induction xs using List.reverseRecOn with
  | nil => exact ⟨.nil, by simp, .nil⟩
  | append_singleton xs x ih =>
    have same : ∀ y, y ∈ (xs ++ [x]).eraseDups ↔ y ∈ xs ++ [x] := fun y => List.mem_eraseDups
    -- The place of an element in the front stays what it was.
    have placed : ∀ y ∈ xs, (xs ++ [x]).idxOf y = xs.idxOf y := by
      intro y member
      simp [List.idxOf_append, member]
    have front_ordered : xs.eraseDups.Pairwise fun y z => (xs ++ [x]).idxOf y < (xs ++ [x]).idxOf z := by
      apply ih.ordered.imp_of_mem
      intro y z y_member z_member earlier
      rwa [placed y ((ih.same y).mp y_member), placed z ((ih.same z).mp z_member)]
    -- The last element is dropped, or stands behind all others.
    by_cases again : x ∈ xs
    · refine ⟨?_, same, ?_⟩ <;> rw [eraseDups_concat, if_pos again, List.append_nil]
      · exact ih.distinct
      · exact front_ordered
    · have absent : x ∉ xs.eraseDups := fun member => again ((ih.same x).mp member)
      refine ⟨?_, same, ?_⟩ <;> rw [eraseDups_concat, if_neg again]
      · rw [← List.concat_eq_append]
        exact ih.distinct.concat absent
      · refine List.pairwise_append.mpr ⟨front_ordered, List.pairwise_singleton _ _, ?_⟩
        intro y member z last
        obtain rfl := List.mem_singleton.mp last
        have inside := (ih.same y).mp member
        rw [placed y inside]
        simpa [List.idxOf_append, again] using List.idxOf_lt_length_iff.mpr inside

theorem eraseDups_eq_self {xs : List α} (distinct : xs.Nodup) : xs.eraseDups = xs := by
  induction xs using List.reverseRecOn with
  | nil => rfl
  | append_singleton xs x ih =>
    obtain ⟨front_distinct, -, apart⟩ := List.nodup_append.mp distinct
    have absent : x ∉ xs := fun member => apart x member x List.mem_cons_self rfl
    rw [eraseDups_concat, if_neg absent, ih front_distinct]

end ItemMapper
