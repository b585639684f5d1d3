import ItemMapper.Error
import Mathlib

/-! Steps and traversals of operations that may fail. -/

namespace ItemMapper

variable {ε α β γ : Type}

/-- Two steps succeed if the first one does, and the second one on its result. -/
theorem bind_eq_ok_iff {first : Except ε α} {next : α → Except ε β} {result : β} :
    first >>= next = .ok result ↔ ∃ value, first = .ok value ∧ next value = .ok result := by
  cases first with
  | error fault => simp [bind, Except.bind]
  | ok value => simp [bind, Except.bind]

theorem map_eq_ok_iff {first : Except ε α} {f : α → β} {result : β} :
    first.map f = .ok result ↔ ∃ value, first = .ok value ∧ f value = result := by
  cases first with
  | error fault => simp [Except.map]
  | ok value => simp [Except.map]

theorem bind_eq_error_iff {first : Except ε α} {next : α → Except ε β} {fault : ε} :
    first >>= next = .error fault ↔
      first = .error fault ∨ ∃ value, first = .ok value ∧ next value = .error fault := by
  cases first with
  | error other => simp [bind, Except.bind]
  | ok value => simp [bind, Except.bind]

/-- The results of two steps are joined if both succeed. -/
theorem join_eq_ok_iff {first : Except ε α} {second : Except ε β} {join : α → β → γ} {made : γ} :
    (first >>= fun value => second >>= fun other => pure (join value other)) = .ok made ↔
      ∃ value other, first = .ok value ∧ second = .ok other ∧ join value other = made := by
  cases first with
  | error fault => simp [bind, Except.bind]
  | ok value => cases second <;> simp [bind, Except.bind, pure, Except.pure]

/-- If one of two steps fails, it is the first one, or the second one after a success. -/
theorem join_eq_error_iff {first : Except ε α} {second : Except ε β} {join : α → β → γ} {fault : ε} :
    (first >>= fun value => second >>= fun other => pure (join value other)) = .error fault ↔
      first = .error fault ∨ (∃ value, first = .ok value) ∧ second = .error fault := by
  cases first with
  | error other => simp [bind, Except.bind]
  | ok value => cases second <;> simp [bind, Except.bind, pure, Except.pure]

/-- What commutes with joining two results may be done to each of them before, or to the joined one. -/
theorem join_map {α' β' γ' : Type} {first : Except ε α} {second : Except ε β} {f : α → α'} {g : β → β'}
    {h : γ → γ'} {join : α → β → γ} {join' : α' → β' → γ'}
    (commutes : ∀ value other, first = .ok value → second = .ok other →
      join' (f value) (g other) = h (join value other)) :
    (first.map f >>= fun value => second.map g >>= fun other => pure (join' value other)) =
      (first >>= fun value => second >>= fun other => pure (join value other)).map h := by
  cases first with
  | error fault => rfl
  | ok value =>
    cases second with
    | error fault => rfl
    | ok other => exact congrArg Except.ok (commutes value other rfl rfl)

theorem map_eq_error_iff {first : Except ε α} {f : α → β} {fault : ε} :
    first.map f = .error fault ↔ first = .error fault := by
  cases first with
  | error other => simp [Except.map]
  | ok value => simp [Except.map]

theorem mapError_eq_ok_iff {ζ : Type} {first : Except ε α} {wrap : ε → ζ} {result : α} :
    first.mapError wrap = .ok result ↔ first = .ok result := by
  cases first with
  | error fault => simp [Except.mapError]
  | ok value => simp [Except.mapError]

theorem mapError_map {ζ : Type} (first : Except ε α) (f : α → β) (wrap : ε → ζ) :
    (first.map f).mapError wrap = (first.mapError wrap).map f := by
  cases first <;> rfl

theorem mapError_bind {ζ : Type} (first : Except ε α) (next : α → Except ε β) (wrap : ε → ζ) :
    (first >>= next).mapError wrap = first.mapError wrap >>= fun value => (next value).mapError wrap := by
  cases first <;> rfl

/-- A traversal succeeds if every step does, with the results of the steps. -/
theorem mapM_eq_ok_iff_forall₂ {f : α → Except ε β} {xs : List α} {ys : List β} :
    xs.mapM f = .ok ys ↔ List.Forall₂ (fun x y => f x = .ok y) xs ys := by
  induction xs generalizing ys with
  | nil => cases ys <;> simp [pure, Except.pure]
  | cons x rest ih =>
    rw [List.mapM_cons, join_eq_ok_iff]
    constructor
    · rintro ⟨y, others, first, others_mapped, rfl⟩
      exact .cons first (ih.mp others_mapped)
    · intro mapped
      cases mapped with
      | cons first others => exact ⟨_, _, first, ih.mpr others, rfl⟩

theorem mapM_eq_ok {f : α → Except ε β} {g : α → β} {xs : List α}
    (each : ∀ x ∈ xs, f x = .ok (g x)) : xs.mapM f = .ok (xs.map g) := by
  rw [mapM_eq_ok_iff_forall₂, List.forall₂_map_right_iff]
  exact List.forall₂_same.mpr each

/-- A traversal that undoes a mapping item by item undoes it on lists. -/
theorem mapM_eq_ok_iff {f : α → Except ε β} {g : β → α} (each : ∀ x y, f x = .ok y ↔ x = g y)
    {xs : List α} {ys : List β} : xs.mapM f = .ok ys ↔ xs = ys.map g := by
  simp only [mapM_eq_ok_iff_forall₂, each]
  rw [← List.forall₂_map_right_iff, List.forall₂_eq_eq_eq]

theorem length_of_mapM {f : α → Except ε β} {xs : List α} {ys : List β}
    (mapped : xs.mapM f = .ok ys) : ys.length = xs.length :=
  (mapM_eq_ok_iff_forall₂.mp mapped).length_eq.symm

/-- What a traversal gives are the results for the items. -/
theorem mem_of_mapM_iff {f : α → Except ε β} {xs : List α} {ys : List β}
    (mapped : xs.mapM f = .ok ys) {y : β} : y ∈ ys ↔ ∃ x ∈ xs, f x = .ok y := by
  have each := mapM_eq_ok_iff_forall₂.mp mapped
  clear mapped
  induction each with
  | nil => simp
  | cons first _ ih => simp [first, ih, eq_comm]

/-- A traversal that succeeds has a result for each item. -/
theorem exists_of_mapM_ok {f : α → Except ε β} {xs : List α} {ys : List β}
    (mapped : xs.mapM f = .ok ys) {x : α} (member : x ∈ xs) : ∃ y ∈ ys, f x = .ok y := by
  have each := mapM_eq_ok_iff_forall₂.mp mapped
  clear mapped
  induction each with
  | nil => cases member
  | cons first _ ih =>
    rcases List.mem_cons.mp member with rfl | member
    · exact ⟨_, List.mem_cons_self, first⟩
    · obtain ⟨y, y_member, item⟩ := ih member
      exact ⟨y, List.mem_cons_of_mem _ y_member, item⟩

/-- A traversal fails like its first item that fails. -/
theorem mapM_eq_error_iff {f : α → Except ε β} {xs : List α} {fault : ε} :
    xs.mapM f = .error fault ↔ ∃ front x back, xs = front ++ x :: back ∧
      (∀ other ∈ front, ∃ y, f other = .ok y) ∧ f x = .error fault := by
  induction xs with
  | nil => simp [pure, Except.pure]
  | cons x rest ih =>
    rw [List.mapM_cons, join_eq_error_iff]
    constructor
    · rintro (failed | ⟨first, others⟩)
      · exact ⟨[], x, rest, rfl, nofun, failed⟩
      · obtain ⟨front, z, back, rfl, fine, item_failed⟩ := ih.mp others
        exact ⟨x :: front, z, back, rfl, List.forall_mem_cons.mpr ⟨first, fine⟩, item_failed⟩
    · rintro ⟨front, z, back, split, fine, failed⟩
      cases front with
      | nil =>
        obtain ⟨rfl, rfl⟩ := List.cons.inj split
        exact .inl failed
      | cons w front =>
        obtain ⟨rfl, rfl⟩ := List.cons.inj split
        obtain ⟨first, fine⟩ := List.forall_mem_cons.mp fine
        exact .inr ⟨first, ih.mpr ⟨front, z, back, rfl, fine, failed⟩⟩

theorem exists_of_mapM_error {f : α → Except ε β} {xs : List α} {fault : ε}
    (failed : xs.mapM f = .error fault) : ∃ x ∈ xs, f x = .error fault := by
  obtain ⟨front, x, back, rfl, -, item_failed⟩ := mapM_eq_error_iff.mp failed
  exact ⟨x, List.mem_append_right front List.mem_cons_self, item_failed⟩

end ItemMapper
