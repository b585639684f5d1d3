/-!
# Named fields

Finite maps from names to values, kept as lists in increasing order of the names. Names compare
character by character, which is also the order of their UTF-8 bytes.

Main statements: inserting keeps the order (`ordered_insert`) and changes the value of one name only
(`get?_insert`); a list of pairs in order describes itself (`ofList_of_ordered`).
-/

namespace ItemMapper

/-- Values under names, in increasing order of the names. -/
abbrev Fields (α : Type) := List (String × α)

namespace Fields

variable {α : Type}

/-- The names occur in strictly increasing order. -/
def Ordered (fields : List (String × α)) : Prop :=
  fields.Pairwise fun first second => first.1 < second.1

/-- The value under a name. -/
def get? (fields : List (String × α)) (name : String) : Option α :=
  fields.lookup name

/-- Stores a value under a name, replacing the one that was there. -/
def insert (name : String) (value : α) : List (String × α) → List (String × α)
  | [] => [(name, value)]
  | (other, present) :: rest =>
    if name < other then (name, value) :: (other, present) :: rest
    else if name = other then (name, value) :: rest
    else (other, present) :: insert name value rest

/-- Stores pairs one after another, so the last value given for a name is kept. -/
def insertAll (fields : List (String × α)) (pairs : List (String × α)) : List (String × α) :=
  pairs.foldl (fun built pair => insert pair.1 pair.2 built) fields

/-- The map that a list of pairs describes; the last value given for a name is kept. -/
def ofList (pairs : List (String × α)) : Fields α :=
  insertAll [] pairs

/-- The names, in increasing order. -/
def names (fields : List (String × α)) : List String :=
  fields.map Prod.fst

/-! ### Order -/

theorem mem_insert {name : String} {value : α} {fields : List (String × α)} {pair : String × α}
    (member : pair ∈ insert name value fields) : pair = (name, value) ∨ pair ∈ fields := by
  induction fields with
  | nil => simpa [insert] using member
  | cons first rest ih =>
    unfold insert at member
    split at member
    · simpa using member
    · split at member
      · rcases List.mem_cons.mp member with rfl | member
        · exact .inl rfl
        · exact .inr (List.mem_cons_of_mem _ member)
      · rcases List.mem_cons.mp member with rfl | member
        · exact .inr List.mem_cons_self
        · rcases ih member with found | found
          · exact .inl found
          · exact .inr (List.mem_cons_of_mem _ found)

theorem ordered_insert {fields : List (String × α)} (ordered : Ordered fields) (name : String)
    (value : α) : Ordered (insert name value fields) := by
  induction fields with
  | nil => exact List.pairwise_singleton _ _
  | cons first rest ih =>
    obtain ⟨above, tail⟩ := List.pairwise_cons.mp ordered
    unfold insert
    split
    next less =>
      refine List.pairwise_cons.mpr ⟨fun pair member => ?_, ordered⟩
      rcases List.mem_cons.mp member with rfl | member
      · exact less
      · exact String.lt_trans less (above pair member)
    next notLess =>
      split
      next same => exact List.pairwise_cons.mpr ⟨fun pair member => same ▸ above pair member, tail⟩
      next different =>
        refine List.pairwise_cons.mpr ⟨fun pair member => ?_, ih tail⟩
        rcases mem_insert member with rfl | member
        · grind
        · exact above pair member

theorem ordered_insertAll {fields : List (String × α)} (ordered : Ordered fields)
    (pairs : List (String × α)) : Ordered (insertAll fields pairs) := by
  induction pairs generalizing fields with
  | nil => exact ordered
  | cons pair rest ih => exact ih (ordered_insert ordered pair.1 pair.2)

theorem ordered_ofList (pairs : List (String × α)) : Ordered (ofList pairs) :=
  ordered_insertAll .nil pairs

/-! ### Lookup -/

theorem get?_insert (fields : List (String × α)) (name : String) (value : α) (other : String) :
    get? (insert name value fields) other = if other = name then some value else get? fields other := by
  induction fields with
  | nil => grind [get?, insert]
  | cons first rest ih => grind [get?, insert]

/-! ### Lists in order -/

theorem insert_of_forall_lt {fields : List (String × α)} {name : String} (value : α)
    (below : ∀ pair ∈ fields, pair.1 < name) : insert name value fields = fields ++ [(name, value)] := by
  induction fields with
  | nil => rfl
  | cons first rest ih =>
    have less : first.1 < name := below first List.mem_cons_self
    have notLess : ¬ name < first.1 := String.lt_asymm less
    have different : name ≠ first.1 := fun same => String.lt_irrefl _ (same ▸ less)
    simp [insert, notLess, different, ih fun pair member => below pair (List.mem_cons_of_mem _ member)]

theorem insertAll_of_ordered {fields pairs : List (String × α)} (ordered : Ordered (fields ++ pairs)) :
    insertAll fields pairs = fields ++ pairs := by
  induction pairs generalizing fields with
  | nil => simp [insertAll]
  | cons pair rest ih =>
    have below : ∀ present ∈ fields, present.1 < pair.1 := fun present member =>
      (List.pairwise_append.mp ordered).2.2 present member pair List.mem_cons_self
    have inserted := insert_of_forall_lt pair.2 below
    have appended := @ih (fields ++ [pair]) (by simpa using ordered)
    simpa [insertAll, inserted] using appended

/-- A list of pairs in order describes itself. -/
theorem ofList_of_ordered {pairs : List (String × α)} (ordered : Ordered pairs) : ofList pairs = pairs :=
  @insertAll_of_ordered α [] pairs ordered

end Fields

/-- A name-ordered set, as the list of its members in increasing order. -/
def sortNames (names : List String) : List String :=
  Fields.names (Fields.ofList (names.map fun name => (name, ())))

end ItemMapper
