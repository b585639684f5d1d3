import ItemMapper.Proofs.EncryptedFields
import ItemMapper.Proofs.WrittenLeaf

/-!
# Which field fails an item

The values of an item that are no maps are written one by one, each by the type that is declared for it, in the
order of the names that lead to them (`IsVisited`). The first one that cannot be written fails the item, and the
error names its path.

Main result: `writeItem_fails_first`. It goes by `Follows`, which says of a result that it is the one that the
visits of a part of the item call for; parts that come one after another are joined by `Follows.join`.
-/

namespace ItemMapper

/-! ### Paths in errors -/

/-- The path of the field that an error is about. -/
def Error.path? : Error → Option String
  | .write path _ | .cipherBreach path _ | .cipher path _ _ | .read path _ => some path
  | .compile _ _ | .transport _ | .chunk _ _ | .setting _ => none

theorem Gateway.path?_of_run {gateway : Gateway} {operation : CipherOperation} {path keyId text : String}
    {fault : Error} (failed : gateway.run operation path keyId text = .error fault) :
    fault.path? = some path := by
  unfold run at failed
  repeat' split at failed
  all_goals
    cases failed
    try rfl

/-! ### Order of names -/

/-- The names are in increasing order, in an item and in every map that stands in it. -/
inductive Item.IsOrdered : Item → Prop
  | intro {item : Item} : Fields.Ordered item →
      (∀ name fields, (name, Value.map fields) ∈ item → IsOrdered fields) → IsOrdered item

namespace Codec

/-! ### Visits -/

/-- A value that is written by itself, the names that lead to it, and its declared type. -/
structure Visit where
  names : List String
  type : Option WireType
  value : Value

/-- The path to which names lead, one after another, from another path. -/
def placeBelow (parent : String) (names : List String) : String :=
  names.foldl joinPath parent

def Visit.write (gateway : Gateway) (parent : String) (visit : Visit) : Result (Option WireValue) :=
  writeAttribute gateway visit.type (placeBelow parent visit.names) visit.value

/-- The names lead through maps, along nested declarations, to a value that is no map. -/
def IsVisited (types : DatatypeMap) (item : Item) (visit : Visit) : Prop :=
  ReachesValue types item visit.names visit.type visit.value ∧ visit.value.map? = none

/-- All of some visits succeed. -/
def AllWritten (gateway : Gateway) (parent : String) (visits : Visit → Prop) : Prop :=
  ∀ visit, visits visit → ∃ written, visit.write gateway parent = .ok written

/-- Of some visits, in the order of their names, the first one that fails does so with a fault. -/
def FailsFirst (gateway : Gateway) (parent : String) (visits : Visit → Prop) (fault : Error) : Prop :=
  ∃ visit, visits visit ∧ visit.write gateway parent = .error fault ∧
    AllWritten gateway parent fun earlier => visits earlier ∧ earlier.names < visit.names

/-- A result is the one that some visits call for: a success if all succeed, else the fault of the first that fails. -/
inductive Follows {α : Type} (gateway : Gateway) (parent : String) (visits : Visit → Prop) : Result α → Prop
  | ok {made : α} : AllWritten gateway parent visits → Follows gateway parent visits (.ok made)
  | error {fault : Error} : FailsFirst gateway parent visits fault → Follows gateway parent visits (.error fault)

variable {gateway : Gateway} {types : DatatypeMap} {parent : String}

/-- Of two parts of an item the second one is only come to if the first one is written. -/
theorem Follows.join {α β γ : Type} {before after : Visit → Prop} {first : Result α} {second : Result β}
    {join : α → β → γ} (head : Follows gateway parent before first) (rest : Follows gateway parent after second)
    (apart : ∀ early late, before early → after late → early.names < late.names) :
    Follows gateway parent (fun visit => before visit ∨ after visit)
      (first >>= fun made => second >>= fun others => pure (join made others)) := by
  cases head with
  | error failed =>
    obtain ⟨visit, visited, visit_failed, earlier_written⟩ := failed
    refine .error ⟨visit, .inl visited, visit_failed, ?_⟩
    rintro earlier ⟨early | late, less⟩
    · exact earlier_written earlier ⟨early, less⟩
    · exact absurd less (lt_asymm (apart visit earlier visited late))
  | ok all_written =>
    cases rest with
    | error failed =>
      obtain ⟨visit, visited, visit_failed, earlier_written⟩ := failed
      refine .error ⟨visit, .inr visited, visit_failed, ?_⟩
      rintro earlier ⟨early | late, less⟩
      · exact all_written earlier early
      · exact earlier_written earlier ⟨late, less⟩
    | ok others_written =>
      refine .ok ?_
      rintro visit (early | late)
      · exact all_written visit early
      · exact others_written visit late

/-! ### Visits of fields -/

/-- The visits that a field of a name calls for: one of its value, or those of the map that it holds. -/
inductive VisitsField (types : DatatypeMap) (name : String) : Value → Visit → Prop
  | flat {value : Value} : value.map? = none → VisitsField types name value ⟨[name], types.wireType? name, value⟩
  | inside {fields : Item} {names : List String} {type : Option WireType} {value : Value} :
      IsVisited (types.below name) fields ⟨names, type, value⟩ →
      VisitsField types name (.map fields) ⟨name :: names, type, value⟩

/-- An item is visited field by field. -/
theorem isVisited_iff {item : Item} (ordered : Fields.Ordered item) {visit : Visit} :
    IsVisited types item visit ↔ ∃ field ∈ item, VisitsField types field.1 field.2 visit := by
  have found_iff {name : String} {value : Value} :
      Fields.get? item name = some value ↔ (name, value) ∈ item :=
    Fields.get?_eq_some_iff ordered.nodup
  obtain ⟨names, type, value⟩ := visit
  constructor
  · rintro ⟨reaches, flat⟩
    cases reaches with
    | here found => exact ⟨_, found_iff.mp found, .flat flat⟩
    | inside found inner => exact ⟨_, found_iff.mp found, .inside ⟨inner, flat⟩⟩
  · rintro ⟨⟨name, present⟩, member, visits⟩
    cases visits with
    | flat flat => exact ⟨.here (found_iff.mpr member), flat⟩
    | inside inner => exact ⟨.inside (found_iff.mpr member) inner.1, inner.2⟩

theorem VisitsField.names_eq {name : String} {value : Value} {visit : Visit}
    (visits : VisitsField types name value visit) : ∃ inner, visit.names = name :: inner := by
  cases visits <;> exact ⟨_, rfl⟩

theorem follows_flat {name : String} {value : Value} (flat : value.map? = none) :
    Follows gateway parent (VisitsField types name value)
      (writeAttribute gateway (types.wireType? name) (joinPath parent name) value) := by
  have only {visit : Visit} (visits : VisitsField types name value visit) :
      visit = ⟨[name], types.wireType? name, value⟩ := by
    cases visits with
    | flat => rfl
    | inside => cases flat
  cases result : writeAttribute gateway (types.wireType? name) (joinPath parent name) value with
  | ok written =>
    refine .ok fun visit visits => ?_
    rw [only visits]
    exact ⟨written, result⟩
  | error fault =>
    refine .error ⟨_, .flat flat, result, ?_⟩
    rintro earlier ⟨visits, less⟩
    rw [only visits] at less
    exact absurd less (lt_irrefl _)

/-- The visits of a map come to the same as those of its fields one level higher. -/
theorem Follows.map {name : String} {fields : Item} {α β : Type} {result : Result α} (wrap : α → β)
    (inner : Follows gateway (joinPath parent name) (IsVisited (types.below name) fields) result) :
    Follows gateway parent (VisitsField types name (.map fields)) (do return wrap (← result)) := by
  have within {visit : Visit} (visits : VisitsField types name (.map fields) visit) :
      ∃ below, IsVisited (types.below name) fields below ∧
        visit = ⟨name :: below.names, below.type, below.value⟩ := by
    cases visits with
    | flat flat => cases flat
    | inside below => exact ⟨_, below, rfl⟩
  cases inner with
  | ok all_written =>
    refine .ok fun visit visits => ?_
    obtain ⟨below, visited, rfl⟩ := within visits
    exact all_written below visited
  | error failed =>
    obtain ⟨visit, visited, visit_failed, earlier_written⟩ := failed
    refine .error ⟨_, .inside visited, visit_failed, ?_⟩
    rintro earlier ⟨visits, less⟩
    obtain ⟨below, below_visited, rfl⟩ := within visits
    have below_less : below.names < visit.names := by
      simpa [List.cons_lt_cons_iff] using less
    exact earlier_written below ⟨below_visited, below_less⟩

mutual

theorem writeField_follows (nulls : Bool) (types : DatatypeMap) (parent name : String) : (value : Value) →
    (∀ fields, value = .map fields → Item.IsOrdered fields) →
    Follows gateway parent (VisitsField types name value)
      (writeField gateway nulls types name (joinPath parent name) value)
  | .map fields, ordered => by
    have inner := writeFields_follows nulls (types.below name) (joinPath parent name) fields (ordered fields rfl)
    rw [writeField]
    exact inner.map fun written => some (WireValue.map written)
  | .null, _ | .bool _, _ | .number _, _ | .string _, _ | .binary _, _ | .date _, _ | .list _, _ =>
    follows_flat rfl

theorem writeFields_follows (nulls : Bool) (types : DatatypeMap) (parent : String) :
    (fields : List (String × Value)) → Item.IsOrdered fields →
    Follows gateway parent (IsVisited types fields) (writeFields gateway nulls types parent fields)
  | [], _ => .ok fun visit visited => by
    obtain ⟨field, member, -⟩ := (isVisited_iff .nil).mp visited
    cases member
  | (name, value) :: rest, ordered => by
    obtain ⟨names, deeper⟩ := ordered
    obtain ⟨less, rest_names⟩ := List.pairwise_cons.mp names
    have first := writeField_follows nulls types parent name value fun fields same =>
      deeper name fields (same ▸ List.mem_cons_self)
    have others := writeFields_follows nulls types parent rest
      ⟨rest_names, fun name fields member => deeper name fields (List.mem_cons_of_mem _ member)⟩
    have split : IsVisited types ((name, value) :: rest) =
        fun visit => VisitsField types name value visit ∨ IsVisited types rest visit := by
      funext visit
      rw [isVisited_iff names, List.exists_mem_cons_iff, isVisited_iff rest_names]
    rw [split, writeFields]
    refine first.join others fun early late visits late_visited => ?_
    -- The names that lead into the others start with a later name.
    obtain ⟨field, member, late_visits⟩ := (isVisited_iff rest_names).mp late_visited
    obtain ⟨inner, early_names⟩ := visits.names_eq
    obtain ⟨outer, late_names⟩ := late_visits.names_eq
    rw [early_names, late_names]
    exact List.cons_lt_cons_iff.mpr (.inl (less field member))

end

/-! ### The first failure -/

/-- At most one value stands where names lead to. -/
theorem ReachesValue.unique {item : Item} {names : List String} {type other : Option WireType}
    {value found : Value} (reaches : ReachesValue types item names type value)
    (again : ReachesValue types item names other found) : other = type ∧ found = value := by
  induction reaches with
  | here present =>
    cases again with
    | here present_again => exact ⟨rfl, Option.some.inj (present_again.symm.trans present)⟩
    | inside _ inner => exact absurd rfl inner.path_ne_nil
  | inside present inner ih =>
    cases again with
    | here => exact absurd rfl inner.path_ne_nil
    | inside present_again inner_again =>
      obtain rfl := Value.map.inj (Option.some.inj (present_again.symm.trans present))
      exact ih inner_again

theorem FailsFirst.not_allWritten {visits : Visit → Prop} {fault : Error}
    (failed : FailsFirst gateway parent visits fault) : ¬AllWritten gateway parent visits := by
  intro all_written
  obtain ⟨visit, visited, visit_failed, -⟩ := failed
  obtain ⟨written, visit_written⟩ := all_written visit visited
  rw [visit_failed] at visit_written
  cases visit_written

/-- There is only one first failure in an item. -/
theorem FailsFirst.unique {item : Item} {fault other : Error}
    (failed : FailsFirst gateway parent (IsVisited types item) fault)
    (again : FailsFirst gateway parent (IsVisited types item) other) : other = fault := by
  obtain ⟨first, visited, first_fails, before_first⟩ := failed
  obtain ⟨second, second_visited, second_fails, before_second⟩ := again
  have second_not_before : ¬second.names < first.names := by
    intro less
    obtain ⟨made, written⟩ := before_first second ⟨second_visited, less⟩
    rw [second_fails] at written
    cases written
  have first_not_before : ¬first.names < second.names := by
    intro less
    obtain ⟨made, written⟩ := before_second first ⟨visited, less⟩
    rw [first_fails] at written
    cases written
  have same_names : first.names = second.names := by
    rcases lt_trichotomy first.names second.names with less | same | less
    · exact absurd less first_not_before
    · exact same
    · exact absurd less second_not_before
  obtain ⟨names, type, value⟩ := first
  obtain ⟨others, kind, found⟩ := second
  obtain rfl : names = others := same_names
  obtain ⟨rfl, rfl⟩ := visited.1.unique second_visited.1
  exact Except.error.inj (second_fails.symm.trans first_fails)

theorem Follows.ok_iff {α : Type} {visits : Visit → Prop} {result : Result α}
    (follows : Follows gateway parent visits result) :
    (∃ made, result = .ok made) ↔ AllWritten gateway parent visits := by
  cases follows with
  | ok all_written => exact iff_of_true ⟨_, rfl⟩ all_written
  | error failed => exact iff_of_false nofun failed.not_allWritten

theorem Follows.error_iff {α : Type} {item : Item} {result : Result α}
    (follows : Follows gateway parent (IsVisited types item) result) {fault : Error} :
    result = .error fault ↔ FailsFirst gateway parent (IsVisited types item) fault := by
  cases follows with
  | ok all_written => exact iff_of_false nofun fun failed => failed.not_allWritten all_written
  | error failed =>
    constructor
    · rintro ⟨⟩
      exact failed
    · intro again
      rw [failed.unique again]

/-- An error of writing a value names the path that it was written for. -/
theorem path?_of_writeAttribute {type : Option WireType} {path : String} {value : Value} {fault : Error}
    (failed : writeAttribute gateway type path value = .error fault) : fault.path? = some path := by
  unfold writeAttribute at failed
  split at failed
  · cases failed
  · split at failed
    · cases failed
    · split at failed
      · exact Gateway.path?_of_run (map_eq_error_iff.mp failed)
      · cases failed
        rfl
    next declared _ =>
      cases coerced : coerce declared value with
      | ok made => simp [coerced, Except.mapError] at failed
      | error cause =>
        simp only [coerced, Except.mapError, Except.error.injEq] at failed
        exact failed ▸ rfl

/--
An item is written if all its visits succeed; otherwise it fails like the first one of them that fails, in the
order of the names that lead to their values. The error of a visit names the path of its value.
-/
theorem writeItem_fails_first {nulls : Bool} {item : Item} (ordered : item.IsOrdered) :
    ((∃ wire, writeItem gateway types nulls item = .ok wire) ↔ AllWritten gateway "" (IsVisited types item)) ∧
    (∀ fault, writeItem gateway types nulls item = .error fault ↔
      FailsFirst gateway "" (IsVisited types item) fault) ∧
    ∀ (visit : Visit) (fault : Error), visit.write gateway "" = .error fault →
      fault.path? = some (placeBelow "" visit.names) := by
  have follows : Follows gateway "" (IsVisited types item) (writeItem gateway types nulls item) :=
    writeFields_follows nulls types "" item ordered
  refine ⟨follows.ok_iff, fun fault => follows.error_iff, fun visit fault failed => ?_⟩
  exact path?_of_writeAttribute failed

/-- Two fields hold what their type does not admit, and the one that stands in a map comes first. -/
theorem writeItem_fails_first_nested :
    let types : DatatypeMap := [("age", .leaf .binary),
      ("home", .nested [("key", .leaf .binary), ("zip", .leaf .binary)]), ("tel", .leaf .binary)]
    let item : Item := [("age", .string "41"),
      ("home", .map [("key", .binary [1]), ("zip", .number (.integer 7))]), ("tel", .bool true)]
    let fault : Error := .write "home.zip" (.typeMismatch .binary .number)
    item.IsOrdered ∧ writeItem ⟨none⟩ types false item = .error fault ∧
      FailsFirst ⟨none⟩ "" (IsVisited types item) fault := by
  intro types item fault
  have ordered : item.IsOrdered := by
    refine ⟨by unfold Fields.Ordered; decide, fun name fields member => ?_⟩
    obtain ⟨-, rfl⟩ : name = "home" ∧ fields = [("key", .binary [1]), ("zip", .number (.integer 7))] := by
      simpa [item] using member
    exact ⟨by unfold Fields.Ordered; decide, by simp⟩
  have failed : writeItem ⟨none⟩ types false item = .error fault := rfl
  exact ⟨ordered, failed, ((writeItem_fails_first ordered).2.1 fault).mp failed⟩

end Codec

end ItemMapper
