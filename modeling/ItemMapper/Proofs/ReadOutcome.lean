import ItemMapper.Codec.Leaves
import ItemMapper.Proofs.FirstFailure
import ItemMapper.Proofs.WrittenNumbers

/-!
# What reading an item comes to

A wire item is read as a whole or not at all. It is read if none of the values that stand in it, at any depth
(`StandsIn`), is one that cannot be read by itself (`FailsToRead`); otherwise the error is that of one of those,
and names its path. What is read has the shape of the wire item (`Reads`): maps have the same names, and lists
and sets become lists with an item for each of theirs, in their order.

Main result: `readItem?_outcome`.
-/

namespace ItemMapper

/-- Whether a value is made of other values, which are read one by one. -/
def WireValue.holdsOthers : WireValue → Bool
  | .map _ | .list _ => true
  | _ => false

namespace Codec

variable {gateway : Gateway} {decrypting : Bool} {type : Option WireType} {below : DatatypeMap}
  {path : String} {fault : Error}

/-! ### Values that cannot be read -/

/--
A value stands in another one, with the path and the declared type of its place. In a list nothing is declared.
-/
inductive StandsIn : Option WireType → DatatypeMap → String → WireValue → Leaf WireValue → Prop
  | here {type : Option WireType} {below : DatatypeMap} {path : String} {wire : WireValue} :
      StandsIn type below path wire ⟨path, type, wire⟩
  | field {type : Option WireType} {below : DatatypeMap} {path name : String} {wire : WireValue}
      {fields : WireItem} {leaf : Leaf WireValue} : (name, wire) ∈ fields →
      StandsIn (below.wireType? name) (below.below name) (joinPath path name) wire leaf →
      StandsIn type below path (.map fields) leaf
  | item {type : Option WireType} {below : DatatypeMap} {path : String} {index : Nat} {wire : WireValue}
      {items : List WireValue} {leaf : Leaf WireValue} : items[index]? = some wire →
      StandsIn none [] (itemPath path index) wire leaf → StandsIn type below path (.list items) leaf

/-- Why a value cannot be read by itself: a text or a number for what its declared type makes of it. -/
inductive FailsToRead (gateway : Gateway) (decrypting : Bool) : Leaf WireValue → Error → Prop
  | dateText {path text : String} : Instant.ofText? text = none →
      FailsToRead gateway decrypting ⟨path, some .date, .string text⟩ (.read path (.invalidDate text))
  | hidden {path keyId text : String} {fault : Error} : decrypting = true →
      gateway.decrypt path keyId text = .error fault →
      FailsToRead gateway decrypting ⟨path, some (.encrypted keyId), .string text⟩ fault
  | number {path text : String} {type : Option WireType} : Number.read? (Text.trim text.toList) = none →
      FailsToRead gateway decrypting ⟨path, type, .number text⟩ (.read path (.invalidNumber text))
  | dateNumber {path text : String} {n : Number} : Number.read? (Text.trim text.toList) = some n →
      Instant.ofNumber? n = none →
      FailsToRead gateway decrypting ⟨path, some .date, .number text⟩ (.read path (.invalidDate text))
  /-- The first element of a set that is no number. -/
  | element {path text : String} {type : Option WireType} {front back : List String} :
      (∀ other ∈ front, ∃ n, Number.read? (Text.trim other.toList) = some n) →
      Number.read? (Text.trim text.toList) = none →
      FailsToRead gateway decrypting ⟨path, type, .numberSet (front ++ text :: back)⟩
        (.read path (.invalidNumber text))

theorem FailsToRead.path?_eq {leaf : Leaf WireValue} (fails : FailsToRead gateway decrypting leaf fault) :
    fault.path? = some leaf.path := by
  cases fails with
  | hidden _ failed => exact Gateway.path?_of_run failed
  | _ => rfl

theorem readTextAs_eq_error_iff {text : String} :
    readTextAs gateway decrypting type path text = .error fault ↔
      FailsToRead gateway decrypting ⟨path, type, .string text⟩ fault := by
  constructor
  · intro failed
    unfold readTextAs at failed
    split at failed
    · split at failed
      · cases failed
      next unreadable =>
        cases failed
        exact .dateText unreadable
    · split at failed
      next asked => exact .hidden asked (map_eq_error_iff.mp failed)
      next => cases failed
    · cases failed
  · intro fails
    cases fails with
    | dateText unreadable => simp [readTextAs, unreadable]
    | hidden asked failed => simp [readTextAs, asked, map_eq_error_iff, failed]

theorem readNumberAs_eq_error_iff {text : String} :
    readNumberAs type path text = .error fault ↔
      FailsToRead gateway decrypting ⟨path, type, .number text⟩ fault := by
  unfold readNumberAs
  rw [bind_eq_error_iff]
  constructor
  · rintro (unread | ⟨n, read, failed⟩)
    · obtain ⟨missing, rfl⟩ := readNumber_eq_error_iff.mp unread
      exact .number missing
    · split at failed
      · split at failed
        · cases failed
        next beyond =>
          cases failed
          exact .dateNumber (readNumber_eq_ok_iff.mp read) beyond
      · cases failed
  · intro fails
    cases fails with
    | number missing => exact .inl (readNumber_eq_error_iff.mpr ⟨missing, rfl⟩)
    | @dateNumber _ _ n read beyond =>
      refine .inr ⟨n, readNumber_eq_ok_iff.mpr read, ?_⟩
      simp only [beyond]
      rfl

theorem readNumbers_eq_error_iff {texts : List String} :
    texts.mapM (readNumber path) = .error fault ↔
      FailsToRead gateway decrypting ⟨path, type, .numberSet texts⟩ fault := by
  rw [mapM_eq_error_iff]
  constructor
  · rintro ⟨front, text, back, rfl, numbers, failed⟩
    obtain ⟨missing, rfl⟩ := readNumber_eq_error_iff.mp failed
    refine .element (fun other member => ?_) missing
    obtain ⟨n, read⟩ := numbers other member
    exact ⟨n, readNumber_eq_ok_iff.mp read⟩
  · intro fails
    cases fails with
    | @element _ text _ front back numbers missing =>
      refine ⟨front, text, back, rfl, fun other member => ?_, readNumber_eq_error_iff.mpr ⟨missing, rfl⟩⟩
      obtain ⟨n, read⟩ := numbers other member
      exact ⟨n, readNumber_eq_ok_iff.mpr read⟩

/-- A value that holds no others fails to be read for the reasons above only. -/
theorem readValue_eq_error_iff {wire : WireValue} (single : wire.holdsOthers = false) :
    readValue gateway decrypting type below path wire = .error fault ↔
      FailsToRead gateway decrypting ⟨path, type, wire⟩ fault := by
  cases wire with
  | map | list => cases single
  | string text => exact readTextAs_eq_error_iff
  | number text => exact readNumberAs_eq_error_iff
  | numberSet texts =>
    rw [readValue, bind_eq_error_iff, ← readNumbers_eq_error_iff]
    constructor
    · rintro (failed | ⟨ns, -, ended⟩)
      · exact failed
      · cases ended
    · exact .inl
  | _ => exact iff_of_false nofun nofun

/-! ### Where reading fails -/

mutual

/-- If a value cannot be read, the error is that of one of the values that stand in it. -/
theorem exists_of_readValue_error {type : Option WireType} {below : DatatypeMap} {path : String} :
    (wire : WireValue) → readValue gateway decrypting type below path wire = .error fault →
      ∃ leaf, StandsIn type below path wire leaf ∧ FailsToRead gateway decrypting leaf fault
  | .map fields, failed => by
    rw [readValue, map_eq_error_iff] at failed
    obtain ⟨name, wire, leaf, member, stands, fails⟩ := exists_of_readFields_error fields failed
    exact ⟨leaf, .field member stands, fails⟩
  | .list items, failed => by
    rw [readValue, map_eq_error_iff] at failed
    obtain ⟨index, wire, leaf, found, stands, fails⟩ := exists_of_readItems_error 0 items failed
    rw [Nat.zero_add] at stands
    exact ⟨leaf, .item found stands, fails⟩
  | .string _, failed | .number _, failed | .binary _, failed | .bool _, failed | .null _, failed
  | .stringSet _, failed | .numberSet _, failed | .binarySet _, failed =>
    ⟨_, .here, (readValue_eq_error_iff rfl).mp failed⟩

theorem exists_of_readItems_error {path : String} (start : Nat) : (items : List WireValue) →
    readItems gateway decrypting path start items = .error fault →
      ∃ index wire leaf, items[index]? = some wire ∧
        StandsIn none [] (itemPath path (start + index)) wire leaf ∧ FailsToRead gateway decrypting leaf fault
  | [], failed => by cases failed
  | item :: rest, failed => by
    rw [readItems] at failed
    rcases join_eq_error_iff.mp failed with unread | ⟨-, unread⟩
    · obtain ⟨leaf, stands, fails⟩ := exists_of_readValue_error item unread
      exact ⟨0, item, leaf, rfl, stands, fails⟩
    · obtain ⟨index, wire, leaf, found, stands, fails⟩ := exists_of_readItems_error (start + 1) rest unread
      rw [Nat.add_assoc, Nat.add_comm 1] at stands
      exact ⟨index + 1, wire, leaf, found, stands, fails⟩

theorem exists_of_readFields_error {types : DatatypeMap} {parent : String} :
    (fields : List (String × WireValue)) → readFields gateway decrypting types parent fields = .error fault →
      ∃ name wire leaf, (name, wire) ∈ fields ∧
        StandsIn (types.wireType? name) (types.below name) (joinPath parent name) wire leaf ∧
        FailsToRead gateway decrypting leaf fault
  | [], failed => by cases failed
  | (name, wire) :: rest, failed => by
    rw [readFields] at failed
    rcases join_eq_error_iff.mp failed with unread | ⟨-, unread⟩
    · obtain ⟨leaf, stands, fails⟩ := exists_of_readValue_error wire unread
      exact ⟨name, wire, leaf, List.mem_cons_self, stands, fails⟩
    · obtain ⟨other, wire, leaf, member, stands, fails⟩ := exists_of_readFields_error rest unread
      exact ⟨other, wire, leaf, List.mem_cons_of_mem _ member, stands, fails⟩

end

/-! ### Shapes of what is read -/

theorem readValue_of_mem {types : DatatypeMap} {parent name : String} {wire : WireValue} {fields : WireItem}
    {item : Item} (read : readFields gateway decrypting types parent fields = .ok item)
    (member : (name, wire) ∈ fields) :
    ∃ value, readValue gateway decrypting (types.wireType? name) (types.below name) (joinPath parent name) wire =
      .ok value := by
  induction fields generalizing item with
  | nil => cases member
  | cons field rest ih =>
    rw [readFields] at read
    obtain ⟨value, others, first_read, rest_read, -⟩ := join_eq_ok_iff.mp read
    rcases List.mem_cons.mp member with same | member
    · cases same
      exact ⟨value, first_read⟩
    · exact ih rest_read member

theorem readValue_of_getElem? {start index : Nat} {wire : WireValue} {items : List WireValue}
    {values : List Value} (read : readItems gateway decrypting path start items = .ok values)
    (found : items[index]? = some wire) :
    ∃ value, readValue gateway decrypting none [] (itemPath path (start + index)) wire = .ok value := by
  induction items generalizing start index values with
  | nil => cases found
  | cons item rest ih =>
    rw [readItems] at read
    obtain ⟨value, others, first_read, rest_read, -⟩ := join_eq_ok_iff.mp read
    cases index with
    | zero =>
      cases found
      exact ⟨value, first_read⟩
    | succ index =>
      obtain ⟨found_value, found_read⟩ := ih rest_read found
      rw [Nat.add_assoc, Nat.add_comm 1] at found_read
      exact ⟨found_value, found_read⟩

/-- Nothing that stands in a value that is read fails by itself. -/
theorem not_failsToRead {type : Option WireType} {below : DatatypeMap} {path : String} {wire : WireValue}
    {leaf : Leaf WireValue} (stands : StandsIn type below path wire leaf) {value : Value}
    (read : readValue gateway decrypting type below path wire = .ok value) (fault : Error) :
    ¬FailsToRead gateway decrypting leaf fault := by
  induction stands generalizing value with
  | @here type below path wire =>
    intro fails
    have single : wire.holdsOthers = false := by
      cases fails <;> rfl
    rw [(readValue_eq_error_iff single).mpr fails] at read
    cases read
  | field member _ ih =>
    rw [readValue, map_eq_ok_iff] at read
    obtain ⟨item, fields_read, -⟩ := read
    obtain ⟨_, field_read⟩ := readValue_of_mem fields_read member
    exact ih field_read
  | item found _ ih =>
    rw [readValue, map_eq_ok_iff] at read
    obtain ⟨values, items_read, -⟩ := read
    obtain ⟨_, item_read⟩ := readValue_of_getElem? items_read found
    rw [Nat.zero_add] at item_read
    exact ih item_read

mutual

/--
What a value is read as: a map as a map under the same names, a list or a set as a list with an item for each of
its own, in their order, and any other value as what it is read as by itself.
-/
inductive Reads (gateway : Gateway) (decrypting : Bool) :
    Option WireType → DatatypeMap → String → WireValue → Value → Prop
  | map {type : Option WireType} {below : DatatypeMap} {path : String} {fields : WireItem} {item : Item} :
      ReadsFields gateway decrypting below path fields item →
      Reads gateway decrypting type below path (.map fields) (.map item)
  | list {type : Option WireType} {below : DatatypeMap} {path : String} {items : List WireValue}
      {values : List Value} : ReadsItems gateway decrypting path 0 items values →
      Reads gateway decrypting type below path (.list items) (.list values)
  | stringSet {type : Option WireType} {below : DatatypeMap} {path : String} {texts : List String} :
      Reads gateway decrypting type below path (.stringSet texts) (.list (texts.map .string))
  | numberSet {type : Option WireType} {below : DatatypeMap} {path : String} {texts : List String}
      {ns : List Number} : List.Forall₂ (fun text n => Number.read? (Text.trim text.toList) = some n) texts ns →
      Reads gateway decrypting type below path (.numberSet texts) (.list (ns.map .number))
  | binarySet {type : Option WireType} {below : DatatypeMap} {path : String} {blobs : List Bytes} :
      Reads gateway decrypting type below path (.binarySet blobs) (.list (blobs.map .binary))
  | scalar {type : Option WireType} {below : DatatypeMap} {path : String} {wire : WireValue} {value : Value} :
      wire.holdsOthers = false → wire.isSet = false →
      readAttribute gateway decrypting type path wire = .ok value → Reads gateway decrypting type below path wire value

inductive ReadsItems (gateway : Gateway) (decrypting : Bool) :
    String → Nat → List WireValue → List Value → Prop
  | nil {path : String} {start : Nat} : ReadsItems gateway decrypting path start [] []
  | cons {path : String} {start : Nat} {wire : WireValue} {value : Value} {rest : List WireValue}
      {others : List Value} : Reads gateway decrypting none [] (itemPath path start) wire value →
      ReadsItems gateway decrypting path (start + 1) rest others →
      ReadsItems gateway decrypting path start (wire :: rest) (value :: others)

inductive ReadsFields (gateway : Gateway) (decrypting : Bool) :
    DatatypeMap → String → WireItem → Item → Prop
  | nil {types : DatatypeMap} {parent : String} : ReadsFields gateway decrypting types parent [] []
  | cons {types : DatatypeMap} {parent name : String} {wire : WireValue} {value : Value} {rest : WireItem}
      {others : Item} :
      Reads gateway decrypting (types.wireType? name) (types.below name) (joinPath parent name) wire value →
      ReadsFields gateway decrypting types parent rest others →
      ReadsFields gateway decrypting types parent ((name, wire) :: rest) ((name, value) :: others)

end

mutual

theorem reads_of_readValue {type : Option WireType} {below : DatatypeMap} {path : String} {value : Value} :
    (wire : WireValue) → readValue gateway decrypting type below path wire = .ok value →
      Reads gateway decrypting type below path wire value
  | .map fields, read => by
    rw [readValue, map_eq_ok_iff] at read
    obtain ⟨item, fields_read, rfl⟩ := read
    exact .map (readsFields_of_readFields fields fields_read)
  | .list items, read => by
    rw [readValue, map_eq_ok_iff] at read
    obtain ⟨values, items_read, rfl⟩ := read
    exact .list (readsItems_of_readItems items items_read)
  | .stringSet texts, read => by
    cases read
    exact .stringSet
  | .numberSet texts, read => by
    rw [readValue] at read
    obtain ⟨ns, numbers, made⟩ := bind_eq_ok_iff.mp read
    cases made
    simp only [mapM_eq_ok_iff_forall₂, readNumber_eq_ok_iff] at numbers
    exact .numberSet numbers
  | .binarySet blobs, read => by
    cases read
    exact .binarySet
  | .string _, read | .number _, read | .binary _, read | .bool _, read | .null _, read => .scalar rfl rfl read

theorem readsItems_of_readItems {path : String} {start : Nat} {values : List Value} : (items : List WireValue) →
    readItems gateway decrypting path start items = .ok values →
      ReadsItems gateway decrypting path start items values
  | [], read => by
    cases read
    exact .nil
  | item :: rest, read => by
    rw [readItems] at read
    obtain ⟨value, others, first_read, rest_read, rfl⟩ := join_eq_ok_iff.mp read
    exact .cons (reads_of_readValue item first_read) (readsItems_of_readItems rest rest_read)

theorem readsFields_of_readFields {types : DatatypeMap} {parent : String} {item : Item} :
    (fields : List (String × WireValue)) → readFields gateway decrypting types parent fields = .ok item →
      ReadsFields gateway decrypting types parent fields item
  | [], read => by
    cases read
    exact .nil
  | (name, wire) :: rest, read => by
    rw [readFields] at read
    obtain ⟨value, others, first_read, rest_read, rfl⟩ := join_eq_ok_iff.mp read
    exact .cons (reads_of_readValue wire first_read) (readsFields_of_readFields rest rest_read)

end

theorem ReadsFields.names_eq {types : DatatypeMap} {parent : String} {fields : WireItem} {item : Item}
    (reads : ReadsFields gateway decrypting types parent fields item) : Fields.names item = Fields.names fields := by
  induction fields generalizing item with
  | nil =>
    cases reads
    rfl
  | cons field rest ih =>
    cases reads with
    | cons _ others => exact congrArg (List.cons _) (ih others)

/--
An item is read if none of the values that stand in it fails by itself; if it is not, the error is that of one of
those that do, and names its path. What is read has the names of the wire item and, at every depth, its shape.
-/
theorem readItem?_outcome {types : DatatypeMap} {wire : WireItem} :
    ((∃ item, readItem? gateway types decrypting (some wire) = .ok (some item)) ↔
      ∀ leaf fault, StandsIn none types "" (.map wire) leaf → ¬FailsToRead gateway decrypting leaf fault) ∧
    (∀ fault, readItem? gateway types decrypting (some wire) = .error fault →
      ∃ leaf, StandsIn none types "" (.map wire) leaf ∧ FailsToRead gateway decrypting leaf fault ∧
        fault.path? = some leaf.path) ∧
    ∀ item, readItem? gateway types decrypting (some wire) = .ok (some item) →
      Fields.names item = Fields.names wire ∧ ReadsFields gateway decrypting types "" wire item := by
  have fails {fault : Error} (failed : readItem gateway types decrypting wire = .error fault) :
      ∃ leaf, StandsIn none types "" (.map wire) leaf ∧ FailsToRead gateway decrypting leaf fault := by
    apply exists_of_readValue_error (.map wire)
    rw [readValue, map_eq_error_iff]
    exact failed
  refine ⟨⟨?_, ?_⟩, ?_, ?_⟩
  · rintro ⟨item, read⟩ leaf fault stands
    obtain ⟨_, item_read, -⟩ := map_eq_ok_iff.mp read
    have map_read : readValue gateway decrypting none types "" (.map wire) = .ok (.map _) :=
      map_eq_ok_iff.mpr ⟨_, item_read, rfl⟩
    exact not_failsToRead stands map_read fault
  · intro none_fails
    cases result : readItem gateway types decrypting wire with
    | ok item => exact ⟨item, map_eq_ok_iff.mpr ⟨item, result, rfl⟩⟩
    | error fault =>
      obtain ⟨leaf, stands, leaf_fails⟩ := fails result
      exact absurd leaf_fails (none_fails leaf fault stands)
  · intro fault failed
    obtain ⟨leaf, stands, leaf_fails⟩ := fails (map_eq_error_iff.mp failed)
    exact ⟨leaf, stands, leaf_fails, leaf_fails.path?_eq⟩
  · intro item read
    obtain ⟨_, item_read, same⟩ := map_eq_ok_iff.mp read
    obtain rfl := Option.some.inj same
    have reads := readsFields_of_readFields wire item_read
    exact ⟨reads.names_eq, reads⟩

/-- A number in a map in a list keeps an item from being read; without it, the item is read in its shape. -/
theorem readItem?_outcome_nested :
    let types : DatatypeMap := [("born", .leaf .date)]
    let wire (number : String) : WireItem :=
      [("born", .number "0"), ("tags", .list [.stringSet ["a"], .map [("n", .number number)]])]
    let fault : Error := .read "tags[1].n" (.invalidNumber "x")
    let item : Item := [("born", .date ⟨0, 0⟩),
      ("tags", .list [.list [.string "a"], .map [("n", .number (.integer 7))]])]
    readItem? ⟨none⟩ types true (some (wire "x")) = .error fault ∧
    (∃ leaf, StandsIn none types "" (.map (wire "x")) leaf ∧ FailsToRead ⟨none⟩ true leaf fault) ∧
    readItem? ⟨none⟩ types true (some (wire "7")) = .ok (some item) ∧
    ReadsFields ⟨none⟩ true types "" (wire "7") item := by
  intro types wire fault item
  have failed : readItem? ⟨none⟩ types true (some (wire "x")) = .error fault := rfl
  have read : readItem? ⟨none⟩ types true (some (wire "7")) = .ok (some item) := rfl
  obtain ⟨leaf, stands, fails, -⟩ := readItem?_outcome.2.1 fault failed
  exact ⟨failed, ⟨leaf, stands, fails⟩, read, (readItem?_outcome.2.2 item read).2⟩

end Codec

end ItemMapper
