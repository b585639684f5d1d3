import ItemMapper.Proofs.ShapedTrees
import ItemMapper.Proofs.WireJson
import ItemMapper.Request.BatchGet

/-!
# Requests and responses read back

Every request shape is read back from its JSON form, and from every tree that differs in the order of members
only. Fields that may be absent are left out, or `null`, or have a default, each shape in its own way; so each
shape says what it is once the members under some names have been read (`restrict`), and it is itself once its own
members have been.

Main result: this holds of the five shapes (`requestShapes_read_back`), for values whose maps are in the order of
their names.
-/

namespace ItemMapper

open Json (Reads TakesIn)

/-! ### Members that may be left out -/

section Optional

variable {α : Type} (name : String) (form : α → Json) (value : Option α)

theorem forall_mem_optionalMember {p : String × Json → Prop} :
    (∀ member ∈ optionalMember name form value, p member) ↔
      ∀ present, value = some present → p (name, form present) := by
  cases value <;> simp [optionalMember]

theorem names_optionalMember_sublist : (Fields.names (optionalMember name form value)).Sublist [name] := by
  cases value <;> simp [optionalMember, Fields.names]

@[simp]
theorem mem_names_optionalMember {other : String} :
    other ∈ Fields.names (optionalMember name form value) ↔ other = name ∧ value.isSome := by
  cases value <;> simp [optionalMember, Fields.names]

@[simp]
theorem ite_isSome : (if value.isSome then value else none) = value := by
  cases value <;> rfl

theorem nodup_names_of_two {β : Type} {other : String} (different : name ≠ other) (otherForm : β → Json)
    (otherValue : Option β) :
    (Fields.names (optionalMember name form value ++ optionalMember other otherForm otherValue)).Nodup := by
  rw [Fields.names_append]
  have listed := (names_optionalMember_sublist name form value).append
    (names_optionalMember_sublist other otherForm otherValue)
  exact listed.nodup (by simpa using different)

end Optional

/-! ### Wire values and items -/

theorem fieldsJson_eq_map {α : Type} (form : α → Json) (fields : Fields α) :
    fieldsJson form fields = .object (fields.map (Prod.map id form)) :=
  rfl

theorem WireValue.reads_toJson {value : WireValue} (ordered : value.IsOrdered) :
    Reads ofJson value value.toJson := by
  have distinct := hasDistinctNames_toJson value ordered
  have canonical_self := ((ofJson_eq_ok_iff distinct).mp (ofJson_toJson value ordered)).2
  refine ⟨distinct, ?_, ?_⟩
  · cases value <;> rfl
  · intro tree tree_distinct same
    exact (ofJson_eq_ok_iff tree_distinct).mpr ⟨ordered, canonical_self.trans same.symm⟩

theorem WireValue.toJson_ne_null (value : WireValue) : value.toJson ≠ .null := by
  cases value <;> nofun

/-- The fields of an item are in the order of their names, and so are those of the maps in it. -/
def WireItem.IsOrdered (item : WireItem) : Prop :=
  Fields.Ordered item ∧ ∀ field ∈ item, field.2.IsOrdered

theorem WireValue.ofMembers_eq_readMembers (members : List (String × Json)) :
    ofMembers members = Json.readMembers ofJson members := by
  induction members with
  | nil => rfl
  | cons member rest ih => rw [ofMembers, Json.readMembers, ih]

theorem WireItem.ofJson_eq_asFields : ofJson = Json.asFields WireValue.ofJson := by
  funext tree
  cases tree with
  | object members => rw [ofJson, Json.asFields, WireValue.ofMembers_eq_readMembers]
  | null | bool | number | string | array | flaw => rfl

theorem WireItem.reads_toJson {item : WireItem} (ordered : item.IsOrdered) :
    Reads ofJson item item.toJson := by
  rw [ofJson_eq_asFields, toJson, WireValue.toJsonMembers_eq_map]
  apply Json.reads_fields ordered.1
  intro field listed
  exact WireValue.reads_toJson (ordered.2 field listed)

/-! ### Expected values and attribute updates -/

namespace ExpectedValue

/-- The maps in the value are in the order of their names. -/
def IsOrdered (expected : ExpectedValue) : Prop :=
  ∀ value, expected.value = some value → value.IsOrdered

/-- What is known of an expected value from the members under some names. -/
def restrict (expected : ExpectedValue) (seen : Finset String) : ExpectedValue where
  value := if "Value" ∈ seen then expected.value else none
  mustExist := if "Exists" ∈ seen then expected.mustExist else none

theorem reads_toJson {expected : ExpectedValue} (ordered : expected.IsOrdered) :
    Reads ofJson expected expected.toJson := by
  refine Json.reads_record expected.restrict rfl ?distinct ?each ?after
  case distinct => exact nodup_names_of_two _ _ _ (by decide) _ _
  case each =>
    rw [List.forall_mem_append, forall_mem_optionalMember, forall_mem_optionalMember]
    constructor
    · intro b present
      apply TakesIn.of_field ((Json.reads_bool b).present nofun) rfl
      simp [restrict, present]
    · intro value present
      have read := (WireValue.reads_toJson (ordered value present)).present value.toJson_ne_null
      apply TakesIn.of_field read rfl
      simp [restrict, present]
  case after => simp [restrict, Fields.names_append]

end ExpectedValue

theorem AttributeAction.reads_toJson (action : AttributeAction) : Reads ofJson action action.toJson := by
  have listed : action.name ∈ names := by cases action <;> decide
  apply (Json.reads_variant listed).bind
  cases action <;> rfl

namespace AttributeUpdate

/-- The maps in the value are in the order of their names. -/
def IsOrdered (update : AttributeUpdate) : Prop :=
  ∀ value, update.value = some value → value.IsOrdered

/-- What is known of an update from the members under some names. -/
def restrict (update : AttributeUpdate) (seen : Finset String) : AttributeUpdate where
  value := if "Value" ∈ seen then update.value else none
  action := if "Action" ∈ seen then update.action else none

theorem reads_toJson {update : AttributeUpdate} (ordered : update.IsOrdered) :
    Reads ofJson update update.toJson := by
  refine Json.reads_record update.restrict rfl ?distinct ?each ?after
  case distinct => exact nodup_names_of_two _ _ _ (by decide) _ _
  case each =>
    rw [List.forall_mem_append, forall_mem_optionalMember, forall_mem_optionalMember]
    constructor
    · intro action present
      apply TakesIn.of_field (action.reads_toJson.present nofun) rfl
      simp [restrict, present]
    · intro value present
      have read := (WireValue.reads_toJson (ordered value present)).present value.toJson_ne_null
      apply TakesIn.of_field read rfl
      simp [restrict, present]
  case after => simp [restrict, Fields.names_append]

end AttributeUpdate

/-! ### Batch requests -/

namespace KeyRequest

/-- The names in the projection are in order, and all that the keys are made of is. -/
structure IsOrdered (request : KeyRequest) : Prop where
  keys : ∀ key ∈ request.keys, WireItem.IsOrdered key
  names : ∀ names, request.names = some names → Fields.Ordered names

/-- What is known of a request for keys from the members under some names. -/
def restrict (request : KeyRequest) (seen : Finset String) : Draft where
  keys := if "Keys" ∈ seen then some request.keys else none
  projection := if "ProjectionExpression" ∈ seen then request.projection else none
  names := if "ExpressionAttributeNames" ∈ seen then request.names else none
  consistentRead := if "ConsistentRead" ∈ seen then request.consistentRead else none

theorem reads_draft {request : KeyRequest} (ordered : request.IsOrdered) :
    Reads (Json.asRecord "KeysAndAttributes" fields {})
      ⟨some request.keys, request.projection, request.names, request.consistentRead⟩ request.toJson := by
  refine Json.reads_record request.restrict rfl ?distinct ?each ?after
  case distinct =>
    simp only [Fields.names_append]
    have listed := (((names_optionalMember_sublist "ConsistentRead" .bool request.consistentRead).append
      (names_optionalMember_sublist "ExpressionAttributeNames" (fieldsJson .string) request.names)).append
      (.refl ["Keys"])).append (names_optionalMember_sublist "ProjectionExpression" .string request.projection)
    exact listed.nodup (by decide)
  case each =>
    simp only [List.forall_mem_append, forall_mem_optionalMember, List.forall_mem_singleton]
    refine ⟨⟨⟨?_, ?_⟩, ?_⟩, ?_⟩
    · intro b present
      apply TakesIn.of_field ((Json.reads_bool b).present nofun) rfl
      simp [restrict, present]
    · intro names present
      have read := Json.reads_fields (ordered.names names present) fun field _ => Json.reads_string field.2
      apply TakesIn.of_field (read.present nofun) rfl
      simp [restrict, present]
    · have read := Json.reads_list fun key listed => WireItem.reads_toJson (ordered.keys key listed)
      apply TakesIn.of_field read rfl
      simp [restrict]
    · intro text present
      apply TakesIn.of_field ((Json.reads_string text).present nofun) rfl
      simp [restrict, present]
  case after => simp [restrict, Fields.names_append, Fields.names_cons]

theorem reads_toJson {request : KeyRequest} (ordered : request.IsOrdered) :
    Reads ofJson request request.toJson :=
  (reads_draft ordered).bind rfl

end KeyRequest

/-- Key requests for tables, in the order of the names of the tables, and all that they are made of in order. -/
def AreOrderedTables (tables : Fields KeyRequest) : Prop :=
  Fields.Ordered tables ∧ ∀ table ∈ tables, table.2.IsOrdered

theorem reads_tables {tables : Fields KeyRequest} (ordered : AreOrderedTables tables) :
    Reads (Json.asFields KeyRequest.ofJson) tables (fieldsJson KeyRequest.toJson tables) :=
  Json.reads_fields ordered.1 fun table listed => KeyRequest.reads_toJson (ordered.2 table listed)

theorem CapacityDetail.reads_toJson (detail : CapacityDetail) : Reads ofJson detail detail.toJson := by
  have listed : detail.name ∈ names := by cases detail <;> decide
  apply (Json.reads_variant listed).bind
  cases detail <;> rfl

namespace BatchRequest

/-- The tables are in the order of their names, and all that the keys are made of is in order. -/
def IsOrdered (request : BatchRequest) : Prop :=
  AreOrderedTables request.tables

/-- What is known of a request from the members under some names. -/
def restrict (request : BatchRequest) (seen : Finset String) : Draft where
  tables := if "RequestItems" ∈ seen then some request.tables else none
  capacityDetail := if "ReturnConsumedCapacity" ∈ seen then request.capacityDetail else none

theorem reads_draft {request : BatchRequest} (ordered : request.IsOrdered) :
    Reads (Json.asRecord "BatchGetItemInput" fields {}) ⟨some request.tables, request.capacityDetail⟩
      request.toJson := by
  refine Json.reads_record request.restrict rfl ?distinct ?each ?after
  case distinct =>
    rw [Fields.names_cons]
    exact ((names_optionalMember_sublist ..).cons_cons "RequestItems").nodup (by decide)
  case each =>
    rw [List.forall_mem_cons, forall_mem_optionalMember]
    constructor
    · apply TakesIn.of_field (reads_tables ordered) rfl
      simp [restrict]
    · intro detail present
      apply TakesIn.of_field (detail.reads_toJson.present nofun) rfl
      simp [restrict, present]
  case after => simp [restrict, Fields.names_cons]

theorem reads_toJson {request : BatchRequest} (ordered : request.IsOrdered) :
    Reads ofJson request request.toJson :=
  (reads_draft ordered).bind rfl

end BatchRequest

/-! ### Batch responses -/

namespace ConsumedCapacity

/-- What is known of the capacity that was used from the members under some names. -/
def restrict (consumed : ConsumedCapacity) (seen : Finset String) : ConsumedCapacity where
  table := if "TableName" ∈ seen then consumed.table else none
  units := if "CapacityUnits" ∈ seen then consumed.units else none

theorem reads_toJson (consumed : ConsumedCapacity) : Reads ofJson consumed consumed.toJson := by
  refine Json.reads_record consumed.restrict rfl ?distinct ?each ?after
  case distinct => exact nodup_names_of_two _ _ _ (by decide) _ _
  case each =>
    rw [List.forall_mem_append, forall_mem_optionalMember, forall_mem_optionalMember]
    constructor
    · intro units present
      apply TakesIn.of_field ((Json.reads_float units).present nofun) rfl
      simp [restrict, present]
    · intro table present
      apply TakesIn.of_field ((Json.reads_string table).present nofun) rfl
      simp [restrict, present]
  case after => simp [restrict, Fields.names_append]

end ConsumedCapacity

namespace BatchResponse

/-- The tables are in the order of their names, and all that the items and the keys are made of is in order. -/
structure IsOrdered (response : BatchResponse) : Prop where
  tables : Fields.Ordered response.items
  items : ∀ table ∈ response.items, ∀ item ∈ table.2, WireItem.IsOrdered item
  unprocessed : ∀ tables, response.unprocessed = some tables → AreOrderedTables tables

/-- What is known of a response from the members under some names. -/
def restrict (response : BatchResponse) (seen : Finset String) : BatchResponse where
  items := if "Responses" ∈ seen then response.items else []
  unprocessed := if "UnprocessedKeys" ∈ seen then response.unprocessed else none
  consumed := if "ConsumedCapacity" ∈ seen then response.consumed else []

theorem reads_items {tables : Fields (List WireItem)} (ordered : Fields.Ordered tables)
    (items_ordered : ∀ table ∈ tables, ∀ item ∈ table.2, WireItem.IsOrdered item) :
    Reads (Json.asFields (Json.asList WireItem.ofJson)) tables
      (fieldsJson (fun items => .array (items.map WireItem.toJson)) tables) := by
  rw [fieldsJson_eq_map]
  apply Json.reads_fields ordered
  intro table listed
  exact Json.reads_list fun item inside => WireItem.reads_toJson (items_ordered table listed item inside)

theorem reads_unprocessed {unprocessed : Option (Fields KeyRequest)}
    (ordered : ∀ tables, unprocessed = some tables → AreOrderedTables tables) :
    Reads (Json.asOption (Json.asFields KeyRequest.ofJson)) unprocessed
      ((unprocessed.map (fieldsJson KeyRequest.toJson)).getD .null) := by
  -- Without unprocessed keys there is a `null`, which no object of tables looks like.
  cases unprocessed with
  | none => exact Json.reads_none _
  | some tables => exact (reads_tables (ordered tables rfl)).present nofun

theorem reads_toJson {response : BatchResponse} (ordered : response.IsOrdered) :
    Reads ofJson response response.toJson := by
  refine Json.reads_record response.restrict rfl ?distinct ?each ?after
  case distinct =>
    split <;> simp [Fields.names]
  case each =>
    rw [List.forall_mem_append, List.forall_mem_cons, List.forall_mem_singleton]
    refine ⟨?_, ?_, ?_⟩
    -- Without use of capacity to report there is no member for it.
    · split
      case isTrue => exact List.forall_mem_nil _
      case isFalse =>
        rw [List.forall_mem_singleton]
        have read := Json.reads_list fun consumed (_ : consumed ∈ response.consumed) => consumed.reads_toJson
        apply TakesIn.of_field read rfl
        simp [restrict]
    · apply TakesIn.of_field (reads_items ordered.tables ordered.items) rfl
      simp [restrict]
    · apply TakesIn.of_field (reads_unprocessed ordered.unprocessed) rfl
      simp [restrict]
  case after =>
    -- If no capacity is reported, its name has not been seen, and the default stands for it.
    obtain ⟨items, unprocessed, consumed⟩ := response
    cases consumed <;> simp [restrict, Fields.names]

end BatchResponse

/-! ### All shapes -/

/--
Every request and every response is read back from its JSON form, and from any tree with the same members in
another order, whichever of its fields are absent. So a value that is absent does not look like a null, nor do
unprocessed keys that are absent look like none.
-/
theorem requestShapes_read_back :
    (∀ request : KeyRequest, request.IsOrdered →
      KeyRequest.ofJson request.toJson = .ok request ∧ Reads KeyRequest.ofJson request request.toJson) ∧
    (∀ request : BatchRequest, request.IsOrdered →
      BatchRequest.ofJson request.toJson = .ok request ∧ Reads BatchRequest.ofJson request request.toJson) ∧
    (∀ response : BatchResponse, response.IsOrdered →
      BatchResponse.ofJson response.toJson = .ok response ∧
        Reads BatchResponse.ofJson response response.toJson) ∧
    (∀ expected : ExpectedValue, expected.IsOrdered →
      ExpectedValue.ofJson expected.toJson = .ok expected ∧
        Reads ExpectedValue.ofJson expected expected.toJson) ∧
    (∀ update : AttributeUpdate, update.IsOrdered →
      AttributeUpdate.ofJson update.toJson = .ok update ∧
        Reads AttributeUpdate.ofJson update update.toJson) ∧
    (∀ (absent null : ExpectedValue) (b : Bool), absent.value = none →
      null.value = some (.null b) → absent.toJson.canonical ≠ null.toJson.canonical) ∧
    (∀ (absent null : AttributeUpdate) (b : Bool), absent.value = none →
      null.value = some (.null b) → absent.toJson.canonical ≠ null.toJson.canonical) ∧
    (∀ absent empty : BatchResponse, absent.IsOrdered → empty.IsOrdered → absent.unprocessed = none →
      empty.unprocessed = some [] → absent.toJson.canonical ≠ empty.toJson.canonical) := by
  refine ⟨?_, ?_, ?_, ?_, ?_, ?_, ?_, ?_⟩
  · intro request ordered
    exact ⟨(KeyRequest.reads_toJson ordered).of_form, KeyRequest.reads_toJson ordered⟩
  · intro request ordered
    exact ⟨(BatchRequest.reads_toJson ordered).of_form, BatchRequest.reads_toJson ordered⟩
  · intro response ordered
    exact ⟨(BatchResponse.reads_toJson ordered).of_form, BatchResponse.reads_toJson ordered⟩
  · intro expected ordered
    exact ⟨(ExpectedValue.reads_toJson ordered).of_form, ExpectedValue.reads_toJson ordered⟩
  · intro update ordered
    exact ⟨(AttributeUpdate.reads_toJson ordered).of_form, AttributeUpdate.reads_toJson ordered⟩
  · intro absent null b missing given same
    have ordered : absent.IsOrdered := by simp [ExpectedValue.IsOrdered, missing]
    have null_ordered : null.IsOrdered := by simp [ExpectedValue.IsOrdered, given, WireValue.IsOrdered]
    have equal := (ExpectedValue.reads_toJson ordered).eq_of_canonical
      (ExpectedValue.reads_toJson null_ordered) same
    rw [equal, given] at missing
    cases missing
  · intro absent null b missing given same
    have ordered : absent.IsOrdered := by simp [AttributeUpdate.IsOrdered, missing]
    have null_ordered : null.IsOrdered := by simp [AttributeUpdate.IsOrdered, given, WireValue.IsOrdered]
    have equal := (AttributeUpdate.reads_toJson ordered).eq_of_canonical
      (AttributeUpdate.reads_toJson null_ordered) same
    rw [equal, given] at missing
    cases missing
  · intro absent empty ordered empty_ordered missing given same
    have equal := (BatchResponse.reads_toJson ordered).eq_of_canonical
      (BatchResponse.reads_toJson empty_ordered) same
    rw [equal, given] at missing
    cases missing

/-- A key of two fields, the second of which is a map with a null in a list. -/
def sampleKey : WireItem :=
  [("id", .string "7"), ("more", .map [("gone", .list [.null true])])]

def sampleKeys : KeyRequest where
  keys := [sampleKey, []]
  names := some [("#i", "id"), ("#m", "more")]
  consistentRead := some false

def sampleResponse : BatchResponse where
  items := [("orders", [sampleKey])]
  unprocessed := some [("orders", sampleKeys), ("users", { keys := [] })]
  consumed := [{ table := some "orders" }]

theorem sampleKey_isOrdered : WireItem.IsOrdered sampleKey := by
  have less : "id" < "more" := by decide
  refine ⟨List.pairwise_pair.mpr less, List.forall_mem_cons.mpr ⟨trivial, List.forall_mem_singleton.mpr ?_⟩⟩
  exact ⟨List.pairwise_singleton _ _, ⟨trivial, trivial⟩, trivial⟩

theorem sampleKeys_isOrdered : sampleKeys.IsOrdered where
  keys := List.forall_mem_cons.mpr ⟨sampleKey_isOrdered, List.forall_mem_singleton.mpr ⟨.nil, nofun⟩⟩
  names := by
    rintro names ⟨⟩
    have less : "#i" < "#m" := by decide
    exact List.pairwise_pair.mpr less

theorem sampleResponse_isOrdered : sampleResponse.IsOrdered where
  tables := List.pairwise_singleton _ _
  items := List.forall_mem_singleton.mpr (List.forall_mem_singleton.mpr sampleKey_isOrdered)
  unprocessed := by
    rintro tables ⟨⟩
    have less : "orders" < "users" := by decide
    refine ⟨List.pairwise_pair.mpr less, List.forall_mem_cons.mpr ⟨sampleKeys_isOrdered, ?_⟩⟩
    exact List.forall_mem_singleton.mpr ⟨nofun, nofun⟩

theorem requestShapes_read_back_sample :
    sampleKeys.IsOrdered ∧ KeyRequest.ofJson sampleKeys.toJson = .ok sampleKeys ∧
      BatchRequest.ofJson (BatchRequest.mk [("orders", sampleKeys)] (some .total)).toJson =
        .ok ⟨[("orders", sampleKeys)], some .total⟩ ∧
      sampleResponse.IsOrdered ∧ BatchResponse.ofJson sampleResponse.toJson = .ok sampleResponse ∧
      ExpectedValue.ofJson (ExpectedValue.mk (some (.map sampleKey)) none).toJson =
        .ok ⟨some (.map sampleKey), none⟩ ∧
      AttributeUpdate.ofJson (AttributeUpdate.mk none (some .delete)).toJson = .ok ⟨none, some .delete⟩ ∧
      (ExpectedValue.mk none (some true)).toJson.canonical ≠
        (ExpectedValue.mk (some (.null true)) (some true)).toJson.canonical ∧
      (AttributeUpdate.mk none (some .put)).toJson.canonical ≠
        (AttributeUpdate.mk (some (.null true)) (some .put)).toJson.canonical ∧
      (BatchResponse.mk [] none []).toJson.canonical ≠ (BatchResponse.mk [] (some []) []).toJson.canonical := by
  obtain ⟨keys_back, request_back, response_back, expected_back, update_back, expected_apart, update_apart,
    response_apart⟩ := requestShapes_read_back
  have key := sampleKey_isOrdered
  have action_ordered : AttributeUpdate.IsOrdered ⟨none, some .delete⟩ := by simp [AttributeUpdate.IsOrdered]
  have item_ordered : (ExpectedValue.mk (some (.map sampleKey)) none).IsOrdered := by
    rintro value ⟨⟩
    exact ⟨key.1, WireValue.haveOrdered_iff.mpr key.2⟩
  refine ⟨sampleKeys_isOrdered, (keys_back _ sampleKeys_isOrdered).1, ?_, sampleResponse_isOrdered,
    (response_back _ sampleResponse_isOrdered).1, (expected_back _ item_ordered).1, ?_, ?_, ?_, ?_⟩
  · have tables_ordered : BatchRequest.IsOrdered ⟨[("orders", sampleKeys)], some .total⟩ :=
      ⟨List.pairwise_singleton _ _, List.forall_mem_singleton.mpr sampleKeys_isOrdered⟩
    exact (request_back _ tables_ordered).1
  · exact (update_back _ action_ordered).1
  · exact expected_apart ⟨none, some true⟩ ⟨some (.null true), some true⟩ true rfl rfl
  · exact update_apart ⟨none, some .put⟩ ⟨some (.null true), some .put⟩ true rfl rfl
  · have ordered : BatchResponse.IsOrdered ⟨[], none, []⟩ := ⟨.nil, nofun, nofun⟩
    have empty_ordered : BatchResponse.IsOrdered ⟨[], some [], []⟩ := by
      refine ⟨.nil, nofun, ?_⟩
      rintro tables ⟨⟩
      exact ⟨.nil, nofun⟩
    exact response_apart _ _ ordered empty_ordered rfl rfl

/-- A `null` is read as a missing value, while the null of the store is a value. -/
example : ExpectedValue.ofJson (.object [("Value", .null)]) = .ok {} ∧
    ExpectedValue.ofJson (.object [("Value", .object [("NULL", .bool true)])]) =
      .ok { value := some (.null true) } :=
  ⟨rfl, rfl⟩

end ItemMapper
