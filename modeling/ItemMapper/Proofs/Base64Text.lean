import ItemMapper.Base64
import ItemMapper.Proofs.Results

/-!
# Base64 texts

Every sequence of bytes has one text, and no other text is read: `decode_eq_ok_iff`. Both directions go by
groups, three bytes against four symbols; the last group is the only one that may be short.
-/

namespace ItemMapper

/-! ### Texts and their bytes -/

theorem utf8_injective : Function.Injective utf8 := by
  intro first second same
  have arrays : first.toUTF8.data = second.toUTF8.data := Array.toList_inj.mp same
  exact String.toByteArray_inj.mp (ByteArray.ext arrays)

/-- The bytes of some characters. -/
def encoded (cs : List Char) : Bytes :=
  cs.flatMap String.utf8EncodeChar

theorem utf8_ofList (cs : List Char) : utf8 (String.ofList cs) = encoded cs := by
  rw [utf8, String.toUTF8, String.toByteArray_ofList, List.utf8Encode, List.toList_data_toByteArray]
  rfl

theorem encodeChar_of_ascii {c : Char} (ascii : c.toNat < 128) :
    String.utf8EncodeChar c = [UInt8.ofNat c.toNat] := by
  have size : c.utf8Size = 1 := by
    rw [Char.utf8Size_eq_one_iff, UInt32.le_iff_toNat_le]
    exact Nat.le_of_lt_succ ascii
  exact String.utf8EncodeChar_eq_singleton size

theorem utf8_of_ascii {cs : List Char} (ascii : ∀ c ∈ cs, c.toNat < 128) :
    utf8 (String.ofList cs) = cs.map fun c => UInt8.ofNat c.toNat := by
  rw [utf8_ofList, encoded]
  induction cs with
  | nil => rfl
  | cons c rest ih =>
    obtain ⟨first, others⟩ := List.forall_mem_cons.mp ascii
    rw [List.flatMap_cons, encodeChar_of_ascii first, ih others]
    rfl

theorem utf8_ascii {bytes : Bytes} (ascii : ∀ b ∈ bytes, b.toNat < 128) :
    utf8 (String.ofList (bytes.map fun b => Char.ofNat b.toNat)) = bytes := by
  have code : ∀ b ∈ bytes, (Char.ofNat b.toNat).toNat = b.toNat := by
    intro b member
    have small := ascii b member
    have valid : b.toNat.isValidChar := Or.inl (by omega)
    rw [Char.ofNat, dif_pos valid]
    rfl
  rw [utf8_of_ascii, List.map_map]
  · refine (List.map_congr_left fun b member => ?_).trans (List.map_id bytes)
    rw [Function.comp_apply, code b member, UInt8.ofNat_toNat, id]
  · intro c member
    obtain ⟨b, b_member, rfl⟩ := List.mem_map.mp member
    rw [code b b_member]
    exact ascii b b_member

namespace Base64

/-! ### Symbols -/

theorem value?_symbol {n : Nat} (small : n < 64) : value? (symbol n) = some n := by
  have all : ∀ n < 64, value? (symbol n) = some n := by decide
  exact all n small

theorem symbol_ne_pad {n : Nat} (small : n < 64) : symbol n ≠ pad := by
  intro same
  have read := value?_symbol small
  rw [same] at read
  cases read

/-- A symbol stands for six bits, and these bits for the symbol. -/
theorem symbol_of_value? {b : UInt8} {n : Nat} (read : value? b = some n) : n < 64 ∧ symbol n = b := by
  have all : ∀ k < 256, ∀ n ∈ value? (UInt8.ofNat k), n < 64 ∧ symbol n = UInt8.ofNat k := by
    decide +kernel
  have byte := all b.toNat b.toNat_lt n
  rw [UInt8.ofNat_toNat] at byte
  exact byte read

theorem valueAt_symbol {n : Nat} (small : n < 64) (offset : Nat) : valueAt (symbol n) offset = .ok n := by
  rw [valueAt, value?_symbol small]

theorem symbol_of_valueAt {b : UInt8} {offset n : Nat} (read : valueAt b offset = .ok n) :
    n < 64 ∧ symbol n = b := by
  unfold valueAt at read
  split at read
  next found =>
    cases read
    exact symbol_of_value? found
  next => cases read

theorem symbol_ascii (n : Nat) : (symbol n).toNat < 128 := by
  by_cases small : n < 64
  · have all : ∀ k < 64, (symbol k).toNat < 128 := by decide
    exact all n small
  · have slash : symbol n = 47 := by
      rw [symbol, if_neg (by omega), if_neg (by omega), if_neg (by omega), if_neg (by omega)]
    rw [slash]
    decide

/-! ### Three bytes against four symbols -/

theorem toNat_ofNat_of_lt {n : Nat} (small : n < 256) : (UInt8.ofNat n).toNat = n := by
  rw [UInt8.toNat_ofNat']
  exact Nat.mod_eq_of_lt small

theorem encodeBytes_one {x y : Nat} (x_small : x < 64) (y_small : y < 64) (clear : y % 16 = 0) :
    encodeBytes [UInt8.ofNat (x * 4 + y / 16)] = [symbol x, symbol y, pad, pad] := by
  have byte : (UInt8.ofNat (x * 4 + y / 16)).toNat = x * 4 + y / 16 := toNat_ofNat_of_lt (by omega)
  have high : (x * 4 + y / 16) / 4 = x := by omega
  have low : (x * 4 + y / 16) % 4 * 16 = y := by omega
  rw [encodeBytes, byte, high, low]

theorem encodeBytes_two {x y z : Nat} (x_small : x < 64) (y_small : y < 64) (z_small : z < 64)
    (clear : z % 4 = 0) :
    encodeBytes [UInt8.ofNat (x * 4 + y / 16), UInt8.ofNat (y % 16 * 16 + z / 4)] =
      [symbol x, symbol y, symbol z, pad] := by
  have first : (UInt8.ofNat (x * 4 + y / 16)).toNat = x * 4 + y / 16 := toNat_ofNat_of_lt (by omega)
  have second : (UInt8.ofNat (y % 16 * 16 + z / 4)).toNat = y % 16 * 16 + z / 4 :=
    toNat_ofNat_of_lt (by omega)
  have high : (x * 4 + y / 16) / 4 = x := by omega
  have middle : (x * 4 + y / 16) % 4 * 16 + (y % 16 * 16 + z / 4) / 16 = y := by omega
  have low : (y % 16 * 16 + z / 4) % 16 * 4 = z := by omega
  rw [encodeBytes, first, second, high, middle, low]

theorem encodeBytes_three {x y z w : Nat} (x_small : x < 64) (y_small : y < 64) (z_small : z < 64)
    (w_small : w < 64) (rest : Bytes) :
    encodeBytes (UInt8.ofNat (x * 4 + y / 16) :: UInt8.ofNat (y % 16 * 16 + z / 4) ::
      UInt8.ofNat (z % 4 * 64 + w) :: rest) =
      symbol x :: symbol y :: symbol z :: symbol w :: encodeBytes rest := by
  have first : (UInt8.ofNat (x * 4 + y / 16)).toNat = x * 4 + y / 16 := toNat_ofNat_of_lt (by omega)
  have second : (UInt8.ofNat (y % 16 * 16 + z / 4)).toNat = y % 16 * 16 + z / 4 :=
    toNat_ofNat_of_lt (by omega)
  have third : (UInt8.ofNat (z % 4 * 64 + w)).toNat = z % 4 * 64 + w := toNat_ofNat_of_lt (by omega)
  have highest : (x * 4 + y / 16) / 4 = x := by omega
  have high : (x * 4 + y / 16) % 4 * 16 + (y % 16 * 16 + z / 4) / 16 = y := by omega
  have low : (y % 16 * 16 + z / 4) % 16 * 4 + (z % 4 * 64 + w) / 64 = z := by omega
  have lowest : (z % 4 * 64 + w) % 64 = w := by omega
  rw [encodeBytes, first, second, third, highest, high, low, lowest]

theorem encodeBytes_ne_nil {bytes : Bytes} (some' : bytes ≠ []) : encodeBytes bytes ≠ [] := by
  match bytes with
  | [] => exact absurd rfl some'
  | [_] | [_, _] | _ :: _ :: _ :: _ => simp [encodeBytes]

theorem length_encodeBytes (bytes : Bytes) : (encodeBytes bytes).length % 4 = 0 := by
  induction bytes using encodeBytes.induct with
  | case1 => rfl
  | case2 a => simp [encodeBytes]
  | case3 a b => simp [encodeBytes]
  | case4 a b c rest ih =>
    simp only [encodeBytes, List.length_cons]
    omega

theorem encodeBytes_ascii {bytes : Bytes} : ∀ b ∈ encodeBytes bytes, b.toNat < 128 := by
  induction bytes using encodeBytes.induct with
  | case1 => simp [encodeBytes]
  | case2 a => simp [encodeBytes, symbol_ascii, pad]
  | case3 a b => simp [encodeBytes, symbol_ascii, pad]
  | case4 a b c rest ih => 
    simp only [encodeBytes, List.forall_mem_cons, symbol_ascii, true_and]
    exact ih

/-! ### The last group -/

theorem scanLast_pads (start : Nat) {index : Nat} (behind : 2 ≤ index) (count : Nat) :
    scanLast start index (List.replicate count pad) = .ok ([], count) := by
  cases count with
  | zero => rfl
  | succ count =>
    have late : ¬ index < 2 := by omega
    rw [List.replicate_succ, scanLast, if_pos rfl, if_neg late]
    simp

/-- A group of at least two symbols is scanned up to its padding. -/
theorem scanLast_symbols {ns : List Nat} (small : ∀ n ∈ ns, n < 64) (start : Nat) {index : Nat}
    (behind : 2 ≤ index + ns.length) (count : Nat) :
    scanLast start index (ns.map symbol ++ List.replicate count pad) =
      .ok (ns.map fun n => (symbol n, n), count) := by
  induction ns generalizing index with
  | nil => exact scanLast_pads start (by simpa using behind) count
  | cons n rest ih =>
    have bound : n < 64 := small n List.mem_cons_self
    have still_behind : 2 ≤ index + 1 + rest.length := by
      rw [List.length_cons] at behind
      omega
    have others := ih (fun m member => small m (List.mem_cons_of_mem n member)) still_behind
    rw [List.map_cons, List.cons_append, scanLast, if_neg (symbol_ne_pad bound),
      valueAt_symbol bound, others]
    rfl

/-- Whatever group is scanned consists of the symbols that were found and the padding. -/
theorem symbols_of_scanLast {start index : Nat} {group : Bytes} {symbols : List (UInt8 × Nat)}
    {padding : Nat} (scanned : scanLast start index group = .ok (symbols, padding)) :
    ∃ ns : List Nat, (∀ n ∈ ns, n < 64) ∧ symbols = ns.map (fun n => (symbol n, n)) ∧
      group = ns.map symbol ++ List.replicate padding pad := by
  induction group generalizing index symbols padding with
  | nil =>
    cases scanned
    exact ⟨[], by simp, rfl, rfl⟩
  | cons b rest ih =>
    rw [scanLast] at scanned
    split at scanned
    next isPad =>
      split at scanned
      next => cases scanned
      next =>
        split at scanned
        next padded =>
          cases scanned
          have pads : rest = List.replicate rest.length pad := by
            apply List.eq_replicate_iff.mpr
            refine ⟨rfl, fun byte member => ?_⟩
            simpa using List.all_eq_true.mp padded byte member
          refine ⟨[], by simp, rfl, ?_⟩
          rw [isPad, List.map_nil, List.nil_append, List.replicate_succ, ← pads]
        next => cases scanned
    next =>
      obtain ⟨n, read, scanned⟩ := bind_eq_ok_iff.mp scanned
      obtain ⟨⟨found, behind⟩, others, result⟩ := bind_eq_ok_iff.mp scanned
      cases result
      obtain ⟨bound, written⟩ := symbol_of_valueAt read
      obtain ⟨ns, small, foundEq, restEq⟩ := ih others
      refine ⟨n :: ns, ?_, ?_, ?_⟩
      · intro m member
        cases member with
        | head => exact bound
        | tail _ member => exact small m member
      · rw [List.map_cons, written, foundEq]
      · rw [List.map_cons, List.cons_append, written, ← restEq]

theorem decodeLast_two {x y : Nat} (x_small : x < 64) (y_small : y < 64) (clear : y % 16 = 0)
    (start : Nat) :
    decodeLast start [symbol x, symbol y, pad, pad] = .ok [UInt8.ofNat (x * 4 + y / 16)] := by
  have small : ∀ n ∈ [x, y], n < 64 := by simp [x_small, y_small]
  have scanned := @scanLast_symbols [x, y] small start 0 (by simp) 2
  simp only [List.map_cons, List.map_nil, List.cons_append, List.nil_append, List.replicate] at scanned
  rw [decodeLast, scanned]
  simp [clear, bind, Except.bind, pure, Except.pure]

theorem decodeLast_three {x y z : Nat} (x_small : x < 64) (y_small : y < 64) (z_small : z < 64)
    (clear : z % 4 = 0) (start : Nat) :
    decodeLast start [symbol x, symbol y, symbol z, pad] =
      .ok [UInt8.ofNat (x * 4 + y / 16), UInt8.ofNat (y % 16 * 16 + z / 4)] := by
  have small : ∀ n ∈ [x, y, z], n < 64 := by simp [x_small, y_small, z_small]
  have scanned := @scanLast_symbols [x, y, z] small start 0 (by simp) 1
  simp only [List.map_cons, List.map_nil, List.cons_append, List.nil_append, List.replicate] at scanned
  rw [decodeLast, scanned]
  simp [clear, bind, Except.bind, pure, Except.pure]

theorem decodeLast_four {x y z w : Nat} (x_small : x < 64) (y_small : y < 64) (z_small : z < 64)
    (w_small : w < 64) (start : Nat) :
    decodeLast start [symbol x, symbol y, symbol z, symbol w] =
      .ok [UInt8.ofNat (x * 4 + y / 16), UInt8.ofNat (y % 16 * 16 + z / 4),
        UInt8.ofNat (z % 4 * 64 + w)] := by
  have small : ∀ n ∈ [x, y, z, w], n < 64 := by simp [x_small, y_small, z_small, w_small]
  have scanned := @scanLast_symbols [x, y, z, w] small start 0 (by simp) 0
  simp only [List.map_cons, List.map_nil, List.cons_append, List.nil_append, List.replicate] at scanned
  rw [decodeLast, scanned]
  simp [bind, Except.bind, pure, Except.pure]

/-- A last group is read only if it has two symbols or more, and padding fills it up. -/
theorem filled_of_decodeLast {start : Nat} {group bytes : Bytes} {symbols : List (UInt8 × Nat)}
    {padding : Nat} (scanned : scanLast start 0 group = .ok (symbols, padding))
    (read : decodeLast start group = .ok bytes) :
    2 ≤ symbols.length ∧ (symbols.length + padding) % 4 = 0 := by
  rw [decodeLast, scanned] at read
  refine ⟨Nat.le_of_not_lt fun few => ?_, Decidable.not_not.mp fun ragged => ?_⟩
  · simp [few, bind, Except.bind, throw, throwThe, MonadExceptOf.throw] at read
  · simp [ragged, bind, Except.bind, throw, throwThe, MonadExceptOf.throw] at read
    split at read <;> cases read

/-- What is read as the last group is the text of the bytes that it gives. -/
theorem encodeBytes_of_decodeLast {start : Nat} {group bytes : Bytes} (short : group.length ≤ 4)
    (read : decodeLast start group = .ok bytes) : encodeBytes bytes = group := by
  obtain ⟨⟨symbols, padding⟩, scanned, checked⟩ := bind_eq_ok_iff.mp read
  obtain ⟨enough, whole⟩ := filled_of_decodeLast scanned read
  obtain ⟨ns, small, rfl, rfl⟩ := symbols_of_scanLast scanned
  rw [List.length_append, List.length_map, List.length_replicate] at short
  rw [List.length_map] at enough whole
  have filled : padding = 4 - ns.length := by omega
  subst filled
  -- Two, three or four symbols are left, and bits that no byte holds are clear in the last one.
  match ns, small with
  | [x, y], small =>
    obtain ⟨x_small, y_small⟩ : x < 64 ∧ y < 64 := by simpa using small
    have clear : y % 16 = 0 := Decidable.not_not.mp fun set => by
      simp [set, bind, Except.bind, throw, throwThe, MonadExceptOf.throw] at checked
    cases read.symm.trans (decodeLast_two x_small y_small clear start)
    exact encodeBytes_one x_small y_small clear
  | [x, y, z], small =>
    obtain ⟨x_small, y_small, z_small⟩ : x < 64 ∧ y < 64 ∧ z < 64 := by simpa using small
    have clear : z % 4 = 0 := Decidable.not_not.mp fun set => by
      simp [set, bind, Except.bind, throw, throwThe, MonadExceptOf.throw] at checked
    cases read.symm.trans (decodeLast_three x_small y_small z_small clear start)
    exact encodeBytes_two x_small y_small z_small clear
  | [x, y, z, w], small =>
    obtain ⟨x_small, y_small, z_small, w_small⟩ : x < 64 ∧ y < 64 ∧ z < 64 ∧ w < 64 := by
      simpa using small
    cases read.symm.trans (decodeLast_four x_small y_small z_small w_small start)
    exact encodeBytes_three x_small y_small z_small w_small []
  | _ :: _ :: _ :: _ :: _ :: _, _ =>
    simp only [List.length_cons] at short
    omega

/-! ### All groups -/

/-- Every text of whole groups that is read is the text of the bytes that it gives. -/
theorem encodeBytes_of_decodeGroups {start : Nat} {text bytes : Bytes}
    (read : decodeGroups start text = .ok bytes) : encodeBytes bytes = text := by
  induction start, text using decodeGroups.induct generalizing bytes with
  | case1 start =>
    cases read
    rfl
  | case2 start a b c d next rest ih =>
    obtain ⟨x, x_read, read⟩ := bind_eq_ok_iff.mp read
    obtain ⟨y, y_read, read⟩ := bind_eq_ok_iff.mp read
    obtain ⟨z, z_read, read⟩ := bind_eq_ok_iff.mp read
    obtain ⟨w, w_read, read⟩ := bind_eq_ok_iff.mp read
    obtain ⟨others, others_read, read⟩ := bind_eq_ok_iff.mp read
    cases read
    obtain ⟨x_small, rfl⟩ := symbol_of_valueAt x_read
    obtain ⟨y_small, rfl⟩ := symbol_of_valueAt y_read
    obtain ⟨z_small, rfl⟩ := symbol_of_valueAt z_read
    obtain ⟨w_small, rfl⟩ := symbol_of_valueAt w_read
    rw [encodeBytes_three x_small y_small z_small w_small, ih others_read]
  | case3 start group nonempty single =>
    have last : decodeGroups start group = decodeLast start group := by
      rw [decodeGroups] <;> assumption
    have short : group.length ≤ 4 := by
      match group, single with
      | [], _ | [_], _ | [_, _], _ | [_, _, _], _ | [_, _, _, _], _ => simp
      | a :: b :: c :: d :: next :: rest, single => exact absurd rfl (single a b c d next rest)
    exact encodeBytes_of_decodeLast short (last.symm.trans read)

/-- A group of four symbols in front of others gives three bytes. -/
theorem decodeGroups_four {x y z w : Nat} (x_small : x < 64) (y_small : y < 64) (z_small : z < 64)
    (w_small : w < 64) {rest bytes : Bytes} {start : Nat} (some' : rest ≠ [])
    (read : decodeGroups (start + 4) rest = .ok bytes) :
    decodeGroups start (symbol x :: symbol y :: symbol z :: symbol w :: rest) =
      .ok (UInt8.ofNat (x * 4 + y / 16) :: UInt8.ofNat (y % 16 * 16 + z / 4) ::
        UInt8.ofNat (z % 4 * 64 + w) :: bytes) := by
  obtain ⟨next, others, rfl⟩ := List.exists_cons_of_ne_nil some'
  rw [decodeGroups, valueAt_symbol x_small, valueAt_symbol y_small, valueAt_symbol z_small,
    valueAt_symbol w_small, read]
  rfl

theorem decodeGroups_encodeBytes (bytes : Bytes) (start : Nat) :
    decodeGroups start (encodeBytes bytes) = .ok bytes := by
  -- The induction is on the groups of three bytes; a full last group has no other one behind it.
  induction bytes using encodeBytes.induct generalizing start with
  | case1 => rfl
  | case2 a =>
    have a_bound := a.toNat_lt
    have a_bits : a.toNat / 4 * 4 + a.toNat % 4 * 16 / 16 = a.toNat := by omega
    rw [encodeBytes, decodeGroups, decodeLast_two (by omega) (by omega) (by omega), a_bits,
      UInt8.ofNat_toNat]
    all_goals simp
  | case3 a b =>
    have a_bound := a.toNat_lt
    have b_bound := b.toNat_lt
    have a_bits : a.toNat / 4 * 4 + (a.toNat % 4 * 16 + b.toNat / 16) / 16 = a.toNat := by omega
    have b_bits : (a.toNat % 4 * 16 + b.toNat / 16) % 16 * 16 + b.toNat % 16 * 4 / 4 = b.toNat := by
      omega
    rw [encodeBytes, decodeGroups, decodeLast_three (by omega) (by omega) (by omega) (by omega), a_bits,
      b_bits, UInt8.ofNat_toNat, UInt8.ofNat_toNat]
    all_goals simp
  | case4 a b c rest ih =>
    have a_bound := a.toNat_lt
    have b_bound := b.toNat_lt
    have c_bound := c.toNat_lt
    have a_bits : a.toNat / 4 * 4 + (a.toNat % 4 * 16 + b.toNat / 16) / 16 = a.toNat := by omega
    have b_bits : (a.toNat % 4 * 16 + b.toNat / 16) % 16 * 16 + (b.toNat % 16 * 4 + c.toNat / 64) / 4
        = b.toNat := by
      omega
    have c_bits : (b.toNat % 16 * 4 + c.toNat / 64) % 4 * 64 + c.toNat % 64 = c.toNat := by omega
    rw [encodeBytes]
    by_cases done : rest = []
    · subst done
      rw [encodeBytes, decodeGroups, decodeLast_four (by omega) (by omega) (by omega) (by omega), a_bits,
        b_bits, c_bits, UInt8.ofNat_toNat, UInt8.ofNat_toNat, UInt8.ofNat_toNat]
      all_goals simp
    · rw [decodeGroups_four (by omega) (by omega) (by omega) (by omega) (encodeBytes_ne_nil done)
        (ih (start + 4)), a_bits, b_bits, c_bits, UInt8.ofNat_toNat, UInt8.ofNat_toNat,
        UInt8.ofNat_toNat]

theorem decodeBytes_eq_ok_iff {text bytes : Bytes} :
    decodeBytes text = .ok bytes ↔ text = encodeBytes bytes := by
  constructor
  · intro read
    unfold decodeBytes at read
    split at read
    next =>
      split at read
      next => cases read
      next => exact (encodeBytes_of_decodeGroups read).symm
    next missing =>
      cases read
      exact List.getLast?_eq_none_iff.mp missing
  · rintro rfl
    unfold decodeBytes
    split
    next =>
      -- Whole groups leave no lone byte behind.
      rw [if_neg, decodeGroups_encodeBytes]
      have whole := length_encodeBytes bytes
      omega
    next missing =>
      have nothing : encodeBytes bytes = [] := List.getLast?_eq_none_iff.mp missing
      rw [Decidable.not_not.mp fun some' => encodeBytes_ne_nil some' nothing]

theorem utf8_encode (bytes : Bytes) : utf8 (encode bytes) = encodeBytes bytes :=
  utf8_ascii encodeBytes_ascii

/-- A text is read as some bytes exactly if it is the text of these bytes. -/
theorem decode_eq_ok_iff {text : String} {bytes : Bytes} :
    decode text = .ok bytes ↔ text = encode bytes := by
  rw [decode, decodeBytes_eq_ok_iff, ← utf8_encode]
  exact utf8_injective.eq_iff

-- The last symbol of `aGk=` holds two bits of the second byte; with another one set the text is refused.
example : decode "aGk=" = .ok [104, 105] ∧ decode "aGl=" = .error (.lastSymbol 108 2) := ⟨rfl, rfl⟩

end Base64

end ItemMapper
