import Mathlib.Tactic
import PicBoard.Wire.Field

/-!
# Records are read as they were written

`Takes` says that a reader which meets some bytes goes from one value to another and on to what
follows them.  It is kept by putting bytes together, and each kind of field has it, so a record
has it field by field.
-/

namespace PicBoard.Wire

/-! ## Numbers -/

theorem base128_of_lt {n : Nat} (h : n < 128) : base128 n = [UInt8.ofNat n] := by
  rw [base128, if_pos h]

theorem base128_of_ge {n : Nat} (h : 128 ≤ n) :
    base128 n = UInt8.ofNat (n % 128 + 128) :: base128 (n / 128) := by
  rw [base128, if_neg (by omega)]

/-- The number of a byte below 256. -/
theorem toNat_byte {n : Nat} (h : n < 256) : (UInt8.ofNat n).toNat = n := by
  rw [UInt8.toNat_ofNat', Nat.mod_eq_of_lt h]

/-- A number is read from its bytes when there are groups enough and the limit is above it. -/
theorem readGroups_base128 {n groups limit : Nat} (hgroups : n < 128 ^ (groups + 1))
    (hlimit : n < limit) (rest : Bytes) :
    readGroups (groups + 1) limit (.ofBytes (base128 n ++ rest)) = some (n, .ofBytes rest) := by
  -- Each group lowers the number, and the limit on what is left, by seven bits.
  induction groups generalizing n limit with
  | zero =>
    have hn : n < 128 := by simpa using hgroups
    rw [base128_of_lt hn, List.singleton_append, readGroups, Input.next?_ofBytes_cons]
    simp only [toNat_byte (by omega : n < 256), if_pos hn, if_pos hlimit]
  | succ groups ih =>
    by_cases hn : n < 128
    · rw [base128_of_lt hn, List.singleton_append, readGroups, Input.next?_ofBytes_cons]
      simp only [toNat_byte (by omega : n < 256), if_pos hn, if_pos hlimit]
    · have hmore : n / 128 < 128 ^ (groups + 1) := by
        rw [Nat.div_lt_iff_lt_mul (by omega), ← pow_succ]
        exact hgroups
      have hrest := ih hmore (show n / 128 < (limit + 127) / 128 by omega)
      rw [base128_of_ge (by omega), List.cons_append, readGroups, Input.next?_ofBytes_cons]
      simp only [toNat_byte (by omega : n % 128 + 128 < 256), hrest]
      rw [if_neg (by omega)]
      have hsum : n % 128 + 128 - 128 + 128 * (n / 128) = n := by omega
      rw [hsum]

/-- A 64-bit number is read from its bytes. -/
theorem readBase128_base128 {n : Nat} (h : n < UInt64.size) (rest : Bytes) :
    readBase128 (.ofBytes (base128 n ++ rest)) = some (n, .ofBytes rest) := by
  have hgroups : n < 128 ^ (9 + 1) := by
    refine lt_trans h ?_
    decide
  exact readGroups_base128 hgroups h rest

theorem base128_ne_nil (n : Nat) : base128 n ≠ [] := by
  by_cases h : n < 128
  · simp [base128_of_lt h]
  · simp [base128_of_ge (by omega : 128 ≤ n)]

/-- So many groups hold so many bits. -/
theorem base128_length_le {n : Nat} (groups : Nat) (h : n < 128 ^ (groups + 1)) :
    (base128 n).length ≤ groups + 1 := by
  induction groups generalizing n with
  | zero =>
    rw [base128_of_lt (by simpa using h)]
    simp
  | succ groups ih =>
    by_cases hn : n < 128
    · simp [base128_of_lt hn]
    · have hmore : n / 128 < 128 ^ (groups + 1) := by
        rw [Nat.div_lt_iff_lt_mul (by omega), ← pow_succ]
        exact h
      rw [base128_of_ge (by omega), List.length_cons]
      have := ih hmore
      omega

/-! ## Keys and values -/

/-- A tag as records have it: positive, and with a key of 32 bits. -/
def IsTag (tag : Nat) : Prop := 0 < tag ∧ tag < 2 ^ 29

instance (tag : Nat) : Decidable (IsTag tag) := inferInstanceAs (Decidable (_ ∧ _))

theorem readKey_key {tag : Nat} (htag : IsTag tag) (type : WireType) (rest : Bytes) :
    readKey (.ofBytes (key tag type ++ rest)) = .ok (tag, type, .ofBytes rest) := by
  have hcode : type.code < 8 := by cases type <;> decide
  obtain ⟨hpos, hlt⟩ := htag
  have hsize : 8 * tag + type.code < UInt32.size := by
    simp only [UInt32.size]
    omega
  have hread := readBase128_base128 (n := 8 * tag + type.code)
    (lt_trans hsize (by decide)) rest
  have hmod : (8 * tag + type.code) % 8 = type.code := by omega
  have hdiv : (8 * tag + type.code) / 8 = tag := by omega
  unfold readKey key
  rw [hread]
  simp only
  rw [if_neg (by omega), hmod, WireType.ofCode?_code, hdiv]
  simp only
  rw [if_neg (by omega)]

/-- A number in a field with a small tag takes eleven bytes at most. -/
theorem numberField_length_le {tag n : Nat} (htag : tag < 16) (hn : n < UInt64.size) :
    (key tag .varint ++ base128 n).length ≤ 11 := by
  have hkey : (key tag .varint).length ≤ 1 :=
    base128_length_le 0 (by simp [WireType.code]; omega)
  have hvalue : (base128 n).length ≤ 10 := base128_length_le 9 (lt_trans hn (by decide))
  rw [List.length_append]
  omega

theorem readInt64_base128 (v : Int64) (rest : Bytes) :
    readInt64 .varint (.ofBytes (base128 v.toUInt64.toNat ++ rest)) = .ok (v, .ofBytes rest) := by
  have hread := readBase128_base128 (n := v.toUInt64.toNat) v.toUInt64.toNat_lt rest
  simp [readInt64, readScalar, hread, Except.map]

/-- The low half of a number with its sign extended is the number. -/
theorem toInt32_of_signExtended (v : Int32) :
    (UInt32.ofNat v.toInt64.toUInt64.toNat).toInt32 = v := by
  apply Int32.toBitVec_inj.mp
  ext i hi
  simp [BitVec.getLsbD_signExtend, hi]
  omega

theorem readInt32_base128 (v : Int32) (rest : Bytes) :
    readInt32 .varint (.ofBytes (base128 v.toInt64.toUInt64.toNat ++ rest)) =
      .ok (v, .ofBytes rest) := by
  have hread := readBase128_base128 (n := v.toInt64.toUInt64.toNat)
    v.toInt64.toUInt64.toNat_lt rest
  have hback := toInt32_of_signExtended v
  simp only [readInt32, readScalar, ne_eq, not_true_eq_false, if_false, hread, Except.map, hback]

theorem readLength_base128 {value : Bytes} (h : value.length < UInt64.size) (rest : Bytes) :
    readLength .lengthDelimited (.ofBytes (base128 value.length ++ (value ++ rest))) =
      .ok (value.length, .ofBytes (value ++ rest)) := by
  have hread := readBase128_base128 h (value ++ rest)
  have hsize : ¬ (Input.ofBytes (value ++ rest)).size < value.length := by simp [Input.ofBytes]
  simp only [readLength, ne_eq, not_true_eq_false, if_false, hread, if_neg hsize]

theorem readText_ofText {t : String} (h : (Bytes.ofText t).length < UInt64.size) (rest : Bytes) :
    readText .lengthDelimited
        (.ofBytes (base128 (Bytes.ofText t).length ++ (Bytes.ofText t ++ rest))) =
      .ok (t, .ofBytes rest) := by
  have htake : (Input.ofBytes (Bytes.ofText t ++ rest)).bytes.take (Bytes.ofText t).length =
      Bytes.ofText t := by
    simp [Input.ofBytes]
  unfold readText
  rw [readLength_base128 h]
  simp only [htake, Bytes.toText?_ofText, Input.drop_ofBytes_append]

/-! ## Fields -/

/-- A reader that meets `bytes` goes from `a` to `b` and on to what follows: the rest of the
reading is that of the rest, with no more fuel used up than there were bytes. -/
def Takes {α : Type} (merge : Merge α) (budget : Nat) (a : α) (bytes : Bytes) (b : α) : Prop :=
  ∀ (rest : Bytes) (left fuel : Nat), left ≤ rest.length → bytes.length ≤ fuel →
    ∃ fuel', fuel ≤ fuel' + bytes.length ∧
      readFields merge budget left fuel a (.ofBytes (bytes ++ rest)) =
        readFields merge budget left fuel' b (.ofBytes rest)

variable {α : Type} {merge : Merge α} {budget : Nat} {a b c : α}

theorem Takes.nil : Takes merge budget a [] a := by
  intro rest left fuel _ _
  exact ⟨fuel, by simp, rfl⟩

theorem Takes.append {s t : Bytes} (hs : Takes merge budget a s b)
    (ht : Takes merge budget b t c) : Takes merge budget a (s ++ t) c := by
  intro rest left fuel hleft hfuel
  rw [List.length_append] at hfuel
  obtain ⟨fuel₁, hf₁, he₁⟩ := hs (t ++ rest) left fuel (by rw [List.length_append]; omega)
    (by omega)
  obtain ⟨fuel₂, hf₂, he₂⟩ := ht rest left fuel₁ hleft (by omega)
  refine ⟨fuel₂, ?_, ?_⟩
  · rw [List.length_append]
    omega
  · rw [List.append_assoc, he₁, he₂]

/-- One field, from what its value does. -/
theorem takes_field {tag : Nat} (htag : IsTag tag) {type : WireType} {value : Bytes}
    (hmerge : ∀ rest, merge budget tag type a (.ofBytes (value ++ rest)) =
      .ok (b, .ofBytes rest)) :
    Takes merge budget a (key tag type ++ value) b := by
  intro rest left fuel hleft hfuel
  have hkey : 0 < (key tag type).length := List.length_pos_iff.mpr (base128_ne_nil _)
  rw [List.length_append] at hfuel
  -- A key has a byte at least, so there is fuel for the field.
  obtain ⟨fuel, rfl⟩ : ∃ f, fuel = f + 1 := ⟨fuel - 1, by omega⟩
  refine ⟨fuel, ?_, ?_⟩
  · rw [List.length_append]
    omega
  · have hmore : ¬ (Input.ofBytes (key tag type ++ value ++ rest)).size ≤ left := by
      simp only [Input.ofBytes, List.length_append]
      omega
    rw [readFields, if_neg hmore, List.append_assoc, readKey_key htag]
    simp only [hmerge]

/-- The end of what there is to read. -/
theorem readFields_of_takes {bytes : Bytes} {fuel : Nat} (h : Takes merge budget a bytes b)
    (hfuel : bytes.length ≤ fuel) (rest : Bytes) :
    readFields merge budget rest.length fuel a (.ofBytes (bytes ++ rest)) =
      .ok (b, .ofBytes rest) := by
  obtain ⟨fuel', -, he⟩ := h rest rest.length fuel le_rfl hfuel
  rw [he]
  cases fuel' with
  | zero => rfl
  | succ fuel' => simp [readFields, Input.ofBytes]

/-- A record is read whole. -/
theorem readRecord_of_takes {bytes : Bytes} (h : Takes merge nesting a bytes b) :
    readRecord merge a bytes = .ok b := by
  have hread := readFields_of_takes h le_rfl []
  rw [List.append_nil] at hread
  simp only [readRecord, List.length_nil] at hread ⊢
  rw [hread]
  rfl

/-- A record inside another is read whole. -/
theorem mergeRecord_of_takes {bytes : Bytes} (hlen : bytes.length < UInt64.size)
    (h : Takes merge budget a bytes b) (rest : Bytes) :
    mergeRecord merge (budget + 1) .lengthDelimited a
        (.ofBytes (base128 bytes.length ++ (bytes ++ rest))) = .ok (b, .ofBytes rest) := by
  have hleft : (Input.ofBytes (bytes ++ rest)).size - bytes.length = rest.length := by
    simp [Input.ofBytes]
  have hfuel : bytes.length ≤ (Input.ofBytes (bytes ++ rest)).size := by simp [Input.ofBytes]
  have hread := readFields_of_takes h hfuel rest
  unfold mergeRecord
  simp only [ne_eq, not_true_eq_false, if_false, readLength_base128 hlen, hleft, hread]
  simp [Input.ofBytes]

/-! ## The fields of each kind -/

/-- A field that is left out when its value is zero puts its value in, when zero is what stood
there before. -/
theorem takes_unlessZero {β : Type} [DecidableEq β] {zero v : β} {put : β → α}
    {read : Input → Except Error (β × Input)} {tag : Nat} {type : WireType} {name : String}
    {value : Bytes} (htag : IsTag tag)
    (hmerge : ∀ s, merge budget tag type a s =
      inField name ((read s).map fun (v, rest) => (put v, rest)))
    (hzero : put zero = a)
    (hread : ∀ rest, read (.ofBytes (value ++ rest)) = .ok (v, .ofBytes rest)) :
    Takes merge budget a (if v = zero then [] else key tag type ++ value) (put v) := by
  split
  · rename_i hv
    rw [hv, hzero]
    exact Takes.nil
  · refine takes_field htag ?_
    intro rest
    rw [hmerge, hread]
    rfl

theorem takes_int64Field (put : Int64 → α) {tag : Nat} {name : String} (htag : IsTag tag)
    (hmerge : ∀ s, merge budget tag .varint a s =
      inField name ((readInt64 .varint s).map fun (v, rest) => (put v, rest)))
    (hzero : put 0 = a) (v : Int64) : Takes merge budget a (int64Field tag v) (put v) :=
  takes_unlessZero htag hmerge hzero (readInt64_base128 v)

theorem takes_int32Field (put : Int32 → α) {tag : Nat} {name : String} (htag : IsTag tag)
    (hmerge : ∀ s, merge budget tag .varint a s =
      inField name ((readInt32 .varint s).map fun (v, rest) => (put v, rest)))
    (hzero : put 0 = a) (v : Int32) : Takes merge budget a (int32Field tag v) (put v) :=
  takes_unlessZero htag hmerge hzero (readInt32_base128 v)

theorem takes_textField (put : String → α) {tag : Nat} {name : String} (htag : IsTag tag)
    (hmerge : ∀ s, merge budget tag .lengthDelimited a s =
      inField name ((readText .lengthDelimited s).map fun (v, rest) => (put v, rest)))
    (hempty : put "" = a) {t : String} (hlen : (Bytes.ofText t).length < UInt64.size) :
    Takes merge budget a (textField tag t) (put t) := by
  unfold textField delimited
  rw [List.append_assoc]
  refine takes_unlessZero htag hmerge hempty ?_
  intro rest
  rw [List.append_assoc]
  exact readText_ofText hlen rest

/-- A record inside another puts itself in, when none stood there before. -/
theorem takes_recordField {β : Type} {inner : Merge β} {encode : β → Bytes} {start : β}
    (put : Option β → α) {tag : Nat} {name : String} (htag : IsTag tag)
    (hmerge : ∀ s, merge (budget + 1) tag .lengthDelimited a s =
      inField name ((mergeRecord inner (budget + 1) .lengthDelimited start s).map
        fun (v, rest) => (put (some v), rest)))
    (hnone : put none = a) (hlen : ∀ r, (encode r).length < UInt64.size)
    (hinner : ∀ r, Takes inner budget start (encode r) r) (r : Option β) :
    Takes merge (budget + 1) a (recordField encode tag r) (put r) := by
  cases r with
  | none =>
    rw [hnone]
    exact Takes.nil
  | some r =>
    rw [recordField, delimited, List.append_assoc]
    refine takes_field htag ?_
    intro rest
    rw [hmerge, List.append_assoc, mergeRecord_of_takes (hlen r) (hinner r)]
    rfl

end PicBoard.Wire
