import Mathlib.Tactic
import PicBoard.GlyphNumber
import PicBoard.Proofs.Text.Bytes

/-!
# Glyph numbers are read as they were written

The texts with a given number of glyphs stand for consecutive numbers, so the first glyph leaves
to the others what is above the least of these (`sub_firstOfLength_lt`), and they are its digits
in base 32 (`ofValues_digits`).  `decode_encode_append` puts the two together, whatever follows
the text.
-/

namespace PicBoard.GlyphNumber

/-! ## Glyphs -/

theorem alphabet_length : alphabet.length = 32 := by decide +kernel

/-- The value of a glyph is read back. -/
theorem value?_glyph {v : Nat} (h : v < 32) : value? (glyph v) = some v := by
  have hall : ∀ k : Fin 32, value? (glyph k) = some k.val := by decide +kernel
  exact hall ⟨v, h⟩

@[simp] theorem fold_fold (b : UInt8) : fold (fold b) = fold b := by
  unfold fold
  split_ifs <;> simp_all

/-- A byte has the value of the glyph that it is or looks like. -/
theorem value?_eq_some_iff {b : UInt8} {v : Nat} :
    value? b = some v ↔ v < 32 ∧ glyph v = fold b := by
  have hlen := alphabet_length
  constructor
  · intro h
    rcases List.findIdx?_eq_some_iff_getElem.mp h with ⟨hv, hat, -⟩
    have hsame : alphabet[v] = fold b := by simpa using hat
    refine ⟨by omega, ?_⟩
    rw [glyph, List.getD_eq_getElem?_getD, List.getElem?_eq_getElem hv, hsame, Option.getD_some]
  · rintro ⟨hv, hglyph⟩
    have hfold : fold (glyph v) = glyph v := by rw [hglyph, fold_fold]
    have hread : value? (glyph v) = some v := value?_glyph hv
    unfold value? at hread ⊢
    rw [← hglyph, ← hfold]
    exact hread

/-- Glyphs are ASCII. -/
theorem glyph_lt (v : Nat) : (glyph v).toNat < 128 := by
  by_cases h : v < 32
  · have hall : ∀ k : Fin 32, (glyph k).toNat < 128 := by decide +kernel
    exact hall ⟨v, h⟩
  · have hlen := alphabet_length
    have hnone : glyph v = 0 := by
      rw [glyph, List.getD_eq_getElem?_getD, List.getElem?_eq_none (by omega)]
      rfl
    rw [hnone]
    decide

/-- The first glyph of a text tells how many follow. -/
theorem length?_lengthGlyph {len : Nat} (h : len ≤ maxBody) :
    length? (lengthGlyph len) = some len := by
  have hlen : 16 + len < 32 := by
    simp only [maxBody] at h
    omega
  unfold length? lengthGlyph
  rw [value?_glyph hlen]
  simp only
  rw [if_pos ⟨by omega, by omega⟩, Nat.add_sub_cancel_left]

/-! ## Digits -/

/-- The values of the glyphs after the first. -/
def digits : (len : Nat) → Nat → List Nat
  | 0, _ => []
  | len + 1, n => n / 32 ^ len % 32 :: digits len n

theorem body_eq_map (len n : Nat) : body len n = (digits len n).map glyph := by
  induction len with
  | zero => rfl
  | succ len ih =>
    rw [body, digits, List.map_cons, ih]
    rfl

@[simp] theorem digits_length (len n : Nat) : (digits len n).length = len := by
  induction len with
  | zero => rfl
  | succ len ih => rw [digits, List.length_cons, ih]

@[simp] theorem body_length (len n : Nat) : (body len n).length = len := by
  rw [body_eq_map, List.length_map, digits_length]

theorem digits_lt {len n v : Nat} (h : v ∈ digits len n) : v < 32 := by
  induction len with
  | zero => cases h
  | succ len ih =>
    rcases List.mem_cons.mp h with rfl | h
    · exact Nat.mod_lt _ (by decide)
    · exact ih h

/-- Bytes have values when they are glyphs or look like some, and the values are those of the
glyphs. -/
theorem mapM_value?_eq_some_iff {s : Bytes} {vs : List Nat} :
    s.mapM value? = some vs ↔ (∀ v ∈ vs, v < 32) ∧ vs.map glyph = s.map fold := by
  induction s generalizing vs with
  | nil =>
    cases vs with
    | nil => simp
    | cons v vs => simp
  | cons b s ih =>
    rw [List.mapM_cons]
    cases vs with
    | nil => simp [Option.bind_eq_some_iff]
    | cons v vs =>
      have hhead : value? b = some v ↔ v < 32 ∧ glyph v = fold b := value?_eq_some_iff
      have htail : s.mapM value? = some vs ↔ (∀ u ∈ vs, u < 32) ∧ vs.map glyph = s.map fold := ih
      simp only [Option.bind_eq_bind, Option.bind_eq_some_iff, Option.pure_def, Option.some.injEq,
        List.cons.injEq, List.forall_mem_cons, List.map_cons]
      constructor
      · rintro ⟨v', hv', vs', hvs', rfl, rfl⟩
        have hb := hhead.mp hv'
        have hs := htail.mp hvs'
        exact ⟨⟨hb.1, hs.1⟩, hb.2, hs.2⟩
      · rintro ⟨⟨hv, hvs⟩, hb, hs⟩
        exact ⟨v, hhead.mpr ⟨hv, hb⟩, vs, htail.mpr ⟨hvs, hs⟩, rfl, rfl⟩

/-- The values of glyphs are read back. -/
theorem mapM_value?_glyph {vs : List Nat} (h : ∀ v ∈ vs, v < 32) :
    (vs.map glyph).mapM value? = some vs := by
  have hfold : (vs.map glyph).map fold = vs.map glyph := by
    rw [List.map_map]
    apply List.map_congr_left
    intro v hv
    exact (value?_eq_some_iff.mp (value?_glyph (h v hv))).2.symm
  exact mapM_value?_eq_some_iff.mpr ⟨h, hfold.symm⟩

/-- A leading value counts for as many powers of 32 as values follow. -/
theorem foldl_values (vs : List Nat) (n : Nat) :
    vs.foldl (fun n v => 32 * n + v) n = n * 32 ^ vs.length + ofValues vs := by
  induction vs generalizing n with
  | nil => simp [ofValues]
  | cons v vs ih =>
    have h0 := ih v
    rw [ofValues, List.foldl_cons, List.foldl_cons, ih (32 * n + v), Nat.mul_zero, Nat.zero_add,
      h0, List.length_cons, pow_succ]
    ring

theorem ofValues_cons (v : Nat) (vs : List Nat) :
    ofValues (v :: vs) = v * 32 ^ vs.length + ofValues vs := by
  rw [ofValues, List.foldl_cons, foldl_values, Nat.mul_zero, Nat.zero_add]

/-- Values denote a number that so many digits have room for. -/
theorem ofValues_lt {vs : List Nat} (h : ∀ v ∈ vs, v < 32) : ofValues vs < 32 ^ vs.length := by
  induction vs with
  | nil => decide
  | cons v vs ih =>
    have hv : v < 32 := h v List.mem_cons_self
    have hrest : ofValues vs < 32 ^ vs.length := ih fun u hu => h u (List.mem_cons_of_mem _ hu)
    have hstep : v * 32 ^ vs.length + 32 ^ vs.length ≤ 32 * 32 ^ vs.length := by
      have hmul : (v + 1) * 32 ^ vs.length ≤ 32 * 32 ^ vs.length := Nat.mul_le_mul_right _ hv
      rwa [Nat.add_mul, Nat.one_mul] at hmul
    rw [ofValues_cons, List.length_cons, pow_succ]
    omega

/-- The digits of a number denote its low part. -/
theorem ofValues_digits (len n : Nat) : ofValues (digits len n) = n % 32 ^ len := by
  induction len with
  | zero => simp [digits, ofValues, Nat.mod_one]
  | succ len ih =>
    rw [digits, ofValues_cons, digits_length, ih, Nat.mod_pow_succ]
    ring

/-! ## Lengths -/

theorem firstOfLength_mono {k len : Nat} (h : k ≤ len) : firstOfLength k ≤ firstOfLength len := by
  induction h with
  | refl => exact le_rfl
  | step _ ih => exact le_trans ih (Nat.le_add_right _ _)

/-- What is counted along a range by a condition that holds up to a point and not after it is
that point. -/
theorem countP_range {p : Nat → Bool} (hp : ∀ j k, j ≤ k → p k = true → p j = true) (m : Nat) :
    (∀ j, j < (List.range m).countP p → p j = true) ∧
      ((List.range m).countP p < m → p ((List.range m).countP p) = false) := by
  induction m with
  | zero => simp
  | succ m ih =>
    obtain ⟨hbelow, hat⟩ := ih
    have hle : (List.range m).countP p ≤ m := by
      have := List.countP_le_length (p := p) (l := List.range m)
      rwa [List.length_range] at this
    rw [List.range_succ, List.countP_append, List.countP_singleton]
    -- Either the point was passed within the range before, or the condition still holds at its end.
    cases hm : p m with
    | false =>
      simp only [Bool.false_eq_true, if_false, Nat.add_zero]
      refine ⟨hbelow, ?_⟩
      intro _
      by_cases hlt : (List.range m).countP p < m
      · exact hat hlt
      · have heq : (List.range m).countP p = m := by omega
        rw [heq]
        exact hm
    | true =>
      have heq : (List.range m).countP p = m := by
        by_contra hne
        have hf := hat (by omega)
        rw [hp _ m hle hm] at hf
        cases hf
      simp only [if_true, heq]
      refine ⟨?_, ?_⟩
      · intro j hj
        exact hp j m (by omega) hm
      · intro h
        omega

theorem bodyLength_le (n : Nat) : bodyLength n ≤ maxBody := by
  unfold bodyLength
  have := List.countP_le_length (p := fun len => decide (firstOfLength (len + 1) ≤ n))
    (l := List.range maxBody)
  rwa [List.length_range] at this

theorem bodyLength_spec (n : Nat) :
    (∀ j, j < bodyLength n → firstOfLength (j + 1) ≤ n) ∧
      (bodyLength n < maxBody → n < firstOfLength (bodyLength n + 1)) := by
  have hclosed : ∀ j k, j ≤ k → decide (firstOfLength (k + 1) ≤ n) = true →
      decide (firstOfLength (j + 1) ≤ n) = true := by
    intro j k hjk hk
    rw [decide_eq_true_iff] at hk ⊢
    exact le_trans (firstOfLength_mono (by omega)) hk
  obtain ⟨hbelow, hat⟩ := countP_range hclosed maxBody
  refine ⟨?_, ?_⟩
  · intro j hj
    exact of_decide_eq_true (hbelow j hj)
  · intro hlt
    have hf := of_decide_eq_false (hat hlt)
    exact not_le.mp hf

/-- The length of a number's text is the one among whose numbers it is. -/
theorem bodyLength_eq {n len : Nat} (hlen : len ≤ maxBody) (hfirst : firstOfLength len ≤ n)
    (hnext : len < maxBody → n < firstOfLength (len + 1)) : bodyLength n = len := by
  have hspec := bodyLength_spec n
  rcases lt_trichotomy (bodyLength n) len with hlt | heq | hgt
  · -- a shorter text would leave the number below the least of this length
    have hbelow : n < firstOfLength (bodyLength n + 1) := hspec.2 (by omega)
    have hmono : firstOfLength (bodyLength n + 1) ≤ firstOfLength len := firstOfLength_mono hlt
    omega
  · exact heq
  · have habove : firstOfLength (len + 1) ≤ n := hspec.1 len hgt
    have hle : bodyLength n ≤ maxBody := bodyLength_le n
    have hbelow : n < firstOfLength (len + 1) := hnext (by omega)
    omega

/-- A number is not below those of its text's length. -/
theorem firstOfLength_le (n : Nat) : firstOfLength (bodyLength n) ≤ n := by
  cases hlen : bodyLength n with
  | zero => exact Nat.zero_le n
  | succ len => exact (bodyLength_spec n).1 len (by omega)

/-- What a number has above the least of its length fits the glyphs that follow the first. -/
theorem sub_firstOfLength_lt {n : Nat} (h : n < UInt64.size) :
    n - firstOfLength (bodyLength n) < 32 ^ bodyLength n := by
  have hle := firstOfLength_le n
  by_cases hlen : bodyLength n < maxBody
  · have hlt := (bodyLength_spec n).2 hlen
    rw [firstOfLength] at hlt
    have hpow : Nat.pow 32 (bodyLength n) = 32 ^ bodyLength n := rfl
    omega
  · have heq : bodyLength n = maxBody := le_antisymm (bodyLength_le n) (not_lt.mp hlen)
    -- The longest texts have room for every number of 64 bits.
    have hbig : UInt64.size < 32 ^ maxBody := by decide
    rw [heq]
    omega

/-! ## The whole text -/

theorem encodeNat_length (n : Nat) : (encodeNat n).length = bodyLength n + 1 := by
  simp [encodeNat]

/-- A number below 2^64 is read from its text, whatever follows. -/
theorem decode_encodeNat_append {n : Nat} (h : n < UInt64.size) (rest : Bytes) :
    decode (encodeNat n ++ rest) = .ok ((UInt64.ofNat n).toInt64, (encodeNat n).length) := by
  -- The glyphs that the first announces are the digits, and no more of what follows.
  have htake : (body (bodyLength n) (n - firstOfLength (bodyLength n)) ++ rest).take
      (bodyLength n) = (digits (bodyLength n) (n - firstOfLength (bodyLength n))).map glyph := by
    rw [List.take_append_of_le_length (by simp), List.take_of_length_le (by simp), body_eq_map]
  have hvalue : ofValues (digits (bodyLength n) (n - firstOfLength (bodyLength n))) +
      firstOfLength (bodyLength n) = n := by
    rw [ofValues_digits, Nat.mod_eq_of_lt (sub_firstOfLength_lt h)]
    have := firstOfLength_le n
    omega
  rw [encodeNat_length, encodeNat, List.cons_append, decode]
  simp only [length?_lengthGlyph (bodyLength_le n), htake, mapM_value?_glyph (fun _ => digits_lt),
    hvalue, if_pos h]
  rw [if_neg (by simp)]

/-- A number is read from its text, whatever follows. -/
theorem decode_encode_append (n : Int64) (rest : Bytes) :
    decode (encode n ++ rest) = .ok (n, (encode n).length) := by
  have hread := decode_encodeNat_append n.toUInt64.toNat_lt rest
  have hback : (UInt64.ofNat n.toUInt64.toNat).toInt64 = n := by simp
  rw [hback] at hread
  exact hread

theorem decodeAll_encode (n : Int64) : decodeAll (encode n) = .ok n := by
  have hread := decode_encode_append n []
  rw [List.append_nil] at hread
  unfold decodeAll
  rw [hread]
  exact if_pos rfl

theorem encode_ascii {n : Int64} {b : UInt8} (h : b ∈ encode n) : b.toNat < 128 := by
  rw [encode, encodeNat, body_eq_map] at h
  rcases List.mem_cons.mp h with rfl | h
  · exact glyph_lt _
  · obtain ⟨v, -, rfl⟩ := List.mem_map.mp h
    exact glyph_lt v

theorem ofText_bytes_text (n : Int64) : Bytes.ofText (text n) = encode n :=
  Bytes.ofText_toLatin1 fun _ => encode_ascii

/-- A number is read from its text. -/
theorem ofText_text (n : Int64) : ofText (text n) = .ok n := by
  rw [ofText, ofText_bytes_text, decodeAll_encode]

end PicBoard.GlyphNumber
