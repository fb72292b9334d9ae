import Mathlib.Tactic
import PicBoard.Proofs.GlyphNumber.Inverse

/-!
# Texts of numbers sort as the numbers do

Bytes are compared from the front, and where one ends first it is less.  Shorter texts stand for
lesser numbers and begin with lesser glyphs; among texts of one length the digits decide, the most
significant first (`encode_lt_encode_iff`).  Since no text is the start of another, texts that
others follow compare as they do alone (`append_lt_append_iff`).
-/

namespace PicBoard.GlyphNumber

/-! ## Glyphs -/

/-- The alphabet is in ascending order. -/
theorem glyph_lt_glyph_iff {u v : Nat} (hu : u < 32) (hv : v < 32) :
    glyph u < glyph v ↔ u < v := by
  have hall : ∀ j k : Fin 32, glyph j < glyph k ↔ j.val < k.val := by decide +kernel
  exact hall ⟨u, hu⟩ ⟨v, hv⟩

theorem glyph_inj {u v : Nat} (hu : u < 32) (hv : v < 32) : glyph u = glyph v ↔ u = v := by
  constructor
  · intro h
    have hread : value? (glyph u) = some u := value?_glyph hu
    rw [h, value?_glyph hv] at hread
    exact (Option.some.inj hread).symm
  · rintro rfl
    rfl

/-! ## Digits -/

/-- What follows a leading value weighs less than one of it. -/
theorem leading_lt_iff {b v w x y : Nat} (hx : x < b) (hy : y < b) :
    v * b + x < w * b + y ↔ v < w ∨ v = w ∧ x < y := by
  rcases lt_trichotomy v w with hlt | rfl | hgt
  · have hmul : (v + 1) * b ≤ w * b := Nat.mul_le_mul_right b hlt
    rw [Nat.add_mul, Nat.one_mul] at hmul
    constructor
    · intro _
      exact .inl hlt
    · intro _
      omega
  · simp
  · have hmul : (w + 1) * b ≤ v * b := Nat.mul_le_mul_right b hgt
    rw [Nat.add_mul, Nat.one_mul] at hmul
    constructor
    · intro h
      omega
    · rintro (h | ⟨h, -⟩)
      · omega
      · omega

/-- Values of one length compare as the numbers that they denote. -/
theorem map_glyph_lt_iff {vs ws : List Nat} (hlen : vs.length = ws.length)
    (hvs : ∀ v ∈ vs, v < 32) (hws : ∀ w ∈ ws, w < 32) :
    vs.map glyph < ws.map glyph ↔ ofValues vs < ofValues ws := by
  induction vs generalizing ws with
  | nil =>
    cases ws with
    | nil => simp
    | cons w ws => cases hlen
  | cons v vs ih =>
    cases ws with
    | nil => cases hlen
    | cons w ws =>
      rw [List.forall_mem_cons] at hvs hws
      have hsame : vs.length = ws.length := Nat.succ.inj hlen
      have hv : ofValues vs < 32 ^ ws.length := hsame ▸ ofValues_lt hvs.2
      have hw : ofValues ws < 32 ^ ws.length := ofValues_lt hws.2
      rw [List.map_cons, List.map_cons, List.cons_lt_cons_iff, glyph_lt_glyph_iff hvs.1 hws.1,
        glyph_inj hvs.1 hws.1, ih hsame hvs.2 hws.2, ofValues_cons, ofValues_cons, hsame,
        leading_lt_iff hv hw]

/-! ## Numbers -/

/-- A shorter text is that of a lesser number. -/
theorem lt_of_bodyLength_lt {m n : Nat} (h : bodyLength m < bodyLength n) : m < n := by
  have hle : bodyLength n ≤ maxBody := bodyLength_le n
  have hbelow : m < firstOfLength (bodyLength m + 1) := (bodyLength_spec m).2 (by omega)
  have hmono : firstOfLength (bodyLength m + 1) ≤ firstOfLength (bodyLength n) :=
    firstOfLength_mono h
  have habove : firstOfLength (bodyLength n) ≤ n := firstOfLength_le n
  omega

theorem lengthGlyph_lt_iff {k len : Nat} (hk : k ≤ maxBody) (hlen : len ≤ maxBody) :
    lengthGlyph k < lengthGlyph len ↔ k < len := by
  simp only [maxBody] at hk hlen
  rw [lengthGlyph, lengthGlyph, glyph_lt_glyph_iff (by omega) (by omega)]
  omega

theorem lengthGlyph_inj {k len : Nat} (hk : k ≤ maxBody) (hlen : len ≤ maxBody) :
    lengthGlyph k = lengthGlyph len ↔ k = len := by
  simp only [maxBody] at hk hlen
  rw [lengthGlyph, lengthGlyph, glyph_inj (by omega) (by omega)]
  omega

/-- Among numbers of one length the glyphs after the first decide. -/
theorem body_lt_iff {m n : Nat} (hm : m < UInt64.size) (hn : n < UInt64.size)
    (hlen : bodyLength m = bodyLength n) :
    body (bodyLength m) (m - firstOfLength (bodyLength m)) <
        body (bodyLength n) (n - firstOfLength (bodyLength n)) ↔ m < n := by
  have hfirst : firstOfLength (bodyLength n) ≤ m := hlen ▸ firstOfLength_le m
  have hm' := sub_firstOfLength_lt hm
  have hn' := sub_firstOfLength_lt hn
  rw [body_eq_map, body_eq_map, map_glyph_lt_iff (by simp [hlen]) (fun _ => digits_lt)
    (fun _ => digits_lt), ofValues_digits, ofValues_digits, Nat.mod_eq_of_lt hm',
    Nat.mod_eq_of_lt hn', hlen]
  omega

theorem encodeNat_lt_encodeNat_iff {m n : Nat} (hm : m < UInt64.size) (hn : n < UInt64.size) :
    encodeNat m < encodeNat n ↔ m < n := by
  have hml : bodyLength m ≤ maxBody := bodyLength_le m
  have hnl : bodyLength n ≤ maxBody := bodyLength_le n
  rw [encodeNat, encodeNat, List.cons_lt_cons_iff, lengthGlyph_lt_iff hml hnl,
    lengthGlyph_inj hml hnl]
  rcases lt_trichotomy (bodyLength m) (bodyLength n) with hlt | heq | hgt
  · have hlt' : m < n := lt_of_bodyLength_lt hlt
    simp [hlt, hlt']
  · rw [body_lt_iff hm hn heq]
    constructor
    · rintro (h | ⟨-, h⟩)
      · omega
      · exact h
    · intro h
      exact .inr ⟨heq, h⟩
  · have hgt' : n < m := lt_of_bodyLength_lt hgt
    constructor
    · rintro (h | ⟨h, -⟩)
      · omega
      · omega
    · intro h
      omega

/-- Texts sort as their numbers do, read without sign. -/
theorem encode_lt_encode_iff (a b : Int64) : encode a < encode b ↔ a.toUInt64 < b.toUInt64 := by
  rw [UInt64.lt_iff_toNat_lt]
  exact encodeNat_lt_encodeNat_iff a.toUInt64.toNat_lt b.toUInt64.toNat_lt

/-! ## Texts that others follow -/

/-- Where neither string is the start of the other, what follows them counts only after them. -/
theorem append_lt_append_iff {p q : Bytes} (hpq : p <+: q → p = q) (hqp : q <+: p → p = q)
    (x y : Bytes) : p ++ x < q ++ y ↔ p < q ∨ p = q ∧ x < y := by
  induction p generalizing q with
  | nil =>
    have hq : [] = q := hpq List.nil_prefix
    subst hq
    simp
  | cons a p ih =>
    cases q with
    | nil => cases hqp List.nil_prefix
    | cons b q =>
      rw [List.cons_append, List.cons_append, List.cons_lt_cons_iff, List.cons_lt_cons_iff,
        List.cons.injEq]
      by_cases hab : a = b
      · subst hab
        have hp : p <+: q → p = q := by
          intro h
          exact (List.cons.inj (hpq (List.cons_prefix_cons.mpr ⟨rfl, h⟩))).2
        have hq : q <+: p → p = q := by
          intro h
          exact (List.cons.inj (hqp (List.cons_prefix_cons.mpr ⟨rfl, h⟩))).2
        rw [ih hp hq]
        simp
      · simp [hab]

/-- A text that is followed by something compares as it does alone, and only after equal texts
counts what follows. -/
theorem encode_append_lt_iff (a b : Int64) (x y : Bytes) :
    encode a ++ x < encode b ++ y ↔ a.toUInt64 < b.toUInt64 ∨ a = b ∧ x < y := by
  have hinj : encode a = encode b ↔ a = b := by
    constructor
    · intro h
      exact encode_prefix_iff.mp (h ▸ List.prefix_refl _)
    · rintro rfl
      rfl
  have hab : encode a <+: encode b → encode a = encode b := fun h =>
    hinj.mpr (encode_prefix_iff.mp h)
  have hba : encode b <+: encode a → encode a = encode b := fun h =>
    hinj.mpr (encode_prefix_iff.mp h).symm
  rw [append_lt_append_iff hab hba, encode_lt_encode_iff, hinj]

end PicBoard.GlyphNumber
