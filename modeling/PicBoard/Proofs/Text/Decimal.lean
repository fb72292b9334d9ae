import Mathlib.Data.Nat.Digits.Defs
import Mathlib.Tactic.Ring
import PicBoard.Proofs.Text.Bytes
import PicBoard.Text.Decimal

/-!
# Decimal numbers are read exactly

A number is read from a text exactly when the text is a numeral of it, a plus sign in front or
not, and it is not over the limit (`readNat_ofText_eq_ok_iff`).  What is written of a number is a
numeral of it (`isNumeral_digits`, `value_digits`) with no zero in front.
-/

namespace PicBoard.Decimal

/-! ## Digits as bytes -/

/-- A numeral: at least one digit, and nothing but digits. -/
def IsNumeral (b : Bytes) : Prop := b ≠ [] ∧ ∀ x ∈ b, isDigit x = true

theorem isDigit_iff {x : UInt8} : isDigit x = true ↔ 48 ≤ x.toNat ∧ x.toNat ≤ 57 := by
  simp [isDigit]

/-- Digits that follow others shift them to the left. -/
theorem foldl_eq_value (acc : Nat) (b : Bytes) :
    b.foldl (fun n x => 10 * n + (x.toNat - 48)) acc = acc * 10 ^ b.length + value b := by
  induction b generalizing acc with
  | nil => simp [value]
  | cons x rest ih =>
    rw [value, List.foldl_cons, List.foldl_cons, ih, ih (10 * 0 + (x.toNat - 48)), List.length_cons]
    ring

theorem value_cons (x : UInt8) (rest : Bytes) :
    value (x :: rest) = (x.toNat - 48) * 10 ^ rest.length + value rest := by
  rw [value, List.foldl_cons, foldl_eq_value]
  ring

/-- The value of digits is that of positional notation. -/
theorem value_eq_ofDigits (b : Bytes) :
    value b = Nat.ofDigits 10 (b.reverse.map fun x => x.toNat - 48) := by
  induction b with
  | nil => rfl
  | cons x rest ih =>
    rw [value_cons, List.reverse_cons, List.map_append, Nat.ofDigits_append, ← ih,
      List.map_singleton, Nat.ofDigits_singleton, List.length_map, List.length_reverse]
    ring

/-- Digits are read after others exactly when their number is not over the limit. -/
theorem readDigits_eq_ok_iff {limit acc n : Nat} {b : Bytes} (hacc : acc ≤ limit) :
    readDigits limit acc b = .ok n ↔
      (∀ x ∈ b, isDigit x = true) ∧ acc * 10 ^ b.length + value b = n ∧ n ≤ limit := by
  induction b generalizing acc with
  | nil =>
    simp only [readDigits, Except.ok.injEq, List.not_mem_nil, false_implies, implies_true,
      true_and, List.length_nil, pow_zero, mul_one, value, List.foldl_nil, add_zero]
    omega
  | cons x rest ih =>
    have hvalue : acc * 10 ^ (x :: rest).length + value (x :: rest) =
        (10 * acc + (x.toNat - 48)) * 10 ^ rest.length + value rest := by
      rw [value_cons, List.length_cons]
      ring
    rw [hvalue, List.forall_mem_cons]
    by_cases hx : isDigit x = true
    · have hdigit : digit? x = some (x.toNat - 48) := if_pos hx
      by_cases hnext : 10 * acc + (x.toNat - 48) ≤ limit
      · have hstep : readDigits limit acc (x :: rest) =
            readDigits limit (10 * acc + (x.toNat - 48)) rest := by
          rw [readDigits, hdigit]
          exact if_pos hnext
        rw [hstep, ih hnext]
        simp only [hx, true_and]
      · have hstep : readDigits limit acc (x :: rest) = .error .tooLarge := by
          rw [readDigits, hdigit]
          exact if_neg hnext
        -- what is over the limit stays so, whatever digits follow
        have hle : 10 * acc + (x.toNat - 48) ≤
            (10 * acc + (x.toNat - 48)) * 10 ^ rest.length :=
          Nat.le_mul_of_pos_right _ (by positivity)
        rw [hstep]
        simp only [reduceCtorEq, false_iff]
        rintro ⟨-, hn, hlimit⟩
        omega
    · have hdigit : digit? x = none := if_neg hx
      rw [readDigits, hdigit]
      simp [hx]

theorem readNat_eq_ok_iff {limit n : Nat} {b : Bytes} :
    readNat limit b = .ok n ↔
      ∃ digits, (b = digits ∨ b = 43 :: digits) ∧ IsNumeral digits ∧ value digits = n ∧
        n ≤ limit := by
  have hplus : ∀ rest : Bytes, ¬ IsNumeral (43 :: rest) := by
    rintro rest ⟨-, h⟩
    exact absurd (h 43 List.mem_cons_self) (by decide)
  have hdigits : ∀ digits : Bytes, digits ≠ [] → (readDigits limit 0 digits = .ok n ↔
      IsNumeral digits ∧ value digits = n ∧ n ≤ limit) := by
    intro digits hne
    rw [readDigits_eq_ok_iff (Nat.zero_le limit), Nat.zero_mul, Nat.zero_add, IsNumeral]
    simp [hne]
  unfold readNat
  -- nothing, a sign alone, a sign and more, and what has no sign
  split
  · simp [IsNumeral]
  · constructor
    · rintro ⟨⟩
    · rintro ⟨digits, rfl | hb, hnumeral, -⟩
      · exact absurd hnumeral (hplus [])
      · cases hb
        exact absurd rfl hnumeral.1
  · rename_i digits hne
    rw [hdigits digits (by simpa using hne)]
    constructor
    · intro h
      exact ⟨digits, .inr rfl, h⟩
    · rintro ⟨ds, rfl | hb, h⟩
      · exact absurd h.1 (hplus digits)
      · cases hb
        exact h
  · rename_i hnil hplusOnly hplusCons
    rw [hdigits b (by simpa using hnil)]
    constructor
    · intro h
      exact ⟨b, .inl rfl, h⟩
    · rintro ⟨ds, rfl | hb, h⟩
      · exact h
      · exact absurd hb (hplusCons ds)

/-! ## Digits that are written -/

theorem digitByte_toNat (n : Nat) : (digitByte n).toNat = 48 + n % 10 := by
  unfold digitByte
  exact UInt8.toNat_ofNat_of_lt' (by simp only [UInt8.size]; omega)

theorem isDigit_digitByte (n : Nat) : isDigit (digitByte n) = true := by
  rw [isDigit_iff, digitByte_toNat]
  omega

/-- A digit that follows others counts one, and they count ten times what they did. -/
theorem value_append_singleton (b : Bytes) (x : UInt8) :
    value (b ++ [x]) = 10 * value b + (x.toNat - 48) := by
  simp [value]

theorem isNumeral_digits (n : Nat) : IsNumeral (digits n) := by
  fun_induction digits n with
  | case1 n hlt => exact ⟨by simp, by simpa using isDigit_digitByte n⟩
  | case2 n hge ih =>
    refine ⟨by simp, ?_⟩
    intro x hx
    rcases List.mem_append.mp hx with hx | hx
    · exact ih.2 x hx
    · rw [List.mem_singleton.mp hx]
      exact isDigit_digitByte n

theorem value_digits (n : Nat) : value (digits n) = n := by
  fun_induction digits n with
  | case1 n hlt =>
    have hbyte := digitByte_toNat n
    simp only [value, List.foldl_cons, List.foldl_nil]
    omega
  | case2 n hge ih =>
    rw [value_append_singleton, ih, digitByte_toNat]
    omega

/-- Numbers of so many digits are written with no more. -/
theorem length_digits_le {n k : Nat} (h : n < 10 ^ (k + 1)) : (digits n).length ≤ k + 1 := by
  induction k generalizing n with
  | zero =>
    have hlt : n < 10 := by simpa using h
    rw [digits, if_pos hlt]
    simp
  | succ k ih =>
    rw [digits]
    split
    · simp
    · have hshort : n / 10 < 10 ^ (k + 1) := by
        rw [pow_succ] at h
        omega
      simpa using ih hshort

/-- No zero is written in front. -/
theorem head?_digits_ne {n : Nat} (h : 0 < n) : (digits n).head? ≠ some 48 := by
  fun_induction digits n with
  | case1 n hlt =>
    intro hzero
    have hbyte := digitByte_toNat n
    have hsame : digitByte n = 48 := by simpa using hzero
    rw [hsame] at hbyte
    have h48 : (48 : UInt8).toNat = 48 := rfl
    omega
  | case2 n hge ih =>
    rw [List.head?_append_of_ne_nil _ (isNumeral_digits _).1]
    exact ih (by omega)

/-! ## Digits as characters -/

/-- Characters that name a number: its digits, the first of the most worth, with a plus sign in
front or without. -/
def Names (cs : List Char) (n : Nat) : Prop :=
  ∃ digits : List Char, (cs = digits ∨ cs = '+' :: digits) ∧ digits ≠ [] ∧
    (∀ c ∈ digits, c.isDigit = true) ∧
    Nat.ofDigits 10 (digits.reverse.map fun c => c.toNat - 48) = n

/-- The character of a digit. -/
theorem ofNat_toNat_of_isDigit {x : UInt8} (h : isDigit x = true) :
    (Char.ofNat x.toNat).toNat = x.toNat ∧ (Char.ofNat x.toNat).isDigit = true := by
  rcases isDigit_iff.mp h with ⟨hlo, hhi⟩
  have hall : ∀ k : Fin 128, 48 ≤ k.val → k.val ≤ 57 →
      (Char.ofNat k).toNat = k ∧ (Char.ofNat k).isDigit = true := by
    decide
  exact hall ⟨x.toNat, by omega⟩ hlo hhi

theorem toNat_of_isDigit {c : Char} (h : c.isDigit = true) : 48 ≤ c.toNat ∧ c.toNat ≤ 57 := by
  simp only [Char.isDigit, Bool.and_eq_true, decide_eq_true_eq, ge_iff_le,
    UInt32.le_iff_toNat_le] at h
  exact h

/-- The byte of a digit. -/
theorem isDigit_ofNat_toNat {c : Char} (h : c.isDigit = true) :
    isDigit (UInt8.ofNat c.toNat) = true ∧ Char.ofNat (UInt8.ofNat c.toNat).toNat = c := by
  have hrange := toNat_of_isDigit h
  have hbyte : (UInt8.ofNat c.toNat).toNat = c.toNat :=
    UInt8.toNat_ofNat_of_lt' (by simp only [UInt8.size]; omega)
  constructor
  · rw [isDigit_iff, hbyte]
    exact hrange
  · rw [hbyte, Char.ofNat_toNat]

/-- The digits that name a number are those whose bytes have it as their value. -/
theorem names_iff {cs : List Char} {n : Nat} :
    Names cs n ↔
      ∃ b : Bytes, (cs = (b.map fun x => Char.ofNat x.toNat) ∨
        cs = '+' :: b.map fun x => Char.ofNat x.toNat) ∧ IsNumeral b ∧ value b = n := by
  have hvalue : ∀ b : Bytes, (∀ x ∈ b, isDigit x = true) →
      Nat.ofDigits 10 ((b.map fun x => Char.ofNat x.toNat).reverse.map fun c => c.toNat - 48) =
        value b := by
    intro b hb
    rw [value_eq_ofDigits, ← List.map_reverse, List.map_map]
    congr 1
    refine List.map_congr_left ?_
    intro x hx
    rw [Function.comp_apply, (ofNat_toNat_of_isDigit (hb x (List.mem_reverse.mp hx))).1]
  constructor
  · rintro ⟨digits, hcs, hne, hdigits, rfl⟩
    have hback : ((digits.map fun c => UInt8.ofNat c.toNat).map fun x => Char.ofNat x.toNat) =
        digits := by
      rw [List.map_map]
      refine (List.map_congr_left ?_).trans (List.map_id digits)
      intro c hc
      exact (isDigit_ofNat_toNat (hdigits c hc)).2
    have hb : ∀ x ∈ digits.map fun c => UInt8.ofNat c.toNat, isDigit x = true := by
      intro x hx
      rcases List.mem_map.mp hx with ⟨c, hc, rfl⟩
      exact (isDigit_ofNat_toNat (hdigits c hc)).1
    refine ⟨digits.map fun c => UInt8.ofNat c.toNat, ?_, ⟨by simpa using hne, hb⟩, ?_⟩
    · rw [hback]
      exact hcs
    · rw [← hvalue _ hb, hback]
  · rintro ⟨b, hcs, ⟨hne, hb⟩, rfl⟩
    refine ⟨_, hcs, by simpa using hne, ?_, hvalue b hb⟩
    intro c hc
    rcases List.mem_map.mp hc with ⟨x, hx, rfl⟩
    exact (ofNat_toNat_of_isDigit (hb x hx)).2

/-- A number is read from a text exactly when its characters name the number and it is not over
the limit. -/
theorem readNat_ofText_eq_ok_iff {limit n : Nat} {s : String} :
    readNat limit (Bytes.ofText s) = .ok n ↔ Names s.toList n ∧ n ≤ limit := by
  have hascii : ∀ b : Bytes, IsNumeral b → ∀ x ∈ 43 :: b, x.toNat < 128 := by
    rintro b ⟨-, hb⟩ x hx
    rcases List.mem_cons.mp hx with rfl | hx
    · decide
    · have hrange := isDigit_iff.mp (hb x hx)
      omega
  have htext : ∀ b : Bytes, IsNumeral b → ((Bytes.ofText s = b ∨ Bytes.ofText s = 43 :: b) ↔
      (s.toList = (b.map fun x => Char.ofNat x.toNat) ∨
        s.toList = '+' :: b.map fun x => Char.ofNat x.toNat)) := by
    intro b hb
    have hplain : ∀ x ∈ b, x.toNat < 128 := fun x hx => hascii b hb x (List.mem_cons_of_mem _ hx)
    exact or_congr (Bytes.ofText_eq_iff hplain) (Bytes.ofText_eq_iff (hascii b hb))
  rw [readNat_eq_ok_iff, names_iff]
  constructor
  · rintro ⟨b, hs, hb, hn, hlimit⟩
    exact ⟨⟨b, (htext b hb).mp hs, hb, hn⟩, hlimit⟩
  · rintro ⟨⟨b, hs, hb, hn⟩, hlimit⟩
    exact ⟨b, (htext b hb).mpr hs, hb, hn, hlimit⟩

end PicBoard.Decimal
