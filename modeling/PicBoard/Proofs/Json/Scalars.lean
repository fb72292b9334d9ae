import Mathlib.Tactic
import PicBoard.Json.Printer
import PicBoard.Json.Reader
import PicBoard.Proofs.Text.Decimal

/-!
# Strings and integers read back

What is written of a string reads back as that string, whatever bytes it has
(`readContent_flatMap`).  What is written of an integer reads back as that integer when it has no
more digits than integers may and nothing follows that could continue a number
(`readNumber_integer`).
-/

namespace PicBoard.Json

/-! ## Strings -/

theorem hexUnit?_hexDigit {n : Nat} (h : n < 32) :
    hexUnit? 48 48 (hexDigit (n / 16)) (hexDigit (n % 16)) = some n := by
  have hall : ∀ k : Fin 32,
      hexUnit? 48 48 (hexDigit (k / 16)) (hexDigit (k % 16)) = some k.val := by
    decide
  exact hall ⟨n, h⟩

/-- What stands for a control character is no half of a surrogate pair. -/
theorem lowSurrogate?_eq_none {n : Nat} (h : n < 32) (s : Bytes) : lowSurrogate? n s = none := by
  unfold lowSurrogate?
  split
  · split
    · exact if_neg (by omega)
    · rfl
  · rfl

/-- One step of reading takes in what is written of one byte. -/
theorem readContent_escapeByte (fuel : Nat) (b : UInt8) (rest : Bytes) :
    readContent (fuel + 1) (escapeByte b ++ rest) =
      (readContent fuel rest).map fun (s, rest) => (b :: s, rest) := by
  unfold escapeByte
  split_ifs with h34 h92 h8 h9 h10 h12 h13 hcontrol
  · subst h34
    rfl
  · subst h92
    rfl
  · subst h8
    rfl
  · subst h9
    rfl
  · subst h10
    rfl
  · subst h12
    rfl
  · subst h13
    rfl
  · -- any other control character is written as its number
    have hlt : b.toNat < 32 := by simpa [UInt8.lt_iff_toNat_lt] using hcontrol
    have hbyte : codePoint b.toNat = [b] := by
      unfold codePoint
      rw [if_pos (by omega), UInt8.ofNat_toNat]
    simp only [List.cons_append, List.nil_append, readContent]
    rw [if_neg (by decide), if_pos trivial, hexUnit?_hexDigit hlt]
    simp only [lowSurrogate?_eq_none hlt, hbyte, List.singleton_append]
  · simp only [List.singleton_append, readContent]
    rw [if_neg h34, if_neg h92, if_neg hcontrol]

theorem readContent_flatMap {fuel : Nat} {s : Bytes} (h : s.length < fuel) (rest : Bytes) :
    readContent fuel (s.flatMap escapeByte ++ 34 :: rest) = some (s, rest) := by
  induction s generalizing fuel with
  | nil =>
    obtain ⟨fuel, rfl⟩ := Nat.exists_eq_add_of_lt h
    simp [readContent]
  | cons b s ih =>
    obtain ⟨fuel, rfl⟩ : ∃ k, fuel = k + 1 := ⟨fuel - 1, by omega⟩
    rw [List.flatMap_cons, List.append_assoc, readContent_escapeByte,
      ih (by simpa using h)]
    rfl

/-! ## Numbers -/

/-- Whether a number that stands in front has come to its end. -/
def EndsNumber (rest : Bytes) : Prop :=
  ∀ b ∈ rest.head?, Decimal.isDigit b = false ∧ b ≠ 46 ∧ b ≠ 101 ∧ b ≠ 69

variable {rest : Bytes}

theorem readDigits_append {ds : Bytes} (hds : Decimal.IsNumeral ds) (hrest : EndsNumber rest) :
    readDigits (ds ++ rest) = some (ds, rest) := by
  have hstop : rest.takeWhile Decimal.isDigit = [] ∧ rest.dropWhile Decimal.isDigit = rest := by
    cases rest with
    | nil => exact ⟨rfl, rfl⟩
    | cons b rest =>
      have hb := (hrest b rfl).1
      simp [hb]
  unfold readDigits
  rw [List.takeWhile_append_of_pos hds.2, List.dropWhile_append_of_pos hds.2, hstop.1, hstop.2,
    List.append_nil]
  exact if_neg hds.1

/-- The digits of a number are the integer part of one. -/
theorem readWhole_digits (n : Nat) (hrest : EndsNumber rest) :
    readWhole (Decimal.digits n ++ rest) = some (Decimal.digits n, rest) := by
  rcases Nat.eq_zero_or_pos n with rfl | hpos
  · rw [Decimal.digits]
    rfl
  · have hdigits := readDigits_append (Decimal.isNumeral_digits n) hrest
    have hhead := Decimal.head?_digits_ne hpos
    unfold readWhole
    split
    · rename_i tail htext
      have hfirst := congrArg List.head? htext
      rw [List.head?_append_of_ne_nil _ (Decimal.isNumeral_digits n).1] at hfirst
      exact absurd hfirst hhead
    · exact hdigits

theorem readFraction_of_endsNumber (hrest : EndsNumber rest) :
    readFraction rest = some ([], rest) := by
  unfold readFraction
  split
  · exact absurd rfl (hrest 46 rfl).2.1
  · rfl

theorem readExponent_of_endsNumber (hrest : EndsNumber rest) :
    readExponent rest = some ([], rest) := by
  unfold readExponent
  split
  · rename_i e tail
    obtain ⟨-, -, hlower, hupper⟩ := hrest e rfl
    exact if_neg (by simp [hlower, hupper])
  · rfl

/-- The integer of digits, of which there are not too many. -/
theorem integer?_digits {n : Nat} (h : n < 10 ^ maxIntegerDigits) (minus : Bool) :
    integer? minus (Decimal.digits n) [] [] =
      if minus then if n = 0 then none else some (-(n : Int)) else some (n : Int) := by
  have hlength : (Decimal.digits n).length ≤ maxIntegerDigits := Decimal.length_digits_le h
  unfold integer?
  rw [if_neg (by simpa using hlength), Decimal.value_digits]

theorem readNumber_integer {n : Int} (h : n.natAbs < 10 ^ maxIntegerDigits)
    (hrest : EndsNumber rest) :
    readNumber (Decimal.integer n ++ rest) = some (.integer n, rest) := by
  unfold readNumber
  cases n with
  | ofNat m =>
    have hvalue : integer? false (Decimal.digits m) [] [] = some (Int.ofNat m) :=
      integer?_digits h false
    dsimp only [Decimal.integer]
    split
    · -- no digit is a sign
      rename_i tail htext
      have hfirst := congrArg List.head? htext
      rw [List.head?_append_of_ne_nil _ (Decimal.isNumeral_digits m).1] at hfirst
      have hdigit := (Decimal.isNumeral_digits m).2 45 (List.mem_of_mem_head? hfirst)
      exact absurd hdigit (by decide)
    · simp [readWhole_digits m hrest, readFraction_of_endsNumber hrest,
        readExponent_of_endsNumber hrest, hvalue]
  | negSucc m =>
    have hvalue : integer? true (Decimal.digits (m + 1)) [] [] = some (Int.negSucc m) :=
      integer?_digits h true
    simp [Decimal.integer, readWhole_digits (m + 1) hrest, readFraction_of_endsNumber hrest,
      readExponent_of_endsNumber hrest, hvalue]

end PicBoard.Json
