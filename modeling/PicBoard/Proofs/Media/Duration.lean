import Mathlib.Tactic
import PicBoard.Media.Container
import PicBoard.Proofs.Text.Decimal

/-!
# Durations are read exactly

A text is read as a duration exactly when it is two numerals with a point between them, each of a
number below 2^64, and what they come to is below 2^64 seconds (`parse_eq_some_iff`).  The sum of
the two is the one place where a number can grow too large (`add?_eq_some_iff`).  What is written of
a number of microseconds is read as that number (`reads_written`).
-/

namespace PicBoard.Duration

open Decimal (IsNumeral value)

variable {a b d : Duration}

/-! ## Sums -/

/-- A duration whose nanoseconds are a part of a second and whose seconds are a 64-bit number. -/
structure WellFormed (d : Duration) : Prop where
  nanos_lt : d.nanos < 10 ^ 9
  seconds_lt : d.seconds < 2 ^ 64

/-- With a part of a second as its nanoseconds, a duration is told by its length. -/
theorem WellFormed.eq_of_toNanos (ha : a.WellFormed) (hb : b.WellFormed)
    (h : a.toNanos = b.toNanos) : a = b := by
  have hanos := ha.nanos_lt
  have hbnos := hb.nanos_lt
  cases a
  cases b
  simp only [toNanos, Duration.mk.injEq] at *
  omega

/-- A duration of fewer than 2^64 seconds has its seconds below 2^64. -/
theorem wellFormed_iff :
    d.WellFormed ↔ d.nanos < 10 ^ 9 ∧ d.toNanos < 2 ^ 64 * 10 ^ 9 := by
  constructor
  · rintro ⟨hnanos, hseconds⟩
    refine ⟨hnanos, ?_⟩
    simp only [toNanos]
    omega
  · rintro ⟨hnanos, hlength⟩
    refine ⟨hnanos, ?_⟩
    simp only [toNanos] at hlength
    omega

/-- Nothing is lost in a sum, whatever is carried. -/
theorem toNanos_sum (a b : Duration) : (a.sum b).toNanos = a.toNanos + b.toNanos := by
  simp only [toNanos, sum]
  omega

theorem nanos_sum_lt (a b : Duration) : (a.sum b).nanos < 10 ^ 9 := Nat.mod_lt _ (by norm_num)

/-- There is a sum below 2^64 seconds only, and it is as long as the two together. -/
theorem add?_eq_some_iff :
    a.add? b = some d ↔ d.WellFormed ∧ d.toNanos = a.toNanos + b.toNanos := by
  have hsize : UInt64.size = 2 ^ 64 := rfl
  unfold add?
  rw [hsize]
  constructor
  · intro h
    split at h
    · rename_i hseconds
      cases h
      exact ⟨⟨nanos_sum_lt a b, hseconds⟩, toNanos_sum a b⟩
    · cases h
  · rintro ⟨hd, hlength⟩
    rw [← toNanos_sum] at hlength
    -- a sum as short as a well-formed duration is well-formed, and so it is that duration
    have hsum : (a.sum b).WellFormed := by
      rw [wellFormed_iff, ← hlength]
      exact ⟨nanos_sum_lt a b, (wellFormed_iff.mp hd).2⟩
    rw [if_pos hsum.seconds_lt, hsum.eq_of_toNanos hd hlength.symm]

theorem toNanos_ofSeconds (n : Nat) : (ofSeconds n).toNanos = n * 10 ^ 9 := by
  simp [toNanos, ofSeconds]

theorem toNanos_ofMicros (n : Nat) : (ofMicros n).toNanos = n * 10 ^ 3 := by
  simp only [toNanos, ofMicros]
  omega

theorem wellFormed_ofMicros {n : Nat} (h : n < 2 ^ 64 * 10 ^ 6) : (ofMicros n).WellFormed := by
  constructor
  · show n % 1000000 * 1000 < 10 ^ 9
    omega
  · show n / 1000000 < 2 ^ 64
    omega

/-! ## Reading -/

/-- A text that stands for a duration: a numeral of seconds, a point and a numeral of microseconds,
each of a number below 2^64 and together of less than 2^64 seconds. -/
inductive Reads : Bytes → Duration → Prop where
  | intro {seconds micros : Bytes} {d : Duration} (whole : IsNumeral seconds)
      (part : IsNumeral micros) (whole_lt : value seconds < 2 ^ 64) (part_lt : value micros < 2 ^ 64)
      (sum_lt : value seconds * 10 ^ 6 + value micros < 2 ^ 64 * 10 ^ 6) (wellFormed : d.WellFormed)
      (exact : d.toNanos = value seconds * 10 ^ 9 + value micros * 10 ^ 3) :
      Reads (seconds ++ 46 :: micros) d

/-- The cut is at the first point. -/
theorem splitPoint_eq_some_iff {text front back : Bytes} :
    splitPoint text = some (front, back) ↔ text = front ++ 46 :: back ∧ 46 ∉ front := by
  induction text generalizing front with
  | nil => simp [splitPoint]
  | cons x rest ih =>
    unfold splitPoint
    by_cases hx : x = 46
    · subst hx
      rw [if_pos rfl]
      cases front with
      | nil => simp [eq_comm]
      | cons y front =>
        -- a cut further on would have the first point in front of it
        simp only [Option.some.injEq, Prod.mk.injEq, reduceCtorEq, false_and, List.cons_append,
          List.cons.injEq, List.mem_cons, not_or, false_iff, not_and, not_not]
        rintro ⟨rfl, -⟩ hne
        exact absurd rfl hne
    · rw [if_neg hx]
      cases front with
      | nil => simp [hx]
      | cons y front =>
        simp only [Option.map_eq_some_iff, Prod.mk.injEq, Prod.exists, List.cons.injEq,
          List.cons_append, List.mem_cons, not_or]
        constructor
        · rintro ⟨front', back', h, ⟨rfl, rfl⟩, rfl⟩
          obtain ⟨rfl, hfront⟩ := ih.mp h
          exact ⟨⟨rfl, rfl⟩, Ne.symm hx, hfront⟩
        · rintro ⟨⟨rfl, rfl⟩, -, hfront⟩
          exact ⟨front, back, ih.mpr ⟨rfl, hfront⟩, ⟨rfl, rfl⟩, rfl⟩

theorem isNumeral_iff {b : Bytes} : isNumeral b = true ↔ IsNumeral b := by
  simp [isNumeral, IsNumeral]

/-- No point stands in a numeral. -/
theorem point_not_mem {b : Bytes} (h : IsNumeral b) : 46 ∉ b := by
  intro hmem
  exact absurd (h.2 46 hmem) (by decide)

/-- A numeral is read as its number when that is not over the limit; there is no sign in it. -/
theorem readNat_of_isNumeral {limit n : Nat} {b : Bytes} (h : IsNumeral b) :
    Decimal.readNat limit b = .ok n ↔ value b = n ∧ n ≤ limit := by
  rw [Decimal.readNat_eq_ok_iff]
  constructor
  · rintro ⟨digits, rfl | rfl, -, hn⟩
    · exact hn
    · exact absurd (h.2 43 List.mem_cons_self) (by decide)
  · intro hn
    exact ⟨b, .inl rfl, h, hn⟩

/-- A text is read exactly when it stands for a duration, and as that one. -/
theorem parse_eq_some_iff {text : Bytes} : parse text = some d ↔ Reads text d := by
  have hlimit : Decimal.unsignedMax 64 = 2 ^ 64 - 1 := rfl
  constructor
  · intro h
    unfold parse at h
    split at h
    · cases h
    · rename_i front back hsplit
      obtain ⟨rfl, -⟩ := splitPoint_eq_some_iff.mp hsplit
      split at h
      · rename_i hboth
        rw [Bool.and_eq_true, isNumeral_iff, isNumeral_iff] at hboth
        split at h
        · rename_i s m hs hm
          obtain ⟨rfl, hsle⟩ := (readNat_of_isNumeral hboth.1).mp hs
          obtain ⟨rfl, hmle⟩ := (readNat_of_isNumeral hboth.2).mp hm
          obtain ⟨hd, hsum⟩ := add?_eq_some_iff.mp h
          have hlength := (wellFormed_iff.mp hd).2
          rw [toNanos_ofSeconds, toNanos_ofMicros] at hsum
          exact .intro hboth.1 hboth.2 (by omega) (by omega) (by omega) hd hsum
        · cases h
      · cases h
  · intro h
    cases h with
    | @intro front back _ whole part whole_lt part_lt _ wellFormed exact =>
      -- the first point is the one between the numerals, since there is none in a numeral
      have hsplit : splitPoint (front ++ 46 :: back) = some (front, back) :=
        splitPoint_eq_some_iff.mpr ⟨rfl, point_not_mem whole⟩
      have hnumerals : (isNumeral front && isNumeral back) = true := by
        rw [Bool.and_eq_true, isNumeral_iff, isNumeral_iff]
        exact ⟨whole, part⟩
      have hseconds : Decimal.readNat (Decimal.unsignedMax 64) front = .ok (value front) :=
        (readNat_of_isNumeral whole).mpr ⟨rfl, by omega⟩
      have hmicros : Decimal.readNat (Decimal.unsignedMax 64) back = .ok (value back) :=
        (readNat_of_isNumeral part).mpr ⟨rfl, by omega⟩
      unfold parse
      rw [hsplit]
      simp only [hnumerals, if_true, hseconds, hmicros]
      rw [add?_eq_some_iff, toNanos_ofSeconds, toNanos_ofMicros]
      exact ⟨wellFormed, exact⟩

/-! ## Writing -/

/-- The last digits of a number, with zeros in front where it has fewer. -/
def lastDigits : (places : Nat) → Nat → Bytes
  | 0, _ => []
  | places + 1, n => lastDigits places (n / 10) ++ [Decimal.digitByte n]

/-- A number of microseconds as it is written: the seconds, a point and six digits. -/
def written (micros : Nat) : Bytes :=
  Decimal.digits (micros / 10 ^ 6) ++ 46 :: lastDigits 6 (micros % 10 ^ 6)

theorem length_lastDigits (places n : Nat) : (lastDigits places n).length = places := by
  induction places generalizing n with
  | zero => rfl
  | succ places ih => rw [lastDigits, List.length_append, ih, List.length_singleton]

theorem isDigit_of_mem_lastDigits {places n : Nat} {x : UInt8} (h : x ∈ lastDigits places n) :
    Decimal.isDigit x = true := by
  induction places generalizing n with
  | zero => cases h
  | succ places ih =>
    rw [lastDigits, List.mem_append, List.mem_singleton] at h
    rcases h with h | rfl
    · exact ih h
    · exact Decimal.isDigit_digitByte n

theorem isNumeral_lastDigits {places : Nat} (h : 0 < places) (n : Nat) :
    IsNumeral (lastDigits places n) := by
  refine ⟨?_, fun x hx => isDigit_of_mem_lastDigits hx⟩
  apply List.ne_nil_of_length_pos
  rwa [length_lastDigits]

/-- Zeros in front do not count. -/
theorem value_lastDigits (places n : Nat) : value (lastDigits places n) = n % 10 ^ places := by
  induction places generalizing n with
  | zero =>
    rw [pow_zero, Nat.mod_one]
    rfl
  | succ places ih =>
    rw [lastDigits, Decimal.value_append_singleton, ih, Decimal.digitByte_toNat,
      Nat.add_sub_cancel_left, pow_succ', Nat.mod_mul]
    exact Nat.add_comm _ _

/-- What is written of a number of microseconds stands for it. -/
theorem reads_written {m : Nat} (h : m < 2 ^ 64 * 10 ^ 6) : Reads (written m) (ofMicros m) := by
  have hvalue : value (lastDigits 6 (m % 10 ^ 6)) = m % 10 ^ 6 := by
    rw [value_lastDigits, Nat.mod_mod]
  apply Reads.intro (Decimal.isNumeral_digits _) (isNumeral_lastDigits (by decide) _)
  · rw [Decimal.value_digits]
    omega
  · rw [hvalue]
    omega
  · rw [Decimal.value_digits, hvalue]
    omega
  · exact wellFormed_ofMicros h
  · rw [Decimal.value_digits, hvalue, toNanos_ofMicros]
    omega

/-- Only digits and a point are written. -/
theorem toNat_lt_of_mem_written {m : Nat} {x : UInt8} (h : x ∈ written m) : x.toNat < 128 := by
  have hdigit : ∀ y : UInt8, Decimal.isDigit y = true → y.toNat < 128 := by
    intro y hy
    have hrange := Decimal.isDigit_iff.mp hy
    omega
  rw [written, List.mem_append, List.mem_cons] at h
  rcases h with h | rfl | h
  · exact hdigit x ((Decimal.isNumeral_digits _).2 x h)
  · decide
  · exact hdigit x (isDigit_of_mem_lastDigits h)

/-! ## Texts -/

theorem parseDuration_eq_ok_iff {s : String} :
    Container.parseDuration s = .ok d ↔ Reads (Bytes.ofText s) d := by
  rw [← parse_eq_some_iff]
  unfold Container.parseDuration
  cases parse (Bytes.ofText s) with
  | none => simp
  | some d' => simp

/-- What is not read is reported as it stands. -/
theorem parseDuration_eq_error_iff {s : String} :
    Container.parseDuration s = .error (.badDuration s) ↔ ¬ ∃ d, Reads (Bytes.ofText s) d := by
  simp only [← parse_eq_some_iff]
  unfold Container.parseDuration
  cases parse (Bytes.ofText s) with
  | none => simp
  | some d' => simp

/-- A text is read as a duration exactly when it stands for it, and is refused as a bad duration
when it stands for none, however many digits it has.  Every number of microseconds below 2^64
seconds is read back from what is written of it. -/
theorem texts_read_exactly :
    (∀ (s : String) (d : Duration),
      Container.parseDuration s = .ok d ↔ Reads (Bytes.ofText s) d) ∧
    (∀ s : String,
      Container.parseDuration s = .error (.badDuration s) ↔ ¬ ∃ d, Reads (Bytes.ofText s) d) ∧
    ∀ m < 2 ^ 64 * 10 ^ 6, Container.parseDuration (written m).toLatin1 = .ok (ofMicros m) ∧
      (ofMicros m).toNanos = m * 10 ^ 3 := by
  refine ⟨fun s d => parseDuration_eq_ok_iff, fun s => parseDuration_eq_error_iff, ?_⟩
  intro m hm
  refine ⟨?_, toNanos_ofMicros m⟩
  rw [parseDuration_eq_ok_iff, Bytes.ofText_toLatin1 fun x hx => toNat_lt_of_mem_written hx]
  exact reads_written hm

/-- The last microsecond below 2^64 seconds is read back, and the one after it is not read, with its
second carried from behind the point. -/
theorem last_microsecond_read_back :
    2 ^ 64 * 10 ^ 6 - 1 < 2 ^ 64 * 10 ^ 6 ∧
      Container.parseDuration (written (2 ^ 64 * 10 ^ 6 - 1)).toLatin1 =
        .ok { seconds := 2 ^ 64 - 1, nanos := 999999000 } ∧
      Container.parseDuration "18446744073709551615.1000000" =
        .error (.badDuration "18446744073709551615.1000000") :=
  ⟨by decide, (texts_read_exactly.2.2 (2 ^ 64 * 10 ^ 6 - 1) (by decide)).1, by rfl⟩

end PicBoard.Duration
