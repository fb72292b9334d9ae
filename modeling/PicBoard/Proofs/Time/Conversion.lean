import Mathlib.Data.Rat.Floor
import Mathlib.Data.Set.Function
import PicBoard.Proofs.Time

/-!
# Clock readings convert without loss

A reading is told by its place on the time line, and so is a timestamp with nanoseconds in range.
Moving a reading by seconds or by nanoseconds moves its place by as much (`shift?_eq_some_iff`,
`addNanos?_eq_some_iff`), so both conversions keep the place, and each undoes the other
(`ofInstant?_eq_some_iff`, `toInstant?_eq_some_iff`).
-/

namespace PicBoard

/-! ## Readings -/

namespace Instant

variable {t u : Instant}

/-- At one place there is one reading. -/
theorem eq_of_total (h : t.total = u.total) : t = u := by
  have ht := t.nanos_lt
  have hu := u.nanos_lt
  -- less than a second is left over, so a place has one number of seconds
  have hseconds : t.seconds.toInt = u.seconds.toInt := by
    simp only [total, nanosPerSecond] at h ht hu
    omega
  have hnanos : t.nanos = u.nanos := by
    simp only [total, hseconds] at h
    omega
  cases t
  cases u
  simp only [mk.injEq]
  exact ⟨Int64.toInt_inj.mp hseconds, hnanos⟩

/-- Where seconds are in range there is a reading after them. -/
theorem shift?_of_range {n : Int} (hlo : -2 ^ 63 ≤ t.seconds.toInt + n)
    (hhi : t.seconds.toInt + n < 2 ^ 63) :
    t.shift? n = some { t with seconds := Int64.ofInt (t.seconds.toInt + n) } := by
  have hmin : Int64.minValue.toInt = -2 ^ 63 := rfl
  have hmax : Int64.maxValue.toInt = 2 ^ 63 - 1 := rfl
  unfold shift?
  rw [hmin, hmax]
  exact if_pos ⟨hlo, by omega⟩

theorem shift?_eq_none_iff {n : Int} :
    t.shift? n = none ↔ ¬ (-2 ^ 63 ≤ t.seconds.toInt + n ∧ t.seconds.toInt + n < 2 ^ 63) := by
  have hmin : Int64.minValue.toInt = -2 ^ 63 := rfl
  have hmax : Int64.maxValue.toInt = 2 ^ 63 - 1 := rfl
  simp only [shift?, hmin, hmax, ite_eq_right_iff, reduceCtorEq, imp_false]
  omega

/-- A reading so many seconds away is so far away. -/
theorem shift?_eq_some_iff {n : Int} :
    t.shift? n = some u ↔ u.total = t.total + n * nanosPerSecond := by
  have ht := t.nanos_lt
  have hu := u.nanos_lt
  have hrange := u.seconds.le_toInt
  have hrange' := u.seconds.toInt_lt
  by_cases h : -2 ^ 63 ≤ t.seconds.toInt + n ∧ t.seconds.toInt + n < 2 ^ 63
  · have hshift := shift?_of_range h.1 h.2
    have htotal : Instant.total { t with seconds := Int64.ofInt (t.seconds.toInt + n) } =
        t.total + n * nanosPerSecond := by
      simp only [total]
      rw [Int64.toInt_ofInt_of_le h.1 h.2]
      ring
    rw [hshift, Option.some_inj, ← htotal]
    constructor
    · rintro rfl
      rfl
    · intro hsame
      exact eq_of_total hsame.symm
  · -- no reading has its seconds out of range
    have hnone := shift?_eq_none_iff.mpr h
    rw [hnone]
    simp only [reduceCtorEq, false_iff]
    intro hsame
    apply h
    simp only [total, nanosPerSecond] at hsame ht hu
    omega

/-- A reading so many nanoseconds later is so far away, whatever is carried. -/
theorem addNanos?_eq_some_iff {n : Nat} : t.addNanos? n = some u ↔ u.total = t.total + n := by
  unfold addNanos?
  rw [shift?_eq_some_iff]
  -- the nanoseconds that stay and those that are carried make up the sum
  have hsum : ((t.nanos + n) % nanosPerSecond : Nat) +
      ((t.nanos + n) / nanosPerSecond : Nat) * (nanosPerSecond : Int) = t.nanos + n := by
    exact_mod_cast Nat.mod_add_div' (t.nanos + n) nanosPerSecond
  simp only [total]
  rw [add_assoc, hsum, add_assoc]

/-- The seconds of a reading are its time rounded down. -/
theorem floor_time (t : Instant) : ⌊t.time⌋ = t.seconds.toInt := by
  have hnanos : (t.nanos : ℚ) < 1000000000 := by exact_mod_cast t.nanos_lt
  have hpos : (0 : ℚ) ≤ t.nanos := Nat.cast_nonneg _
  rw [Int.floor_eq_iff, time]
  constructor
  · rw [le_add_iff_nonneg_right]
    positivity
  · rw [add_lt_add_iff_left, div_lt_one (by norm_num)]
    exact hnanos

theorem time_lt_time_iff : t.time < u.time ↔ t.total < u.total := by
  rw [← not_le, ← not_le, time_le_time_iff]

theorem shift?_eq_some_iff_time {n : Int} : t.shift? n = some u ↔ u.time = t.time + n := by
  have hscale : t.time + n = ((t.total + n * nanosPerSecond : Int) : ℚ) / 1000000000 := by
    rw [time_eq, nanosPerSecond]
    push_cast
    ring
  rw [shift?_eq_some_iff, hscale, time_eq, div_left_inj' (by norm_num), Int.cast_inj]

/-- There is a reading wherever 64-bit seconds can tell the time. -/
theorem shift?_eq_none_iff_time {n : Int} :
    t.shift? n = none ↔ ¬ (-2 ^ 63 ≤ t.time + n ∧ t.time + n < 2 ^ 63) := by
  have hfloor : ⌊t.time + n⌋ = t.seconds.toInt + n := by rw [Int.floor_add_intCast, floor_time]
  have hlo : (-2 ^ 63 : ℚ) ≤ t.time + n ↔ -2 ^ 63 ≤ t.seconds.toInt + n := by
    rw [← hfloor, Int.le_floor]
    norm_cast
  have hhi : t.time + n < 2 ^ 63 ↔ t.seconds.toInt + n < 2 ^ 63 := by
    rw [← hfloor, Int.floor_lt]
    norm_cast
  rw [shift?_eq_none_iff, hlo, hhi]

/-- A reading in the years 1 through 9999. -/
def InYears (t : Instant) : Prop :=
  (Timestamp.minSeconds : ℚ) ≤ t.time ∧ t.time < Timestamp.maxSeconds + 1

theorem inYears_iff :
    t.InYears ↔
      Timestamp.minSeconds ≤ t.seconds.toInt ∧ t.seconds.toInt ≤ Timestamp.maxSeconds := by
  have hend : (Timestamp.maxSeconds : ℚ) + 1 = ((Timestamp.maxSeconds + 1 : Int) : ℚ) := by
    rw [Int.cast_add, Int.cast_one]
  rw [InYears, hend, ← Int.le_floor, ← Int.floor_lt, floor_time, Int.lt_add_one_iff]

theorem InYears.readable (h : t.InYears) : t.Readable :=
  Timestamp.readable_of_minSeconds_le_seconds (inYears_iff.mp h).1

end Instant

/-! ## Timestamps -/

namespace Timestamp

variable {a b ts : Timestamp} {t : Instant}

/-- At one place there is one timestamp with nanoseconds in range. -/
theorem Normal.eq_of_total (ha : a.Normal) (hb : b.Normal) (h : a.total = b.total) : a = b := by
  rcases ha with ⟨ha0, ha1⟩
  rcases hb with ⟨hb0, hb1⟩
  have hseconds : a.seconds.toInt = b.seconds.toInt := by
    simp only [total, nanosPerSecond] at h ha1 hb1
    omega
  have hnanos : a.nanos.toInt = b.nanos.toInt := by
    simp only [total, hseconds] at h
    omega
  cases a
  cases b
  simp only [mk.injEq]
  exact ⟨Int64.toInt_inj.mp hseconds, Int32.toInt_inj.mp hnanos⟩

/-- The timestamp of a reading is the one at its place. -/
theorem ofInstant?_eq_some_iff :
    ofInstant? t = some ts ↔ t.Readable ∧ ts.Normal ∧ ts.total = t.total := by
  constructor
  · intro h
    have ht : t.Readable := by
      by_contra hnot
      cases h.symm.trans (ofInstant?_of_not_readable hnot)
    obtain ⟨ts', hts', -, hnormal, htotal⟩ := exists_ofInstant? ht
    cases h.symm.trans hts'
    exact ⟨ht, hnormal, htotal⟩
  · rintro ⟨ht, hnormal, htotal⟩
    obtain ⟨ts', hts', -, hnormal', htotal'⟩ := exists_ofInstant? ht
    rw [hts', hnormal'.eq_of_total hnormal (htotal'.trans htotal.symm)]

/-- The reading of a valid timestamp is the one at its place. -/
theorem toInstant?_eq_some_iff_total :
    ts.toInstant? = some t ↔ ts.isValid = true ∧ t.total = ts.total := by
  unfold toInstant?
  by_cases hvalid : ts.isValid = true
  · have hnanos : (ts.nanos.toInt.toNat : Int) = ts.nanos.toInt :=
      Int.toNat_of_nonneg (isValid_iff.mp hvalid).2.1
    have hepoch : (Instant.ofSeconds 0).total = 0 := rfl
    have hsecond : (Instant.ofSeconds ts.seconds).total = ts.seconds.toInt * nanosPerSecond :=
      add_zero _
    rw [if_pos hvalid]
    simp only [Option.bind_eq_bind, Option.bind_eq_some_iff, Instant.shift?_eq_some_iff,
      Instant.addNanos?_eq_some_iff, hepoch, zero_add, hnanos, hvalid, true_and]
    constructor
    · rintro ⟨second, hplace, htotal⟩
      rw [htotal, hplace]
      rfl
    · intro htotal
      exact ⟨Instant.ofSeconds ts.seconds, hsecond, by rw [htotal, hsecond]; rfl⟩
  · rw [if_neg hvalid]
    simp [hvalid]

/-- Each conversion undoes the other. -/
theorem toInstant?_eq_some_iff :
    ts.toInstant? = some t ↔ ts.isValid = true ∧ ofInstant? t = some ts := by
  rw [toInstant?_eq_some_iff_total, ofInstant?_eq_some_iff]
  constructor
  · rintro ⟨hvalid, htotal⟩
    obtain ⟨⟨hfirst, -⟩, hnormal⟩ := isValid_iff.mp hvalid
    refine ⟨hvalid, ?_, hnormal, htotal.symm⟩
    -- a valid timestamp is in year 1 or later, when clocks can be read
    apply readable_of_minSeconds_le
    have hnanos := hnormal.1
    simp only [htotal, total, nanosPerSecond]
    omega
  · rintro ⟨hvalid, -, -, htotal⟩
    exact ⟨hvalid, htotal.symm⟩

theorem time_eq_of_ofInstant? (h : ofInstant? t = some ts) : ts.time = t.time := by
  rw [time_eq, Instant.time_eq, (ofInstant?_eq_some_iff.mp h).2.2]

theorem seconds_eq_floor (h : ofInstant? t = some ts) : ts.seconds.toInt = ⌊t.time⌋ := by
  have ht := (ofInstant?_eq_some_iff.mp h).1
  obtain ⟨ts', hts', hseconds, -⟩ := exists_ofInstant? ht
  cases h.symm.trans hts'
  rw [Instant.floor_time, hseconds]

/-- The timestamp of a reading is valid when the reading is in the years 1 through 9999. -/
theorem isValid_iff_inYears (h : ofInstant? t = some ts) : ts.isValid = true ↔ t.InYears := by
  have hnormal := (ofInstant?_eq_some_iff.mp h).2.1
  rw [isValid_iff, Instant.inYears_iff, seconds_eq_floor h, Instant.floor_time]
  exact and_iff_left hnormal

theorem exists_toInstant? (h : ts.isValid = true) : ∃ t, ts.toInstant? = some t := by
  obtain ⟨-, hnormal⟩ := isValid_iff.mp h
  have hlt : ts.nanos.toInt.toNat < nanosPerSecond := by
    have hnanos := hnormal.2
    simp only [nanosPerSecond] at hnanos ⊢
    omega
  refine ⟨⟨ts.seconds, ts.nanos.toInt.toNat, hlt⟩, ?_⟩
  rw [toInstant?_eq_some_iff_total]
  refine ⟨h, ?_⟩
  simp only [total, Instant.total, Int.toNat_of_nonneg hnormal.1]

/-- Valid timestamps and the readings of the years 1 through 9999 stand for each other. -/
theorem bijOn_toInstant? :
    Set.BijOn toInstant? {ts | ts.isValid = true} (some '' {t | t.InYears}) := by
  refine ⟨?_, ?_, ?_⟩
  · intro ts hvalid
    obtain ⟨t, ht⟩ := exists_toInstant? hvalid
    have hts := (toInstant?_eq_some_iff.mp ht).2
    exact ⟨t, (isValid_iff_inYears hts).mp hvalid, ht.symm⟩
  · intro a ha b hb hsame
    -- the timestamp of the one reading is both of them
    obtain ⟨t, ht⟩ := exists_toInstant? ha
    have hofa := (toInstant?_eq_some_iff.mp ht).2
    have hofb := (toInstant?_eq_some_iff.mp (hsame.symm.trans ht)).2
    exact Option.some_inj.mp (hofa.symm.trans hofb)
  · rintro - ⟨t, hyears, rfl⟩
    obtain ⟨ts, hts, -⟩ := exists_ofInstant? (Instant.InYears.readable hyears)
    have hvalid := (isValid_iff_inYears hts).mpr hyears
    exact ⟨ts, hvalid, toInstant?_eq_some_iff.mpr ⟨hvalid, hts⟩⟩

/-- The order of timestamps is that of the pairs of their seconds and nanoseconds. -/
theorem before_iff_lex :
    a.before b = true ↔
      Prod.Lex (· < ·) (· < ·) (a.seconds, a.nanos) (b.seconds, b.nanos) := by
  rw [Prod.lex_def]
  simp [before]

/-- Timestamps of readings are in the order of the readings. -/
theorem before_iff_time_lt {u : Instant} (ha : ofInstant? t = some a) (hb : ofInstant? u = some b) :
    a.before b = true ↔ t.time < u.time := by
  obtain ⟨-, hnormal, htotal⟩ := ofInstant?_eq_some_iff.mp ha
  obtain ⟨-, hnormal', htotal'⟩ := ofInstant?_eq_some_iff.mp hb
  rw [before_iff hnormal hnormal', htotal, htotal', Instant.time_lt_time_iff]

/-- There is a timestamp of every reading but the one 2 ^ 63 seconds before 1970: its seconds are
the time rounded down, before the epoch too, its nanoseconds are a part of a second, and it is of
exactly that time.  Timestamps of readings are in the order of the pairs of their seconds and
nanoseconds, which is the one in which they are compared and the one of the readings.  A reading is
had back from a timestamp exactly when the timestamp is valid and that of the reading, so that valid
timestamps and the readings of the years 1 through 9999 stand for each other. -/
theorem readings_and_timestamps_correspond :
    (∀ t : Instant, t.time ≠ -2 ^ 63 →
      ∃ ts, ofInstant? t = some ts ∧ ts.Normal ∧ ts.seconds.toInt = ⌊t.time⌋ ∧
        ts.time = t.time) ∧
    (∀ (t u : Instant) (a b : Timestamp), ofInstant? t = some a → ofInstant? u = some b →
      (t.time < u.time ↔
        Prod.Lex (· < ·) (· < ·) (a.seconds, a.nanos) (b.seconds, b.nanos)) ∧
      (a.before b = true ↔ t.time < u.time)) ∧
    (∀ (ts : Timestamp) (t : Instant),
      ts.toInstant? = some t ↔ ts.isValid = true ∧ ofInstant? t = some ts) ∧
    Set.BijOn toInstant? {ts | ts.isValid = true} (some '' {t | t.InYears}) := by
  refine ⟨?_, ?_, fun ts t => toInstant?_eq_some_iff, bijOn_toInstant?⟩
  · intro t ht
    obtain ⟨ts, hts, -, hnormal, -⟩ := exists_ofInstant? (Instant.readable_iff.mpr ht)
    exact ⟨ts, hts, hnormal, seconds_eq_floor hts, time_eq_of_ofInstant? hts⟩
  · intro t u a b ha hb
    have horder := before_iff_time_lt ha hb
    exact ⟨horder.symm.trans before_iff_lex, horder⟩

/-- A quarter of a second before the epoch is before it: its timestamp has the second below and
three quarters of one, and the reading is had back from it. -/
theorem quarter_second_before_epoch :
    let t : Instant := ⟨-1, 750000000, by decide⟩
    t.time ≠ -2 ^ 63 ∧ ofInstant? t = some ⟨-1, 750000000⟩ ∧
      ofInstant? (.ofSeconds 0) = some ⟨0, 0⟩ ∧ t.time < (Instant.ofSeconds 0).time ∧
      toInstant? ⟨-1, 750000000⟩ = some t := by
  intro t
  obtain ⟨-, horder, hback, -⟩ := readings_and_timestamps_correspond
  have ht : t.time ≠ -2 ^ 63 := Instant.readable_iff.mp (by decide)
  have hts : ofInstant? t = some ⟨-1, 750000000⟩ := by decide
  have hepoch : ofInstant? (.ofSeconds 0) = some ⟨0, 0⟩ := by decide
  refine ⟨ht, hts, hepoch, ?_, ?_⟩
  · exact (horder _ _ _ _ hts hepoch).2.mp (by decide)
  · exact (hback _ _).mpr ⟨by decide, hts⟩

end Timestamp

end PicBoard
