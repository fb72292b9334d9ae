import Mathlib.Tactic
import PicBoard.Time

/-!
# Clock readings and timestamps on one time line

A clock reading and a timestamp have each a place on the line of nanoseconds since 1970.  A
reading and its timestamp have the same place, and comparing timestamps with nanoseconds in range
compares their places, which are in the order of their rational times.
-/

namespace PicBoard

/-- The nanoseconds from 1970 to a clock reading. -/
def Instant.total (t : Instant) : Int := t.seconds.toInt * nanosPerSecond + t.nanos

/-- A clock reading of which there is a timestamp: every one but the very first. -/
def Instant.Readable (t : Instant) : Prop := ¬ (t.seconds = Int64.minValue ∧ t.nanos = 0)

instance (t : Instant) : Decidable t.Readable := inferInstanceAs (Decidable (¬ _))

namespace Timestamp

/-- The nanoseconds from 1970 to a timestamp. -/
def total (t : Timestamp) : Int := t.seconds.toInt * nanosPerSecond + t.nanos.toInt

/-- A timestamp whose nanoseconds are in range. -/
def Normal (t : Timestamp) : Prop := 0 ≤ t.nanos.toInt ∧ t.nanos.toInt < nanosPerSecond

/-- The place after which clock readings are later than a timestamp.  Nanoseconds out of range do
not reach into another second: too few are before all of their second, and too many after it. -/
def place (t : Timestamp) : Int :=
  t.seconds.toInt * nanosPerSecond + max (-1) (min t.nanos.toInt (nanosPerSecond - 1))

/-- A valid timestamp is in the years 1 through 9999 and has its nanoseconds in range. -/
theorem isValid_iff {t : Timestamp} :
    t.isValid = true ↔
      (minSeconds ≤ t.seconds.toInt ∧ t.seconds.toInt ≤ maxSeconds) ∧ t.Normal := by
  simp only [isValid, Normal, Bool.and_eq_true, decide_eq_true_iff, and_assoc]

/-- A timestamp is before one with nanoseconds in range exactly when that is after its place. -/
theorem before_iff_place {a b : Timestamp} (hb : b.Normal) :
    a.before b = true ↔ a.place < b.total := by
  rcases hb with ⟨hb0, hb1⟩
  -- With nanoseconds in range, a later second outweighs them.
  simp only [before, Bool.or_eq_true, Bool.and_eq_true, decide_eq_true_iff, beq_iff_eq,
    Int64.lt_iff_toInt_lt, Int32.lt_iff_toInt_lt, ← Int64.toInt_inj]
  simp only [place, total, nanosPerSecond] at *
  omega

theorem place_of_normal {t : Timestamp} (h : t.Normal) : t.place = t.total := by
  rcases h with ⟨h0, h1⟩
  simp only [place, total]
  omega

/-- The order of timestamps is that of the time line. -/
theorem before_iff {a b : Timestamp} (ha : a.Normal) (hb : b.Normal) :
    a.before b = true ↔ a.total < b.total := by
  rw [before_iff_place hb, place_of_normal ha]

/-- Less than 2 ^ 63 seconds have an opposite number. -/
theorem ofNat_ne_minValue {n : Nat} (h : n < 2 ^ 63) : Int64.ofNat n ≠ Int64.minValue := by
  intro he
  have hmin : Int64.minValue.toInt = -2 ^ 63 := rfl
  rw [← Int64.toInt_inj, Int64.toInt_ofNat_of_lt h, hmin] at he
  omega

/-- The seconds of a timestamp are those of its clock reading, rounded down, and its nanoseconds are
counted up from there, before the epoch as well as after it. -/
theorem ofInstant?_of_readable {t : Instant} (h : t.Readable) :
    ofInstant? t = some { seconds := t.seconds, nanos := Int32.ofNat t.nanos } := by
  have hrange := t.seconds.le_toInt
  have hnanos := t.nanos_lt
  unfold ofInstant? ofOffset? Instant.offset
  by_cases hs : 0 ≤ t.seconds.toInt
  · -- from the epoch on the distance is the reading itself
    have hseconds : Int64.ofNat t.seconds.toInt.toNat = t.seconds := by
      rw [← Int64.ofInt_eq_ofNat, Int.toNat_of_nonneg hs, Int64.ofInt_toInt]
    simp only [if_pos hs, hseconds, Bool.not_false, if_true]
  · by_cases hn : t.nanos = 0
    · -- whole seconds before it only change their sign
      have hne : t.seconds.toInt ≠ -2 ^ 63 := by
        intro he
        exact h ⟨Int64.toInt_inj.mp he, hn⟩
      have hseconds : -Int64.ofNat (-t.seconds.toInt).toNat = t.seconds := by
        rw [Int64.neg_ofNat, Int.toNat_of_nonneg (by omega), neg_neg, Int64.ofInt_toInt]
      have hopposite := ofNat_ne_minValue (n := (-t.seconds.toInt).toNat) (by omega)
      simp [hs, hn, hseconds, hopposite]
    · -- a part of a second is taken from the second below
      have hseconds : -Int64.ofNat ((-t.seconds.toInt).toNat - 1) - 1 = t.seconds := by
        have hone : (1 : Int64) = Int64.ofInt 1 := rfl
        have hfloor : -(((-t.seconds.toInt).toNat - 1 : Nat) : Int) - 1 = t.seconds.toInt := by
          omega
        rw [Int64.neg_ofNat, hone, ← Int64.ofInt_sub, hfloor, Int64.ofInt_toInt]
      have hopposite := ofNat_ne_minValue (n := (-t.seconds.toInt).toNat - 1) (by omega)
      have hpart : 0 < Int32.ofNat (nanosPerSecond - t.nanos) := by
        have hsmall : nanosPerSecond - t.nanos < 2 ^ 31 := by
          simp only [nanosPerSecond] at hnanos ⊢
          omega
        have hzero : (0 : Int32).toInt = 0 := rfl
        rw [Int32.lt_iff_toInt_lt, Int32.toInt_ofNat_of_lt hsmall]
        omega
      have hrest : Int32.ofNat nanosPerSecond - Int32.ofNat (nanosPerSecond - t.nanos) =
          Int32.ofNat t.nanos := by
        rw [← Int32.ofNat_sub _ _ (by omega), Nat.sub_sub_self hnanos.le]
      simp [hs, hn, hseconds, hopposite, hpart, hrest]

/-- The distance of the first reading has no 64-bit number of seconds. -/
theorem ofInstant?_of_not_readable {t : Instant} (h : ¬ t.Readable) : ofInstant? t = none := by
  obtain ⟨hseconds, hnanos⟩ := not_not.mp h
  have hoffset : t.offset = { beforeEpoch := true, seconds := 2 ^ 63, nanos := 0 } := by
    unfold Instant.offset
    rw [hseconds, hnanos]
    rfl
  unfold ofInstant?
  rw [hoffset]
  rfl

/-- There is a timestamp of every readable clock reading, at the same place on the time line. -/
theorem exists_ofInstant? {t : Instant} (h : t.Readable) :
    ∃ ts, ofInstant? t = some ts ∧ ts.seconds = t.seconds ∧ ts.Normal ∧ ts.total = t.total := by
  have hnanos : (Int32.ofNat t.nanos).toInt = t.nanos := by
    have hlt := t.nanos_lt
    simp only [nanosPerSecond] at hlt
    rw [Int32.toInt_ofNat_of_lt (by omega)]
  refine ⟨_, ofInstant?_of_readable h, rfl, ?_, ?_⟩
  · refine ⟨?_, ?_⟩
    · simp only [hnanos]
      omega
    · simp only [hnanos]
      exact_mod_cast t.nanos_lt
  · simp only [total, Instant.total, hnanos]

/-- A clock can be read from year 1 on. -/
theorem readable_of_minSeconds_le {t : Instant} (h : minSeconds * nanosPerSecond ≤ t.total) :
    t.Readable := by
  rintro ⟨hseconds, hnanos⟩
  have hmin : Int64.minValue.toInt = -2 ^ 63 := rfl
  simp only [Instant.total, hseconds, hnanos, hmin, minSeconds, nanosPerSecond] at h
  omega

/-- The same by the second that the clock shows. -/
theorem readable_of_minSeconds_le_seconds {t : Instant} (h : minSeconds ≤ t.seconds.toInt) :
    t.Readable := by
  rintro ⟨hseconds, -⟩
  rw [hseconds] at h
  exact absurd h (by decide)

/-- The start of a second. -/
theorem total_ofSeconds (s : Int64) : (ofSeconds s).total = s.toInt * nanosPerSecond := by
  simp [total, ofSeconds]

end Timestamp

/-! ## Rational time -/

/-- The seconds from 1970 to a clock reading, with the part of a second. -/
def Instant.time (t : Instant) : ℚ := t.seconds.toInt + t.nanos / 1000000000

/-- The seconds from 1970 to a timestamp, with its nanoseconds as a part of one. -/
def Timestamp.time (t : Timestamp) : ℚ := t.seconds.toInt + t.nanos.toInt / 1000000000

/-- A timestamp of the years 1 through 9999 with nanoseconds in range. -/
structure Timestamp.WellFormed (t : Timestamp) : Prop where
  first : minSeconds ≤ t.seconds.toInt
  last : t.seconds.toInt ≤ maxSeconds
  normal : t.Normal

theorem Timestamp.isValid_iff_wellFormed {t : Timestamp} : t.isValid = true ↔ t.WellFormed := by
  rw [isValid_iff]
  constructor
  · rintro ⟨⟨hfirst, hlast⟩, hnormal⟩
    exact ⟨hfirst, hlast, hnormal⟩
  · intro h
    exact ⟨⟨h.first, h.last⟩, h.normal⟩

theorem Instant.time_eq (t : Instant) : t.time = t.total / 1000000000 := by
  simp only [time, total, nanosPerSecond]
  push_cast
  ring

theorem Timestamp.time_eq (t : Timestamp) : t.time = t.total / 1000000000 := by
  simp only [time, total, nanosPerSecond]
  push_cast
  ring

section

variable {a b : Timestamp} {t u : Instant}

/-- Times are in the order of places. -/
theorem Instant.time_le_time_iff : t.time ≤ u.time ↔ t.total ≤ u.total := by
  rw [time_eq, time_eq, div_le_div_iff_of_pos_right (by norm_num), Int.cast_le]

theorem Timestamp.time_le_instant_iff : a.time ≤ t.time ↔ a.total ≤ t.total := by
  rw [time_eq, Instant.time_eq, div_le_div_iff_of_pos_right (by norm_num), Int.cast_le]

theorem Instant.time_le_timestamp_iff : t.time ≤ a.time ↔ t.total ≤ a.total := by
  rw [time_eq, Timestamp.time_eq, div_le_div_iff_of_pos_right (by norm_num), Int.cast_le]

/-- There is a timestamp of every clock reading but the one 2 ^ 63 seconds before 1970. -/
theorem Instant.readable_iff : t.Readable ↔ t.time ≠ -2 ^ 63 := by
  have hmin : t.seconds = Int64.minValue ↔ t.seconds.toInt = -2 ^ 63 := Int64.toInt_inj.symm
  have htime : t.time = -2 ^ 63 ↔ t.total = -2 ^ 63 * 1000000000 := by
    rw [time_eq, div_eq_iff (by norm_num)]
    exact_mod_cast Iff.rfl
  have hrange := t.seconds.le_toInt
  have hnanos := t.nanos_lt
  rw [Readable, Ne, not_iff_not, hmin, htime]
  simp only [total, nanosPerSecond] at *
  omega

end

end PicBoard
