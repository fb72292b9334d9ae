import PicBoard.Proofs.Time
import PicBoard.Token.Codec

/-!
# When a payload holds, on the time line

A payload with two well-formed bounds is early before the first, holds from the first through the
last and is expired after it; every other payload is expired at all times
(`clock_verdict_by_rational_time`).  Only at the first of all clock readings there is no verdict.
-/

namespace PicBoard.Payload

/-- A payload with valid bounds is early before the first, expired after the second, and holds
between them. -/
theorem checkValidity_eq {p : Payload} {first last now : Timestamp}
    (hfirst : p.notBefore = some first) (hlast : p.notAfter = some last)
    (vfirst : first.isValid = true) (vlast : last.isValid = true) (hnow : now.Normal) :
    p.checkValidity now =
      if now.total < first.total then .error .notYetValid
      else if last.total < now.total then .error .expired
      else .ok () := by
  have hbefore := Timestamp.before_iff hnow (Timestamp.isValid_iff.mp vfirst).2
  have hafter := Timestamp.before_iff (Timestamp.isValid_iff.mp vlast).2 hnow
  unfold checkValidity
  simp only [hfirst, hlast, vfirst, vlast, hbefore, hafter]
  exact if_neg (by decide)

/-- The same by the clock. -/
theorem checkClock_eq {p : Payload} {first last : Timestamp} {now : Instant}
    (hfirst : p.notBefore = some first) (hlast : p.notAfter = some last)
    (vfirst : first.isValid = true) (vlast : last.isValid = true) (hnow : now.Readable) :
    p.checkClock now =
      if now.total < first.total then .error .notYetValid
      else if last.total < now.total then .error .expired
      else .ok () := by
  obtain ⟨ts, hts, -, hnormal, htotal⟩ := Timestamp.exists_ofInstant? hnow
  unfold checkClock
  rw [hts, ← htotal]
  exact checkValidity_eq hfirst hlast vfirst vlast hnormal

/-! ## Bounds -/

/-- A payload has both bounds, and they are well-formed. -/
structure Bounded (p : Payload) (first last : Timestamp) : Prop where
  notBefore : p.notBefore = some first
  notAfter : p.notAfter = some last
  wellFormed_first : first.WellFormed
  wellFormed_last : last.WellFormed

/-- A payload holds at a time between its bounds. -/
def HoldsAt (p : Payload) (time : ℚ) : Prop :=
  ∃ first last, p.Bounded first last ∧ first.time ≤ time ∧ time ≤ last.time

/-- A payload is early at a time before its first bound. -/
def EarlyAt (p : Payload) (time : ℚ) : Prop := ∃ first last, p.Bounded first last ∧ time < first.time

variable {p : Payload} {first last : Timestamp} {time : ℚ} {now : Instant}

/-- There is one first bound and one last. -/
theorem Bounded.holdsAt_iff (h : p.Bounded first last) :
    p.HoldsAt time ↔ first.time ≤ time ∧ time ≤ last.time := by
  constructor
  · rintro ⟨first', last', h', hwithin⟩
    cases h.notBefore.symm.trans h'.notBefore
    cases h.notAfter.symm.trans h'.notAfter
    exact hwithin
  · intro hwithin
    exact ⟨first, last, h, hwithin⟩

theorem Bounded.earlyAt_iff (h : p.Bounded first last) : p.EarlyAt time ↔ time < first.time := by
  constructor
  · rintro ⟨first', last', h', hearly⟩
    cases h.notBefore.symm.trans h'.notBefore
    exact hearly
  · intro hearly
    exact ⟨first, last, h, hearly⟩

theorem bounded_or_not (p : Payload) :
    (∃ first last, p.Bounded first last) ∨ ∀ first last, ¬ p.Bounded first last := by
  by_cases h : ∃ first last, p.Bounded first last
  · exact .inl h
  · exact .inr fun first last hbounded => h ⟨first, last, hbounded⟩

/-- A payload without two well-formed bounds reads as long past. -/
theorem checkValidity_of_not_bounded (h : ∀ first last, ¬ p.Bounded first last)
    (now : Timestamp) : p.checkValidity now = .error .expired := by
  unfold checkValidity
  split
  · rename_i first last hfirst hlast
    have hinvalid : (!first.isValid || !last.isValid) = true := by
      by_contra hvalid
      simp only [Bool.or_eq_true, Bool.not_eq_true', not_or, Bool.not_eq_false,
        Timestamp.isValid_iff_wellFormed] at hvalid
      exact h first last ⟨hfirst, hlast, hvalid.1, hvalid.2⟩
    exact if_pos hinvalid
  · rfl

theorem checkClock_of_not_readable (p : Payload) (h : ¬ now.Readable) :
    p.checkClock now = .error .clockUnreadable := by
  unfold checkClock
  rw [Timestamp.ofInstant?_of_not_readable h]

theorem checkClock_of_not_bounded (h : ∀ first last, ¬ p.Bounded first last)
    (hnow : now.Readable) : p.checkClock now = .error .expired := by
  rcases Timestamp.exists_ofInstant? hnow with ⟨ts, hts, -⟩
  unfold checkClock
  rw [hts]
  exact checkValidity_of_not_bounded h ts

theorem Bounded.checkClock_eq (h : p.Bounded first last) (hnow : now.Readable) :
    p.checkClock now =
      if now.total < first.total then .error .notYetValid
      else if last.total < now.total then .error .expired
      else .ok () :=
  Payload.checkClock_eq h.notBefore h.notAfter
    (Timestamp.isValid_iff_wellFormed.mpr h.wellFormed_first)
    (Timestamp.isValid_iff_wellFormed.mpr h.wellFormed_last) hnow

/-- No payload holds before year 1, so none does where there is no timestamp. -/
theorem HoldsAt.readable (h : p.HoldsAt now.time) : now.Readable := by
  rcases h with ⟨first, last, hbounded, hfirst, -⟩
  have hyear := hbounded.wellFormed_first.first
  have hnanos := hbounded.wellFormed_first.normal.1
  rw [Timestamp.time_le_instant_iff] at hfirst
  refine Timestamp.readable_of_minSeconds_le ?_
  simp only [Timestamp.total, nanosPerSecond] at hfirst ⊢
  omega

/-- The time line is cut in three by well-formed bounds, and is all past without them. -/
theorem checkClock_cases (p : Payload) (now : Instant) :
    (¬ now.Readable ∧ p.checkClock now = .error .clockUnreadable) ∨
    (p.HoldsAt now.time ∧ ¬ p.EarlyAt now.time ∧ p.checkClock now = .ok ()) ∨
    (now.Readable ∧ p.EarlyAt now.time ∧ ¬ p.HoldsAt now.time ∧
      p.checkClock now = .error .notYetValid) ∨
    (now.Readable ∧ ¬ p.EarlyAt now.time ∧ ¬ p.HoldsAt now.time ∧
      p.checkClock now = .error .expired) := by
  by_cases hnow : now.Readable
  · right
    rcases p.bounded_or_not with ⟨first, last, h⟩ | hnone
    · have hlo : now.time < first.time ↔ now.total < first.total := by
        rw [← not_le, ← not_le, Timestamp.time_le_instant_iff]
      have hhi : now.time ≤ last.time ↔ ¬ last.total < now.total := by
        rw [Instant.time_le_timestamp_iff, not_lt]
      rw [h.checkClock_eq hnow, h.holdsAt_iff, h.earlyAt_iff, ← not_lt, hlo, hhi]
      by_cases hearly : now.total < first.total
      · exact .inr (.inl ⟨hnow, hearly, fun hwithin => hwithin.1 hearly, if_pos hearly⟩)
      · rw [if_neg hearly]
        by_cases hlate : last.total < now.total
        · exact .inr (.inr ⟨hnow, hearly, fun hwithin => hwithin.2 hlate, if_pos hlate⟩)
        · exact .inl ⟨⟨hearly, hlate⟩, hearly, if_neg hlate⟩
    · refine .inr (.inr ⟨hnow, ?_, ?_, checkClock_of_not_bounded hnone hnow⟩)
      · rintro ⟨first, last, h, -⟩
        exact hnone first last h
      · rintro ⟨first, last, h, -⟩
        exact hnone first last h
  · exact .inl ⟨hnow, checkClock_of_not_readable p hnow⟩

/-- A payload is accepted when it holds. -/
theorem checkClock_eq_ok_iff : p.checkClock now = .ok () ↔ p.HoldsAt now.time := by
  rcases p.checkClock_cases now with
    ⟨hnow, h⟩ | ⟨hholds, -, h⟩ | ⟨-, -, hholds, h⟩ | ⟨-, -, hholds, h⟩
  · simp [h, mt HoldsAt.readable hnow]
  · simp [h, hholds]
  · simp [h, hholds]
  · simp [h, hholds]

/-- The verdict on a payload at a clock reading, by the rational times of its bounds and of the
reading.  It is accepted when it has two well-formed bounds with the time between them, early when
it has them and the time is before the first, and expired in every other case.  The one reading
without a verdict is that of exactly 2 ^ 63 seconds before 1970. -/
theorem clock_verdict_by_rational_time (p : Payload) (now : Instant) :
    (p.checkClock now = .ok () ↔ p.HoldsAt now.time) ∧
    (p.checkClock now = .error .notYetValid ↔ now.time ≠ -2 ^ 63 ∧ p.EarlyAt now.time) ∧
    (p.checkClock now = .error .expired ↔
      now.time ≠ -2 ^ 63 ∧ ¬ p.HoldsAt now.time ∧ ¬ p.EarlyAt now.time) ∧
    (p.checkClock now = .error .clockUnreadable ↔ now.time = -2 ^ 63) := by
  refine ⟨checkClock_eq_ok_iff, ?_⟩
  rw [← not_not (a := now.time = -2 ^ 63), ← Ne, ← Instant.readable_iff]
  rcases p.checkClock_cases now with
    ⟨hnow, h⟩ | ⟨hholds, hearly, h⟩ | ⟨hnow, hearly, hholds, h⟩ | ⟨hnow, hearly, hholds, h⟩
  · simp [h, hnow]
  · simp [h, hholds, hearly, hholds.readable]
  · simp [h, hnow, hearly]
  · simp [h, hnow, hearly, hholds]

end PicBoard.Payload
