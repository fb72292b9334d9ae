import PicBoard.Proofs.Token.RoundTrip
import PicBoard.Proofs.Token.Validity
import PicBoard.Token.Lifetime

/-!
# The life of a token on the time line

With well-formed bounds the state of a token depends on three places of the time line: where it
begins to hold, where it ends, and where it should be renewed (`read?_of_bounded`).  Wherever these
are, its life only moves forward, and it is usable where it is accepted (`life_moves_forward`).
-/

namespace PicBoard.TokenState

/-- The state at a place of a token that holds from one place through another and should be renewed
after a third, if there is one. -/
def ofBounds (first last : Int) (soft : Option Int) (place : Int) : TokenState :=
  if place < first then .notYetValid
  else if last < place then .expired
  else
    match soft with
    | some s => if s < place then .softExpired else .live
    | none => .live

variable {first last place : Int} {soft : Option Int}

theorem ofBounds_of_lt (h : place < first) : ofBounds first last soft place = .notYetValid := if_pos h

theorem ofBounds_of_gt (hfirst : first ≤ place) (h : last < place) :
    ofBounds first last soft place = .expired := by
  unfold ofBounds
  rw [if_neg (not_lt.mpr hfirst), if_pos h]

/-- Between the bounds only the third place tells. -/
theorem ofBounds_of_within (hfirst : first ≤ place) (hlast : place ≤ last) :
    ofBounds first last soft place = if ∃ s ∈ soft, s < place then .softExpired else .live := by
  unfold ofBounds
  rw [if_neg (not_lt.mpr hfirst), if_neg (not_lt.mpr hlast)]
  cases soft with
  | none => simp
  | some s => simp

/-- A place is before the bounds, behind them or between them. -/
theorem before_after_or_within (first last place : Int) :
    place < first ∨ (first ≤ place ∧ last < place) ∨ (first ≤ place ∧ place ≤ last) := by
  omega

theorem ofBounds_eq_live_iff :
    ofBounds first last soft place = .live ↔
      first ≤ place ∧ place ≤ last ∧ ∀ s ∈ soft, place ≤ s := by
  rcases before_after_or_within first last place with h | ⟨hfirst, h⟩ | ⟨hfirst, hlast⟩
  · simp [ofBounds_of_lt h, h]
  · simp [ofBounds_of_gt hfirst h, h]
  · rw [ofBounds_of_within hfirst hlast]
    simp [hfirst, hlast]

/-- A token is good between its bounds, renewal due or not. -/
theorem isUsable_ofBounds_iff :
    (ofBounds first last soft place).isUsable = true ↔ first ≤ place ∧ place ≤ last := by
  rcases before_after_or_within first last place with h | ⟨hfirst, h⟩ | ⟨hfirst, hlast⟩
  · simp [ofBounds_of_lt h, isUsable, h]
  · simp [ofBounds_of_gt hfirst h, isUsable, h]
  · rw [ofBounds_of_within hfirst hlast]
    split
    · simp [isUsable, hfirst, hlast]
    · simp [isUsable, hfirst, hlast]

/-- Renewal is due between the bounds and after the third place. -/
theorem ofBounds_eq_softExpired_iff :
    ofBounds first last soft place = .softExpired ↔
      (first ≤ place ∧ place ≤ last) ∧ ∃ s ∈ soft, s < place := by
  rcases before_after_or_within first last place with h | ⟨hfirst, h⟩ | ⟨hfirst, hlast⟩
  · simp [ofBounds_of_lt h, h]
  · simp [ofBounds_of_gt hfirst h, h]
  · rw [ofBounds_of_within hfirst hlast]
    simp [hfirst, hlast]

/-! ## The order of a life -/

/-- How far a token is in its life. -/
def rank : TokenState → Nat
  | .notYetValid => 0
  | .live => 1
  | .softExpired => 2
  | .expired => 3

theorem rank_le_rank_expired (s : TokenState) : s.rank ≤ rank .expired := by
  cases s <;> decide

/-- At a later place a token is further in its life or as far. -/
theorem rank_ofBounds_le {later : Int} (h : place ≤ later) :
    (ofBounds first last soft place).rank ≤ (ofBounds first last soft later).rank := by
  rcases before_after_or_within first last later with hlater | ⟨hfirst, hlater⟩ | ⟨-, hlast⟩
  · rw [ofBounds_of_lt hlater, ofBounds_of_lt (h.trans_lt hlater)]
  · rw [ofBounds_of_gt hfirst hlater]
    exact rank_le_rank_expired _
  · rcases lt_or_ge place first with hplace | hplace
    · rw [ofBounds_of_lt hplace]
      exact Nat.zero_le _
    · -- both are between the bounds, and a soft bound that is past stays past
      have hstays : (∃ s ∈ soft, s < place) → ∃ s ∈ soft, s < later := by
        rintro ⟨s, hs, hpast⟩
        exact ⟨s, hs, hpast.trans_le h⟩
      rw [ofBounds_of_within hplace (h.trans hlast),
        ofBounds_of_within (hplace.trans h) hlast]
      split_ifs with hsoft hlate
      · exact le_rfl
      · exact absurd (hstays hsoft) hlate
      · decide
      · exact le_rfl

/-! ## The state by the clock -/

section

variable {p : Payload} {lo hi : Timestamp} {now : Instant}

/-- The state of a token with well-formed bounds.  Its soft bound may be any timestamp. -/
theorem read?_of_bounded (h : p.Bounded lo hi) (hnow : now.Readable) :
    read? p now =
      some (ofBounds lo.total hi.total (p.softNotAfter.map Timestamp.place) now.total) := by
  rcases Timestamp.exists_ofInstant? hnow with ⟨ts, hts, -, hnormal, htotal⟩
  have hcheck := Payload.checkValidity_eq h.notBefore h.notAfter
    (Timestamp.isValid_iff_wellFormed.mpr h.wellFormed_first)
    (Timestamp.isValid_iff_wellFormed.mpr h.wellFormed_last) hnormal
  rw [read?, hts, Option.map_some, ← htotal]
  congr 1
  unfold during ofBounds
  rw [hcheck]
  by_cases hfirst : ts.total < lo.total
  · simp only [if_pos hfirst]
  · by_cases hlast : hi.total < ts.total
    · simp only [if_neg hfirst, if_pos hlast]
    · simp only [if_neg hfirst, if_neg hlast]
      cases p.softNotAfter with
      | none => rfl
      | some s => exact if_congr (Timestamp.before_iff_place hnormal) rfl rfl

/-- The state of a token with valid bounds by the clock. -/
theorem read?_eq (hlo : p.notBefore = some lo) (hhi : p.notAfter = some hi)
    (vlo : lo.isValid = true) (vhi : hi.isValid = true) (hsoft : ∀ s ∈ p.softNotAfter, s.Normal)
    (hnow : now.Readable) :
    read? p now =
      some (ofBounds lo.total hi.total (p.softNotAfter.map Timestamp.total) now.total) := by
  have hbounded : p.Bounded lo hi := ⟨hlo, hhi, Timestamp.isValid_iff_wellFormed.mp vlo,
    Timestamp.isValid_iff_wellFormed.mp vhi⟩
  have hplace : p.softNotAfter.map Timestamp.place = p.softNotAfter.map Timestamp.total := by
    refine Option.map_congr ?_
    intro s hs
    exact Timestamp.place_of_normal (hsoft s hs)
  rw [read?_of_bounded hbounded hnow, hplace]

/-- A token without well-formed bounds is expired from the beginning. -/
theorem read?_of_not_bounded (h : ∀ first last, ¬ p.Bounded first last) (hnow : now.Readable) :
    read? p now = some .expired := by
  rcases Timestamp.exists_ofInstant? hnow with ⟨ts, hts, -⟩
  rw [read?, hts, Option.map_some]
  unfold during
  rw [Payload.checkValidity_of_not_bounded h]

theorem read?_of_not_readable (p : Payload) (h : ¬ now.Readable) : read? p now = none := by
  rw [read?, Timestamp.ofInstant?_of_not_readable h, Option.map_none]

theorem readable_of_read? {s : TokenState} (h : read? p now = some s) : now.Readable := by
  by_contra hnot
  cases h.symm.trans (read?_of_not_readable p hnot)

/-- There is a state wherever the clock can be read. -/
theorem read?_eq_none_iff : read? p now = none ↔ now.time = -2 ^ 63 := by
  rw [← not_not (a := now.time = -2 ^ 63), ← Ne, ← Instant.readable_iff]
  constructor
  · intro hnone hnow
    rcases Timestamp.exists_ofInstant? hnow with ⟨ts, hts, -⟩
    rw [read?, hts] at hnone
    cases hnone
  · exact read?_of_not_readable p

theorem exists_read? (p : Payload) (hnow : now.Readable) : ∃ s, read? p now = some s := by
  rw [← Option.ne_none_iff_exists', Ne, read?_eq_none_iff]
  exact Instant.readable_iff.mp hnow

/-- Whether a payload's token may be used when the clock reads `now`. -/
def UsableAt (p : Payload) (now : Instant) : Prop := ∃ s, read? p now = some s ∧ s.isUsable = true

theorem isUsable_during_iff {ts : Timestamp} :
    (during p ts).isUsable = true ↔ p.checkValidity ts = .ok () := by
  unfold during
  split
  · rename_i h
    simp [h, isUsable]
  · rename_i e _ h
    simp [h, isUsable]
  · rename_i h
    rw [h]
    split
    · split
      · simp [isUsable]
      · simp [isUsable]
    · simp [isUsable]

/-- A token is usable when the clock finds no fault with its payload. -/
theorem usableAt_iff : UsableAt p now ↔ p.checkClock now = .ok () := by
  unfold UsableAt read? Payload.checkClock
  cases Timestamp.ofInstant? now with
  | none => simp
  | some ts => simp [isUsable_during_iff]

/-- A token is in one of the two good states when the clock finds no fault with its payload. -/
theorem live_or_softExpired_iff {s : TokenState} (h : read? p now = some s) :
    s = .live ∨ s = .softExpired ↔ p.checkClock now = .ok () := by
  rw [← usableAt_iff]
  constructor
  · rintro (rfl | rfl)
    · exact ⟨_, h, rfl⟩
    · exact ⟨_, h, rfl⟩
  · rintro ⟨s', hs', husable⟩
    cases h.symm.trans hs'
    cases s with
    | notYetValid => cases husable
    | live => exact .inl rfl
    | softExpired => exact .inr rfl
    | expired => cases husable

/-- No clock takes a token back to an earlier state. -/
theorem rank_read?_le {t u : Instant} {s r : TokenState} (h : t.time ≤ u.time)
    (hs : read? p t = some s) (hr : read? p u = some r) : s.rank ≤ r.rank := by
  have ht := readable_of_read? hs
  have hu := readable_of_read? hr
  rcases p.bounded_or_not with ⟨lo, hi, hbounded⟩ | hnone
  · cases hs.symm.trans (read?_of_bounded hbounded ht)
    cases hr.symm.trans (read?_of_bounded hbounded hu)
    exact rank_ofBounds_le (Instant.time_le_time_iff.mp h)
  · cases hr.symm.trans (read?_of_not_bounded hnone hu)
    exact rank_le_rank_expired s

/-- The times at which a token is usable have no gap. -/
theorem UsableAt.between {t u v : Instant} (ht : UsableAt p t) (hv : UsableAt p v)
    (htu : t.time ≤ u.time) (huv : u.time ≤ v.time) : UsableAt p u := by
  rw [usableAt_iff, Payload.checkClock_eq_ok_iff] at *
  rcases ht with ⟨first, last, hbounded, hfirst, -⟩
  have hlast := (hbounded.holdsAt_iff.mp hv).2
  exact ⟨first, last, hbounded, hfirst.trans htu, huv.trans hlast⟩

/-- Renewal is due when a token is usable and its soft bound is past. -/
theorem read?_eq_softExpired_iff {soft : Timestamp} (hsoft : p.softNotAfter = some soft)
    (hnormal : soft.Normal) :
    read? p now = some .softExpired ↔ UsableAt p now ∧ soft.time < now.time := by
  rw [← not_le, Instant.time_le_timestamp_iff, not_le]
  constructor
  · intro h
    have hnow := readable_of_read? h
    refine ⟨⟨_, h, rfl⟩, ?_⟩
    rcases p.bounded_or_not with ⟨lo, hi, hbounded⟩ | hnone
    · rw [read?_of_bounded hbounded hnow, hsoft, Option.some_inj,
        ofBounds_eq_softExpired_iff] at h
      rcases h with ⟨-, s, hs, hlate⟩
      cases hs
      rwa [Timestamp.place_of_normal hnormal] at hlate
    · cases h.symm.trans (read?_of_not_bounded hnone hnow)
  · rintro ⟨husable, hlate⟩
    rw [usableAt_iff, Payload.checkClock_eq_ok_iff] at husable
    have hnow := husable.readable
    rcases husable with ⟨lo, hi, hbounded, hfirst, hlast⟩
    rw [Timestamp.time_le_instant_iff] at hfirst
    rw [Instant.time_le_timestamp_iff] at hlast
    rw [read?_of_bounded hbounded hnow, hsoft, Option.some_inj, ofBounds_eq_softExpired_iff]
    exact ⟨⟨hfirst, hlast⟩, soft.place, rfl, by rwa [Timestamp.place_of_normal hnormal]⟩

end

/-- The token of a payload is accepted, and as this payload, when it is usable. -/
theorem decode_encode_iff_usableAt (mac : Mac) {p q : Payload} {now : Instant} (h : p.Holdable) :
    Token.decode mac now (Token.encode mac p) = .ok q ↔ q = p ∧ UsableAt p now := by
  rw [usableAt_iff, Token.decode_eq_ok_iff]
  by_cases hp : p = {}
  · -- the one payload whose token is malformed has no bounds either
    subst hp
    have hsegments : Token.authenticate mac (Token.encode mac {}) = .error (.malformed .segments) := by
      unfold Token.authenticate
      rw [Token.segments_encode_default, error_bind]
    have hholds : ¬ ({} : Payload).HoldsAt now.time := by
      rintro ⟨first, last, hbounded, -⟩
      cases hbounded.notBefore
    have hclock : ({} : Payload).checkClock now ≠ .ok () :=
      mt Payload.checkClock_eq_ok_iff.mp hholds
    rw [hsegments]
    simp only [reduceCtorEq, false_and, false_iff, not_and]
    rintro rfl
    exact hclock
  · rw [Token.authenticate_encode mac h hp]
    constructor
    · rintro ⟨⟨⟩, hclock⟩
      exact ⟨rfl, hclock⟩
    · rintro ⟨rfl, hclock⟩
      exact ⟨rfl, hclock⟩

/-- The life of a token at all clock readings.  There is a state at every reading but the one 2 ^ 63
seconds before 1970; at a later reading a token is further in its life or as far, whatever its
bounds and its soft bound are, so the times at which it is usable have no gap.  It is usable when
its payload passes the clock, which is when its signed text is accepted, and read as that payload.
With a well-formed soft bound, renewal is due when it is usable and that bound is past. -/
theorem life_moves_forward (mac : Mac) {p : Payload} (h : p.Holdable) :
    (∀ t, read? p t = none ↔ t.time = -2 ^ 63) ∧
    (∀ t₁ t₂ s₁ s₂, t₁.time ≤ t₂.time → read? p t₁ = some s₁ → read? p t₂ = some s₂ →
      s₁.rank ≤ s₂.rank) ∧
    (∀ t₁ t₂ t₃ : Instant, t₁.time ≤ t₂.time → t₂.time ≤ t₃.time → UsableAt p t₁ →
      UsableAt p t₃ → UsableAt p t₂) ∧
    (∀ t, (UsableAt p t ↔ p.checkClock t = .ok ()) ∧
      ∀ q, Token.decode mac t (Token.encode mac p) = .ok q ↔ q = p ∧ UsableAt p t) ∧
    (∀ soft, p.softNotAfter = some soft → soft.WellFormed → ∀ t,
      read? p t = some .softExpired ↔ UsableAt p t ∧ soft.time < t.time) := by
  refine ⟨fun t => read?_eq_none_iff, ?_, ?_, ?_, ?_⟩
  · intro t₁ t₂ s₁ s₂ hle h₁ h₂
    exact rank_read?_le hle h₁ h₂
  · intro t₁ t₂ t₃ h₁₂ h₂₃ h₁ h₃
    exact h₁.between h₃ h₁₂ h₂₃
  · intro t
    exact ⟨usableAt_iff, fun q => decode_encode_iff_usableAt mac h⟩
  · intro soft hsoft hwellFormed t
    exact read?_eq_softExpired_iff hsoft hwellFormed.normal

/-- A token that holds from a second and a half before the epoch on and should be renewed a
nanosecond after it: a nanosecond before it holds it is early, two nanoseconds after the epoch
renewal is due and it is accepted, and so it is at every reading from its first through that one. -/
theorem life_across_the_epoch :
    let p : Payload :=
      { notBefore := some ⟨-2, 500000000⟩, notAfter := some ⟨3, 0⟩, softNotAfter := some ⟨0, 1⟩ }
    p.Holdable ∧ Timestamp.WellFormed ⟨0, 1⟩ ∧
      read? p ⟨-2, 499999999, by decide⟩ = some .notYetValid ∧
      read? p ⟨0, 2, by decide⟩ = some .softExpired ∧
      ∀ t : Instant, (⟨-2, 500000000, by decide⟩ : Instant).time ≤ t.time →
        t.time ≤ (⟨0, 2, by decide⟩ : Instant).time →
        Token.decode (.hmac [7]) t (Token.encode (.hmac [7]) p) = .ok p := by
  intro p
  have hp : p.Holdable := by
    unfold Payload.Holdable
    decide
  have hsoft : Timestamp.WellFormed ⟨0, 1⟩ := ⟨by decide, by decide, by decide, by decide⟩
  rcases life_moves_forward (.hmac [7]) hp with ⟨-, -, hbetween, hdecode, hrenew⟩
  have hlast : read? p ⟨0, 2, by decide⟩ = some .softExpired := rfl
  refine ⟨hp, hsoft, rfl, hlast, ?_⟩
  intro t hfrom hthrough
  have hfirst : UsableAt p ⟨-2, 500000000, by decide⟩ := ⟨.live, rfl, rfl⟩
  have husable := hbetween _ t _ hfrom hthrough hfirst ((hrenew _ rfl hsoft _).mp hlast).1
  exact ((hdecode t).2 p).mpr ⟨rfl, husable⟩

end PicBoard.TokenState
