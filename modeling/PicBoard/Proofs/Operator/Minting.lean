import PicBoard.Operator.Tokens
import PicBoard.Proofs.GlyphNumber.RoundTrip
import PicBoard.Proofs.Time.Conversion
import PicBoard.Proofs.Token.Lifetime

/-!
# What minted tokens are good for

A minted token says what was asked for, with bounds at the times asked for (`Says`).  One that ends
in year 9999 or before is live when it is made and lives as long as was asked for (`Serves`).  One
that ends later is made too, but it never holds (`Token.Dead`), and where clocks cannot tell the end
there is no token (`minted_token_serves_iff_end_in_years`).
-/

namespace PicBoard

/-! ## Bounds -/

/-- A timestamp of a clock reading at some time. -/
def Timestamp.Marks (ts : Timestamp) (time : ℚ) : Prop :=
  ∃ t : Instant, ofInstant? t = some ts ∧ t.time = time

namespace Timestamp.Marks

variable {ts : Timestamp} {time : ℚ}

theorem normal (h : ts.Marks time) : ts.Normal := by
  obtain ⟨t, hts, -⟩ := h
  exact (ofInstant?_eq_some_iff.mp hts).2.1

theorem time_eq (h : ts.Marks time) : ts.time = time := by
  obtain ⟨t, hts, rfl⟩ := h
  exact time_eq_of_ofInstant? hts

theorem wellFormed_iff (h : ts.Marks time) :
    ts.WellFormed ↔ (minSeconds : ℚ) ≤ time ∧ time < maxSeconds + 1 := by
  obtain ⟨t, hts, rfl⟩ := h
  rw [← isValid_iff_wellFormed, isValid_iff_inYears hts, Instant.InYears]

end Timestamp.Marks

/-! ## Dead tokens -/

/-- The token of a payload is refused as expired at every time at which there is a verdict. -/
structure Token.Dead (mac : Mac) (p : Payload) : Prop where
  refused : ∀ t : Instant, t.time ≠ -2 ^ 63 →
    Token.decode mac t (Token.encode mac p) = .error .expired
  expired : ∀ t : Instant, t.time ≠ -2 ^ 63 → TokenState.read? p t = some .expired

theorem Token.dead_of_not_bounded (mac : Mac) {p : Payload} (h : p.Holdable) (hp : p ≠ {})
    (hnone : ∀ first last, ¬ p.Bounded first last) : Dead mac p := by
  constructor
  · intro t ht
    unfold Token.decode
    rw [authenticate_encode mac h hp, ok_bind,
      Payload.checkClock_of_not_bounded hnone (Instant.readable_iff.mpr ht), error_bind]
  · intro t ht
    exact TokenState.read?_of_not_bounded hnone (Instant.readable_iff.mpr ht)

namespace Operator

/-! ## What a minted token says -/

namespace MintRequest

variable {mac : Mac} {r : MintRequest} {now : Instant} {p : Payload}

/-- Where clocks can tell the time of a bound, it is a timestamp of that time. -/
theorem exists_bound? {n : Int} (hlo : -2 ^ 63 < now.time + n) (hhi : now.time + n < 2 ^ 63) :
    ∃ ts, bound? now n = some ts ∧ ts.Marks (now.time + n) := by
  have hshift : now.shift? n ≠ none := by
    rw [Ne, Instant.shift?_eq_none_iff_time, not_not]
    exact ⟨hlo.le, hhi⟩
  obtain ⟨t, ht⟩ := Option.ne_none_iff_exists'.mp hshift
  have htime := Instant.shift?_eq_some_iff_time.mp ht
  -- the one reading without a timestamp is at the bound that `hlo` leaves out
  have hreadable : t.Readable := by
    rw [Instant.readable_iff, htime]
    exact hlo.ne'
  obtain ⟨ts, hts, -⟩ := Timestamp.exists_ofInstant? hreadable
  refine ⟨ts, ?_, t, hts, htime⟩
  rw [bound?, ht, Option.bind_some, hts]

theorem bound?_eq_none {n : Int} (h : 2 ^ 63 ≤ now.time + n) : bound? now n = none := by
  have hshift : now.shift? n = none := by
    rw [Instant.shift?_eq_none_iff_time]
    rintro ⟨-, hhi⟩
    exact absurd hhi (not_lt.mpr h)
  rw [bound?, hshift, Option.bind_none]

/-- A token begins to hold a minute before it is made. -/
theorem exists_notBefore (hlo : -2 ^ 63 < now.time - 60) (hhi : now.time < 2 ^ 63) :
    ∃ first, bound? now (-clockSkew) = some first ∧ first.Marks (now.time - 60) := by
  have hskew : now.time + (-clockSkew : Int) = now.time - 60 := by
    rw [clockSkew]
    push_cast
    ring
  rw [← hskew] at hlo ⊢
  apply exists_bound? hlo
  rw [hskew]
  linarith

/-- A part of its life ends so many seconds after that. -/
theorem exists_end {seconds : Nat} (hlo : -2 ^ 63 < now.time) (hhi : now.time + seconds < 2 ^ 63) :
    ∃ last, bound? now seconds = some last ∧ last.Marks (now.time + seconds) := by
  have hpos : (0 : ℚ) ≤ seconds := Nat.cast_nonneg seconds
  have hcast : ((seconds : Int) : ℚ) = seconds := Int.cast_natCast seconds
  rw [← hcast] at hpos hhi ⊢
  apply exists_bound? _ hhi
  linarith

/-- What a payload for a request says when the clock reads `now`. -/
structure Says (r : MintRequest) (now : Instant) (p : Payload) : Prop where
  subject : p.subject = GlyphNumber.text r.userId
  tokenId : p.tokenId = r.tokenId
  tokenParentId : p.tokenParentId = r.parentId
  typeCode : p.typeCode = r.type.code
  issuer : p.issuer = r.issuer
  notBefore : ∃ first, p.notBefore = some first ∧ first.Marks (now.time - 60)
  notAfter : ∃ last, p.notAfter = some last ∧ last.Marks (now.time + r.ttl)
  softNotAfter : Option.Rel (fun seconds soft => soft.Marks (now.time + seconds))
    r.softTtl p.softNotAfter

/-- There is a payload where clocks can tell all of its times. -/
theorem exists_payload? (hfirst : -2 ^ 63 < now.time - 60) (hlast : now.time + r.ttl < 2 ^ 63)
    (hsoft : ∀ soft ∈ r.softTtl, soft ≤ r.ttl) : ∃ p, r.payload? now = some p ∧ r.Says now p := by
  have hpos : (0 : ℚ) ≤ r.ttl := Nat.cast_nonneg r.ttl
  have hnow : -2 ^ 63 < now.time := by linarith
  obtain ⟨first, hbefore, hfirstMarks⟩ := exists_notBefore hfirst (by linarith)
  obtain ⟨last, hafter, hlastMarks⟩ := exists_end hnow hlast
  unfold payload?
  rw [hbefore, hafter]
  cases hrequest : r.softTtl with
  | none =>
    refine ⟨_, rfl, rfl, rfl, rfl, rfl, rfl, ⟨first, rfl, hfirstMarks⟩, ⟨last, rfl, hlastMarks⟩, ?_⟩
    rw [hrequest]
    exact .none
  | some seconds =>
    -- renewal is asked for by the end, so clocks can tell its time when they can tell the end
    have hle : (seconds : ℚ) ≤ r.ttl := Nat.cast_le.mpr (hsoft seconds hrequest)
    have hrenewal : now.time + seconds < 2 ^ 63 := by linarith
    obtain ⟨soft, hrenew, hsoftMarks⟩ := exists_end hnow hrenewal
    simp only [hrenew]
    refine ⟨_, rfl, rfl, rfl, rfl, rfl, rfl, ⟨first, rfl, hfirstMarks⟩, ⟨last, rfl, hlastMarks⟩, ?_⟩
    rw [hrequest]
    exact .some hsoftMarks

theorem payload?_eq_none (h : 2 ^ 63 ≤ now.time + r.ttl) : r.payload? now = none := by
  have hlast : bound? now r.ttl = none := bound?_eq_none (by exact_mod_cast h)
  unfold payload?
  rw [hlast]
  cases bound? now (-clockSkew) with
  | none => rfl
  | some first => rfl

/-! ## What a minted token is good for -/

/-- The token of a payload does what was asked for when the clock read `now`: it is accepted from a
minute before that time through the end of its life, as this payload; it is live at that time; and
where renewal was asked for it is due after that part of its life and until its end. -/
structure Serves (r : MintRequest) (mac : Mac) (now : Instant) (p : Payload) : Prop where
  accepted : ∀ t q, Token.decode mac t (Token.encode mac p) = .ok q ↔
    q = p ∧ now.time - 60 ≤ t.time ∧ t.time ≤ now.time + r.ttl
  live : TokenState.read? p now = some .live
  renewal : ∀ soft ∈ r.softTtl, ∀ t, TokenState.read? p t = some .softExpired ↔
    now.time + soft < t.time ∧ t.time ≤ now.time + r.ttl

theorem Serves.not_dead (h : r.Serves mac now p) : ¬ Token.Dead mac p := by
  intro hdead
  have hnow := Instant.readable_iff.mp (TokenState.readable_of_read? h.live)
  cases (hdead.expired now hnow).symm.trans h.live

namespace Says

theorem holdable (h : r.Says now p) (hissuer : (Bytes.ofText r.issuer).length < UInt64.size) :
    p.Holdable := by
  have hlen := GlyphNumber.bodyLength_le r.userId.toUInt64.toNat
  refine ⟨?_, by rw [h.issuer]; exact hissuer⟩
  rw [h.subject, GlyphNumber.ofText_bytes_text, GlyphNumber.encode, GlyphNumber.encodeNat_length]
  simp only [GlyphNumber.maxBody, UInt64.size] at *
  omega

theorem ne_default (h : r.Says now p) : p ≠ {} := by
  rintro rfl
  obtain ⟨first, hfirst, -⟩ := h.notBefore
  cases hfirst

/-- There is a soft bound where one was asked for, and at the time that was asked for. -/
theorem soft_cases (h : r.Says now p) :
    (r.softTtl = none ∧ p.softNotAfter = none) ∨
      ∃ seconds soft, r.softTtl = some seconds ∧ p.softNotAfter = some soft ∧
        soft.Marks (now.time + seconds) := by
  have hrel := h.softNotAfter
  generalize r.softTtl = asked, p.softNotAfter = said at hrel
  cases hrel with
  | none => exact .inl ⟨rfl, rfl⟩
  | some hmarks => exact .inr ⟨_, _, rfl, rfl, hmarks⟩

/-- A token that ends in year 9999 or before has both bounds. -/
theorem bounded (h : r.Says now p) (hfirst : (Timestamp.minSeconds : ℚ) ≤ now.time - 60)
    (hlast : now.time + r.ttl < Timestamp.maxSeconds + 1) :
    ∃ first last, p.Bounded first last ∧ first.time = now.time - 60 ∧
      last.time = now.time + r.ttl := by
  have hpos : (0 : ℚ) ≤ r.ttl := Nat.cast_nonneg r.ttl
  obtain ⟨first, hbefore, hfirstMarks⟩ := h.notBefore
  obtain ⟨last, hafter, hlastMarks⟩ := h.notAfter
  refine ⟨first, last, ⟨hbefore, hafter, ?_, ?_⟩, hfirstMarks.time_eq, hlastMarks.time_eq⟩
  · rw [hfirstMarks.wellFormed_iff]
    exact ⟨hfirst, by linarith⟩
  · rw [hlastMarks.wellFormed_iff]
    exact ⟨by linarith, hlast⟩

/-- One that ends later has none that counts. -/
theorem not_bounded (h : r.Says now p) (hlast : (Timestamp.maxSeconds : ℚ) + 1 ≤ now.time + r.ttl)
    (first last : Timestamp) : ¬ p.Bounded first last := by
  intro hbounded
  obtain ⟨ts, hafter, hmarks⟩ := h.notAfter
  cases hbounded.notAfter.symm.trans hafter
  have hyears := hmarks.wellFormed_iff.mp hbounded.wellFormed_last
  exact absurd hyears.2 (not_lt.mpr hlast)

section

variable (hfirst : (Timestamp.minSeconds : ℚ) ≤ now.time - 60)
  (hlast : now.time + r.ttl < Timestamp.maxSeconds + 1)

include hfirst hlast

theorem usableAt_iff (h : r.Says now p) {t : Instant} :
    TokenState.UsableAt p t ↔ now.time - 60 ≤ t.time ∧ t.time ≤ now.time + r.ttl := by
  obtain ⟨first, last, hbounded, hfirstTime, hlastTime⟩ := h.bounded hfirst hlast
  rw [TokenState.usableAt_iff, Payload.checkClock_eq_ok_iff, hbounded.holdsAt_iff, hfirstTime,
    hlastTime]

theorem softExpired_iff (h : r.Says now p) {seconds : Nat} (hsoft : r.softTtl = some seconds)
    {t : Instant} :
    TokenState.read? p t = some .softExpired ↔
      now.time + seconds < t.time ∧ t.time ≤ now.time + r.ttl := by
  have hpos : (0 : ℚ) ≤ seconds := Nat.cast_nonneg seconds
  rcases h.soft_cases with ⟨hnone, -⟩ | ⟨seconds', soft, hseconds, hp, hmarks⟩
  · cases hsoft.symm.trans hnone
  · cases hsoft.symm.trans hseconds
    rw [TokenState.read?_eq_softExpired_iff hp hmarks.normal, h.usableAt_iff hfirst hlast,
      hmarks.time_eq]
    constructor
    · rintro ⟨⟨-, hend⟩, hlate⟩
      exact ⟨hlate, hend⟩
    · rintro ⟨hlate, hend⟩
      exact ⟨⟨by linarith, hend⟩, hlate⟩

/-- It is live when it is made. -/
theorem live (h : r.Says now p) : TokenState.read? p now = some .live := by
  have hpos : ∀ n : Nat, (0 : ℚ) ≤ n := Nat.cast_nonneg
  have hbegun : now.time - 60 ≤ now.time := by linarith
  have hnotOver : now.time ≤ now.time + r.ttl := by linarith [hpos r.ttl]
  obtain ⟨first, last, hbounded, hfirstTime, hlastTime⟩ := h.bounded hfirst hlast
  -- a token that is usable has a state, so the clock can be read now
  obtain ⟨s, hs, -⟩ := (h.usableAt_iff hfirst hlast).mpr ⟨hbegun, hnotOver⟩
  rw [TokenState.read?_of_bounded hbounded (TokenState.readable_of_read? hs), Option.some_inj,
    TokenState.ofBounds_eq_live_iff, ← Timestamp.time_le_instant_iff,
    ← Instant.time_le_timestamp_iff, hfirstTime, hlastTime]
  refine ⟨hbegun, hnotOver, ?_⟩
  -- renewal is due after the soft bound, and that is not before `now`
  rcases h.soft_cases with ⟨-, hp⟩ | ⟨seconds, soft, -, hp, hmarks⟩
  · rw [hp]
    intro place hplace
    cases hplace
  · rw [hp]
    intro place hplace
    cases hplace
    rw [Timestamp.place_of_normal hmarks.normal, ← Instant.time_le_timestamp_iff, hmarks.time_eq]
    linarith [hpos seconds]

theorem serves (h : r.Says now p) (mac : Mac)
    (hissuer : (Bytes.ofText r.issuer).length < UInt64.size) : r.Serves mac now p := by
  constructor
  · intro t q
    rw [TokenState.decode_encode_iff_usableAt mac (h.holdable hissuer),
      h.usableAt_iff hfirst hlast]
  · exact h.live hfirst hlast
  · intro seconds hsoft t
    exact h.softExpired_iff hfirst hlast hsoft

end

/-- A token that ends later is dead from the beginning. -/
theorem dead (h : r.Says now p) (mac : Mac)
    (hissuer : (Bytes.ofText r.issuer).length < UInt64.size)
    (hlast : (Timestamp.maxSeconds : ℚ) + 1 ≤ now.time + r.ttl) : Token.Dead mac p := by
  apply Token.dead_of_not_bounded mac (h.holdable hissuer) h.ne_default
  exact h.not_bounded hlast

end Says

/-! ## Minting -/

/-- A token that should be renewed only after its end is not made. -/
theorem check_of_lt {soft : Nat} (hsoft : r.softTtl = some soft) (hlt : r.ttl < soft) :
    r.check = .error (.softOutlastsHard soft r.ttl) := by
  unfold check
  rw [hsoft]
  exact if_pos hlt

theorem check_of_le (hsoft : ∀ soft ∈ r.softTtl, soft ≤ r.ttl) : r.check = .ok () := by
  unfold check
  cases hrequest : r.softTtl with
  | none => rfl
  | some soft => exact if_neg (not_lt.mpr (hsoft soft hrequest))

theorem mint_eq_ok (hsoft : ∀ soft ∈ r.softTtl, soft ≤ r.ttl) (hp : r.payload? now = some p) :
    mint mac now r = .ok (Token.encode mac p) := by
  unfold mint
  rw [check_of_le hsoft, ok_bind, hp]

/-- When clocks cannot tell the end of a life, it is not the request that is found at fault. -/
theorem mint_eq_timeOutOfRange (hsoft : ∀ soft ∈ r.softTtl, soft ≤ r.ttl)
    (hlast : 2 ^ 63 ≤ now.time + r.ttl) : mint mac now r = .error .timeOutOfRange := by
  unfold mint
  rw [check_of_le hsoft, ok_bind, payload?_eq_none hlast]

end MintRequest

/-- What minting comes to, by the end of the life that is asked for.  A request for renewal after
the end is refused.  For any other there is a token, unless clocks cannot tell the end, and it says
what was asked for.  Exactly when its end is in year 9999 or before it serves: it is live at once and
accepted from a minute before through the end.  When the end is later the token is dead from the
beginning, and is made all the same. -/
theorem minted_token_serves_iff_end_in_years (mac : Mac) (r : MintRequest) (now : Instant)
    (hissuer : (Bytes.ofText r.issuer).length < UInt64.size)
    (hfirst : (Timestamp.minSeconds : ℚ) ≤ now.time - 60) :
    (∀ soft, r.softTtl = some soft → r.ttl < soft →
      mint mac now r = .error (.softOutlastsHard soft r.ttl)) ∧
    ((∀ soft ∈ r.softTtl, soft ≤ r.ttl) →
      (now.time + r.ttl < 2 ^ 63 →
        ∃ p, r.Says now p ∧ mint mac now r = .ok (Token.encode mac p) ∧
          (r.Serves mac now p ↔ now.time + r.ttl < Timestamp.maxSeconds + 1) ∧
          (Token.Dead mac p ↔ Timestamp.maxSeconds + 1 ≤ now.time + r.ttl)) ∧
      (2 ^ 63 ≤ now.time + r.ttl → mint mac now r = .error .timeOutOfRange)) := by
  constructor
  · intro soft hsoft hlt
    unfold mint
    rw [MintRequest.check_of_lt hsoft hlt, error_bind]
  · intro hsoft
    refine ⟨?_, MintRequest.mint_eq_timeOutOfRange hsoft⟩
    intro hlast
    -- year 1 is well within 64-bit seconds, so only the end can be out of reach
    have hreach : -2 ^ 63 < now.time - 60 := by
      refine lt_of_lt_of_le ?_ hfirst
      norm_num [Timestamp.minSeconds]
    obtain ⟨p, hp, hpayload⟩ := MintRequest.exists_payload? hreach hlast hsoft
    have hserves : now.time + r.ttl < Timestamp.maxSeconds + 1 → r.Serves mac now p := by
      intro hyears
      exact hpayload.serves hfirst hyears mac hissuer
    have hdead : Timestamp.maxSeconds + 1 ≤ now.time + r.ttl → Token.Dead mac p :=
      hpayload.dead mac hissuer
    refine ⟨p, hpayload, MintRequest.mint_eq_ok hsoft hp, ⟨?_, hserves⟩, ⟨?_, hdead⟩⟩
    -- no token both serves and is dead, so each of the two tells where the end is
    · intro h
      by_contra hlate
      exact h.not_dead (hdead (not_lt.mp hlate))
    · intro h
      by_contra hyears
      exact (hserves (not_le.mp hyears)).not_dead h

/-- A token for an hour that should be renewed after a minute, made in the middle of a second: it is
live then, renewal is due a nanosecond after the minute, and it is good to the last nanosecond. -/
theorem hour_token_serves :
    let now : Instant := ⟨1500000000, 500000000, by decide⟩
    let r : MintRequest :=
      { userId := -72374, type := .pix, ttl := 3600, softTtl := some 60, tokenId := 0, parentId := 42
        issuer := "pixur" }
    (Bytes.ofText r.issuer).length < UInt64.size ∧
      (Timestamp.minSeconds : ℚ) ≤ now.time - 60 ∧
      ∃ p, mint (.hmac [7]) now r = .ok (Token.encode (.hmac [7]) p) ∧
        TokenState.read? p now = some .live ∧
        TokenState.read? p ⟨1500000060, 500000001, by decide⟩ = some .softExpired ∧
        Token.decode (.hmac [7]) ⟨1500003600, 500000000, by decide⟩ (Token.encode (.hmac [7]) p) =
          .ok p ∧
        Token.decode (.hmac [7]) ⟨1500003600, 500000001, by decide⟩ (Token.encode (.hmac [7]) p) ≠
          .ok p := by
  intro now r
  have hissuer : (Bytes.ofText r.issuer).length < UInt64.size := by decide
  have htime : ∀ (s : Int64) (n : Nat) (h : n < nanosPerSecond),
      Instant.time ⟨s, n, h⟩ = s.toInt + n / 1000000000 := by
    intro s n h
    rfl
  have hsecond : (1500000000 : Int64).toInt = 1500000000 := by decide
  have hminute : (1500000060 : Int64).toInt = 1500000060 := by decide
  have hhour : (1500003600 : Int64).toInt = 1500003600 := by decide
  have hnow : now.time = 1500000000 + 1 / 2 := by
    rw [htime, hsecond]
    norm_num
  have hfirst : (Timestamp.minSeconds : ℚ) ≤ now.time - 60 := by
    rw [hnow]
    norm_num [Timestamp.minSeconds]
  obtain ⟨-, hmade⟩ := minted_token_serves_iff_end_in_years (.hmac [7]) r now hissuer hfirst
  have hreach : now.time + r.ttl < 2 ^ 63 := by
    rw [hnow]
    norm_num [r]
  have hyears : now.time + r.ttl < Timestamp.maxSeconds + 1 := by
    rw [hnow]
    norm_num [r, Timestamp.maxSeconds]
  obtain ⟨htoken, -⟩ := hmade (by decide)
  obtain ⟨p, -, hmint, hserves, -⟩ := htoken hreach
  obtain ⟨haccepted, hlive, hrenewal⟩ := hserves.mpr hyears
  refine ⟨hissuer, hfirst, p, hmint, hlive, ?_, ?_, ?_⟩
  · rw [hrenewal 60 rfl, hnow, htime, hminute]
    norm_num [r]
  · rw [haccepted, hnow, htime, hhour]
    norm_num [r]
  · rw [Ne, haccepted, hnow, htime, hhour]
    norm_num [r]

/-- A token for some ten thousand years is made and refused at once, and so it is never good for
anything; with the longest life that can be asked for the clock runs out. -/
theorem ten_thousand_years_token_dead :
    let now : Instant := .ofSeconds 1500000000
    let r : MintRequest :=
      { userId := 7, type := .auth, ttl := 300000000000, softTtl := none, tokenId := 0, parentId := 0
        issuer := "" }
    now.InYears ∧ (Timestamp.minSeconds : ℚ) ≤ now.time - 60 ∧
      (∃ p, mint (.hmac [107]) now r = .ok (Token.encode (.hmac [107]) p) ∧
        Token.decode (.hmac [107]) now (Token.encode (.hmac [107]) p) = .error .expired ∧
        TokenState.read? p now = some .expired) ∧
      mint (.hmac [107]) now { r with ttl := 2 ^ 64 - 1 } = .error .timeOutOfRange := by
  intro now r
  have hissuer : (Bytes.ofText r.issuer).length < UInt64.size := by decide
  have hnow : now.time = 1500000000 := by
    have hseconds : (1500000000 : Int64).toInt = 1500000000 := by decide
    rw [Instant.time]
    simp only [now, Instant.ofSeconds, hseconds]
    norm_num
  have hlast : now.time + r.ttl < 2 ^ 63 := by
    rw [hnow]
    norm_num [r]
  have hlate : (Timestamp.maxSeconds : ℚ) + 1 ≤ now.time + r.ttl := by
    rw [hnow]
    norm_num [r, Timestamp.maxSeconds]
  have hreadable : now.time ≠ -2 ^ 63 := by
    rw [hnow]
    norm_num
  obtain ⟨p, hp, hpayload⟩ := MintRequest.exists_payload? (by rw [hnow]; norm_num) hlast (by simp [r])
  have hdead := hpayload.dead (.hmac [107]) hissuer hlate
  refine ⟨?_, ?_, ⟨p, ?_, hdead.refused now hreadable, hdead.expired now hreadable⟩, ?_⟩
  · rw [Instant.InYears, hnow]
    norm_num [Timestamp.minSeconds, Timestamp.maxSeconds]
  · rw [hnow]
    norm_num [Timestamp.minSeconds]
  · exact MintRequest.mint_eq_ok (by simp [r]) hp
  · apply MintRequest.mint_eq_timeOutOfRange
    · simp [r]
    · rw [hnow]
      norm_num

end Operator

end PicBoard
