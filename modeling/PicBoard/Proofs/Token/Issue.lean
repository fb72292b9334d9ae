import PicBoard.Proofs.GlyphNumber.RoundTrip
import PicBoard.Proofs.Token.RoundTrip
import PicBoard.Proofs.Token.Validity
import PicBoard.Token.Claims
import PicBoard.Token.Issue

/-!
# What issued tokens are good for, and when

A token of each kind holds from a minute before the second of its issue through the end of its
window, and is good for its own use only, whatever the time of issue and the time of use.
-/

namespace PicBoard

/-! ## Bounds -/

theorem toInt_saturate {n : Int} (hlo : Int64.minValue.toInt ≤ n)
    (hhi : n ≤ Int64.maxValue.toInt) : (saturate n).toInt = n := by
  unfold saturate
  rw [if_neg (not_lt.mpr hlo), if_neg (not_lt.mpr hhi)]
  exact Int64.toInt_ofInt_of_le hlo (by
    have : Int64.maxValue.toInt = 2 ^ 63 - 1 := rfl
    omega)

/-- A bound in the years 1 through 9999 is a valid timestamp at the start of its second. -/
theorem IssuedTokens.exists_bound (second : Int64) (offset : Int)
    (hlo : Timestamp.minSeconds ≤ second.toInt + offset)
    (hhi : second.toInt + offset ≤ Timestamp.maxSeconds) :
    ∃ ts, IssuedTokens.bound second offset = some ts ∧ ts.isValid = true ∧
      ts.total = (second.toInt + offset) * nanosPerSecond := by
  have hmin : Int64.minValue.toInt = -2 ^ 63 := rfl
  have hmax : Int64.maxValue.toInt = 2 ^ 63 - 1 := rfl
  have hsat : (saturate (second.toInt + offset)).toInt = second.toInt + offset := by
    simp only [Timestamp.minSeconds, Timestamp.maxSeconds] at hlo hhi
    exact toInt_saturate (by omega) (by omega)
  refine ⟨_, rfl, ?_, ?_⟩
  · rw [Timestamp.isValid_iff]
    refine ⟨?_, ?_⟩
    · simp only [Timestamp.ofSeconds, hsat]
      exact ⟨hlo, hhi⟩
    · simp [Timestamp.Normal, Timestamp.ofSeconds, nanosPerSecond]
  · rw [Timestamp.total_ofSeconds, hsat]

/-! ## Presenting a token at some time -/

namespace Token

/-- A token that is presented must be a pix token, whatever anonymous callers may do. -/
theorem validatePix_of_given {mac : Mac} {now : Instant} {token : Bytes} (hgiven : token ≠ [])
    (anonymous : Bool) :
    validatePix mac now (some token) anonymous = (decodeTyped mac now token .pix).map some := by
  unfold validatePix
  simp only [Option.filter, hgiven, ne_eq, not_false_eq_true, decide_true, if_true]

/-- Without a token, or with an empty one, a caller is anonymous. -/
theorem validatePix_of_none {mac : Mac} {now : Instant} {presented : Option Bytes}
    (h : presented = none ∨ presented = some []) (anonymous : Bool) :
    validatePix mac now presented anonymous =
      if anonymous then .ok none else .error .missingToken := by
  rcases h with rfl | rfl
  · rfl
  · rfl

/-- What becomes of a token that holds from the start of one second through the start of another:
refused before as early, refused after as expired, and `inside` between the two. -/
def outcomeAt {α : Type} (first last : Int) (t : Instant) (inside : Except TokenError α) :
    Except TokenError α :=
  if t.total < first * nanosPerSecond then .error .notYetValid
  else if last * nanosPerSecond < t.total then .error .expired
  else inside

theorem outcomeAt_bind {α β : Type} (first last : Int) (t : Instant) (x : Except TokenError α)
    (f : α → Except TokenError β) :
    (outcomeAt first last t x >>= f) = outcomeAt first last t (x >>= f) := by
  unfold outcomeAt
  split
  · rfl
  · split
    · rfl
    · rfl

theorem outcomeAt_map {α β : Type} (first last : Int) (t : Instant) (x : Except TokenError α)
    (f : α → β) : (outcomeAt first last t x).map f = outcomeAt first last t (x.map f) := by
  unfold outcomeAt
  split
  · rfl
  · split
    · rfl
    · rfl

/-- Between the two seconds. -/
theorem outcomeAt_of_within {α : Type} {first last : Int} {t : Instant}
    (hfirst : first * nanosPerSecond ≤ t.total) (hlast : t.total ≤ last * nanosPerSecond)
    (inside : Except TokenError α) : outcomeAt first last t inside = inside := by
  unfold outcomeAt
  rw [if_neg (not_lt.mpr hfirst), if_neg (not_lt.mpr hlast)]

/-- A payload for a user that holds from the start of one second through the start of another. -/
structure Spans (p : Payload) (userId : Int64) (first last : Int) : Prop where
  subject : p.subject = GlyphNumber.text userId
  issuer : (Bytes.ofText p.issuer).length < UInt64.size
  notBefore : ∃ ts, p.notBefore = some ts ∧ ts.isValid = true ∧ ts.total = first * nanosPerSecond
  notAfter : ∃ ts, p.notAfter = some ts ∧ ts.isValid = true ∧ ts.total = last * nanosPerSecond

namespace Spans

variable {mac : Mac} {t : Instant} {p : Payload} {userId : Int64} {first last : Int}

theorem holdable (h : Spans p userId first last) : p.Holdable := by
  refine ⟨?_, h.issuer⟩
  have hlen := GlyphNumber.bodyLength_le userId.toUInt64.toNat
  rw [h.subject, GlyphNumber.ofText_bytes_text, GlyphNumber.encode, GlyphNumber.encodeNat_length]
  simp only [GlyphNumber.maxBody, UInt64.size] at *
  omega

theorem ne_default (h : Spans p userId first last) : p ≠ {} := by
  rintro rfl
  obtain ⟨ts, hts, -⟩ := h.notBefore
  cases hts

theorem subjectId (h : Spans p userId first last) : Token.subjectId p = .ok userId := by
  unfold Token.subjectId
  rw [h.subject, GlyphNumber.ofText_text]

/-- The token of such a payload, read at some time. -/
theorem decode (h : Spans p userId first last) (ht : t.Readable) :
    Token.decode mac t (encode mac p) = outcomeAt first last t (.ok p) := by
  obtain ⟨lo, hlo, vlo, tlo⟩ := h.notBefore
  obtain ⟨hi, hhi, vhi, thi⟩ := h.notAfter
  unfold Token.decode
  rw [authenticate_encode mac h.holdable h.ne_default, ok_bind,
    Payload.checkClock_eq hlo hhi vlo vhi ht, tlo, thi]
  exact outcomeAt_bind first last t (.ok ()) fun _ => .ok p

/-- The same where one kind of token is wanted. -/
theorem decodeTyped (h : Spans p userId first last) (ht : t.Readable) (expected : TokenType) :
    Token.decodeTyped mac t (encode mac p) expected = outcomeAt first last t
      (if p.type = expected then .ok p else .error (.wrongType expected p.type)) := by
  unfold Token.decodeTyped
  rw [h.decode ht, outcomeAt_bind, ok_bind]

theorem validateAuth (h : Spans p userId first last) (ht : t.Readable) :
    Token.validateAuth mac t (encode mac p) = outcomeAt first last t
      (if p.type = .auth then
        .ok { userId, family := if p.tokenParentId = 0 then none else some p.tokenParentId }
      else .error (.wrongType .auth p.type)) := by
  unfold Token.validateAuth
  rw [h.decodeTyped ht, outcomeAt_bind]
  split
  · rw [ok_bind, h.subjectId, ok_bind]
    rfl
  · rw [error_bind]

theorem validateRefresh (h : Spans p userId first last) (ht : t.Readable) :
    Token.validateRefresh mac t (encode mac p) = outcomeAt first last t
      (if p.type = .refresh then .ok { userId, family := p.tokenId }
      else .error (.wrongType .refresh p.type)) := by
  unfold Token.validateRefresh
  rw [h.decodeTyped ht, outcomeAt_bind]
  split
  · rw [ok_bind, h.subjectId, ok_bind]
    rfl
  · rw [error_bind]

theorem validatePix (h : Spans p userId first last) (ht : t.Readable) (anonymous : Bool) :
    Token.validatePix mac t (some (encode mac p)) anonymous = outcomeAt first last t
      (if p.type = .pix then .ok (some p) else .error (.wrongType .pix p.type)) := by
  have hne : encode mac p ≠ [] := by simp [encode]
  rw [validatePix_of_given hne, h.decodeTyped ht, outcomeAt_map]
  split
  · rfl
  · rfl

end Spans

end Token

/-! ## The tokens of one issue -/

namespace IssuedTokens

open Token

variable {mac : Mac} {w : TokenWindows} {second userId family : Int64} {issuer : String}

/-- A window that ends in year 9999 at the latest is taken as it is. -/
theorem window_eq {seconds : Nat} (hlo : Timestamp.minSeconds ≤ second.toInt - 60)
    (hhi : second.toInt + seconds ≤ Timestamp.maxSeconds) : window seconds = seconds := by
  have hmax : Int64.maxValue.toInt = 2 ^ 63 - 1 := rfl
  unfold window
  rw [hmax]
  simp only [Timestamp.minSeconds, Timestamp.maxSeconds] at hlo hhi
  omega

/-- A payload with the bounds of an issue holds from a minute before it through the end of its
window. -/
theorem spans_of_bounds {p : Payload} {seconds : Nat}
    (hlo : Timestamp.minSeconds ≤ second.toInt - 60)
    (hhi : second.toInt + seconds ≤ Timestamp.maxSeconds)
    (hissuer : (Bytes.ofText issuer).length < UInt64.size)
    (hsubject : p.subject = GlyphNumber.text userId) (hp : p.issuer = issuer)
    (hbefore : p.notBefore = bound second (-clockSkew))
    (hafter : p.notAfter = bound second (window seconds)) :
    Spans p userId (second.toInt - 60) (second.toInt + seconds) := by
  have hskew : clockSkew = 60 := rfl
  obtain ⟨lo, blo, vlo, tlo⟩ := exists_bound second (-clockSkew) (by omega) (by omega)
  obtain ⟨hi, bhi, vhi, thi⟩ := exists_bound second (window seconds)
    (by rw [window_eq hlo hhi]; omega) (by rw [window_eq hlo hhi]; omega)
  rw [window_eq hlo hhi] at thi
  refine ⟨hsubject, by rw [hp]; exact hissuer, ⟨lo, ?_, vlo, tlo⟩, ⟨hi, ?_, vhi, thi⟩⟩
  · rw [hbefore, blo]
  · rw [hafter, bhi]

/-- An auth token holds through the end of its window. -/
theorem spans_authPayload (hlo : Timestamp.minSeconds ≤ second.toInt - 60)
    (hhi : second.toInt + w.auth ≤ Timestamp.maxSeconds)
    (hissuer : (Bytes.ofText issuer).length < UInt64.size) :
    Spans (authPayload w second userId family issuer) userId (second.toInt - 60)
      (second.toInt + w.auth) :=
  spans_of_bounds hlo hhi hissuer rfl rfl rfl rfl

/-- A refresh token holds through the end of its own. -/
theorem spans_refreshPayload (hlo : Timestamp.minSeconds ≤ second.toInt - 60)
    (hhi : second.toInt + w.refresh ≤ Timestamp.maxSeconds)
    (hissuer : (Bytes.ofText issuer).length < UInt64.size) :
    Spans (refreshPayload w second userId family issuer) userId (second.toInt - 60)
      (second.toInt + w.refresh) :=
  spans_of_bounds hlo hhi hissuer rfl rfl rfl rfl

/-- A pix token holds through the end of the refresh window. -/
theorem spans_pixPayload (hlo : Timestamp.minSeconds ≤ second.toInt - 60)
    (hhi : second.toInt + w.refresh ≤ Timestamp.maxSeconds)
    (hissuer : (Bytes.ofText issuer).length < UInt64.size) :
    Spans (pixPayload w second userId family issuer) userId (second.toInt - 60)
      (second.toInt + w.refresh) :=
  spans_of_bounds hlo hhi hissuer rfl rfl rfl rfl

/-- Tokens issued in one second, presented in every way at any time.  Each holds from a minute
before the second of its issue through the end of its window, both included: an auth token shows
the user and the family on its own path, a refresh token on its own, and a pix token lets pics be
read.  On another path it is refused at every time, within the window for its kind.  A pix token
is issued exactly to a user who may read pics. -/
theorem issued_tokens_validate (mac : Mac) (w : TokenWindows) (now : Instant)
    (userId family : Int64) (capabilities : CapabilitySet) (issuer : String)
    (hfamily : family ≠ 0) (hissuer : (Bytes.ofText issuer).length < UInt64.size)
    (hlo : Timestamp.minSeconds ≤ now.seconds.toInt - 60)
    (hauth : now.seconds.toInt + w.auth ≤ Timestamp.maxSeconds)
    (hrefresh : now.seconds.toInt + w.refresh ≤ Timestamp.maxSeconds) :
    ∃ issued, issue? mac w now userId capabilities family issuer = some issued ∧
      (issued.pix.isSome = true ↔ capabilities.contains .picRead = true) ∧
      ∀ t : Instant, t.Readable → ∀ anonymous : Bool,
        let first := now.seconds.toInt - 60
        let lastAuth := now.seconds.toInt + w.auth
        let lastRefresh := now.seconds.toInt + w.refresh
        validateAuth mac t issued.auth.token =
          outcomeAt first lastAuth t (.ok { userId, family := some family }) ∧
        validateRefresh mac t issued.auth.token =
          outcomeAt first lastAuth t (.error (.wrongType .refresh .auth)) ∧
        validatePix mac t (some issued.auth.token) anonymous =
          outcomeAt first lastAuth t (.error (.wrongType .pix .auth)) ∧
        validateAuth mac t issued.refresh.token =
          outcomeAt first lastRefresh t (.error (.wrongType .auth .refresh)) ∧
        validateRefresh mac t issued.refresh.token =
          outcomeAt first lastRefresh t (.ok { userId, family }) ∧
        validatePix mac t (some issued.refresh.token) anonymous =
          outcomeAt first lastRefresh t (.error (.wrongType .pix .refresh)) ∧
        ∀ pix, issued.pix = some pix →
          validateAuth mac t pix.token =
            outcomeAt first lastRefresh t (.error (.wrongType .auth .pix)) ∧
          validateRefresh mac t pix.token =
            outcomeAt first lastRefresh t (.error (.wrongType .refresh .pix)) ∧
          validatePix mac t (some pix.token) anonymous =
            outcomeAt first lastRefresh t (.ok (some pix.payload)) := by
  -- The one reading without a timestamp is long before year 1.
  have hreadable : now.Readable := by
    rintro ⟨hs, -⟩
    rw [hs] at hlo
    exact absurd hlo (by decide)
  obtain ⟨ts, hts, hsecond, -⟩ := Timestamp.exists_ofInstant? hreadable
  refine ⟨inSecond mac w now.seconds userId capabilities family issuer, ?_, ?_, ?_⟩
  · unfold issue?
    rw [hts, Option.map_some, hsecond]
  · unfold inSecond
    split
    · rename_i hcap
      simp [hcap]
    · rename_i hcap
      simp [hcap]
  · intro t ht anonymous
    have spansAuth : Spans (authPayload w now.seconds userId family issuer) userId
        (now.seconds.toInt - 60) (now.seconds.toInt + w.auth) :=
      spans_of_bounds hlo hauth hissuer rfl rfl rfl rfl
    have spansRefresh : Spans (refreshPayload w now.seconds userId family issuer) userId
        (now.seconds.toInt - 60) (now.seconds.toInt + w.refresh) :=
      spans_of_bounds hlo hrefresh hissuer rfl rfl rfl rfl
    have spansPix : Spans (pixPayload w now.seconds userId family issuer) userId
        (now.seconds.toInt - 60) (now.seconds.toInt + w.refresh) :=
      spans_of_bounds hlo hrefresh hissuer rfl rfl rfl rfl
    refine ⟨?_, spansAuth.validateRefresh ht, spansAuth.validatePix ht anonymous,
      spansRefresh.validateAuth ht, spansRefresh.validateRefresh ht,
      spansRefresh.validatePix ht anonymous, ?_⟩
    · -- a family is shown unless it is zero, which would stand for none
      have hparent : (authPayload w now.seconds userId family issuer).tokenParentId ≠ 0 := hfamily
      refine (spansAuth.validateAuth ht).trans ?_
      rw [if_neg hparent]
      rfl
    · intro pix hpix
      have heq : pix = sign mac (pixPayload w now.seconds userId family issuer) := by
        unfold inSecond at hpix
        simp only at hpix
        split at hpix
        · exact (Option.some.inj hpix).symm
        · cases hpix
      rw [heq]
      exact ⟨spansPix.validateAuth ht, spansPix.validateRefresh ht,
        spansPix.validatePix ht anonymous⟩

/-- Tokens issued late in a second to a user with a negative id: too early a nanosecond before the
first time, the auth token good at the last time and expired a nanosecond later, when the refresh
token still is good. -/
theorem issued_tokens_validate_standard :
    (42 : Int64) ≠ 0 ∧
      ∃ issued,
        issue? (.hmac [7]) .standard ⟨1500000000, 900000000, by decide⟩ (-72374)
          (.ofList [.picRead]) 42 "pixur" = some issued ∧
        validateAuth (.hmac [7]) ⟨1499999939, 999999999, by decide⟩ issued.auth.token =
          .error .notYetValid ∧
        validateAuth (.hmac [7]) ⟨1502592000, 0, by decide⟩ issued.auth.token =
          .ok { userId := -72374, family := some 42 } ∧
        validateAuth (.hmac [7]) ⟨1502592000, 1, by decide⟩ issued.auth.token =
          .error .expired ∧
        validateRefresh (.hmac [7]) ⟨1502592000, 1, by decide⟩ issued.refresh.token =
          .ok { userId := -72374, family := 42 } := by
  obtain ⟨issued, hissued, -, h⟩ := issued_tokens_validate (.hmac [7]) .standard
    ⟨1500000000, 900000000, by decide⟩ (-72374) 42 (.ofList [.picRead]) "pixur" (by decide)
    (by decide) (by decide) (by decide) (by decide)
  refine ⟨by decide, issued, hissued, ?_, ?_, ?_, ?_⟩
  · rw [(h ⟨1499999939, 999999999, by decide⟩ (by decide) false).1]
    decide
  · rw [(h ⟨1502592000, 0, by decide⟩ (by decide) false).1]
    decide
  · rw [(h ⟨1502592000, 1, by decide⟩ (by decide) false).1]
    decide
  · rw [(h ⟨1502592000, 1, by decide⟩ (by decide) false).2.2.2.2.1]
    decide

end IssuedTokens

end PicBoard
