import Mathlib.Tactic
import PicBoard.Operator.Login
import PicBoard.Proofs.Gateway.Grants
import PicBoard.Proofs.Token.Lifetime

/-!
# A client's plan and the life of its tokens

A client decides without the key, and by the states of up to three tokens, whether to use what it
has saved, to renew it or to log in again.  For tokens of one issue the three answers part the time
line: the tokens are used while the auth token holds, renewed from then on while the refresh token
holds, and given up at all other times (`make?_saved`).  So what a client uses or renews is what a
server accepts.
-/

namespace PicBoard

open Operator (LoginPlan)

/-! ## States without the key -/

namespace Token.Spans

variable {mac : Mac} {t : Instant} {p : Payload} {userId : Int64} {first last : Int}
  {token : String}

/-- The state that a client sees of a token. -/
theorem stateOf? (h : Spans p userId first last) (ht : t.Readable)
    (hsoft : ∀ s ∈ p.softNotAfter, s.Normal) (htoken : Bytes.ofText token = encode mac p) :
    LoginPlan.stateOf? token t =
      some (TokenState.ofBounds (first * nanosPerSecond) (last * nanosPerSecond)
        (p.softNotAfter.map Timestamp.total) t.total) := by
  rcases h.notBefore with ⟨lo, hlo, vlo, tlo⟩
  rcases h.notAfter with ⟨hi, hhi, vhi, thi⟩
  have hread : decodeUnverified (encode mac p) = .ok p :=
    decodeUnverified_of_authenticate (authenticate_encode mac h.holdable h.ne_default)
  unfold LoginPlan.stateOf?
  rw [htoken, hread, ← tlo, ← thi]
  exact TokenState.read?_eq hlo hhi vlo vhi hsoft ht

theorem stateOf?_of_not_readable (h : Spans p userId first last) (ht : ¬ t.Readable)
    (htoken : Bytes.ofText token = encode mac p) : LoginPlan.stateOf? token t = none := by
  have hread : decodeUnverified (encode mac p) = .ok p :=
    decodeUnverified_of_authenticate (authenticate_encode mac h.holdable h.ne_default)
  unfold LoginPlan.stateOf?
  rw [htoken, hread]
  exact TokenState.read?_of_not_readable p ht

end Token.Spans

/-! ## Plans -/

namespace Operator.LoginPlan

variable {saved : TokenResponse} {t : Instant}

/-- A plan by the states of the saved tokens. -/
theorem make?_of_states {auth refresh : TokenState} {pixIsLive : Bool}
    (hauth : stateOf? saved.authToken t = some auth)
    (hpix : isLive? saved.pixToken t = some pixIsLive)
    (hrefresh : stateOf? saved.refreshToken t = some refresh) :
    make? (some saved) t =
      some (if auth = .live ∧ pixIsLive = true then .reuse
        else if refresh.isUsable then .refresh saved.refreshToken else .authenticate) := by
  unfold make?
  simp only [hauth, hpix, hrefresh, Option.bind_eq_bind, Option.bind_some]
  split
  · rfl
  · rfl

/-- A response that holds the tokens of an issue, whatever it shows of their payloads. -/
structure Keeps (saved : TokenResponse) (issued : IssuedTokens) : Prop where
  refresh : Bytes.ofText saved.refreshToken = issued.refresh.token
  auth : Bytes.ofText saved.authToken = issued.auth.token
  pix : saved.pixToken.map Bytes.ofText = issued.pix.map (·.token)

/-- The answer to a request for tokens holds them. -/
theorem keeps_respond (mac : Mac) (w : TokenWindows) (second userId : Int64)
    (capabilities : CapabilitySet) (family : Int64) (issuer : String) :
    let issued := IssuedTokens.inSecond mac w second userId capabilities family issuer
    Keeps (Gateway.respond issued) issued := by
  intro issued
  refine ⟨Token.ofText_toLatin1_encode _ _, Token.ofText_toLatin1_encode _ _, ?_⟩
  show (issued.pix.map (·.token.toLatin1)).map Bytes.ofText = issued.pix.map (·.token)
  simp only [issued, IssuedTokens.inSecond]
  split
  · exact congrArg some (Token.ofText_toLatin1_encode _ _)
  · rfl

/-- At the one time that has no timestamp there is no plan for tokens that can be read. -/
theorem make?_of_not_readable {mac : Mac} {p : Payload} {userId : Int64} {first last : Int}
    (h : Token.Spans p userId first last)
    (htoken : Bytes.ofText saved.authToken = Token.encode mac p) (ht : ¬ t.Readable) :
    make? (some saved) t = none := by
  unfold make?
  simp only [h.stateOf?_of_not_readable ht htoken, Option.bind_eq_bind, Option.bind_none]

/-! ## Plans for the tokens of one issue -/

section

variable {mac : Mac} {w : TokenWindows} {second userId family : Int64}
  {capabilities : CapabilitySet} {issuer : String}

/-- A saved pix token is that of the issue. -/
theorem Keeps.ofText_pix {token : String} (htoken : token ∈ saved.pixToken)
    (h : Keeps saved (.inSecond mac w second userId capabilities family issuer)) :
    Bytes.ofText token =
      Token.encode mac (IssuedTokens.pixPayload w second userId family issuer) := by
  have hpix := h.pix
  rw [Option.mem_def.mp htoken] at hpix
  simp only [IssuedTokens.inSecond] at hpix
  split at hpix
  · exact Option.some.inj hpix
  · cases hpix

/-- The places of the time line where tokens begin to hold and where they end, in order. -/
theorem places_le (second : Int64) (hwindows : w.auth ≤ w.refresh) :
    (second.toInt - 60) * nanosPerSecond ≤ (second.toInt + w.auth) * nanosPerSecond ∧
      (second.toInt + w.auth) * nanosPerSecond ≤ (second.toInt + w.refresh) * nanosPerSecond := by
  constructor
  · exact Int.mul_le_mul_of_nonneg_right (by omega) (by decide)
  · exact Int.mul_le_mul_of_nonneg_right (by omega) (by decide)

variable (hwindows : w.auth ≤ w.refresh) (hissuer : (Bytes.ofText issuer).length < UInt64.size)
  (hlo : Timestamp.minSeconds ≤ second.toInt - 60)
  (hhi : second.toInt + w.refresh ≤ Timestamp.maxSeconds)

include hwindows hissuer hlo hhi

/-- The spans of the payloads of one issue, and where the soft bound of the pix token is. -/
theorem spans_payloads (userId family : Int64) :
    Token.Spans (IssuedTokens.authPayload w second userId family issuer) userId
        (second.toInt - 60) (second.toInt + w.auth) ∧
      Token.Spans (IssuedTokens.refreshPayload w second userId family issuer) userId
        (second.toInt - 60) (second.toInt + w.refresh) ∧
      Token.Spans (IssuedTokens.pixPayload w second userId family issuer) userId
        (second.toInt - 60) (second.toInt + w.refresh) ∧
      ∃ soft, (IssuedTokens.pixPayload w second userId family issuer).softNotAfter = some soft ∧
        soft.Normal ∧ soft.total = (second.toInt + w.auth) * nanosPerSecond := by
  have hauth : second.toInt + w.auth ≤ Timestamp.maxSeconds := by omega
  refine ⟨IssuedTokens.spans_authPayload hlo hauth hissuer,
    IssuedTokens.spans_refreshPayload hlo hhi hissuer,
    IssuedTokens.spans_pixPayload hlo hhi hissuer, ?_⟩
  have hwindow := IssuedTokens.window_eq hlo hauth
  rcases IssuedTokens.exists_bound second (IssuedTokens.window w.auth)
    (by rw [hwindow]; omega) (by rw [hwindow]; exact hauth) with ⟨soft, hsoft, vsoft, tsoft⟩
  rw [hwindow] at tsoft
  exact ⟨soft, hsoft, (Timestamp.isValid_iff.mp vsoft).2, tsoft⟩

variable (h : Keeps saved (.inSecond mac w second userId capabilities family issuer))

include h

/-- A saved pix token is live as long as the auth token beside it, and no pix token counts as
live. -/
theorem isLive?_saved (ht : t.Readable) :
    ∃ live, isLive? saved.pixToken t = some live ∧
      ((second.toInt - 60) * nanosPerSecond ≤ t.total →
        t.total ≤ (second.toInt + w.auth) * nanosPerSecond → live = true) := by
  cases hsaved : saved.pixToken with
  | none => exact ⟨true, rfl, fun _ _ => rfl⟩
  | some token =>
    rcases spans_payloads hwindows hissuer hlo hhi userId family with
      ⟨-, -, hspans, soft, hsoft, nsoft, tsoft⟩
    have hnormal : ∀ s ∈ (IssuedTokens.pixPayload w second userId family issuer).softNotAfter,
        s.Normal := by
      rw [hsoft]
      rintro s ⟨⟩
      exact nsoft
    have hstate := hspans.stateOf? ht hnormal (h.ofText_pix hsaved)
    refine ⟨_, by rw [isLive?, hstate, Option.map_some], ?_⟩
    intro hfirst hlast
    -- it ends when the refresh token does, so only its soft bound can be passed here
    rw [beq_iff_eq, TokenState.ofBounds_eq_live_iff, hsoft]
    refine ⟨hfirst, hlast.trans (places_le second hwindows).2, ?_⟩
    rintro s ⟨⟩
    rw [tsoft]
    exact hlast

/-- The plan for saved tokens follows the windows of their issue. -/
theorem make?_saved :
    make? (some saved) t =
      if t.Readable then
        some (if (second.toInt - 60) * nanosPerSecond ≤ t.total ∧
            t.total ≤ (second.toInt + w.auth) * nanosPerSecond then .reuse
          else if (second.toInt + w.auth) * nanosPerSecond < t.total ∧
            t.total ≤ (second.toInt + w.refresh) * nanosPerSecond then .refresh saved.refreshToken
          else .authenticate)
      else none := by
  rcases spans_payloads hwindows hissuer hlo hhi userId family with ⟨hauth, hrefresh, -⟩
  by_cases ht : t.Readable
  · rcases isLive?_saved hwindows hissuer hlo hhi h ht with ⟨live, hpix, hlive⟩
    rw [if_pos ht, make?_of_states (hauth.stateOf? ht (by rintro s ⟨⟩) h.auth) hpix
      (hrefresh.stateOf? ht (by rintro s ⟨⟩) h.refresh)]
    congr 1
    by_cases hreuse : (second.toInt - 60) * nanosPerSecond ≤ t.total ∧
        t.total ≤ (second.toInt + w.auth) * nanosPerSecond
    · rw [if_pos hreuse, if_pos]
      refine ⟨?_, hlive hreuse.1 hreuse.2⟩
      exact TokenState.ofBounds_eq_live_iff.mpr ⟨hreuse.1, hreuse.2, by rintro s ⟨⟩⟩
    · rw [if_neg hreuse, if_neg]
      · -- the auth token is not live, so it is the refresh token that decides
        have hplaces := places_le second hwindows
        refine if_congr ?_ rfl rfl
        rw [TokenState.isUsable_ofBounds_iff]
        omega
      · rintro ⟨hstate, -⟩
        rcases TokenState.ofBounds_eq_live_iff.mp hstate with ⟨hfirst, hlast, -⟩
        exact hreuse ⟨hfirst, hlast⟩
  · rw [if_neg ht]
    exact make?_of_not_readable hauth h.auth ht

/-- What is used is accepted. -/
theorem accepted_of_reuse (hplan : make? (some saved) t = some .reuse) :
    Token.validateAuth mac t (Bytes.ofText saved.authToken) =
        .ok { userId, family := if family = 0 then none else some family } ∧
      ∀ token ∈ saved.pixToken, ∀ anonymous, ∃ p,
        Token.validatePix mac t (some (Bytes.ofText token)) anonymous = .ok (some p) := by
  have hwithin : t.Readable ∧ (second.toInt - 60) * nanosPerSecond ≤ t.total ∧
      t.total ≤ (second.toInt + w.auth) * nanosPerSecond := by
    rw [make?_saved hwindows hissuer hlo hhi h] at hplan
    split_ifs at hplan with ht hreuse
    · exact ⟨ht, hreuse⟩
    · cases hplan
    · cases hplan
  rcases hwithin with ⟨ht, hfirst, hlast⟩
  rcases spans_payloads hwindows hissuer hlo hhi userId family with ⟨hauth, -, hpix, -⟩
  constructor
  · rw [h.auth]
    exact (hauth.validateAuth ht).trans (Token.outcomeAt_of_within hfirst hlast _)
  · intro token htoken anonymous
    refine ⟨IssuedTokens.pixPayload w second userId family issuer, ?_⟩
    rw [h.ofText_pix htoken, hpix.validatePix ht]
    exact Token.outcomeAt_of_within hfirst (hlast.trans (places_le second hwindows).2) _

/-- What is renewed with is accepted. -/
theorem accepted_of_refresh {token : String}
    (hplan : make? (some saved) t = some (.refresh token)) :
    Token.validateRefresh mac t (Bytes.ofText token) = .ok { userId, family } := by
  have hrenewal : t.Readable ∧ token = saved.refreshToken ∧
      (second.toInt + w.auth) * nanosPerSecond < t.total ∧
      t.total ≤ (second.toInt + w.refresh) * nanosPerSecond := by
    rw [make?_saved hwindows hissuer hlo hhi h] at hplan
    split_ifs at hplan with ht hreuse hrefresh
    · cases hplan
    · cases hplan
      exact ⟨ht, rfl, hrefresh⟩
    · cases hplan
  rcases hrenewal with ⟨ht, rfl, hended, hlast⟩
  rcases spans_payloads hwindows hissuer hlo hhi userId family with ⟨-, hrefresh, -⟩
  have hfirst := (places_le second hwindows).1.trans hended.le
  rw [h.refresh]
  exact (hrefresh.validateRefresh ht).trans (Token.outcomeAt_of_within hfirst hlast _)

end

/-- The plan of a client that has saved the tokens of an issue, at any time.  It uses them from a
minute before the second of the issue until the auth token ends, renews them from then until the
refresh token ends, and logs in again at all other times, except that there is no plan at the one
time that has no timestamp.  The server accepts whatever the client uses or renews with. -/
theorem login_plan_follows_lifetimes (mac : Mac) (w : TokenWindows) (now : Instant)
    (userId family : Int64) (capabilities : CapabilitySet) (issuer : String)
    (hwindows : w.auth ≤ w.refresh) (hissuer : (Bytes.ofText issuer).length < UInt64.size)
    (hlo : Timestamp.minSeconds ≤ now.seconds.toInt - 60)
    (hhi : now.seconds.toInt + w.refresh ≤ Timestamp.maxSeconds) :
    let first := (now.seconds.toInt - 60) * nanosPerSecond
    let lastAuth := (now.seconds.toInt + w.auth) * nanosPerSecond
    let lastRefresh := (now.seconds.toInt + w.refresh) * nanosPerSecond
    ∃ issued, IssuedTokens.issue? mac w now userId capabilities family issuer = some issued ∧
      Keeps (Gateway.respond issued) issued ∧
      ∀ (saved : TokenResponse) (t : Instant), Keeps saved issued →
        make? (some saved) t =
          (if t.Readable then
            some (if first ≤ t.total ∧ t.total ≤ lastAuth then .reuse
              else if lastAuth < t.total ∧ t.total ≤ lastRefresh then .refresh saved.refreshToken
              else .authenticate)
          else none) ∧
        (make? (some saved) t = some .reuse →
          Token.validateAuth mac t (Bytes.ofText saved.authToken) =
              .ok { userId, family := if family = 0 then none else some family } ∧
            ∀ token ∈ saved.pixToken, ∀ anonymous, ∃ p,
              Token.validatePix mac t (some (Bytes.ofText token)) anonymous = .ok (some p)) ∧
        ∀ token, make? (some saved) t = some (.refresh token) →
          Token.validateRefresh mac t (Bytes.ofText token) = .ok { userId, family } := by
  intro first lastAuth lastRefresh
  have hclock : now.Readable := Timestamp.readable_of_minSeconds_le_seconds (by omega)
  refine ⟨_, IssuedTokens.issue?_of_readable hclock mac w userId capabilities family issuer,
    keeps_respond mac w now.seconds userId capabilities family issuer, ?_⟩
  intro saved t hsaved
  refine ⟨make?_saved hwindows hissuer hlo hhi hsaved,
    accepted_of_reuse hwindows hissuer hlo hhi hsaved, ?_⟩
  intro token hplan
  exact accepted_of_refresh hwindows hissuer hlo hhi hsaved hplan

/-- Tokens from late in a second are used up to the last time of the auth token and renewed a
nanosecond later. -/
theorem saved_tokens_used_then_renewed :
    ∃ issued,
      IssuedTokens.issue? (.hmac [7]) .standard ⟨1500000000, 900000000, by decide⟩ (-72374)
        (.ofList [.picRead]) 42 "pixur" = some issued ∧
      let saved := Gateway.respond issued
      make? (some saved) ⟨1502592000, 0, by decide⟩ = some .reuse ∧
        Token.validateAuth (.hmac [7]) ⟨1502592000, 0, by decide⟩ (Bytes.ofText saved.authToken) =
          .ok { userId := -72374, family := some 42 } ∧
        make? (some saved) ⟨1502592000, 1, by decide⟩ = some (.refresh saved.refreshToken) ∧
        Token.validateRefresh (.hmac [7]) ⟨1502592000, 1, by decide⟩
          (Bytes.ofText saved.refreshToken) = .ok { userId := -72374, family := 42 } := by
  rcases login_plan_follows_lifetimes (.hmac [7]) .standard ⟨1500000000, 900000000, by decide⟩
    (-72374) 42 (.ofList [.picRead]) "pixur" (by decide) (by decide) (by decide) (by decide) with
    ⟨issued, hissued, hkeeps, h⟩
  rcases h _ ⟨1502592000, 0, by decide⟩ hkeeps with ⟨hplan, huse, -⟩
  rcases h _ ⟨1502592000, 1, by decide⟩ hkeeps with ⟨hlater, -, hrenew⟩
  have hreuse := hplan.trans (if_pos (by decide))
  have hrefresh := hlater.trans (if_pos (by decide))
  rw [if_pos (by decide)] at hreuse
  rw [if_neg (by decide), if_pos (by decide)] at hrefresh
  exact ⟨issued, hissued, hreuse, (huse hreuse).1, hrefresh, hrenew _ hrefresh⟩

/-- At the one time without a timestamp a client with tokens does not log in again: it has no
plan. -/
theorem no_plan_without_timestamp :
    let issued := IssuedTokens.inSecond (.hmac [7]) .standard 1500000000 (-72374)
      (.ofList [.picRead]) 42 "pixur"
    let saved := Gateway.respond issued
    Keeps saved issued ∧
      make? (some saved) ⟨Int64.minValue, 0, by decide⟩ ≠ some .authenticate := by
  intro issued saved
  have hkeeps : Keeps saved issued := keeps_respond _ _ _ _ _ _ _
  have hspans : Token.Spans
      (IssuedTokens.authPayload .standard 1500000000 (-72374) 42 "pixur") (-72374)
      ((1500000000 : Int64).toInt - 60) ((1500000000 : Int64).toInt + TokenWindows.standard.auth) :=
    IssuedTokens.spans_authPayload (by decide) (by decide) (by decide)
  refine ⟨hkeeps, ?_⟩
  rw [make?_of_not_readable hspans hkeeps.auth (by decide)]
  exact (Option.some_ne_none _).symm

end Operator.LoginPlan

end PicBoard
