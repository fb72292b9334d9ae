import Mathlib.Tactic
import PicBoard.Proofs.Gateway.Grants
import PicBoard.Proofs.Gateway.Windows

/-!
# The times in the tokens of a configured gateway

Whatever configuration is accepted, the tokens of an issue are bounded by three times that are
whole seconds of the years 1 through 9999, in order, and exactly where the windows put them
(`IssuedTokens.exists_boundedBy`).  The longest window that can be configured leaves room for that
for thousands of years.
-/

namespace PicBoard

/-- A valid timestamp at the start of a second. -/
structure Timestamp.AtSecond (ts : Timestamp) (second : Int) : Prop where
  valid : ts.isValid = true
  nanos : ts.nanos = 0
  seconds : ts.seconds.toInt = second

/-- Seconds in order are so on the time line. -/
theorem Timestamp.AtSecond.total_le {a b : Timestamp} {m n : Int} (ha : a.AtSecond m)
    (hb : b.AtSecond n) (h : m ≤ n) : a.total ≤ b.total := by
  have hnanos : (0 : Int32).toInt = 0 := rfl
  simp only [total, ha.seconds, ha.nanos, hb.seconds, hb.nanos, hnanos, add_zero]
  exact Int.mul_le_mul_of_nonneg_right h (by decide)

namespace IssuedTokens

/-- A bound in the years 1 through 9999 is not moved. -/
theorem exists_bound_atSecond (second : Int64) (offset : Int)
    (hlo : Timestamp.minSeconds ≤ second.toInt + offset)
    (hhi : second.toInt + offset ≤ Timestamp.maxSeconds) :
    ∃ ts, bound second offset = some ts ∧ ts.AtSecond (second.toInt + offset) := by
  rcases exists_bound second offset hlo hhi with ⟨ts, hts, hvalid, htotal⟩
  cases hts
  refine ⟨_, rfl, hvalid, rfl, ?_⟩
  rw [Timestamp.total_ofSeconds] at htotal
  exact Int.eq_of_mul_eq_mul_right (by decide) htotal

/-- The tokens of an issue begin to hold at one time.  The auth token ends at a second one, when
the pix token should be renewed; the pix token ends with the refresh token at a third. -/
structure BoundedBy (issued : IssuedTokens) (begins soft ends : Timestamp) : Prop where
  auth : issued.auth.payload.notBefore = some begins ∧
    issued.auth.payload.softNotAfter = none ∧ issued.auth.payload.notAfter = some soft
  refresh : issued.refresh.payload.notBefore = some begins ∧
    issued.refresh.payload.softNotAfter = none ∧ issued.refresh.payload.notAfter = some ends
  pix : ∀ pix ∈ issued.pix, pix.payload.notBefore = some begins ∧
    pix.payload.softNotAfter = some soft ∧ pix.payload.notAfter = some ends

/-- Whoever gets tokens in a second gets them with the same bounds. -/
theorem exists_boundedBy (w : TokenWindows) (second : Int64)
    (hlo : Timestamp.minSeconds ≤ second.toInt - 60)
    (hauth : second.toInt + w.auth ≤ Timestamp.maxSeconds)
    (hrefresh : second.toInt + w.refresh ≤ Timestamp.maxSeconds) :
    ∃ begins soft ends : Timestamp, begins.AtSecond (second.toInt - 60) ∧
      soft.AtSecond (second.toInt + w.auth) ∧ ends.AtSecond (second.toInt + w.refresh) ∧
      ∀ mac userId capabilities family issuer,
        (inSecond mac w second userId capabilities family issuer).BoundedBy begins soft ends := by
  -- no window is cut to 64 bits, and no sum leaves the years 1 through 9999
  have hskew : clockSkew = 60 := rfl
  have wauth := window_eq hlo hauth
  have wrefresh := window_eq hlo hrefresh
  rcases exists_bound_atSecond second (-clockSkew) (by omega) (by omega) with
    ⟨begins, hbegins, tbegins⟩
  rcases exists_bound_atSecond second (window w.auth) (by omega) (by omega) with
    ⟨soft, hsoft, tsoft⟩
  rcases exists_bound_atSecond second (window w.refresh) (by omega) (by omega) with
    ⟨ends, hends, tends⟩
  rw [wauth] at tsoft
  rw [wrefresh] at tends
  refine ⟨begins, soft, ends, tbegins, tsoft, tends, ?_⟩
  intro mac userId capabilities family issuer
  constructor
  · exact ⟨hbegins, rfl, hsoft⟩
  · exact ⟨hbegins, rfl, hends⟩
  · intro pix hpix
    simp only [inSecond] at hpix
    split at hpix
    · cases hpix
      exact ⟨hbegins, hsoft, hends⟩
    · cases hpix

end IssuedTokens

namespace Gateway

variable {g : Gateway} {now : Instant} {fresh : Int64} {request : TokenRequest}
  {store : UserStore} {x : TokenGrant}

/-- Tokens that a request gets are made out for the caller that it shows. -/
theorem granted_of_getRefreshToken (hclock : now.Readable)
    (h : (g.getRefreshToken now fresh request store).1 = .ok x) :
    ∃ who, g.identify now store request = .ok who ∧
      x.response = respond (g.tokensFor now.seconds who.user fresh) ∧
      x.cookie = x.response.pixToken.map fun pix =>
        g.pixCookieText (Bytes.ofText pix) g.windows.refresh := by
  rcases getRefreshToken_eq_ok_iff.mp h with ⟨who, after, hwho, hafter, hgrant⟩
  exact ⟨who, hwho, granted_of_grant hclock hgrant⟩

/-- A caller whose family can be started gets tokens, if they may not read pics or the pix cookie
has a name that can be set; no window that is short enough to be configured stands in the way. -/
theorem exists_granted_iff (hclock : now.Readable)
    (hwindow : g.windows.refresh ≤ TokenWindows.longest) {who : Identity} {after : UserStore}
    (hwho : g.identify now store request = .ok who)
    (hafter : store.rotate? who.user.userId who.family fresh = some after) :
    (∃ x, (g.getRefreshToken now fresh request store).1 = .ok x) ↔
      (who.user.capabilities.contains .picRead = true → g.CookieNameAllowed) := by
  have hshort : (g.windows.refresh : Int) ≤ Int64.maxValue.toInt := by
    have hlongest : (TokenWindows.longest : Int) ≤ Int64.maxValue.toInt := by decide
    omega
  rw [getRefreshToken_of_rotate? hwho hafter, exists_grant_iff hclock, CookieSettable]
  simp only [hshort, and_true]

/-- A configuration that is accepted, and the tokens that its gateway gives out at any time that is
a minute into year 1 or later and the longest window before the end of year 9999 or earlier.  The
windows are those that the texts of the settings name, for a text gives a window exactly when it
names the seconds of it and they are not too many.  The bounds of the tokens are three seconds in
order, exactly where the windows put them, the same for every caller, and the pix cookie is kept
until the last of them. -/
theorem configured_tokens_well_timed (env : Environment) (c : GatewayConfig) (randomKey : Bytes)
    (now : Instant) (hconfig : GatewayConfig.read env = .ok c)
    (hlo : Timestamp.minSeconds + 60 ≤ now.seconds.toInt)
    (hhi : now.seconds.toInt ≤ Timestamp.maxSeconds - TokenWindows.longest) :
    let g := c.gateway randomKey
    let second := now.seconds.toInt
    (∀ name text n, GatewayConfig.readWindow name text = .ok n ↔
      GatewayConfig.NamesSeconds text n ∧ n ≤ TokenWindows.longest) ∧
    GatewayConfig.Configured env GatewayConfig.authWindowName TokenWindows.standard.auth
      c.windows.auth ∧
    GatewayConfig.Configured env GatewayConfig.refreshWindowName TokenWindows.standard.refresh
      c.windows.refresh ∧
    ∃ begins soft ends : Timestamp, begins.AtSecond (second - 60) ∧
      soft.AtSecond (second + c.windows.auth) ∧ ends.AtSecond (second + c.windows.refresh) ∧
      begins.total ≤ soft.total ∧ soft.total ≤ ends.total ∧
      ∀ (fresh : Int64) (request : TokenRequest) (store : UserStore),
        (∀ x, (g.getRefreshToken now fresh request store).1 = .ok x →
          ∃ who, g.identify now store request = .ok who ∧
            x.response = respond (g.tokensFor now.seconds who.user fresh) ∧
            (g.tokensFor now.seconds who.user fresh).BoundedBy begins soft ends ∧
            x.cookie = x.response.pixToken.map fun pix =>
              g.pixCookieText (Bytes.ofText pix) (ends.seconds.toInt - second)) ∧
        ∀ who after, g.identify now store request = .ok who →
          store.rotate? who.user.userId who.family fresh = some after →
          ((∃ x, (g.getRefreshToken now fresh request store).1 = .ok x) ↔
            (who.user.capabilities.contains .picRead = true → g.CookieNameAllowed)) := by
  intro g second
  rcases GatewayConfig.readWindows_eq_ok_iff.mp (GatewayConfig.readWindows_of_read hconfig) with
    ⟨hauth, hrefresh, hle, hlong⟩
  have hclock : now.Readable := Timestamp.readable_of_minSeconds_le_seconds (by omega)
  rcases IssuedTokens.exists_boundedBy c.windows now.seconds (by omega) (by omega) (by omega) with
    ⟨begins, soft, ends, tbegins, tsoft, tends, hbounded⟩
  refine ⟨fun name text n => GatewayConfig.readWindow_eq_ok_iff, hauth, hrefresh, begins, soft,
    ends, tbegins, tsoft, tends, tbegins.total_le tsoft (by omega),
    tsoft.total_le tends (by omega), ?_⟩
  intro fresh request store
  constructor
  · intro x hx
    rcases granted_of_getRefreshToken hclock hx with ⟨who, hwho, hresponse, hcookie⟩
    have hage : ends.seconds.toInt - second = g.windows.refresh := by
      rw [tends.seconds]
      exact add_sub_cancel_left _ _
    rw [hage]
    exact ⟨who, hwho, hresponse, hbounded _ _ _ _ _, hcookie⟩
  · intro who after hwho hafter
    exact exists_granted_iff hclock hlong hwho hafter

/-- Windows of one hour and of two, with a sign, zeros and blanks around them.  Late in a second,
bob renews his family: his pix token should be renewed an hour after that second and ends, like
its cookie, two hours after it. -/
theorem hours_well_timed :
    let env : Environment := fun name =>
      if name = GatewayConfig.authWindowName then some " +3600\t"
      else if name = GatewayConfig.refreshWindowName then some "0007200" else none
    let bob : User :=
      { userId := 8, ident := "bob", secretHash := "", capabilities := .ofList [.picRead] }
    let store : UserStore :=
      { users := [{ user := bob, families := [41] }], familyLimit := 16
        familyLimit_pos := by decide }
    let now : Instant := ⟨1500000000, 900000000, by decide⟩
    ∃ c, GatewayConfig.read env = .ok c ∧
      let g := c.gateway [7]
      let old := (g.tokensFor 1500000000 bob 41).refresh.token.toLatin1
      ∃ x, (g.getRefreshToken now 42 { refreshToken := old } store).1 = .ok x ∧
        x.cookie = some (g.pixCookieText (g.pixFor 1500000000 bob 42).token 7200) ∧
        ∃ soft ends : Timestamp, soft.AtSecond 1500003600 ∧ ends.AtSecond 1500007200 ∧
          (g.pixFor 1500000000 bob 42).payload.softNotAfter = some soft ∧
          (g.pixFor 1500000000 bob 42).payload.notAfter = some ends := by
  intro env bob store now
  let c : GatewayConfig :=
    { listenAddress := "0.0.0.0:8080", secret := none, pixRoot := "pix", usersFile := none
      anonymousPicRead := false, pixCookie := "pix_token"
      windows := { auth := 3600, refresh := 7200 }, issuer := "" }
  have hread : GatewayConfig.read env = .ok c := by decide +kernel
  refine ⟨c, hread, ?_⟩
  intro g old
  have hspans : Token.Spans
      (IssuedTokens.refreshPayload g.windows 1500000000 bob.userId 41 g.issuer) 8
      (1500000000 - 60) (1500000000 + 7200) :=
    IssuedTokens.spans_refreshPayload (by decide) (by decide) (by decide)
  have hwho : g.identify now store { refreshToken := old } =
      .ok { user := bob, family := some 41 } :=
    identify_refreshToken (by decide) hspans (by decide) (by decide) rfl rfl
  have hafter : store.rotate? 8 (some 41) 42 = some (store.setFamilies 8 [42]) := rfl
  have hname : g.CookieNameAllowed := by decide +kernel
  rcases configured_tokens_well_timed env c [7] now hread (by decide) (by decide) with
    ⟨-, -, -, begins, soft, ends, -, tsoft, tends, -, -, h⟩
  rcases h 42 { refreshToken := old } store with ⟨hgranted, hexists⟩
  rcases (hexists _ _ hwho hafter).mpr fun _ => hname with ⟨x, hx⟩
  rcases hgranted x hx with ⟨who, hcaller, hresponse, hbounded, hcookie⟩
  cases hwho.symm.trans hcaller
  have hpix : (g.tokensFor now.seconds bob 42).pix = some (g.pixFor 1500000000 bob 42) := rfl
  rcases hbounded.pix _ hpix with ⟨-, hsoft, hends⟩
  refine ⟨x, hx, ?_, soft, ends, tsoft, tends, hsoft, hends⟩
  have htoken : Bytes.ofText (g.pixFor 1500000000 bob 42).token.toLatin1 =
      (g.pixFor 1500000000 bob 42).token :=
    Token.ofText_toLatin1_encode _ _
  have hage : ends.seconds.toInt - now.seconds.toInt = 7200 := by
    rw [tends.seconds]
    decide
  rw [hcookie, hresponse, respond, hpix, Option.map_some, Option.map_some, htoken, hage]

end Gateway

end PicBoard
