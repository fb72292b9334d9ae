import Mathlib.Tactic
import PicBoard.Proofs.Gateway.Cookie
import PicBoard.Proofs.Gateway.Presented
import PicBoard.Proofs.Session.Families
import PicBoard.Proofs.Token.Issue

/-!
# What a request comes to

A request for tokens passes three stages: its caller is identified, the store starts a family, and
the tokens are made out.  A logout passes two before its cookie is made out.  The store changes at
the stage in the middle and nowhere else.
-/

namespace PicBoard

/-! ## Tokens of one issue -/

namespace IssuedTokens

theorem issue?_of_readable {now : Instant} (h : now.Readable) (mac : Mac) (w : TokenWindows)
    (userId : Int64) (capabilities : CapabilitySet) (family : Int64) (issuer : String) :
    issue? mac w now userId capabilities family issuer =
      some (inSecond mac w now.seconds userId capabilities family issuer) := by
  obtain ⟨ts, hts, hsecond, -⟩ := Timestamp.exists_ofInstant? h
  unfold issue?
  rw [hts, Option.map_some, hsecond]

theorem issue?_of_not_readable {now : Instant} (h : ¬ now.Readable) (mac : Mac)
    (w : TokenWindows) (userId : Int64) (capabilities : CapabilitySet) (family : Int64)
    (issuer : String) : issue? mac w now userId capabilities family issuer = none := by
  unfold issue?
  rw [Timestamp.ofInstant?_of_not_readable h, Option.map_none]

end IssuedTokens

namespace Token

/-- The characters of a token for a user, with a bound, read as its payload whatever the bound. -/
theorem decodeUnverified_toLatin1 {p : Payload} {userId : Int64} (mac : Mac)
    (hsubject : p.subject = GlyphNumber.text userId)
    (hissuer : (Bytes.ofText p.issuer).length < UInt64.size)
    (hbound : p.notBefore.isSome = true) :
    decodeUnverified (Bytes.ofText (IssuedTokens.sign mac p).token.toLatin1) = .ok p := by
  have hlen := GlyphNumber.bodyLength_le userId.toUInt64.toNat
  have hholds : p.Holdable := by
    refine ⟨?_, hissuer⟩
    rw [hsubject, GlyphNumber.ofText_bytes_text, GlyphNumber.encode, GlyphNumber.encodeNat_length]
    simp only [GlyphNumber.maxBody, UInt64.size] at *
    omega
  have hne : p ≠ {} := by
    rintro rfl
    cases hbound
  rw [IssuedTokens.sign, ofText_toLatin1_encode]
  exact decodeUnverified_of_authenticate (authenticate_encode mac hholds hne)

/-- The characters of a token are accepted in the time that its payload spans. -/
theorem Spans.decode_toLatin1 {mac : Mac} {t : Instant} {p : Payload} {userId : Int64}
    {first last : Int} (h : Spans p userId first last) (ht : t.Readable)
    (hfirst : first * nanosPerSecond ≤ t.total) (hlast : t.total ≤ last * nanosPerSecond) :
    Token.decode mac t (Bytes.ofText (IssuedTokens.sign mac p).token.toLatin1) = .ok p := by
  rw [IssuedTokens.sign, ofText_toLatin1_encode, h.decode ht]
  exact outcomeAt_of_within hfirst hlast _

end Token

namespace Gateway

variable {g : Gateway} {now : Instant} {fresh : Int64} {request : TokenRequest} {store : UserStore}

/-- A refresh token identifies the user whom it is for in the time that it spans. -/
theorem identify_refreshToken {user : User} {second userId f : Int64} {first last : Int}
    (hclock : now.Readable)
    (hspans : Token.Spans (IssuedTokens.refreshPayload g.windows second userId f g.issuer)
      userId first last)
    (hfirst : first * nanosPerSecond ≤ now.total) (hlast : now.total ≤ last * nanosPerSecond)
    (hknown : store.findById userId = some user)
    (hrequest : request.refreshToken = (IssuedTokens.sign g.mac
      (IssuedTokens.refreshPayload g.windows second userId f g.issuer)).token.toLatin1) :
    g.identify now store request = .ok { user, family := some f } := by
  have haccepted : Token.decode g.mac now (Bytes.ofText request.refreshToken) =
      .ok (IssuedTokens.refreshPayload g.windows second userId f g.issuer) := by
    rw [hrequest]
    exact hspans.decode_toLatin1 hclock hfirst hlast
  have hgiven : request.refreshToken ≠ "" := by
    rw [hrequest]
    exact Token.toLatin1_encode_ne_empty _ _
  obtain rfl := UserStore.userId_of_findById hknown
  unfold identify
  rw [if_pos hgiven]
  exact identifyByRefresh_eq_ok_iff.mpr ⟨_, haccepted, rfl, hspans.subjectId, hknown, rfl⟩

/-! ## Making out tokens -/

/-- The pix cookie can be set for as long as a pix token holds. -/
def CookieSettable (g : Gateway) : Prop :=
  g.CookieNameAllowed ∧ g.windows.refresh ≤ Int64.maxValue.toInt

/-- The tokens that a user gets for a family in a second. -/
def tokensFor (g : Gateway) (second : Int64) (user : User) (family : Int64) : IssuedTokens :=
  .inSecond g.mac g.windows second user.userId user.capabilities family g.issuer

/-- The pix token that a user gets who may read pics. -/
def pixFor (g : Gateway) (second : Int64) (user : User) (family : Int64) : SignedToken :=
  IssuedTokens.sign g.mac
    (IssuedTokens.pixPayload g.windows second user.userId family g.issuer)

theorem tokensFor_pix (g : Gateway) (second : Int64) (user : User) (family : Int64) :
    (g.tokensFor second user family).pix =
      if user.capabilities.contains .picRead then some (g.pixFor second user family) else none :=
  rfl

/-- What is made out for a user: tokens, and for one who may read pics a cookie too, unless the
cookie cannot be set. -/
theorem grant_eq (hclock : now.Readable) (user : User) (family : Int64) :
    g.grant now user family =
      if user.capabilities.contains .picRead then
        if Int64.maxValue.toInt < g.windows.refresh then .error (.internal .windowOutOfRange)
        else if g.CookieNameAllowed then
          .ok {
            response := respond (g.tokensFor now.seconds user family)
            cookie := some
              (g.pixCookieText (g.pixFor now.seconds user family).token g.windows.refresh) }
        else .error (.internal .badCookie)
      else .ok { response := respond (g.tokensFor now.seconds user family), cookie := none } := by
  have htoken : ∀ b ∈ (g.pixFor now.seconds user family).token, Header.isAllowed b = true :=
    fun b hb => Header.isAllowed_of_isVisible (Token.isVisible_of_mem_encode hb)
  have hissue : IssuedTokens.issue? g.mac g.windows now user.userId user.capabilities family
      g.issuer = some (g.tokensFor now.seconds user family) :=
    IssuedTokens.issue?_of_readable hclock _ _ _ _ _ _
  unfold grant
  simp only [hissue, tokensFor_pix]
  by_cases hpix : user.capabilities.contains .picRead = true
  · simp only [if_pos hpix, pixCookieHeader_eq htoken]
    split
    · rfl
    · by_cases hname : g.CookieNameAllowed
      · simp only [if_pos hname]
      · simp only [if_neg hname]
  · simp only [if_neg hpix]

/-- What is granted: the tokens that were made out, and a pix token's cookie. -/
theorem granted_of_grant (hclock : now.Readable) {user : User} {family : Int64} {x : TokenGrant}
    (h : g.grant now user family = .ok x) :
    x.response = respond (g.tokensFor now.seconds user family) ∧
      x.cookie = x.response.pixToken.map fun pix =>
        g.pixCookieText (Bytes.ofText pix) g.windows.refresh := by
  rw [grant_eq hclock] at h
  split_ifs at h with hpix hwindow hname
  · cases h
    refine ⟨rfl, ?_⟩
    simp only [respond, tokensFor_pix, if_pos hpix, Option.map_some]
    rw [pixFor, IssuedTokens.sign, Token.ofText_toLatin1_encode]
  · cases h
    refine ⟨rfl, ?_⟩
    simp only [respond, tokensFor_pix, if_neg hpix, Option.map_none]

/-- Tokens are made out for a user who may not read pics, and for anyone where the pix cookie can
be set. -/
theorem exists_grant_iff (hclock : now.Readable) {user : User} {family : Int64} :
    (∃ x, g.grant now user family = .ok x) ↔
      (user.capabilities.contains .picRead = true → g.CookieSettable) := by
  rw [grant_eq hclock]
  by_cases hpix : user.capabilities.contains .picRead = true
  · by_cases hwindow : Int64.maxValue.toInt < g.windows.refresh
    · simp [hpix, hwindow, CookieSettable]
    · by_cases hname : g.CookieNameAllowed
      · simp [hpix, hwindow, hname, CookieSettable, not_lt.mp hwindow]
      · simp [hpix, hwindow, hname, CookieSettable]
  · simp [hpix]

theorem grant_of_not_readable (hclock : ¬ now.Readable) (g : Gateway) (user : User)
    (family : Int64) : g.grant now user family = .error .clockUnreadable := by
  unfold grant
  rw [IssuedTokens.issue?_of_not_readable hclock]

/-- Where tokens are not made out, the fault is the gateway's own, or the clock's. -/
theorem internal_of_grant {user : User} {family : Int64} {e : GatewayError}
    (h : g.grant now user family = .error e) :
    e = .clockUnreadable ∨ ∃ fault, e = .internal fault := by
  by_cases hclock : now.Readable
  · rw [grant_eq hclock] at h
    split_ifs at h <;> cases h
    · exact .inr ⟨_, rfl⟩
    · exact .inr ⟨_, rfl⟩
  · rw [grant_of_not_readable hclock] at h
    cases h
    exact .inl rfl

/-! ## Stages -/

/-- A request for tokens fails at the caller, or at the store, or has the store changed before its
tokens are made out. -/
theorem getRefreshToken_cases (g : Gateway) (now : Instant) (fresh : Int64)
    (request : TokenRequest) (store : UserStore) :
    (∃ e, g.identify now store request = .error e ∧
        g.getRefreshToken now fresh request store = (.error e, store)) ∨
      (∃ who, g.identify now store request = .ok who ∧
        store.rotate? who.user.userId who.family fresh = none ∧
        g.getRefreshToken now fresh request store =
          (.error (.unauthenticated .deadFamily), store)) ∨
      ∃ who after, g.identify now store request = .ok who ∧
        store.rotate? who.user.userId who.family fresh = some after ∧
        g.getRefreshToken now fresh request store = (g.grant now who.user fresh, after) := by
  unfold getRefreshToken
  cases hwho : g.identify now store request with
  | error e => exact .inl ⟨e, rfl, rfl⟩
  | ok who =>
    cases hafter : store.rotate? who.user.userId who.family fresh with
    | none => exact .inr (.inl ⟨who, rfl, hafter, by simp only [hafter]⟩)
    | some after => exact .inr (.inr ⟨who, after, rfl, hafter, by simp only [hafter]⟩)

/-- A caller whose family can be started is given what is made out for them. -/
theorem getRefreshToken_of_rotate? {who : Identity} {after : UserStore}
    (hwho : g.identify now store request = .ok who)
    (hafter : store.rotate? who.user.userId who.family fresh = some after) :
    g.getRefreshToken now fresh request store = (g.grant now who.user fresh, after) := by
  unfold getRefreshToken
  simp only [hwho, hafter]

/-- Tokens are given out exactly when all three stages are passed. -/
theorem getRefreshToken_eq_ok_iff {x : TokenGrant} :
    (g.getRefreshToken now fresh request store).1 = .ok x ↔
      ∃ who after, g.identify now store request = .ok who ∧
        store.rotate? who.user.userId who.family fresh = some after ∧
        g.grant now who.user fresh = .ok x := by
  constructor
  · intro h
    rcases g.getRefreshToken_cases now fresh request store with
      ⟨e, hwho, houtcome⟩ | ⟨who, hwho, hdead, houtcome⟩ | ⟨who, after, hwho, hafter, houtcome⟩
    · rw [houtcome] at h
      cases h
    · rw [houtcome] at h
      cases h
    · rw [houtcome] at h
      exact ⟨who, after, hwho, hafter, h⟩
  · rintro ⟨who, after, hwho, hafter, h⟩
    rw [getRefreshToken_of_rotate? hwho hafter]
    exact h

/-- A logout fails at the caller, or at the store, or has the store changed before its cookie is
made out. -/
theorem deleteToken_cases (g : Gateway) (now : Instant) (headers : List Header)
    (store : UserStore) :
    (∃ e, g.identifyLogout now headers = .error e ∧
        g.deleteToken now headers store = (.error e, store)) ∨
      (∃ userId family, g.identifyLogout now headers = .ok (userId, family) ∧
        store.revoke? userId family = none ∧
        g.deleteToken now headers store = (.error (.unauthenticated .deadFamily), store)) ∨
      ∃ userId family after, g.identifyLogout now headers = .ok (userId, family) ∧
        store.revoke? userId family = some after ∧
        g.deleteToken now headers store = (g.pixCookieHeader [] 0, after) := by
  unfold deleteToken
  cases hwho : g.identifyLogout now headers with
  | error e => exact .inl ⟨e, rfl, rfl⟩
  | ok named =>
    obtain ⟨userId, family⟩ := named
    cases hafter : store.revoke? userId family with
    | none => exact .inr (.inl ⟨userId, family, rfl, hafter, by simp only [hafter]⟩)
    | some after =>
      exact .inr (.inr ⟨userId, family, after, rfl, hafter, by simp only [hafter]⟩)

end Gateway

end PicBoard
