import Mathlib.Tactic
import PicBoard.Proofs.Gateway.Serving

/-!
# Sessions that can be redeemed

What an answer says, what its tokens say and what the store keeps are one and the same family.  So
the tokens of an answer can be redeemed later on: the refresh token through the end of its window,
and the auth token through the end of its own, unless one of them was redeemed before, or the
family had to make room.
-/

namespace PicBoard

/-- A text is a token whose payload is shown as it is. -/
def PayloadView.ShownOf (token : String) (v : PayloadView) : Prop :=
  ∃ p, Token.decodeUnverified (Bytes.ofText token) = .ok p ∧ v = p.view

namespace Gateway

variable {g : Gateway} {now t : Instant} {fresh userId f : Int64} {request : TokenRequest}
  {store : UserStore} {user : User} {second : Int64} {first last : Int}

/-! ## What an answer says -/

/-- An answer names a family: the refresh token as its own, the others as the one they came
with. -/
structure AnswerNames (r : TokenResponse) (f : Int64) : Prop where
  refresh : r.refreshPayload.tokenId = some f
  auth : r.authPayload.tokenParentId = some f
  pix : ∀ v ∈ r.pixPayload, v.tokenParentId = some f

/-- An answer shows of each token what the token says. -/
structure AnswerShows (r : TokenResponse) : Prop where
  refresh : r.refreshPayload.ShownOf r.refreshToken
  auth : r.authPayload.ShownOf r.authToken
  pix : Option.Rel (fun token v => v.ShownOf token) r.pixToken r.pixPayload

theorem answerNames_respond (hf : f ≠ 0) (g : Gateway) (second : Int64) (user : User) :
    AnswerNames (respond (g.tokensFor second user f)) f where
  refresh := if_neg hf
  auth := if_neg hf
  pix := by
    intro v hv
    simp only [respond, tokensFor_pix] at hv
    split at hv
    · cases hv
      exact if_neg hf
    · cases hv

theorem answerShows_respond (hissuer : (Bytes.ofText g.issuer).length < UInt64.size)
    (second : Int64) (user : User) (f : Int64) :
    AnswerShows (respond (g.tokensFor second user f)) := by
  have hshown : ∀ p : Payload, p.subject = GlyphNumber.text user.userId → p.issuer = g.issuer →
      p.notBefore.isSome = true →
      p.view.ShownOf (IssuedTokens.sign g.mac p).token.toLatin1 := fun p hsubject hp hbound =>
    ⟨p, Token.decodeUnverified_toLatin1 g.mac hsubject (hp ▸ hissuer) hbound, rfl⟩
  refine ⟨hshown _ rfl rfl rfl, hshown _ rfl rfl rfl, ?_⟩
  simp only [respond, tokensFor_pix]
  by_cases hpix : user.capabilities.contains .picRead = true
  · rw [if_pos hpix]
    exact .some (hshown _ rfl rfl rfl)
  · rw [if_neg hpix]
    exact .none

/-! ## Redeeming -/

/-- A request for tokens succeeds at some time, whatever id is drawn for its family. -/
def Redeems (g : Gateway) (t : Instant) (store : UserStore) (request : TokenRequest) : Prop :=
  ∀ fresh, ∃ x, (g.getRefreshToken t fresh request store).1 = .ok x

/-- Who is identified with a live family gets tokens. -/
theorem redeems_of_identify (hcookie : g.CookieSettable) (ht : t.Readable)
    (hwho : g.identify t store request = .ok { user, family := some f })
    (hknown : store.findById user.userId = some user) (hlive : f ∈ store.families user.userId) :
    g.Redeems t store request := by
  intro fresh
  obtain ⟨e, he, -⟩ := Option.map_eq_some_iff.mp hknown
  obtain ⟨after, hafter⟩ : ∃ after, store.rotate? user.userId (some f) fresh = some after := by
    refine UserStore.exists_rotate?_iff.mpr ⟨⟨e, he⟩, ?_⟩
    rintro f' hf'
    cases hf'
    exact hlive
  obtain ⟨x, hx⟩ : ∃ x, g.grant t user fresh = .ok x :=
    (exists_grant_iff ht).mpr fun _ => hcookie
  exact ⟨x, getRefreshToken_eq_ok_iff.mpr ⟨_, after, hwho, hafter, hx⟩⟩

/-- A refresh token of a live family of somebody known is redeemed in the time that it spans. -/
theorem redeems_refreshToken (hcookie : g.CookieSettable) (ht : t.Readable)
    (hspans : Token.Spans (IssuedTokens.refreshPayload g.windows second userId f g.issuer)
      userId first last)
    (hfirst : first * nanosPerSecond ≤ t.total) (hlast : t.total ≤ last * nanosPerSecond)
    (hknown : store.findById userId = some user) (hlive : f ∈ store.families userId)
    (hrequest : request.refreshToken = (IssuedTokens.sign g.mac
      (IssuedTokens.refreshPayload g.windows second userId f g.issuer)).token.toLatin1) :
    g.Redeems t store request := by
  have hwho := identify_refreshToken ht hspans hfirst hlast hknown hrequest
  obtain rfl := UserStore.userId_of_findById hknown
  exact redeems_of_identify hcookie ht hwho hknown hlive

/-- An auth token is redeemed likewise, where no refresh token is given. -/
theorem redeems_authToken (hcookie : g.CookieSettable) (ht : t.Readable)
    (hspans : Token.Spans (IssuedTokens.authPayload g.windows second userId f g.issuer)
      userId first last)
    (hfirst : first * nanosPerSecond ≤ t.total) (hlast : t.total ≤ last * nanosPerSecond)
    (hknown : store.findById userId = some user) (hlive : f ∈ store.families userId)
    (hf : f ≠ 0) (hnone : request.refreshToken = "")
    (hrequest : request.previousAuthToken = (IssuedTokens.sign g.mac
      (IssuedTokens.authPayload g.windows second userId f g.issuer)).token.toLatin1) :
    g.Redeems t store request := by
  have haccepted : Token.decode g.mac t (Bytes.ofText request.previousAuthToken) =
      .ok (IssuedTokens.authPayload g.windows second userId f g.issuer) := by
    rw [hrequest]
    exact hspans.decode_toLatin1 ht hfirst hlast
  have hgiven : request.previousAuthToken ≠ "" := by
    rw [hrequest]
    exact Token.toLatin1_encode_ne_empty _ _
  obtain rfl := UserStore.userId_of_findById hknown
  refine redeems_of_identify hcookie ht ?_ hknown hlive
  unfold identify
  rw [if_neg (not_not.mpr hnone), if_pos hgiven]
  exact identifyByAuth_eq_ok_iff.mpr ⟨_, haccepted, rfl, hspans.subjectId, hknown, hf, rfl⟩

/-! ## Sessions -/

/-- A family that has just started stays live, for somebody known, through calls that leave it. -/
theorem known_and_live_storeAfter (hcookie : g.CookieSettable)
    (hstored : ∃ e, store.stored? userId = some e) (hqueued : store.Queued userId f 0)
    (events : List Event)
    (hkept : ∀ served ∈ g.history store events, served.2.call.Names userId f →
      ¬ g.Succeeds served.1 served.2)
    (hroom : g.startedFor userId store events < store.familyLimit) :
    (∃ user, (g.storeAfter store events).findById userId = some user) ∧
      f ∈ (g.storeAfter store events).families userId := by
  refine ⟨?_, (queued_storeAfter hcookie events hqueued hkept (by omega)).live⟩
  obtain ⟨e, he⟩ : ∃ e, (g.storeAfter store events).stored? userId = some e := by
    rw [UserStore.exists_stored?_iff, records_storeAfter]
    exact UserStore.exists_stored?_iff.mp hstored
  exact ⟨e.user, Option.map_eq_some_iff.mpr ⟨e, he, rfl⟩⟩

/-- The answer to a request for tokens, its tokens and the store name one family, which is live.
Whatever calls come after, as long as none that names the family succeeds and too few families of
the user start to push it out, its refresh token is redeemed at any time from a minute before its
issue through the end of its window, and so is its auth token through the end of its own.  The
windows end in year 9999 at the latest. -/
theorem issued_session_redeemable (g : Gateway) (now : Instant) (fresh : Int64)
    (request : TokenRequest) (store : UserStore) (x : TokenGrant) (hfresh : fresh ≠ 0)
    (hname : g.CookieNameAllowed) (hissuer : (Bytes.ofText g.issuer).length < UInt64.size)
    (hlo : Timestamp.minSeconds ≤ now.seconds.toInt - 60)
    (hauth : now.seconds.toInt + g.windows.auth ≤ Timestamp.maxSeconds)
    (hrefresh : now.seconds.toInt + g.windows.refresh ≤ Timestamp.maxSeconds)
    (h : (g.getRefreshToken now fresh request store).1 = .ok x) :
    let issued := (g.getRefreshToken now fresh request store).2
    ∃ user old, Authorised g now store request user old ∧
      AnswerNames x.response fresh ∧ AnswerShows x.response ∧
      fresh ∈ issued.families user.userId ∧
      ∀ events : List Event,
        (∀ served ∈ g.history issued events, served.2.call.Names user.userId fresh →
          ¬ g.Succeeds served.1 served.2) →
        g.startedFor user.userId issued events < store.familyLimit →
        ∀ (t : Instant) (again : TokenRequest),
          (now.seconds.toInt - 60) * nanosPerSecond ≤ t.total →
          (again.refreshToken = x.response.refreshToken →
            t.total ≤ (now.seconds.toInt + g.windows.refresh) * nanosPerSecond →
            g.Redeems t (g.storeAfter issued events) again) ∧
          (again.refreshToken = "" → again.previousAuthToken = x.response.authToken →
            t.total ≤ (now.seconds.toInt + g.windows.auth) * nanosPerSecond →
            g.Redeems t (g.storeAfter issued events) again) := by
  intro issued
  obtain ⟨user, old, hauthorised, hafter, hgrant⟩ := authorised_of_getRefreshToken h
  have hcookie : g.CookieSettable := by
    refine ⟨hname, ?_⟩
    -- A window between years 1 and 9999 is far below 2^63 seconds.
    have hmax : Int64.maxValue.toInt = 2 ^ 63 - 1 := rfl
    simp only [Timestamp.minSeconds, Timestamp.maxSeconds] at hlo hrefresh
    omega
  have hreadable : ∀ t : Instant,
      (now.seconds.toInt - 60) * nanosPerSecond ≤ t.total → t.Readable := by
    intro t hfirst
    have hpos : (0 : Int) ≤ nanosPerSecond := Int.natCast_nonneg _
    have hyear := Int.mul_le_mul_of_nonneg_right hlo hpos
    exact Timestamp.readable_of_minSeconds_le (hyear.trans hfirst)
  have hresponse : x.response = respond (g.tokensFor now.seconds user fresh) := by
    refine (granted_of_grant (hreadable now ?_) hgrant).1
    simp only [Instant.total, nanosPerSecond]
    omega
  have hqueued : issued.Queued user.userId fresh 0 := UserStore.queued_of_rotate? hafter
  -- Who is entitled to tokens is stored, and no call changes who is.
  have hstored : ∃ e, issued.stored? user.userId = some e := by
    rw [UserStore.exists_stored?_iff, UserStore.records_of_rotate? hafter]
    exact UserStore.exists_stored?_iff.mp hauthorised.stored
  refine ⟨user, old, hauthorised, ?_, ?_, hqueued.live, ?_⟩
  · rw [hresponse]
    exact answerNames_respond hfresh g now.seconds user
  · rw [hresponse]
    exact answerShows_respond hissuer now.seconds user fresh
  · intro events hkept hroom t again hfirst
    have hlimit : issued.familyLimit = store.familyLimit :=
      (UserStore.rotate?_eq_some hafter).2.1
    obtain ⟨⟨known, hknown⟩, hlive⟩ :=
      known_and_live_storeAfter hcookie hstored hqueued events hkept (hlimit ▸ hroom)
    rw [hresponse]
    refine ⟨?_, ?_⟩
    · intro hagain hlast
      exact redeems_refreshToken hcookie (hreadable t hfirst)
        (IssuedTokens.spans_refreshPayload hlo hrefresh hissuer) hfirst hlast hknown hlive hagain
    · intro hnone hagain hlast
      exact redeems_authToken hcookie (hreadable t hfirst)
        (IssuedTokens.spans_authPayload hlo hauth hissuer) hfirst hlast hknown hlive hfresh hnone
        hagain

/-- Bob may have two families, and has families 40 and 41.  He renews the second and then the
first, which leaves him the two that start.  Half a year later to the second, the first of them is
still redeemed. -/
theorem session_redeemable_after_another :
    let g : Gateway :=
      { mac := .hmac [7], windows := .standard, issuer := "pixur", anonymous := .empty
        pixCookie := "pix_token" }
    let bob : User :=
      { userId := 8, ident := "bob", secretHash := "", capabilities := .ofList [.picRead] }
    let store : UserStore :=
      { users := [{ user := bob, families := [40, 41] }], familyLimit := 2
        familyLimit_pos := by decide }
    let now := Instant.ofSeconds 1500000000
    let request (f : Int64) : TokenRequest :=
      { refreshToken := (g.tokensFor 1500000000 bob f).refresh.token.toLatin1 }
    ∃ x, (g.getRefreshToken now 42 (request 41) store).1 = .ok x ∧
      g.Redeems (.ofSeconds 1515552000)
        (g.storeAfter (g.getRefreshToken now 42 (request 41) store).2
          [{ call := .renew (request 40), now, fresh := 43 }])
        { refreshToken := x.response.refreshToken } := by
  intro g bob store now request
  have hspans : ∀ f, Token.Spans
      (IssuedTokens.refreshPayload g.windows 1500000000 bob.userId f g.issuer) bob.userId
      (1500000000 - 60) (1500000000 + 15552000) := fun f =>
    IssuedTokens.spans_refreshPayload (by decide) (by decide) (by decide)
  have hread : Token.decodeUnverified (Bytes.ofText (request 40).refreshToken) =
      .ok (IssuedTokens.refreshPayload g.windows 1500000000 bob.userId 40 g.issuer) :=
    Token.decodeUnverified_of_decode
      ((hspans 40).decode_toLatin1 (t := now) (by decide) (by decide) (by decide))
  have htoken : (Call.renew (request 40)).token? = some (Bytes.ofText (request 40).refreshToken) :=
    if_pos (Token.toLatin1_encode_ne_empty _ _)
  have hknown : store.findById 8 = some bob := rfl
  have hlive : (41 : Int64) ∈ store.families 8 := by decide
  have hname : g.CookieNameAllowed := by decide +kernel
  have hfirst : g.Redeems now store (request 41) :=
    redeems_refreshToken ⟨hname, by decide⟩ (by decide) (hspans 41) (by decide) (by decide) hknown
      hlive rfl
  obtain ⟨x, hx⟩ := hfirst 42
  obtain ⟨user, -, -, -, -, -, hredeemed⟩ := issued_session_redeemable g now 42 (request 41)
    store x (by decide) hname (by decide) (by decide) (by decide) (by decide) hx
  let second : Event := { call := .renew (request 40), now, fresh := 43 }
  have hother : ¬ second.call.Names user.userId 42 := by
    rw [Call.names_iff htoken hread, Payload.named?_of_refresh (hspans 40).subjectId rfl]
    intro hnamed
    have hfamily : (40 : Int64) = 42 := congrArg Prod.snd (Option.some.inj hnamed)
    exact absurd hfamily (by decide)
  have hstarted := g.startedFor_le_length user.userId
    (g.getRefreshToken now 42 (request 41) store).2 [second]
  refine ⟨x, hx, (hredeemed [second] ?_ ?_ _ _ (by decide)).1 rfl (by decide)⟩
  · intro served hserved
    cases List.mem_singleton.mp hserved
    exact fun hnames => absurd hnames hother
  · exact hstarted.trans_lt (by decide)

end Gateway

end PicBoard
