import Mathlib.Tactic
import PicBoard.Proofs.Gateway.Grants

/-!
# Who gets tokens

A request for tokens may carry a refresh token, a previous auth token, a name and a secret, in any
mixture.  The first of these that is given decides alone: whom it entitles gets tokens, and what
comes after it is not looked at.
-/

namespace PicBoard

/-- The tokens of an answer. -/
def TokenResponse.tokens (r : TokenResponse) : List String :=
  r.refreshToken :: r.authToken :: r.pixToken.toList

namespace Gateway

variable {g : Gateway} {now : Instant} {fresh : Int64} {request : TokenRequest}
  {store : UserStore} {token : String} {user : User} {old : Option Int64} {who : Identity}

/-! ## Names -/

theorem known_of_findByIdent {ident : String} (h : store.findByIdent ident = some user) :
    user ∈ store.records ∧ user.ident = ident := by
  rw [UserStore.findByIdent_eq_find?] at h
  exact ⟨List.mem_of_find?_eq_some h, by simpa using List.find?_some h⟩

/-- Where no two users have one name, a name finds the user who has it. -/
theorem findByIdent_of_known (hidents : (store.records.map (·.ident)).Nodup)
    (hmem : user ∈ store.records) {ident : String} (hident : user.ident = ident) :
    store.findByIdent ident = some user := by
  subst hident
  rw [UserStore.findByIdent_eq_find?]
  exact UserStore.find?_key_of_mem hidents hmem

/-! ## Whom a request shows -/

/-- The user whom a request shows, with the family that is presented, live or not: the one that a
refresh token is of, or that an auth token came with.  A secret presents none. -/
inductive Shows (g : Gateway) (now : Instant) (store : UserStore) (request : TokenRequest) :
    User → Option Int64 → Prop where
  | byRefresh (user : User) (p : Payload)
      (given : request.refreshToken ≠ "")
      (accepted : Token.decode g.mac now (Bytes.ofText request.refreshToken) = .ok p)
      (kind : p.type = .refresh)
      (subject : Token.subjectId p = .ok user.userId)
      (known : store.findById user.userId = some user) :
      Shows g now store request user (some p.tokenId)
  | byAuth (user : User) (p : Payload)
      (notRefresh : request.refreshToken = "")
      (given : request.previousAuthToken ≠ "")
      (accepted : Token.decode g.mac now (Bytes.ofText request.previousAuthToken) = .ok p)
      (kind : p.type = .auth)
      (subject : Token.subjectId p = .ok user.userId)
      (known : store.findById user.userId = some user)
      (parent : p.tokenParentId ≠ 0) :
      Shows g now store request user (some p.tokenParentId)
  | bySecret (user : User)
      (notRefresh : request.refreshToken = "")
      (notAuth : request.previousAuthToken = "")
      (given : request.ident ≠ "")
      (known : user ∈ store.records)
      (ident : user.ident = request.ident)
      (secret : user.secretMatches request.secret = true) :
      Shows g now store request user none

theorem shows_of_identify (hwho : g.identify now store request = .ok who) :
    Shows g now store request who.user who.family := by
  rcases who with ⟨user, old⟩
  unfold identify at hwho
  split_ifs at hwho with hrefresh hauth hident
  · rcases identifyByRefresh_eq_ok_iff.mp hwho with ⟨p, accepted, kind, subject, known, hfamily⟩
    cases hfamily
    exact .byRefresh user p hrefresh accepted kind subject known
  · rcases identifyByAuth_eq_ok_iff.mp hwho with
      ⟨p, accepted, kind, subject, known, parent, hfamily⟩
    cases hfamily
    exact .byAuth user p (not_not.mp hrefresh) hauth accepted kind subject known parent
  · rcases identifyBySecret_eq_ok_iff.mp hwho with ⟨hfind, secret, hfamily⟩
    cases hfamily
    rcases known_of_findByIdent hfind with ⟨known, ident⟩
    exact .bySecret user (not_not.mp hrefresh) (not_not.mp hauth) hident known ident secret

/-- Where no two users have one name, whoever is shown is identified. -/
theorem Shows.identify (hidents : (store.records.map (·.ident)).Nodup)
    (h : Shows g now store request user old) :
    g.identify now store request = .ok { user, family := old } := by
  unfold Gateway.identify
  cases h with
  | byRefresh p given accepted kind subject known =>
    rw [if_pos given]
    exact identifyByRefresh_eq_ok_iff.mpr ⟨p, accepted, kind, subject, known, rfl⟩
  | byAuth p notRefresh given accepted kind subject known parent =>
    rw [if_neg (not_not.mpr notRefresh), if_pos given]
    exact identifyByAuth_eq_ok_iff.mpr ⟨p, accepted, kind, subject, known, parent, rfl⟩
  | bySecret notRefresh notAuth given known ident secret =>
    rw [if_neg (not_not.mpr notRefresh), if_neg (not_not.mpr notAuth), if_neg given]
    have hfind := findByIdent_of_known hidents known ident
    exact identifyBySecret_eq_ok_iff.mpr ⟨hfind, secret, rfl⟩

/-! ## The rule -/

/-- The users whom a request entitles to tokens, each with the family that is given up: the one
that a refresh token is of, or that an auth token came with, which must be live.  A secret gives up
none. -/
inductive Authorised (g : Gateway) (now : Instant) (store : UserStore) (request : TokenRequest) :
    User → Option Int64 → Prop where
  | byRefresh (user : User) (p : Payload)
      (given : request.refreshToken ≠ "")
      (accepted : Token.decode g.mac now (Bytes.ofText request.refreshToken) = .ok p)
      (kind : p.type = .refresh)
      (subject : Token.subjectId p = .ok user.userId)
      (known : store.findById user.userId = some user)
      (live : p.tokenId ∈ store.families user.userId) :
      Authorised g now store request user (some p.tokenId)
  | byAuth (user : User) (p : Payload)
      (notRefresh : request.refreshToken = "")
      (given : request.previousAuthToken ≠ "")
      (accepted : Token.decode g.mac now (Bytes.ofText request.previousAuthToken) = .ok p)
      (kind : p.type = .auth)
      (subject : Token.subjectId p = .ok user.userId)
      (known : store.findById user.userId = some user)
      (parent : p.tokenParentId ≠ 0)
      (live : p.tokenParentId ∈ store.families user.userId) :
      Authorised g now store request user (some p.tokenParentId)
  | bySecret (user : User)
      (notRefresh : request.refreshToken = "")
      (notAuth : request.previousAuthToken = "")
      (given : request.ident ≠ "")
      (known : user ∈ store.records)
      (ident : user.ident = request.ident)
      (secret : user.secretMatches request.secret = true) :
      Authorised g now store request user none

/-- What a user gets who is entitled to tokens: tokens of their own, a pix token and its cookie if
they may read pics, and a new family in their queue.  The family that is given up makes room for
it, unless more are live than should be. -/
structure GrantedTo (g : Gateway) (fresh : Int64) (before after : UserStore) (user : User)
    (old : Option Int64) (x : TokenGrant) : Prop where
  subject : ∀ token ∈ x.response.tokens, ∃ p,
    Token.decodeUnverified (Bytes.ofText token) = .ok p ∧
      p.subject = GlyphNumber.text user.userId
  pix : x.response.pixToken.isSome = true ↔ user.capabilities.contains .picRead = true
  cookie : x.cookie = x.response.pixToken.map fun pix =>
    g.pixCookieText (Bytes.ofText pix) g.windows.refresh
  queue : after.families user.userId =
    UserStore.makeRoom before.familyLimit
      (UserStore.without old (before.families user.userId)) ++ [fresh]
  given : ∀ f ∈ old, (before.families user.userId).length ≤ before.familyLimit →
    after.families user.userId = (before.families user.userId).erase f ++ [fresh]
  others : ∀ other, other ≠ user.userId → after.families other = before.families other

/-! ## Success and authorisation -/

/-- Those are entitled to tokens who are shown, with a live family if any. -/
theorem authorised_iff :
    Authorised g now store request user old ↔
      Shows g now store request user old ∧ ∀ f ∈ old, f ∈ store.families user.userId := by
  constructor
  · intro h
    cases h with
    | byRefresh p given accepted kind subject known live =>
      exact ⟨.byRefresh user p given accepted kind subject known, by simpa using live⟩
    | byAuth p notRefresh given accepted kind subject known parent live =>
      exact ⟨.byAuth user p notRefresh given accepted kind subject known parent,
        by simpa using live⟩
    | bySecret notRefresh notAuth given known ident secret =>
      exact ⟨.bySecret user notRefresh notAuth given known ident secret, by simp⟩
  · rintro ⟨h, hlive⟩
    cases h with
    | byRefresh p given accepted kind subject known =>
      exact .byRefresh user p given accepted kind subject known (hlive _ rfl)
    | byAuth p notRefresh given accepted kind subject known parent =>
      exact .byAuth user p notRefresh given accepted kind subject known parent (hlive _ rfl)
    | bySecret notRefresh notAuth given known ident secret =>
      exact .bySecret user notRefresh notAuth given known ident secret

theorem Authorised.stored (h : Authorised g now store request user old) :
    ∃ e, store.stored? user.userId = some e := by
  cases h with
  | byRefresh p given accepted kind subject known live =>
    exact (Option.map_eq_some_iff.mp known).imp fun _ he => he.1
  | byAuth p notRefresh given accepted kind subject known parent live =>
    exact (Option.map_eq_some_iff.mp known).imp fun _ he => he.1
  | bySecret notRefresh notAuth given known ident secret =>
    exact UserStore.exists_stored?_iff.mpr ⟨user, known, rfl⟩

/-- Only who is entitled to tokens has a family started and tokens made out. -/
theorem authorised_of_getRefreshToken {x : TokenGrant}
    (h : (g.getRefreshToken now fresh request store).1 = .ok x) :
    ∃ user old, Authorised g now store request user old ∧
      store.rotate? user.userId old fresh = some (g.getRefreshToken now fresh request store).2 ∧
      g.grant now user fresh = .ok x := by
  rcases getRefreshToken_eq_ok_iff.mp h with ⟨who, after, hwho, hafter, hgrant⟩
  have hlive := (UserStore.rotate?_eq_some hafter).1
  have hauthorised := authorised_iff.mpr ⟨shows_of_identify hwho, hlive⟩
  rw [getRefreshToken_of_rotate? hwho hafter]
  exact ⟨who.user, who.family, hauthorised, hafter, hgrant⟩

/-- Whoever is entitled to tokens has a family started, and then tokens are made out. -/
theorem Authorised.getRefreshToken (hidents : (store.records.map (·.ident)).Nodup)
    (h : Authorised g now store request user old) (fresh : Int64) :
    ∃ after, store.rotate? user.userId old fresh = some after ∧
      g.getRefreshToken now fresh request store = (g.grant now user fresh, after) := by
  rcases authorised_iff.mp h with ⟨hshown, hlive⟩
  obtain ⟨after, hafter⟩ := UserStore.exists_rotate?_iff.mpr ⟨h.stored, hlive⟩
  have hwho : g.identify now store request = .ok { user, family := old } :=
    hshown.identify hidents
  refine ⟨after, hafter, ?_⟩
  rw [getRefreshToken_of_rotate? hwho hafter]

/-! ## What is granted -/

/-- The tokens of an issue are for the user to whom they are issued. -/
theorem subject_of_respond (hissuer : (Bytes.ofText g.issuer).length < UInt64.size)
    {second : Int64} (htoken : token ∈ (respond (g.tokensFor second user fresh)).tokens) :
    ∃ p, Token.decodeUnverified (Bytes.ofText token) = .ok p ∧
      p.subject = GlyphNumber.text user.userId := by
  have hread : ∀ p : Payload, p.subject = GlyphNumber.text user.userId → p.issuer = g.issuer →
      p.notBefore.isSome = true → token = (IssuedTokens.sign g.mac p).token.toLatin1 →
      ∃ q, Token.decodeUnverified (Bytes.ofText token) = .ok q ∧
        q.subject = GlyphNumber.text user.userId := by
    rintro p hsubject hp hbound rfl
    exact ⟨p, Token.decodeUnverified_toLatin1 g.mac hsubject (hp ▸ hissuer) hbound, hsubject⟩
  simp only [TokenResponse.tokens, List.mem_cons, Option.mem_toList, respond, tokensFor_pix]
    at htoken
  rcases htoken with h | h | h
  · exact hread (IssuedTokens.refreshPayload g.windows second user.userId fresh g.issuer)
      rfl rfl rfl h
  · exact hread (IssuedTokens.authPayload g.windows second user.userId fresh g.issuer)
      rfl rfl rfl h
  · by_cases hpix : user.capabilities.contains .picRead = true
    · rw [if_pos hpix, Option.map_some] at h
      exact hread (IssuedTokens.pixPayload g.windows second user.userId fresh g.issuer)
        rfl rfl rfl (Option.some.inj h).symm
    · rw [if_neg hpix, Option.map_none] at h
      cases h

/-- What is granted where the pix cookie can be set. -/
theorem grantedTo_of_rotate? (hissuer : (Bytes.ofText g.issuer).length < UInt64.size)
    (hclock : now.Readable) {x : TokenGrant} (hgrant : g.grant now user fresh = .ok x)
    {after : UserStore} (hafter : store.rotate? user.userId old fresh = some after) :
    GrantedTo g fresh store after user old x := by
  obtain ⟨hlive, -, hfamilies⟩ := UserStore.rotate?_eq_some hafter
  have hqueue := (hfamilies user.userId).trans (if_pos rfl)
  have hresponse := granted_of_grant hclock hgrant
  refine ⟨?_, ?_, hresponse.2, hqueue, ?_, ?_⟩
  · intro token htoken
    rw [hresponse.1] at htoken
    exact subject_of_respond hissuer htoken
  · rw [hresponse.1]
    simp [respond, tokensFor_pix]
  · -- what is given up leaves a queue that is within its limit with room for one more
    intro f hf hlimit
    obtain rfl := Option.mem_def.mp hf
    have hlength := List.length_erase_of_mem (hlive f rfl)
    have hpos := List.length_pos_of_mem (hlive f rfl)
    rw [hqueue]
    exact congrArg (· ++ [fresh]) (UserStore.makeRoom_of_lt (by
      simp only [UserStore.without]
      omega))
  · intro other hother
    exact (hfamilies other).trans (if_neg hother)

/-! ## The rule holds -/

/-- A request for tokens succeeds exactly for users whom it entitles to them.  Where a refresh
token is given, it alone decides what becomes of the request, and where none is, a previous auth
token does.  The clock can be read, and the life of a pix token fits the cookie's 64 bits. -/
theorem tokens_exactly_for_authorised (g : Gateway) (now : Instant) (fresh : Int64)
    (request : TokenRequest) (store : UserStore)
    (hidents : (store.records.map (·.ident)).Nodup) (hname : g.CookieNameAllowed)
    (hclock : now.Readable) (hwindow : g.windows.refresh ≤ Int64.maxValue.toInt)
    (hissuer : (Bytes.ofText g.issuer).length < UInt64.size) :
    let outcome := g.getRefreshToken now fresh request store
    ((∃ x, outcome.1 = .ok x) ↔ ∃ user old, Authorised g now store request user old) ∧
      (∀ user old, Authorised g now store request user old →
        ∃ x, outcome.1 = .ok x ∧ GrantedTo g fresh store outcome.2 user old x) ∧
      (∀ other : TokenRequest, request.refreshToken ≠ "" →
        other.refreshToken = request.refreshToken →
        g.getRefreshToken now fresh other store = outcome) ∧
      ∀ other : TokenRequest, request.refreshToken = "" → request.previousAuthToken ≠ "" →
        other.refreshToken = "" → other.previousAuthToken = request.previousAuthToken →
        g.getRefreshToken now fresh other store = outcome := by
  intro outcome
  have hgranted : ∀ user old, Authorised g now store request user old →
      ∃ x, outcome.1 = .ok x ∧ GrantedTo g fresh store outcome.2 user old x := by
    intro user old hauthorised
    obtain ⟨after, hafter, houtcome⟩ := hauthorised.getRefreshToken hidents fresh
    obtain ⟨x, hx⟩ : ∃ x, g.grant now user fresh = .ok x :=
      (exists_grant_iff hclock).mpr fun _ => ⟨hname, hwindow⟩
    simp only [outcome, houtcome]
    exact ⟨x, hx, grantedTo_of_rotate? hissuer hclock hx hafter⟩
  refine ⟨⟨?_, ?_⟩, hgranted, ?_, ?_⟩
  · rintro ⟨x, hx⟩
    obtain ⟨user, old, hauthorised, -⟩ := authorised_of_getRefreshToken hx
    exact ⟨user, old, hauthorised⟩
  · rintro ⟨user, old, hauthorised⟩
    obtain ⟨x, hx, -⟩ := hgranted user old hauthorised
    exact ⟨x, hx⟩
  · -- the other fields are not looked at
    intro other hrefresh hsame
    have hwho : g.identify now store other = g.identify now store request := by
      unfold identify
      rw [hsame, if_pos hrefresh, if_pos hrefresh]
    simp only [outcome, Gateway.getRefreshToken, hwho]
  · intro other hrefresh hauth hother hsame
    have hwho : g.identify now store other = g.identify now store request := by
      unfold identify
      rw [hsame, hother, hrefresh, if_pos hauth, if_pos hauth]
    simp only [outcome, Gateway.getRefreshToken, hwho]

/-- A refresh token of a family that is live is enough, with nothing right beside it.  Once that
family is over it is good for nothing, whatever secret comes with it. -/
theorem refresh_token_decides :
    let g : Gateway :=
      { mac := .hmac [7], windows := .standard, issuer := "pixur", anonymous := .empty
        pixCookie := "pix_token" }
    let bob : User :=
      { userId := 8, ident := "bob", secretHash := "", capabilities := .ofList [.picRead] }
    let live : UserStore :=
      { users := [{ user := bob, families := [41, 42] }], familyLimit := 16
        familyLimit_pos := by decide }
    let dead := live.setFamilies 8 [42]
    let token := (g.tokensFor 1500000000 bob 41).refresh.token.toLatin1
    let now := Instant.ofSeconds 1500000000
    let bare : TokenRequest :=
      { ident := "nobody", secret := "", refreshToken := token, previousAuthToken := "-" }
    (∃ x, (g.getRefreshToken now 43 bare live).1 = .ok x ∧ x.cookie.isSome = true) ∧
      (g.getRefreshToken now 43 bare live).2.families 8 = [42, 43] ∧
      ∀ secret, ¬ ∃ x, (g.getRefreshToken now 43 { ident := "bob", secret, refreshToken := token }
        dead).1 = .ok x := by
  intro g bob live dead token now bare
  have hspans : Token.Spans
      (IssuedTokens.refreshPayload g.windows 1500000000 bob.userId 41 g.issuer) 8
      (1500000000 - 60) (1500000000 + 15552000) :=
    IssuedTokens.spans_refreshPayload (by decide) (by decide) (by decide)
  have haccepted : Token.decode g.mac now (Bytes.ofText token) =
      .ok (IssuedTokens.refreshPayload g.windows 1500000000 bob.userId 41 g.issuer) :=
    hspans.decode_toLatin1 (by decide) (by decide) (by decide)
  have hgiven : token ≠ "" := Token.toLatin1_encode_ne_empty _ _
  have hauthorised : Authorised g now live bare bob (some 41) := by
    have hknown : live.findById 8 = some bob := rfl
    have hlive : (41 : Int64) ∈ live.families 8 := by decide
    exact .byRefresh bob (IssuedTokens.refreshPayload g.windows 1500000000 bob.userId 41 g.issuer)
      hgiven haccepted rfl hspans.subjectId hknown hlive
  have hname : g.CookieNameAllowed := by decide +kernel
  obtain ⟨-, hgranted, -⟩ := tokens_exactly_for_authorised g now 43 bare live (by decide) hname
    (by decide) (by decide) (by decide)
  obtain ⟨x, hx, hto⟩ := hgranted bob (some 41) hauthorised
  refine ⟨⟨x, hx, ?_⟩, ?_, ?_⟩
  · rw [hto.cookie, Option.isSome_map]
    exact hto.pix.mpr (by decide)
  · exact hto.queue.trans (by decide)
  · intro secret
    obtain ⟨hiff, -⟩ := tokens_exactly_for_authorised g now 43
      { ident := "bob", secret, refreshToken := token } dead (by decide) hname (by decide)
      (by decide) (by decide)
    rw [hiff]
    rintro ⟨user, old, hauthorised⟩
    -- The token is still read, but the family that it names is not live.
    cases hauthorised with
    | byRefresh p given accepted kind subject known live =>
      cases haccepted.symm.trans accepted
      have hid : user.userId = 8 := Except.ok.inj (subject.symm.trans hspans.subjectId)
      rw [hid] at live
      exact absurd live (by decide)
    | byAuth p notRefresh => exact hgiven notRefresh
    | bySecret notRefresh => exact hgiven notRefresh

end Gateway

end PicBoard
