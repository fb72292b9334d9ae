import Mathlib.Tactic
import PicBoard.Gateway.Reply
import PicBoard.Proofs.Gateway.Grants
import PicBoard.Proofs.Gateway.PixAccess
import PicBoard.Proofs.Gateway.Unfit

/-!
# What a refusal tells

A request may fail to show who its caller is in many ways: nothing is shown, or too much, or a
token that does not pass, or one of a user or a family that is no more, or a name or a secret that
is wrong.  All of these get one and the same answer (`Lacks.reply`), of a status that nothing else
gets (`lacks_iff_status`), and at the door it comes before any file is looked for.
-/

namespace PicBoard

namespace Gateway

/-! ## Results that refuse -/

/-- A result that does not take the caller for who they say they are. -/
def Refuses {α : Type} (x : Except GatewayError α) : Prop :=
  ∃ cause, x = .error (.unauthenticated cause)

section

variable {α : Type} {a : α} {cause : TokenError}

@[simp] theorem not_refuses_ok : ¬ Refuses (.ok a : Except GatewayError α) := nofun

@[simp] theorem refuses_unauthenticated (cause : AuthFailure) :
    Refuses (.error (.unauthenticated cause) : Except GatewayError α) := ⟨cause, rfl⟩

/-- Every fault of a token refuses; only an unreadable clock stops the program. -/
@[simp] theorem refuses_ofToken_iff :
    Refuses (.error (.ofToken cause) : Except GatewayError α) ↔ cause ≠ .clockUnreadable := by
  cases cause <;> simp [Refuses, GatewayError.ofToken]

end

/-! ## Requests for tokens that are refused -/

variable {g : Gateway} {now : Instant} {store : UserStore} {fresh : Int64} {token : String}
  {text : Bytes} {headers : List Header}

/-- Whether a caller of a request for tokens is turned away: nobody is identified, or the family
of who is identified cannot end. -/
def TurnedAway (store : UserStore) (fresh : Int64) (caller : Except GatewayError Identity) : Prop :=
  Refuses caller ∨
    ∃ who, caller = .ok who ∧ store.rotate? who.user.userId who.family fresh = none

@[simp] theorem turnedAway_error_iff {e : GatewayError} :
    TurnedAway store fresh (.error e) ↔ Refuses (.error e : Except GatewayError Identity) := by
  simp [TurnedAway]

@[simp] theorem turnedAway_ok_iff {who : Identity} :
    TurnedAway store fresh (.ok who) ↔
      store.rotate? who.user.userId who.family fresh = none := by
  simp [TurnedAway]

/-- A known user is turned away for a family that is not live. -/
theorem rotate?_eq_none_iff {userId family : Int64} {user : User}
    (h : store.findById userId = some user) :
    store.rotate? userId (some family) fresh = none ↔ family ∉ store.families userId := by
  have hstored : ∃ e, store.stored? userId = some e := by
    obtain ⟨e, he, -⟩ := Option.map_eq_some_iff.mp h
    exact ⟨e, he⟩
  rw [Option.eq_none_iff_forall_ne_some, ← not_exists, UserStore.exists_rotate?_iff]
  simp [hstored]

/-- Who is not known has no live family. -/
theorem families_of_findById_eq_none {userId : Int64} (h : store.findById userId = none) :
    store.families userId = [] := by
  unfold UserStore.families
  rw [Option.map_eq_none_iff.mp h]

/-- Whoever a token names is turned away when its family is not live, be they known or not. -/
theorem turnedAway_knownUser_iff {userId family : Int64} :
    TurnedAway store fresh (do
        let user ← knownUser store userId
        return ({ user, family := some family } : Identity)) ↔
      family ∉ store.families userId := by
  unfold knownUser
  cases hfind : store.findById userId with
  | none => simp [families_of_findById_eq_none hfind]
  | some user =>
    have hid := UserStore.userId_of_findById hfind
    subst hid
    simpa [pure, Except.pure] using rotate?_eq_none_iff hfind

theorem turnedAway_identifyByRefresh_iff :
    TurnedAway store fresh (g.identifyByRefresh now store token) ↔
      Token.Unfit g.mac now .refresh (Bytes.ofText token) ∨
        ∃ c, Token.validateRefresh g.mac now (Bytes.ofText token) = .ok c ∧
          c.family ∉ store.families c.userId := by
  unfold identifyByRefresh
  rw [Token.unfit_refresh_iff]
  cases Token.validateRefresh g.mac now (Bytes.ofText token) with
  | error e => simp
  | ok c => simpa using turnedAway_knownUser_iff

/-- A previous auth token must have come with a family that is live. -/
theorem turnedAway_identifyByAuth_iff :
    TurnedAway store fresh (g.identifyByAuth now store token) ↔
      Token.Unfit g.mac now .auth (Bytes.ofText token) ∨
        ∃ c, Token.validateAuth g.mac now (Bytes.ofText token) = .ok c ∧
          ∀ f ∈ c.family, f ∉ store.families c.userId := by
  unfold identifyByAuth
  rw [Token.unfit_auth_iff]
  cases Token.validateAuth g.mac now (Bytes.ofText token) with
  | error e => simp
  | ok c =>
    obtain ⟨userId, family⟩ := c
    cases family with
    | none => simp
    | some family => simpa using turnedAway_knownUser_iff

/-- Whoever shows name and secret is turned away for these alone, for no family ends. -/
theorem turnedAway_identifyBySecret_iff {ident secret : String} :
    TurnedAway store fresh (identifyBySecret store ident secret) ↔
      ∀ u, store.findByIdent ident = some u → u.secretMatches secret = false := by
  unfold identifyBySecret
  cases hfind : store.findByIdent ident with
  | none => simp
  | some u =>
    by_cases hsecret : u.secretMatches secret = true
    · have hstarts : ∃ t, store.rotate? u.userId none fresh = some t := by
        rw [UserStore.findByIdent_eq_find?] at hfind
        have hstored := UserStore.exists_stored?_iff.mpr ⟨u, List.mem_of_find?_eq_some hfind, rfl⟩
        exact UserStore.exists_rotate?_iff.mpr ⟨hstored, nofun⟩
      obtain ⟨t, ht⟩ := hstarts
      simp [Option.filter_some, hsecret, ht]
    · simp [Option.filter_some, hsecret]

theorem not_refuses_grant (g : Gateway) (now : Instant) (user : User) (family : Int64) :
    ¬ Refuses (g.grant now user family) := by
  rintro ⟨cause, h⟩
  rcases internal_of_grant h with he | ⟨fault, he⟩
  · cases he
  · cases he

/-- A request for tokens is refused to who is turned away; once a family has started it fails for
other causes only. -/
theorem refuses_getRefreshToken_iff {request : TokenRequest} :
    Refuses (g.getRefreshToken now fresh request store).1 ↔
      TurnedAway store fresh (g.identify now store request) := by
  rcases g.getRefreshToken_cases now fresh request store with
    ⟨e, hwho, houtcome⟩ | ⟨who, hwho, hdead, houtcome⟩ | ⟨who, after, hwho, hafter, houtcome⟩
  · simp [hwho, houtcome, Refuses]
  · simp [hwho, houtcome, hdead]
  · simp [hwho, houtcome, hafter, not_refuses_grant]

/-! ## Logouts that are refused -/

/-- A logout is refused to who shows no session or one that is not live; what it answers
otherwise is no refusal. -/
theorem refuses_deleteToken_iff :
    Refuses (g.deleteToken now headers store).1 ↔
      Refuses (g.identifyLogout now headers) ∨
        ∃ userId family, g.identifyLogout now headers = .ok (userId, family) ∧
          family ∉ store.families userId := by
  have hcookie : ¬ Refuses (g.pixCookieHeader [] 0) := by
    rw [pixCookieHeader_eq (by simp)]
    split
    · exact not_refuses_ok
    · rintro ⟨cause, h⟩
      cases h
  rcases g.deleteToken_cases now headers store with
    ⟨e, hwho, houtcome⟩ | ⟨userId, family, hwho, hdead, houtcome⟩ |
      ⟨userId, family, after, hwho, hafter, houtcome⟩
  · simp [hwho, houtcome, Refuses]
  · have hfamily : family ∉ store.families userId := by
      rw [← UserStore.exists_revoke?_iff, hdead]
      exact nofun
    simp [hwho, houtcome, hfamily]
  · have hfamily : family ∈ store.families userId :=
      UserStore.exists_revoke?_iff.mp ⟨after, hafter⟩
    simp [hwho, houtcome, hcookie, hfamily]

/-- The one auth token of a logout must have come with a family that is live. -/
theorem refuses_deleteToken_iff_of_single (h : Header.texts headers authTokenHeader = [text]) :
    Refuses (g.deleteToken now headers store).1 ↔
      Token.Unfit g.mac now .auth text ∨
        ∃ c, Token.validateAuth g.mac now text = .ok c ∧
          ∀ f ∈ c.family, f ∉ store.families c.userId := by
  rw [refuses_deleteToken_iff, Token.unfit_auth_iff]
  unfold identifyLogout requireAuth
  rw [h]
  dsimp only
  cases Token.validateAuth g.mac now text with
  | error e => simp
  | ok c =>
    obtain ⟨userId, family⟩ := c
    cases family with
    | none => simp
    | some family => simp

/-! ## Requests for files that are refused -/

/-- The one token that is shown at the door must pass. -/
theorem refuses_checkPixAccess_iff_of_single (hone : g.pixTokens headers = [text])
    (hne : text ≠ []) :
    Refuses (g.checkPixAccess now headers) ↔ Token.Unfit g.mac now .pix text := by
  rw [Token.unfit_pix_iff, checkPixAccess_of_token hone hne]
  cases Token.decodeTyped g.mac now text .pix with
  | error e => simp
  | ok p => simp

/-- Who shows no token, or an empty one, must be let in with none. -/
theorem refuses_checkPixAccess_iff_of_none (h : g.pixTokens headers ∈ [[], [[]]]) :
    Refuses (g.checkPixAccess now headers) ↔ ¬ g.anonymous.contains .picRead = true := by
  rw [checkPixAccess_of_none (List.mem_pair.mp h)]
  by_cases hopen : g.anonymous.contains .picRead = true
  · simp [hopen]
  · simp [hopen]

theorem refuses_checkPixAccess_of_several (h : 1 < (g.pixTokens headers).length) :
    Refuses (g.checkPixAccess now headers) := by
  rw [checkPixAccess_of_several h]
  exact refuses_unauthenticated _

/-- A request for a file is refused at the door, before its name is read. -/
theorem refuses_readPix_iff {root : Bytes} {read : Bytes → FileRead} {file : String} :
    Refuses (g.readPix now root read file headers) ↔ Refuses (g.checkPixAccess now headers) := by
  unfold readPix
  cases g.checkPixAccess now headers with
  | error e => simp [Refuses]
  | ok _ =>
    rw [ok_bind]
    split
    · simp [Refuses]
    · split
      · simp [Refuses, pure, Except.pure]
      · simp [Refuses]
      · simp [Refuses]

/-! ## Requests and what they show -/

/-- A gateway in service at a moment. -/
structure Service where
  gateway : Gateway
  now : Instant
  store : UserStore
  /-- The root of the pix tree, and what is read from a path. -/
  root : Bytes
  read : Bytes → FileRead

/-- A request to one of the three handlers; `fresh` is the family id that one for tokens draws. -/
inductive Request where
  | tokens (request : TokenRequest) (fresh : Int64)
  | logout (headers : List Header)
  | file (name : String) (headers : List Header)

/-- The answer to a request. -/
def Service.reply (s : Service) : Request → Reply
  | .tokens request fresh => .ofGrant (s.gateway.getRefreshToken s.now fresh request s.store).1
  | .logout headers => .ofLogout (s.gateway.deleteToken s.now headers s.store).1
  | .file name headers => .ofFile (s.gateway.readPix s.now s.root s.read name headers)

/-- What a request shows of its caller. -/
inductive Credential where
  | none
  | several
  | token (kind : TokenType) (text : Bytes)
  | secret (ident secret : String)

namespace Request

/-- What a request is judged by. -/
def credential (g : Gateway) : Request → Credential
  | .tokens request _ =>
    if request.refreshToken ≠ "" then .token .refresh (Bytes.ofText request.refreshToken)
    else if request.previousAuthToken ≠ "" then
      .token .auth (Bytes.ofText request.previousAuthToken)
    else if request.ident = "" then .none
    else .secret request.ident request.secret
  | .logout headers =>
    match Header.texts headers authTokenHeader with
    | [] => .none
    | [text] => .token .auth text
    | _ => .several
  | .file _ headers =>
    match g.pixTokens headers with
    | [] | [[]] => .none
    | [text] => .token .pix text
    | _ => .several

/-- Whether who shows nothing may have what a request asks for. -/
def OpenToAll (g : Gateway) : Request → Prop
  | .file _ _ => g.anonymous.contains .picRead = true
  | _ => False

end Request

/-- Why what is shown does not prove who shows it. -/
inductive Credential.Fails (s : Service) : Credential → Prop where
  | several : Fails s .several
  | unfit (kind : TokenType) (text : Bytes) (unfit : Token.Unfit s.gateway.mac s.now kind text) :
      Fails s (.token kind text)
  | noFamily (text : Bytes) (p : Payload) (decoded : Token.decode s.gateway.mac s.now text = .ok p)
      (ofKind : p.type = .auth) (parent : p.tokenParentId = 0) : Fails s (.token .auth text)
  | unknownUser (kind : TokenType) (text : Bytes) (p : Payload) (userId family : Int64)
      (decoded : Token.decode s.gateway.mac s.now text = .ok p) (ofKind : p.type = kind)
      (named : p.named? = some (userId, family)) (unknown : s.store.findById userId = .none) :
      Fails s (.token kind text)
  | deadFamily (kind : TokenType) (text : Bytes) (p : Payload) (userId family : Int64)
      (decoded : Token.decode s.gateway.mac s.now text = .ok p) (ofKind : p.type = kind)
      (named : p.named? = some (userId, family)) (dead : family ∉ s.store.families userId) :
      Fails s (.token kind text)
  | unknownIdent (ident secret : String) (unknown : ∀ u ∈ s.store.records, u.ident ≠ ident) :
      Fails s (.secret ident secret)
  | wrongSecret (ident secret : String) (u : User) (known : s.store.findByIdent ident = some u)
      (wrong : u.secretMatches secret = false) : Fails s (.secret ident secret)

/-- Why a request does not show that its caller may have what it asks for. -/
inductive Lacks (s : Service) (r : Request) : Prop where
  | missing (shown : r.credential s.gateway = .none) (closed : ¬ r.OpenToAll s.gateway)
  | failing (fails : (r.credential s.gateway).Fails s)

/-! ## Lacking and being refused -/

section

variable {s : Service} {r : Request} {shown : Credential} {kind : TokenType} {ident secret : String}

theorem lacks_iff_of_none (h : r.credential s.gateway = .none) :
    Lacks s r ↔ ¬ r.OpenToAll s.gateway := by
  constructor
  · rintro (⟨-, closed⟩ | fails)
    · exact closed
    · rw [h] at fails
      cases fails
  · exact fun closed => .missing h closed

theorem lacks_iff_of_shown (h : r.credential s.gateway = shown) (hne : shown ≠ .none) :
    Lacks s r ↔ shown.Fails s := by
  subst h
  constructor
  · rintro (⟨missing, -⟩ | fails)
    · exact absurd missing hne
    · exact fails
  · exact .failing

/-- A family that is not live is enough for a token to fail: a user who is not known has none. -/
theorem fails_token_iff :
    Credential.Fails s (.token kind text) ↔
      Token.Unfit s.gateway.mac s.now kind text ∨
        ∃ p, Token.decode s.gateway.mac s.now text = .ok p ∧ p.type = kind ∧
          (kind = .auth ∧ p.tokenParentId = 0 ∨
            ∃ userId family, p.named? = some (userId, family) ∧
              family ∉ s.store.families userId) := by
  constructor
  · intro h
    cases h with
    | unfit _ _ unfit => exact .inl unfit
    | noFamily _ p decoded ofKind parent => exact .inr ⟨p, decoded, ofKind, .inl ⟨rfl, parent⟩⟩
    | unknownUser _ _ p userId family decoded ofKind named unknown =>
      refine .inr ⟨p, decoded, ofKind, .inr ⟨userId, family, named, ?_⟩⟩
      rw [families_of_findById_eq_none unknown]
      exact List.not_mem_nil
    | deadFamily _ _ p userId family decoded ofKind named dead =>
      exact .inr ⟨p, decoded, ofKind, .inr ⟨userId, family, named, dead⟩⟩
  · rintro (unfit | ⟨p, decoded, ofKind, ⟨rfl, parent⟩ | ⟨userId, family, named, dead⟩⟩)
    · exact .unfit kind text unfit
    · exact .noFamily text p decoded ofKind parent
    · exact .deadFamily kind text p userId family decoded ofKind named dead

/-- A refresh token must pass and name a live family. -/
theorem fails_refresh_iff :
    Credential.Fails s (.token .refresh text) ↔
      Token.Unfit s.gateway.mac s.now .refresh text ∨
        ∃ c, Token.validateRefresh s.gateway.mac s.now text = .ok c ∧
          c.family ∉ s.store.families c.userId := by
  rw [fails_token_iff,
    ← Token.exists_named_refresh_iff fun userId f => f ∉ s.store.families userId]
  simp

/-- An auth token must pass and have come with a family that is live. -/
theorem fails_auth_iff :
    Credential.Fails s (.token .auth text) ↔
      Token.Unfit s.gateway.mac s.now .auth text ∨
        ∃ c, Token.validateAuth s.gateway.mac s.now text = .ok c ∧
          ∀ f ∈ c.family, f ∉ s.store.families c.userId := by
  rw [fails_token_iff,
    ← Token.unfit_auth_or_named_iff fun userId f => f ∉ s.store.families userId]
  simp

/-- A pix token must pass, and it names no session. -/
theorem fails_pix_iff :
    Credential.Fails s (.token .pix text) ↔ Token.Unfit s.gateway.mac s.now .pix text := by
  rw [fails_token_iff, or_iff_left]
  rintro ⟨p, -, ofKind, ⟨hauth, -⟩ | ⟨userId, family, named, -⟩⟩
  · cases hauth
  · rw [Payload.named?_of_pix ofKind] at named
    cases named

theorem fails_secret_iff :
    Credential.Fails s (.secret ident secret) ↔
      ∀ u, s.store.findByIdent ident = some u → u.secretMatches secret = false := by
  constructor
  · intro h u hu
    cases h with
    | unknownIdent _ _ unknown =>
      rw [UserStore.findByIdent_eq_find?] at hu
      exact absurd (by simpa using List.find?_some hu) (unknown u (List.mem_of_find?_eq_some hu))
    | wrongSecret _ _ v known wrong =>
      cases known.symm.trans hu
      exact wrong
  · intro h
    cases hfind : s.store.findByIdent ident with
    | some u => exact .wrongSecret ident secret u hfind (h u hfind)
    | none =>
      refine .unknownIdent ident secret ?_
      rw [UserStore.findByIdent_eq_find?, List.find?_eq_none] at hfind
      simpa using hfind

end

section

variable {s : Service}

theorem lacks_tokens_iff {request : TokenRequest} {fresh : Int64} :
    Lacks s (.tokens request fresh) ↔
      Refuses (s.gateway.getRefreshToken s.now fresh request s.store).1 := by
  rw [refuses_getRefreshToken_iff]
  unfold identify
  -- a request is judged by the first thing that it shows
  split_ifs with hrefresh hauth hident
  · rw [turnedAway_identifyByRefresh_iff, ← fails_refresh_iff]
    exact lacks_iff_of_shown (if_pos hrefresh) nofun
  · rw [turnedAway_identifyByAuth_iff, ← fails_auth_iff]
    exact lacks_iff_of_shown ((if_neg hrefresh).trans (if_pos hauth)) nofun
  · have shown : (Request.tokens request fresh).credential s.gateway = .none :=
      (if_neg hrefresh).trans ((if_neg hauth).trans (if_pos hident))
    simp [lacks_iff_of_none shown, Request.OpenToAll]
  · rw [turnedAway_identifyBySecret_iff, ← fails_secret_iff]
    exact lacks_iff_of_shown
      ((if_neg hrefresh).trans ((if_neg hauth).trans (if_neg hident))) nofun

theorem lacks_logout_iff {headers : List Header} :
    Lacks s (.logout headers) ↔ Refuses (s.gateway.deleteToken s.now headers s.store).1 := by
  -- no token, one, or several
  rcases htexts : Header.texts headers authTokenHeader with _ | ⟨text, _ | ⟨second, more⟩⟩
  · rw [lacks_iff_of_none (by simp [Request.credential, htexts]), refuses_deleteToken_iff]
    simp [Request.OpenToAll, identifyLogout, requireAuth, htexts]
  · rw [refuses_deleteToken_iff_of_single htexts, ← fails_auth_iff]
    exact lacks_iff_of_shown (by simp [Request.credential, htexts]) nofun
  · have shown : (Request.logout headers).credential s.gateway = .several := by
      simp [Request.credential, htexts]
    refine iff_of_true ((lacks_iff_of_shown shown nofun).mpr .several) ?_
    rw [refuses_deleteToken_iff]
    simp [identifyLogout, requireAuth, htexts]

theorem lacks_file_iff {name : String} {headers : List Header} :
    Lacks s (.file name headers) ↔
      Refuses (s.gateway.readPix s.now s.root s.read name headers) := by
  rw [refuses_readPix_iff]
  -- no token, one, of which an empty one counts as none, or several
  rcases htokens : s.gateway.pixTokens headers with _ | ⟨text, _ | ⟨second, more⟩⟩
  · have shown : (Request.file name headers).credential s.gateway = .none := by
      simp [Request.credential, htokens]
    rw [lacks_iff_of_none shown, refuses_checkPixAccess_iff_of_none (by simp [htokens])]
    rfl
  · by_cases hempty : text = []
    · subst hempty
      have shown : (Request.file name headers).credential s.gateway = .none := by
        simp [Request.credential, htokens]
      rw [lacks_iff_of_none shown, refuses_checkPixAccess_iff_of_none (by simp [htokens])]
      rfl
    · rw [refuses_checkPixAccess_iff_of_single htokens hempty, ← fails_pix_iff]
      exact lacks_iff_of_shown (by simp [Request.credential, htokens]) nofun
  · have shown : (Request.file name headers).credential s.gateway = .several := by
      simp [Request.credential, htokens]
    refine iff_of_true ((lacks_iff_of_shown shown nofun).mpr .several) ?_
    exact refuses_checkPixAccess_of_several (by simp [htokens])

end

/-! ## The one refusal -/

/-- What everyone is told who does not show who they are. -/
def Reply.refusal : Reply where
  status := 401
  contentType := "application/json"
  body := Bytes.ofText "\x7b\"code\":\"unauthenticated\",\"message\":\"unauthenticated\"\x7d"
  setCookies := []

theorem Reply.ofError_unauthenticated (cause : AuthFailure) :
    Reply.ofError (.unauthenticated cause) = Reply.refusal := by
  have hbody : (ErrorReport.toJson
      { code := "unauthenticated", message := "unauthenticated" }).compact = refusal.body := by
    decide
  exact congrArg (fun body => Reply.mk 401 jsonType body []) hbody

theorem Reply.status_ofError_eq_iff {e : GatewayError} :
    (Reply.ofError e).status = 401 ↔ ∃ cause, e = .unauthenticated cause := by
  cases e <;> simp [Reply.ofError, Reply.ofJson, GatewayError.status]

/-- Where failures are answered as failures, and all else with success, it is the refusal that has
its status. -/
theorem refuses_iff_status {α : Type} {render : Except GatewayError α → Reply}
    (hok : ∀ a, (render (.ok a)).status = 200) (herror : ∀ e, render (.error e) = Reply.ofError e)
    (x : Except GatewayError α) : Refuses x ↔ (render x).status = 401 := by
  cases x with
  | ok a => simp [hok]
  | error e =>
    rw [herror, Reply.status_ofError_eq_iff]
    simp [Refuses]

theorem Refuses.render {α : Type} {x : Except GatewayError α} (h : Refuses x)
    (render : Except GatewayError α → Reply) (herror : ∀ e, render (.error e) = Reply.ofError e) :
    render x = Reply.refusal := by
  obtain ⟨cause, rfl⟩ := h
  rw [herror, Reply.ofError_unauthenticated]

/-- Whoever does not show who they are gets the refusal. -/
theorem Lacks.reply {s : Service} {r : Request} (h : Lacks s r) : s.reply r = Reply.refusal := by
  cases r with
  | tokens request fresh => exact (lacks_tokens_iff.mp h).render Reply.ofGrant fun _ => rfl
  | logout headers => exact (lacks_logout_iff.mp h).render Reply.ofLogout fun _ => rfl
  | file name headers => exact (lacks_file_iff.mp h).render Reply.ofFile fun _ => rfl

/-- Nobody else gets an answer of its status. -/
theorem lacks_iff_status {s : Service} {r : Request} :
    Lacks s r ↔ (s.reply r).status = 401 := by
  cases r with
  | tokens request fresh =>
    exact lacks_tokens_iff.trans (refuses_iff_status (fun _ => rfl) (fun _ => rfl) _)
  | logout headers =>
    exact lacks_logout_iff.trans (refuses_iff_status (fun _ => rfl) (fun _ => rfl) _)
  | file name headers =>
    exact lacks_file_iff.trans (refuses_iff_status (fun _ => rfl) (fun _ => rfl) _)

/-- Whoever may not read pics is told why by the door alone. -/
theorem reply_file_of_checkPixAccess {s : Service} {name : String} {headers : List Header}
    {e : GatewayError} (h : s.gateway.checkPixAccess s.now headers = .error e) :
    s.reply (.file name headers) = Reply.ofError e := by
  have hread : s.gateway.readPix s.now s.root s.read name headers = .error e := by
    unfold readPix
    rw [h, error_bind]
  exact congrArg Reply.ofFile hread

/-- Two services have the same door when they judge by the same key at the same time, look for
tokens in the same cookie, and let the same callers in who show nothing. -/
structure SameDoor (s t : Service) : Prop where
  mac : s.gateway.mac = t.gateway.mac
  now : s.now = t.now
  pixCookie : s.gateway.pixCookie = t.gateway.pixCookie
  anonymous : s.gateway.anonymous = t.gateway.anonymous

theorem SameDoor.checkPixAccess {s t : Service} (h : SameDoor s t) (headers : List Header) :
    s.gateway.checkPixAccess s.now headers = t.gateway.checkPixAccess t.now headers := by
  unfold Gateway.checkPixAccess pixTokens
  rw [h.mac, h.now, h.pixCookie, h.anonymous]

/-- Refusals tell nothing.  A caller who is not let in at the door gets the same answer whichever
files there are and whichever is asked for.  And the answer to a request that does not show who its
caller is, whatever it is for and whatever it lacks, is the same in all services, and has a status
that no other request gets. -/
theorem refusals_tell_nothing :
    (∀ (s t : Service) (headers : List Header) (one other : String), SameDoor s t →
      s.gateway.checkPixAccess s.now headers ≠ .ok () →
        s.reply (.file one headers) = t.reply (.file other headers)) ∧
    (∀ (s t : Service) (r q : Request), Lacks s r → Lacks t q → s.reply r = t.reply q) ∧
    ∀ (s : Service) (r : Request), Lacks s r ↔ (s.reply r).status = 401 := by
  refine ⟨?_, ?_, ?_⟩
  · intro s t headers one other hsame hrefused
    cases hs : s.gateway.checkPixAccess s.now headers with
    | ok _ => exact absurd hs hrefused
    | error e =>
      have ht : t.gateway.checkPixAccess t.now headers = .error e := by
        rw [← hsame.checkPixAccess, hs]
      rw [reply_file_of_checkPixAccess hs, reply_file_of_checkPixAccess ht]
  · intro s t r q hs ht
    rw [hs.reply, ht.reply]
  · exact fun s r => lacks_iff_status

/-- A gateway that has every file and one that has none, not even users, answer alike: to who asks
for a pic, by whatever name, and to who tries Alice's name. -/
theorem absent_pic_and_unknown_name_hidden :
    let g : Gateway :=
      { mac := .hmac [7], windows := .standard, issuer := "pixur", anonymous := .empty
        pixCookie := "pix_token" }
    let alice : User := { userId := 7, ident := "alice", secretHash := "", capabilities := .empty }
    let full : Service :=
      { gateway := g, now := Instant.ofSeconds 1500000000, store := .ofUsers [alice], root := []
        read := fun _ => .ok [7] }
    let bare : Service := { full with store := .ofUsers [], read := fun _ => .error .missing }
    let guess : Request := .tokens { ident := "alice", secret := "guess" } 1
    full.reply (.file "100.jpg" []) = bare.reply (.file "no name" []) ∧
      full.reply guess = bare.reply guess ∧ (full.reply guess).status = 401 := by
  intro g alice full bare guess
  obtain ⟨hdoor, hsame, hstatus⟩ := refusals_tell_nothing
  have hwrong : Lacks full guess := .failing (.wrongSecret "alice" "guess" alice rfl (by decide))
  have hunknown : Lacks bare guess := .failing (.unknownIdent "alice" "guess" nofun)
  refine ⟨?_, hsame _ _ _ _ hwrong hunknown, (hstatus _ _).mp hwrong⟩
  exact hdoor full bare [] "100.jpg" "no name" ⟨rfl, rfl, rfl, rfl⟩ (by decide)

end Gateway

end PicBoard
