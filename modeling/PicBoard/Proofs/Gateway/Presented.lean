import Mathlib.Tactic
import PicBoard.Proofs.Gateway.Calls
import PicBoard.Proofs.Session.Families
import PicBoard.Proofs.Token.Acceptance

/-!
# The session that a call presents

A token names a user and a family of theirs, and a call goes by one token at most.  The demand of a
call whose caller was identified is about the very user and family that its token names.
-/

namespace PicBoard

/-! ## What a token names -/

/-- The user and the family that a payload names: a refresh token is of that family, and an auth
token came with it. -/
def Payload.named? (p : Payload) : Option (Int64 × Int64) :=
  match Token.subjectId p with
  | .error _ => none
  | .ok userId =>
    match p.type with
    | .refresh => some (userId, p.tokenId)
    | .auth => some (userId, p.tokenParentId)
    | _ => none

theorem Payload.named?_of_refresh {p : Payload} {userId : Int64}
    (hsubject : Token.subjectId p = .ok userId) (hkind : p.type = .refresh) :
    p.named? = some (userId, p.tokenId) := by
  unfold named?
  rw [hsubject, hkind]

theorem Payload.named?_of_auth {p : Payload} {userId : Int64}
    (hsubject : Token.subjectId p = .ok userId) (hkind : p.type = .auth) :
    p.named? = some (userId, p.tokenParentId) := by
  unfold named?
  rw [hsubject, hkind]

namespace Token

theorem decodeTyped_eq_ok_iff {mac : Mac} {now : Instant} {token : Bytes} {expected : TokenType}
    {p : Payload} :
    decodeTyped mac now token expected = .ok p ↔
      decode mac now token = .ok p ∧ p.type = expected := by
  unfold decodeTyped
  rw [bind_eq_ok_iff]
  constructor
  · rintro ⟨q, hq, h⟩
    split at h
    · rename_i htype
      cases h
      exact ⟨hq, htype⟩
    · cases h
  · rintro ⟨hp, htype⟩
    exact ⟨p, hp, if_pos htype⟩

/-- A refresh token shows the user and the family of its payload. -/
theorem validateRefresh_eq_ok_iff {mac : Mac} {now : Instant} {token : Bytes}
    {c : RefreshClaims} :
    validateRefresh mac now token = .ok c ↔
      ∃ p, decode mac now token = .ok p ∧ p.type = .refresh ∧ subjectId p = .ok c.userId ∧
        c.family = p.tokenId := by
  unfold validateRefresh
  simp only [bind_eq_ok_iff, decodeTyped_eq_ok_iff]
  constructor
  · rintro ⟨p, ⟨hp, htype⟩, userId, hid, h⟩
    cases h
    exact ⟨p, hp, htype, hid, rfl⟩
  · rintro ⟨p, hp, htype, hid, hfamily⟩
    refine ⟨p, ⟨hp, htype⟩, c.userId, hid, ?_⟩
    rw [← hfamily]
    rfl

/-- An auth token shows the user of its payload and the family that it came with. -/
theorem validateAuth_eq_ok_iff {mac : Mac} {now : Instant} {token : Bytes} {c : AuthClaims} :
    validateAuth mac now token = .ok c ↔
      ∃ p, decode mac now token = .ok p ∧ p.type = .auth ∧ subjectId p = .ok c.userId ∧
        c.family = if p.tokenParentId = 0 then none else some p.tokenParentId := by
  unfold validateAuth
  simp only [bind_eq_ok_iff, decodeTyped_eq_ok_iff]
  constructor
  · rintro ⟨p, ⟨hp, htype⟩, userId, hid, h⟩
    cases h
    exact ⟨p, hp, htype, hid, rfl⟩
  · rintro ⟨p, hp, htype, hid, hfamily⟩
    refine ⟨p, ⟨hp, htype⟩, c.userId, hid, ?_⟩
    rw [← hfamily]
    rfl

/-- An auth token that came with a family is accepted for the user and the family that it
names. -/
theorem named_of_validateAuth {mac : Mac} {now : Instant} {token : Bytes} {c : AuthClaims}
    {family : Int64} (h : validateAuth mac now token = .ok c) (hfamily : c.family = some family) :
    ∃ p, decodeUnverified token = .ok p ∧ p.named? = some (c.userId, family) := by
  obtain ⟨p, hp, htype, hid, hparent⟩ := validateAuth_eq_ok_iff.mp h
  -- A family that is shown is the one in the token, for zero is shown as none.
  have hsame : p.tokenParentId = family := by
    rw [hfamily] at hparent
    split at hparent
    · cases hparent
    · exact (Option.some.inj hparent).symm
  refine ⟨p, decodeUnverified_of_decode hp, ?_⟩
  rw [Payload.named?_of_auth hid htype, hsame]

end Token

namespace Gateway

/-! ## What a call presents -/

/-- The token that a call goes by: the refresh token or else the previous auth token of a request,
and the one auth token of a logout. -/
def Call.token? : Call → Option Bytes
  | .renew request =>
    if request.refreshToken ≠ "" then some (Bytes.ofText request.refreshToken)
    else if request.previousAuthToken ≠ "" then some (Bytes.ofText request.previousAuthToken)
    else none
  | .logout headers =>
    match Header.texts headers authTokenHeader with
    | [token] => some token
    | _ => none

/-- A call presents a token that names a user and a family, whether or not the token is good. -/
def Call.Names (call : Call) (userId family : Int64) : Prop :=
  ∃ token p, call.token? = some token ∧ Token.decodeUnverified token = .ok p ∧
    p.named? = some (userId, family)

/-- What a call names is what its token says. -/
theorem Call.names_iff {call : Call} {token : Bytes} {p : Payload} {userId f : Int64}
    (htoken : call.token? = some token) (hread : Token.decodeUnverified token = .ok p) :
    call.Names userId f ↔ p.named? = some (userId, f) := by
  constructor
  · rintro ⟨token', q, htoken', hread', hnamed⟩
    cases htoken.symm.trans htoken'
    cases hread.symm.trans hread'
    exact hnamed
  · intro hnamed
    exact ⟨token, p, htoken, hread, hnamed⟩

/-! ## Identifying a caller -/

section Identity

variable {g : Gateway} {now : Instant} {store : UserStore} {request : TokenRequest}
  {token : String} {who : Identity}

theorem knownUser_eq_ok_iff {store : UserStore} {userId : Int64} {user : User} :
    knownUser store userId = .ok user ↔ store.findById userId = some user := by
  unfold knownUser
  cases store.findById userId with
  | none => simp
  | some u => simp

/-- A refresh token identifies the user whom it is for, with the family that it is of. -/
theorem identifyByRefresh_eq_ok_iff :
    g.identifyByRefresh now store token = .ok who ↔
      ∃ p, Token.decode g.mac now (Bytes.ofText token) = .ok p ∧ p.type = .refresh ∧
        Token.subjectId p = .ok who.user.userId ∧
        store.findById who.user.userId = some who.user ∧ who.family = some p.tokenId := by
  constructor
  · intro h
    unfold identifyByRefresh at h
    split at h
    · cases h
    · rename_i claims hclaims
      obtain ⟨p, hp, htype, hid, hfamily⟩ := Token.validateRefresh_eq_ok_iff.mp hclaims
      obtain ⟨u, hu, h⟩ := bind_eq_ok_iff.mp h
      cases h
      have hknown := knownUser_eq_ok_iff.mp hu
      rw [← UserStore.userId_of_findById hknown] at hid hknown
      exact ⟨p, hp, htype, hid, hknown, by rw [hfamily]⟩
  · rintro ⟨p, hp, htype, hid, hknown, hfamily⟩
    obtain ⟨u, family⟩ := who
    cases hfamily
    have hclaims : Token.validateRefresh g.mac now (Bytes.ofText token) =
        .ok { userId := u.userId, family := p.tokenId } :=
      Token.validateRefresh_eq_ok_iff.mpr ⟨p, hp, htype, hid, rfl⟩
    unfold identifyByRefresh
    simp only [hclaims]
    rw [knownUser_eq_ok_iff.mpr hknown]
    rfl

/-- An auth token identifies the user whom it is for, with the family that it came with. -/
theorem identifyByAuth_eq_ok_iff :
    g.identifyByAuth now store token = .ok who ↔
      ∃ p, Token.decode g.mac now (Bytes.ofText token) = .ok p ∧ p.type = .auth ∧
        Token.subjectId p = .ok who.user.userId ∧
        store.findById who.user.userId = some who.user ∧ p.tokenParentId ≠ 0 ∧
        who.family = some p.tokenParentId := by
  constructor
  · intro h
    unfold identifyByAuth at h
    split at h
    · cases h
    · rename_i claims hclaims
      obtain ⟨p, hp, htype, hid, hfamily⟩ := Token.validateAuth_eq_ok_iff.mp hclaims
      split at h
      · cases h
      · rename_i family hsome
        obtain ⟨u, hu, h⟩ := bind_eq_ok_iff.mp h
        cases h
        have hknown := knownUser_eq_ok_iff.mp hu
        rw [← UserStore.userId_of_findById hknown] at hid hknown
        rw [hsome] at hfamily
        split at hfamily
        · cases hfamily
        · rename_i hparent
          exact ⟨p, hp, htype, hid, hknown, hparent, hfamily⟩
  · rintro ⟨p, hp, htype, hid, hknown, hparent, hfamily⟩
    obtain ⟨u, family⟩ := who
    cases hfamily
    have hclaims : Token.validateAuth g.mac now (Bytes.ofText token) =
        .ok { userId := u.userId, family := some p.tokenParentId } :=
      Token.validateAuth_eq_ok_iff.mpr ⟨p, hp, htype, hid, (if_neg hparent).symm⟩
    unfold identifyByAuth
    simp only [hclaims]
    rw [knownUser_eq_ok_iff.mpr hknown]
    rfl

/-- A name and a secret identify the first user of that name, and no other. -/
theorem identifyBySecret_eq_ok_iff {ident secret : String} :
    identifyBySecret store ident secret = .ok who ↔
      store.findByIdent ident = some who.user ∧ who.user.secretMatches secret = true ∧
        who.family = none := by
  obtain ⟨u, family⟩ := who
  unfold identifyBySecret
  cases hfind : store.findByIdent ident with
  | none => simp
  | some v =>
    by_cases hsecret : v.secretMatches secret = true
    · simp only [Option.filter_some, hsecret, if_true, Except.ok.injEq, Identity.mk.injEq,
        Option.some.injEq]
      constructor
      · rintro ⟨rfl, rfl⟩
        exact ⟨rfl, hsecret, rfl⟩
      · rintro ⟨rfl, -, rfl⟩
        exact ⟨rfl, rfl⟩
    · simp only [Option.filter_some, hsecret, Bool.false_eq_true, if_false, reduceCtorEq, false_iff]
      rintro ⟨hsame, hmatches, -⟩
      cases hsame
      exact hsecret hmatches

end Identity

/-- Who presents a token is the user whom it names, with the family that it names. -/
theorem identify_named {g : Gateway} {now : Instant} {store : UserStore} {request : TokenRequest}
    {who : Identity} {token : Bytes} (h : g.identify now store request = .ok who)
    (htoken : (Call.renew request).token? = some token) :
    ∃ p family, Token.decodeUnverified token = .ok p ∧ who.family = some family ∧
      p.named? = some (who.user.userId, family) := by
  unfold identify at h
  dsimp only [Call.token?] at htoken
  -- The token that the call goes by and the way in which it is identified are chosen alike.
  split_ifs at h with hrefresh hauth hident
  · rw [if_pos hrefresh] at htoken
    cases htoken
    obtain ⟨p, hp, hkind, hsubject, -, hfamily⟩ := identifyByRefresh_eq_ok_iff.mp h
    exact ⟨p, p.tokenId, Token.decodeUnverified_of_decode hp, hfamily,
      Payload.named?_of_refresh hsubject hkind⟩
  · rw [if_neg hrefresh, if_pos hauth] at htoken
    cases htoken
    obtain ⟨p, hp, hkind, hsubject, -, -, hfamily⟩ := identifyByAuth_eq_ok_iff.mp h
    exact ⟨p, p.tokenParentId, Token.decodeUnverified_of_decode hp, hfamily,
      Payload.named?_of_auth hsubject hkind⟩
  · rw [if_neg hrefresh, if_neg hauth] at htoken
    cases htoken

/-! ## What a logout names -/

/-- A logout goes by the one auth token of its headers, which came with a family. -/
theorem identifyLogout_eq_ok_iff {g : Gateway} {now : Instant} {headers : List Header}
    {userId family : Int64} :
    g.identifyLogout now headers = .ok (userId, family) ↔
      ∃ token, Header.texts headers authTokenHeader = [token] ∧
        Token.validateAuth g.mac now token = .ok { userId, family := some family } := by
  unfold identifyLogout requireAuth
  constructor
  · intro h
    split at h
    · cases h
    · rename_i claims hclaims
      split at hclaims
      · rename_i token htexts
        split at hclaims
        · rename_i accepted haccepted
          cases hclaims
          obtain ⟨shown, family?⟩ := claims
          cases family? with
          | none => cases h
          | some f =>
            cases h
            exact ⟨token, htexts, haccepted⟩
        · cases hclaims
      · cases hclaims
      · cases hclaims
  · rintro ⟨token, htexts, haccepted⟩
    simp only [htexts, haccepted]

/-- A logout is of the user and the family that its token names. -/
theorem identifyLogout_named {g : Gateway} {now : Instant} {headers : List Header}
    {userId family : Int64} {token : Bytes}
    (h : g.identifyLogout now headers = .ok (userId, family))
    (htoken : (Call.logout headers).token? = some token) :
    ∃ p, Token.decodeUnverified token = .ok p ∧ p.named? = some (userId, family) := by
  obtain ⟨t, htexts, haccepted⟩ := identifyLogout_eq_ok_iff.mp h
  simp only [Call.token?, htexts] at htoken
  cases htoken
  exact Token.named_of_validateAuth haccepted rfl

/-- What a call asks of the store is about the user and the family that it names. -/
theorem demand_named {g : Gateway} {now : Instant} {fresh : Int64} {store : UserStore}
    {call : Call} {d : Demand} {userId family : Int64}
    (h : g.demand now fresh store call = .ok d) (hnames : call.Names userId family) :
    d.userId = userId ∧ d.old? = some family := by
  obtain ⟨token, p, htoken, hp, hnamed⟩ := hnames
  cases call with
  | renew request =>
    obtain ⟨who, hwho, h⟩ := bind_eq_ok_iff.mp h
    cases h
    obtain ⟨q, f, hq, hfamily, hnamed'⟩ := identify_named hwho htoken
    cases hp.symm.trans hq
    cases hnamed.symm.trans hnamed'
    exact ⟨rfl, hfamily⟩
  | logout headers =>
    obtain ⟨⟨u, f⟩, hout, h⟩ := bind_eq_ok_iff.mp h
    cases h
    obtain ⟨q, hq, hnamed'⟩ := identifyLogout_named hout htoken
    cases hp.symm.trans hq
    cases hnamed.symm.trans hnamed'
    exact ⟨rfl, rfl⟩

/-! ## A demand that is met -/

/-- The queue of the user whose demand is met. -/
def Demand.queueAfter (limit : Nat) (families : List Int64) : Demand → List Int64
  | start who fresh => UserStore.makeRoom limit (UserStore.without who.family families) ++ [fresh]
  | stop _ family => families.erase family

/-- A demand that is met changes the queue of its user, and no other. -/
theorem Demand.families_eq_of_after? {d : Demand} {s t : UserStore} (h : d.after? s = some t)
    (userId : Int64) :
    t.families userId =
      if userId = d.userId then d.queueAfter s.familyLimit (s.families d.userId)
      else s.families userId := by
  cases d with
  | start who fresh => exact (UserStore.rotate?_eq_some h).2.2 userId
  | stop other family => exact (UserStore.revoke?_eq_some h).2.2 userId

end Gateway

end PicBoard
