import Mathlib.Tactic
import PicBoard.Proofs.Gateway.Grants

/-!
# Requests that fail

A request that fails because of its caller leaves every family as it was.  One that fails inside
the gateway does so after the store has changed: a family has ended, and the caller is told of no
new one.  Where the pix cookie can be set, no request fails so.
-/

namespace PicBoard

/-- A failure inside the gateway, which no caller has brought about. -/
def GatewayError.IsInternal (e : GatewayError) : Prop := ∃ fault, e = .internal fault

namespace Gateway

variable {g : Gateway} {now : Instant} {fresh : Int64} {request : TokenRequest}
  {headers : List Header} {store : UserStore} {e : GatewayError}

/-! ## Callers who are not identified -/

theorem not_isInternal_ofToken (cause : TokenError) :
    ¬ (GatewayError.ofToken cause).IsInternal := by
  rintro ⟨fault, h⟩
  cases cause <;> cases h

theorem not_isInternal_of_knownUser {userId : Int64} (h : knownUser store userId = .error e) :
    ¬ e.IsInternal := by
  unfold knownUser at h
  split at h
  · cases h
  · cases h
    rintro ⟨fault, hfault⟩
    cases hfault

/-- A caller of a request for tokens who is not identified is told so. -/
theorem not_isInternal_of_identify (h : g.identify now store request = .error e) :
    ¬ e.IsInternal := by
  have hknown : ∀ (userId family : Int64),
      (do let user ← knownUser store userId; return ({ user, family := some family } : Identity)) =
        .error e → ¬ e.IsInternal := by
    intro userId family hbind
    cases hu : knownUser store userId with
    | error c =>
      rw [hu] at hbind
      cases hbind
      exact not_isInternal_of_knownUser hu
    | ok user =>
      rw [hu] at hbind
      cases hbind
  unfold identify at h
  split_ifs at h with hrefresh hauth hident
  · unfold identifyByRefresh at h
    split at h
    · cases h
      exact not_isInternal_ofToken _
    · exact hknown _ _ h
  · unfold identifyByAuth at h
    split at h
    · cases h
      exact not_isInternal_ofToken _
    · split at h
      · cases h
        exact not_isInternal_ofToken _
      · exact hknown _ _ h
  · cases h
    exact not_isInternal_ofToken _
  · unfold identifyBySecret at h
    split at h
    · cases h
    · cases h
      rintro ⟨fault, hfault⟩
      cases hfault

/-- A caller of a logout who is not identified is told so. -/
theorem not_isInternal_of_identifyLogout (h : g.identifyLogout now headers = .error e) :
    ¬ e.IsInternal := by
  unfold identifyLogout at h
  split at h
  · rename_i cause hcause
    cases h
    unfold requireAuth at hcause
    split at hcause
    · split at hcause
      · cases hcause
      · cases hcause
        exact not_isInternal_ofToken _
    · cases hcause
      exact not_isInternal_ofToken _
    · cases hcause
      exact not_isInternal_ofToken _
  · split at h
    · cases h
      exact not_isInternal_ofToken _
    · cases h

/-! ## Failures and the store -/

/-- A request for tokens that fails has changed nothing, or fails inside the gateway when a family
was started. -/
theorem failed_renewal_cases (h : (g.getRefreshToken now fresh request store).1 = .error e)
    (hclock : e ≠ .clockUnreadable) :
    ¬ e.IsInternal ∧ (g.getRefreshToken now fresh request store).2 = store ∨
      e.IsInternal ∧ now.Readable ∧ ∃ who : Identity,
        store.rotate? who.user.userId who.family fresh =
          some (g.getRefreshToken now fresh request store).2 ∧
        g.grant now who.user fresh = .error e := by
  rcases g.getRefreshToken_cases now fresh request store with
    ⟨c, hwho, houtcome⟩ | ⟨who, hwho, hdead, houtcome⟩ | ⟨who, after, hwho, hafter, houtcome⟩
  · rw [houtcome] at h ⊢
    cases h
    exact .inl ⟨not_isInternal_of_identify hwho, rfl⟩
  · rw [houtcome] at h ⊢
    cases h
    exact .inl ⟨nofun, rfl⟩
  · -- only now has the store changed, and only the gateway itself can fail
    rw [houtcome] at h ⊢
    have hinternal : e.IsInternal := (internal_of_grant h).resolve_left hclock
    have hreadable : now.Readable := by
      by_contra hnot
      rw [grant_of_not_readable hnot] at h
      cases h
      exact hclock rfl
    exact .inr ⟨hinternal, hreadable, who, hafter, h⟩

/-- A logout that fails has changed nothing, or fails inside the gateway when a family was
ended. -/
theorem failed_logout_cases (h : (g.deleteToken now headers store).1 = .error e) :
    ¬ e.IsInternal ∧ (g.deleteToken now headers store).2 = store ∨
      e.IsInternal ∧ ¬ g.CookieNameAllowed ∧ ∃ userId family,
        store.revoke? userId family = some (g.deleteToken now headers store).2 := by
  rcases g.deleteToken_cases now headers store with
    ⟨c, hwho, houtcome⟩ | ⟨userId, family, hwho, hdead, houtcome⟩ |
      ⟨userId, family, after, hwho, hafter, houtcome⟩
  · rw [houtcome] at h ⊢
    cases h
    exact .inl ⟨not_isInternal_of_identifyLogout hwho, rfl⟩
  · rw [houtcome] at h ⊢
    cases h
    exact .inl ⟨nofun, rfl⟩
  · -- the family is over before its cookie is taken away
    rw [houtcome] at h ⊢
    rw [pixCookieHeader_eq (by simp)] at h
    split at h
    · cases h
    · rename_i hname
      cases h
      exact .inr ⟨⟨_, rfl⟩, hname, userId, family, hafter⟩

/-- A request that fails leaves the families of all users as they are exactly when it does not fail
inside the gateway; with a pix cookie that can be set, no request that fails changes anything.  For
a request for tokens, the id that it draws is one that is not in use, and the clock is one that can
be read. -/
theorem failed_request_keeps_families_iff (g : Gateway) (now : Instant) (fresh : Int64)
    (request : TokenRequest) (headers : List Header) (store : UserStore) :
    let renewed := g.getRefreshToken now fresh request store
    let loggedOut := g.deleteToken now headers store
    (∀ e, renewed.1 = .error e → e ≠ .clockUnreadable →
      (∀ userId, fresh ∉ store.families userId) →
      ((∀ userId, renewed.2.families userId = store.families userId) ↔ ¬ e.IsInternal)) ∧
    (∀ e, loggedOut.1 = .error e →
      ((∀ userId, loggedOut.2.families userId = store.families userId) ↔ ¬ e.IsInternal)) ∧
    (g.CookieSettable →
      (∀ e, renewed.1 = .error e → e ≠ .clockUnreadable → renewed.2 = store) ∧
      ∀ e, loggedOut.1 = .error e → loggedOut.2 = store) := by
  intro renewed loggedOut
  refine ⟨?_, ?_, ?_⟩
  · intro e he hclock hfresh
    rcases failed_renewal_cases he hclock with ⟨hcaller, hsame⟩ | ⟨hinternal, -, who, hafter, -⟩
    · exact ⟨fun _ => hcaller, fun _ userId => by rw [hsame]⟩
    · refine ⟨?_, fun hcaller => absurd hinternal hcaller⟩
      intro hsame
      exact absurd (hsame who.user.userId) (UserStore.families_ne_of_rotate? hafter (hfresh _))
  · intro e he
    rcases failed_logout_cases he with ⟨hcaller, hsame⟩ | ⟨hinternal, -, userId, family, hafter⟩
    · exact ⟨fun _ => hcaller, fun _ userId => by rw [hsame]⟩
    · refine ⟨?_, fun hcaller => absurd hinternal hcaller⟩
      intro hsame
      exact absurd (hsame userId) (UserStore.families_ne_of_revoke? hafter)
  · intro hcookie
    refine ⟨?_, ?_⟩
    · intro e he hclock
      rcases failed_renewal_cases he hclock with ⟨-, hsame⟩ | ⟨-, hreadable, who, -, hgrant⟩
      · exact hsame
      · obtain ⟨x, hx⟩ := (exists_grant_iff hreadable).mpr fun _ => hcookie
        cases hx.symm.trans hgrant
    · intro e he
      rcases failed_logout_cases he with ⟨-, hsame⟩ | ⟨-, hname, -⟩
      · exact hsame
      · exact absurd hcookie.1 hname

/-- A gateway whose pix cookie has a line break in its name, which no header may hold.  Bob logs in
and out at once: the logout fails inside the gateway, and the family of his login is over. -/
theorem failed_logout_ends_family :
    let g : Gateway :=
      { mac := .hmac [7], windows := .standard, issuer := "", anonymous := .empty
        pixCookie := "pix\ntoken" }
    let bob : User := { userId := 8, ident := "bob", secretHash := "", capabilities := .empty }
    let before : UserStore :=
      { users := [{ user := bob, families := [41] }], familyLimit := 16
        familyLimit_pos := by decide }
    let token := (g.tokensFor 1500000000 bob 41).auth.token
    let outcome :=
      g.deleteToken (.ofSeconds 1500000000) [{ name := authTokenHeader, value := token }] before
    (UserStore.ofUsers [bob]).rotate? 8 none 41 = some before ∧
      outcome.1 = .error (.internal .badCookie) ∧
      before.families 8 = [41] ∧ outcome.2.families 8 = [] := by
  intro g bob before token outcome
  have hspans : Token.Spans
      (IssuedTokens.authPayload g.windows 1500000000 bob.userId 41 g.issuer) 8
      (1500000000 - 60) (1500000000 + 2592000) :=
    IssuedTokens.spans_authPayload (by decide) (by decide) (by decide)
  have hwho : g.identifyLogout (.ofSeconds 1500000000)
      [{ name := authTokenHeader, value := token }] = .ok (8, 41) := by
    refine identifyLogout_eq_ok_iff.mpr ⟨token, ?_, (hspans.validateAuth (by decide)).trans ?_⟩
    · exact Header.texts_singleton fun b hb => Token.isVisible_of_mem_encode hb
    · decide
  have houtcome : outcome = (.error (.internal .badCookie), before.setFamilies 8 []) := by
    have hrevoke : before.revoke? 8 41 = some (before.setFamilies 8 []) := rfl
    have hcookie : g.pixCookieHeader [] 0 = .error (.internal .badCookie) := by decide
    simp only [outcome, deleteToken, hwho, hrevoke, hcookie]
  rw [houtcome]
  exact ⟨rfl, rfl, rfl, rfl⟩

end Gateway

end PicBoard
