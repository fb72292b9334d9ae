import Mathlib.Tactic
import PicBoard.Proofs.Gateway.Serving

/-!
# Users apart

Whatever a call carries, it is of one user at most (`caller?_eq_some_iff`), and all that it changes
is the queue of that user.  So what a user is answered and the queue that they end up with are the
same as if no call of others, or of nobody, had ever come in.
-/

namespace PicBoard

/-! ## Stores that are the same for a user -/

/-- Two stores are the same for a user when they hold the same users, give them the same room, and
have the same live families of this one. -/
structure UserStore.SameFor (userId : Int64) (s t : UserStore) : Prop where
  records : s.records = t.records
  familyLimit : s.familyLimit = t.familyLimit
  families : s.families userId = t.families userId

namespace Gateway

variable {g : Gateway} {now : Instant} {fresh userId : Int64} {store s t : UserStore} {d : Demand}
  {call : Call} {e : Event}

/-! ## Whose a call is -/

/-- The user whose sessions a call is about, live or not: the one whom a request shows, and of a
logout the one whom its only auth token is for. -/
inductive Identifies (g : Gateway) (now : Instant) (store : UserStore) : Call → Int64 → Prop where
  | renew (request : TokenRequest) (user : User) (old : Option Int64)
      (shown : Shows g now store request user old) :
      Identifies g now store (.renew request) user.userId
  | logout (headers : List Header) (token : Bytes) (userId : Int64) (p : Payload)
      (single : Header.texts headers authTokenHeader = [token])
      (accepted : Token.decode g.mac now token = .ok p)
      (kind : p.type = .auth)
      (subject : Token.subjectId p = .ok userId)
      (parent : p.tokenParentId ≠ 0) :
      Identifies g now store (.logout headers) userId

/-- The user whom a call is found to come from, if anybody. -/
def caller? (g : Gateway) (store : UserStore) (e : Event) : Option Int64 :=
  (g.demand e.now e.fresh store e.call).toOption.map Demand.userId

/-- Whether a call is found to come from a user. -/
def isBy (g : Gateway) (store : UserStore) (userId : Int64) (e : Event) : Bool :=
  g.caller? store e = some userId

theorem caller?_eq_some_iff_demand :
    g.caller? store e = some userId ↔
      ∃ d, g.demand e.now e.fresh store e.call = .ok d ∧ d.userId = userId := by
  unfold caller?
  cases g.demand e.now e.fresh store e.call with
  | error c => simp [Except.toOption]
  | ok d => simp [Except.toOption]

theorem identifies_of_demand (h : g.demand now fresh store call = .ok d) :
    Identifies g now store call d.userId := by
  cases call with
  | renew request =>
    rcases bind_eq_ok_iff.mp h with ⟨who, hwho, h⟩
    cases h
    exact .renew request who.user who.family (shows_of_identify hwho)
  | logout headers =>
    rcases bind_eq_ok_iff.mp h with ⟨⟨userId, family⟩, hout, h⟩
    cases h
    rcases identifyLogout_eq_ok_iff.mp hout with ⟨token, single, haccepted⟩
    rcases Token.validateAuth_eq_ok_iff.mp haccepted with ⟨p, accepted, kind, subject, hfamily⟩
    have parent : p.tokenParentId ≠ 0 := by
      intro hzero
      rw [if_pos hzero] at hfamily
      cases hfamily
    exact .logout headers token userId p single accepted kind subject parent

/-- Where no two users have one name, whoever a call identifies is found. -/
theorem Identifies.demand (hidents : (store.records.map (·.ident)).Nodup)
    (h : Identifies g now store call userId) (fresh : Int64) :
    ∃ d, g.demand now fresh store call = .ok d ∧ d.userId = userId := by
  cases h with
  | renew request user old shown =>
    have hwho := shown.identify hidents
    exact ⟨_, bind_eq_ok_iff.mpr ⟨_, hwho, rfl⟩, rfl⟩
  | logout headers token userId p single accepted kind subject parent =>
    have hout : g.identifyLogout now headers = .ok (userId, p.tokenParentId) := by
      apply identifyLogout_eq_ok_iff.mpr
      refine ⟨token, single, Token.validateAuth_eq_ok_iff.mpr ⟨p, accepted, kind, subject, ?_⟩⟩
      exact (if_neg parent).symm
    exact ⟨_, bind_eq_ok_iff.mpr ⟨_, hout, rfl⟩, rfl⟩

/-- A call is found to come from whom it identifies. -/
theorem caller?_eq_some_iff (hidents : (store.records.map (·.ident)).Nodup) :
    g.caller? store e = some userId ↔ Identifies g e.now store e.call userId := by
  rw [caller?_eq_some_iff_demand]
  constructor
  · rintro ⟨d, hdemand, rfl⟩
    exact identifies_of_demand hdemand
  · intro h
    exact h.demand hidents e.fresh

/-! ## Only the users count in finding a caller -/

theorem demand_congr (h : s.records = t.records) :
    g.demand now fresh s call = g.demand now fresh t call := by
  have hid : ∀ userId, s.findById userId = t.findById userId := by
    intro userId
    rw [UserStore.findById_eq_find?, UserStore.findById_eq_find?, h]
  have hident : ∀ ident, s.findByIdent ident = t.findByIdent ident := by
    intro ident
    rw [UserStore.findByIdent_eq_find?, UserStore.findByIdent_eq_find?, h]
  cases call with
  | renew request =>
    simp only [demand, identify, identifyByRefresh, identifyByAuth, identifyBySecret, knownUser,
      hid, hident]
  | logout headers => rfl

theorem caller?_congr (h : s.records = t.records) (e : Event) :
    g.caller? s e = g.caller? t e := by
  unfold caller?
  rw [demand_congr h]

theorem isBy_congr (h : s.records = t.records) (userId : Int64) :
    g.isBy s userId = g.isBy t userId := by
  funext e
  rw [isBy, isBy, caller?_congr h]

/-! ## One call -/

/-- Whether a demand is met is seen from what its user has. -/
theorem Demand.exists_after?_congr (h : s.SameFor d.userId t) :
    (∃ s', d.after? s = some s') ↔ ∃ t', d.after? t = some t' := by
  cases d with
  | start who fresh =>
    have hfamilies : s.families who.user.userId = t.families who.user.userId := h.families
    simp only [after?, UserStore.exists_rotate?_iff, UserStore.exists_stored?_iff, h.records,
      hfamilies]
  | stop userId family =>
    have hfamilies : s.families userId = t.families userId := h.families
    simp only [after?, UserStore.exists_revoke?_iff, hfamilies]

/-- A demand of a user makes of stores that are the same for them stores that still are. -/
theorem Demand.sameFor_after? (h : s.SameFor d.userId t) {s' t' : UserStore}
    (hs : d.after? s = some s') (ht : d.after? t = some t') : s'.SameFor d.userId t' where
  records := by rw [d.records_of_after? hs, d.records_of_after? ht, h.records]
  familyLimit := by rw [d.familyLimit_of_after? hs, d.familyLimit_of_after? ht, h.familyLimit]
  families := by
    rw [Demand.families_eq_of_after? hs, Demand.families_eq_of_after? ht, if_pos rfl, if_pos rfl,
      h.familyLimit, h.families]

/-- A call of somebody else, or of nobody, leaves a user's queue as it is. -/
theorem families_serve_of_ne (h : g.caller? store e ≠ some userId) :
    (g.serve store e).2.families userId = store.families userId := by
  cases hgranted : g.granted? store e with
  | none => rw [(serve_of_not_granted hgranted).2]
  | some d =>
    have hdemand := (granted?_eq_some_iff.mp hgranted).1
    have hother : userId ≠ d.userId := by
      rintro rfl
      exact h (caller?_eq_some_iff_demand.mpr ⟨d, hdemand, rfl⟩)
    rw [Demand.families_eq_of_after? (serve_of_granted hgranted).2, if_neg hother]

theorem sameFor_serve_of_ne (h : s.SameFor userId t) (hcaller : g.caller? s e ≠ some userId) :
    (g.serve s e).2.SameFor userId t where
  records := (g.serve_keeps s e).2.trans h.records
  familyLimit := (g.serve_keeps s e).1.trans h.familyLimit
  families := (families_serve_of_ne hcaller).trans h.families

/-- A call of the user gets the same answer from stores that are the same for them, and leaves them
so. -/
theorem sameFor_serve (h : s.SameFor userId t) (hcaller : g.caller? s e = some userId) :
    (g.serve s e).1 = (g.serve t e).1 ∧ (g.serve s e).2.SameFor userId (g.serve t e).2 := by
  rcases caller?_eq_some_iff_demand.mp hcaller with ⟨d, hdemand, rfl⟩
  have hother : g.demand e.now e.fresh t e.call = .ok d := by
    rw [← demand_congr h.records]
    exact hdemand
  have hcongr := Demand.exists_after?_congr h
  cases hs : d.after? s with
  | none =>
    have ht : d.after? t = none := by
      rw [Option.eq_none_iff_forall_ne_some]
      intro t' ht'
      rcases hcongr.mpr ⟨t', ht'⟩ with ⟨s', hs'⟩
      cases hs.symm.trans hs'
    simp only [serve_eq, hdemand, hother, hs, ht, true_and]
    exact h
  | some s' =>
    rcases hcongr.mp ⟨s', hs⟩ with ⟨t', ht⟩
    simp only [serve_eq, hdemand, hother, hs, ht, true_and]
    exact Demand.sameFor_after? h hs ht

/-! ## A run -/

/-- A number of calls, each with what it is answered. -/
def transcript (g : Gateway) (store : UserStore) (events : List Event) :
    List (Event × Except GatewayError Answer) :=
  (g.history store events).map fun served => (served.2, (g.serve served.1 served.2).1)

theorem transcript_cons (g : Gateway) (store : UserStore) (e : Event) (rest : List Event) :
    g.transcript store (e :: rest) =
      (e, (g.serve store e).1) :: g.transcript (g.serve store e).2 rest := rfl

/-- Whom a call is found to come from does not change while calls are served. -/
theorem caller?_of_mem_history {events : List Event} {served : UserStore × Event}
    (h : served ∈ g.history store events) (e : Event) :
    g.caller? served.1 e = g.caller? store e := by
  induction events generalizing store with
  | nil => cases h
  | cons first rest ih =>
    rcases List.mem_cons.mp h with rfl | h
    · rfl
    · rw [ih h]
      exact caller?_congr (g.serve_keeps store first).2 e

/-- What a user is answered, and what is left to them, is as if only their calls had come in. -/
theorem transcript_filter_isBy (h : s.SameFor userId t) (events : List Event) :
    (g.transcript s events).filter (fun x => g.isBy t userId x.1) =
        g.transcript t (events.filter (g.isBy t userId)) ∧
      (g.storeAfter s events).SameFor userId
        (g.storeAfter t (events.filter (g.isBy t userId))) := by
  -- On the calls, where the stores stay the same for the user whosever call comes first.
  induction events generalizing s t with
  | nil => exact ⟨rfl, h⟩
  | cons e rest ih =>
    have hcaller : g.caller? s e = g.caller? t e := caller?_congr h.records e
    by_cases hby : g.isBy t userId e
    · -- both serve it
      have hown : g.caller? s e = some userId := hcaller.trans (of_decide_eq_true hby)
      rcases sameFor_serve h hown with ⟨hanswer, hserved⟩
      rcases ih hserved with ⟨hrest, hlast⟩
      rw [isBy_congr (g.serve_keeps t e).2] at hrest hlast
      rw [List.filter_cons_of_pos hby]
      refine ⟨?_, hlast⟩
      rw [transcript_cons, transcript_cons, List.filter_cons, if_pos hby, hrest, hanswer]
    · -- only the first serves it
      have hother : g.caller? s e ≠ some userId := by
        rw [hcaller]
        exact fun hsome => hby (decide_eq_true hsome)
      rcases ih (sameFor_serve_of_ne h hother) with ⟨hrest, hlast⟩
      rw [List.filter_cons_of_neg hby]
      refine ⟨?_, hlast⟩
      rw [transcript_cons, List.filter_cons, if_neg hby, hrest]

/-- Users are kept apart where no two have one name: each call is of one user at most, whatever
came before it.  Without the calls of others and those of nobody, a user gets the same answers and
ends up with the same queue, and no such call starts or ends a family of theirs. -/
theorem users_apart (g : Gateway) (store : UserStore)
    (hidents : (store.records.map (·.ident)).Nodup) (events : List Event) (userId : Int64) :
    (∀ e other, g.caller? store e = some other ↔ Identifies g e.now store e.call other) ∧
      (∀ served ∈ g.history store events,
        g.caller? served.1 served.2 = g.caller? store served.2) ∧
      (g.transcript store events).filter (fun x => g.isBy store userId x.1) =
        g.transcript store (events.filter (g.isBy store userId)) ∧
      (g.storeAfter store events).families userId =
        (g.storeAfter store (events.filter (g.isBy store userId))).families userId ∧
      ∀ served ∈ g.history store events, g.isBy store userId served.2 = false →
        (g.serve served.1 served.2).2.families userId = served.1.families userId := by
  have hsame : store.SameFor userId store := ⟨rfl, rfl, rfl⟩
  rcases transcript_filter_isBy (g := g) hsame events with ⟨hanswers, hlast⟩
  refine ⟨?_, ?_, hanswers, hlast.families, ?_⟩
  · intro e other
    exact caller?_eq_some_iff hidents
  · intro served hserved
    exact caller?_of_mem_history hserved served.2
  · intro served hserved hnot
    apply families_serve_of_ne
    rw [caller?_of_mem_history hserved]
    exact of_decide_eq_false hnot

/-- Alice renews her session while Bob renews his and somebody logs out without a token: all that
she sees is her own renewal. -/
theorem renewal_apart :
    let g : Gateway :=
      { mac := .hmac [7], windows := .standard, issuer := "pixur", anonymous := .empty
        pixCookie := "pix_token" }
    let alice : User := { userId := 7, ident := "alice", secretHash := "", capabilities := .empty }
    let bob : User := { userId := 8, ident := "bob", secretHash := "", capabilities := .empty }
    let store : UserStore :=
      { users := [{ user := alice, families := [41] }, { user := bob, families := [51] }]
        familyLimit := 1, familyLimit_pos := by decide }
    let renewal (user : User) (old fresh : Int64) : Event :=
      { call := .renew
          { ident := "", secret := ""
            refreshToken := (g.tokensFor 1500000000 user old).refresh.token.toLatin1 }
        now := Instant.ofSeconds 1500000000, fresh }
    let logout : Event :=
      { call := .logout [], now := Instant.ofSeconds 1500000000, fresh := 0 }
    let events := [renewal bob 51 52, logout, renewal alice 41 42]
    (store.records.map (·.ident)).Nodup ∧
      (g.transcript store events).filter (fun x => g.isBy store 7 x.1) =
        g.transcript store [renewal alice 41 42] ∧
      (g.storeAfter store events).families 7 = [42] := by
  intro g alice bob store renewal logout events
  have hidents : (store.records.map (·.ident)).Nodup := by decide
  obtain ⟨hcaller, -, hanswers, hqueue, -⟩ := users_apart g store hidents events 7
  have hshown : ∀ (user : User) (old : Int64), store.findById user.userId = some user →
      Shows g (Instant.ofSeconds 1500000000) store
        { ident := "", secret := ""
          refreshToken := (g.tokensFor 1500000000 user old).refresh.token.toLatin1 }
        user (some old) := by
    intro user old hknown
    let p := IssuedTokens.refreshPayload g.windows 1500000000 user.userId old g.issuer
    have hspans : Token.Spans p user.userId (1500000000 - 60) (1500000000 + 15552000) :=
      IssuedTokens.spans_refreshPayload (by decide) (by decide) (by decide)
    exact .byRefresh user p (Token.toLatin1_encode_ne_empty _ _)
      (hspans.decode_toLatin1 (by decide) (by decide) (by decide)) rfl hspans.subjectId hknown
  have halice := hshown alice 41 rfl
  have hbob := hshown bob 51 rfl
  have hown : events.filter (g.isBy store 7) = [renewal alice 41 42] := by
    have hfirst : g.caller? store (renewal bob 51 52) = some 8 :=
      (hcaller _ _).mpr (.renew _ bob _ hbob)
    have hsecond : g.caller? store logout = none := rfl
    have hlast : g.caller? store (renewal alice 41 42) = some 7 :=
      (hcaller _ _).mpr (.renew _ alice _ halice)
    simp [events, isBy, hfirst, hsecond, hlast]
  have hgranted : g.granted? store (renewal alice 41 42) =
      some (.start { user := alice, family := some 41 } 42) := by
    apply granted?_eq_some_iff.mpr
    exact ⟨bind_eq_ok_iff.mpr ⟨_, halice.identify hidents, rfl⟩, _, rfl⟩
  refine ⟨hidents, ?_, ?_⟩
  · rw [hanswers, hown]
  · rw [hqueue, hown]
    have hafter := (serve_of_granted hgranted).2
    exact (Demand.families_eq_of_after? hafter 7).trans (by decide)

end Gateway

end PicBoard
