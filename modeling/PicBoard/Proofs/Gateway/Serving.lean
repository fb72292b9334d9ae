import Mathlib.Tactic
import PicBoard.Proofs.Gateway.Authorisation

/-!
# Calls one after another

A gateway that serves calls one at a time.  What a call gets from the store, a family that starts
or one that ends, is settled by its demand; the store changes so and in no other way.
-/

namespace PicBoard

namespace Gateway

variable {g : Gateway} {now : Instant} {fresh userId f : Int64} {store : UserStore} {d : Demand}
  {call : Call}

/-! ## Serving -/

/-- A call as it is served: what the clock reads then, and the family id that is drawn for it. -/
structure Event where
  call : Call
  now : Instant
  fresh : Int64

variable {e : Event}

/-- Serves one call. -/
def serve (g : Gateway) (store : UserStore) (e : Event) : Except GatewayError Answer × UserStore :=
  match e.call with
  | .renew request =>
    let outcome := g.getRefreshToken e.now e.fresh request store
    (outcome.1.map .tokens, outcome.2)
  | .logout headers =>
    let outcome := g.deleteToken e.now headers store
    (outcome.1.map .loggedOut, outcome.2)

/-- A call succeeds when it gets an answer. -/
def Succeeds (g : Gateway) (store : UserStore) (e : Event) : Prop :=
  ∃ a, (g.serve store e).1 = .ok a

/-- The store after a number of calls. -/
def storeAfter (g : Gateway) (store : UserStore) : List Event → UserStore
  | [] => store
  | e :: rest => storeAfter g (g.serve store e).2 rest

/-- A number of calls, each with the store that it meets. -/
def history (g : Gateway) (store : UserStore) : List Event → List (UserStore × Event)
  | [] => []
  | e :: rest => (store, e) :: history g (g.serve store e).2 rest

/-- What the store grants to a call. -/
def granted? (g : Gateway) (store : UserStore) (e : Event) : Option Demand :=
  match g.demand e.now e.fresh store e.call with
  | .error _ => none
  | .ok d => if (d.after? store).isSome then some d else none

/-- Whether a demand is to start a family of a user. -/
def Demand.startsFor (userId : Int64) : Demand → Bool
  | start who _ => who.user.userId = userId
  | stop _ _ => false

/-- Whether a call starts a family of a user. -/
def startsFor (g : Gateway) (userId : Int64) (store : UserStore) (e : Event) : Bool :=
  (g.granted? store e).any (Demand.startsFor userId)

/-- How many families of a user a number of calls start. -/
def startedFor (g : Gateway) (userId : Int64) (store : UserStore) (events : List Event) : Nat :=
  (g.history store events).countP fun served => g.startsFor userId served.1 served.2

/-- A call starts one family at most. -/
theorem startedFor_le_length (g : Gateway) (userId : Int64) (store : UserStore)
    (events : List Event) : g.startedFor userId store events ≤ events.length := by
  have hlength : (g.history store events).length = events.length := by
    induction events generalizing store with
    | nil => rfl
    | cons e rest ih => exact congrArg (· + 1) (ih _)
  exact List.countP_le_length.trans hlength.le

/-- A call is answered once the store has met its demand. -/
theorem serve_eq (g : Gateway) (store : UserStore) (e : Event) :
    g.serve store e =
      match g.demand e.now e.fresh store e.call with
      | .error c => (.error c, store)
      | .ok d =>
        match d.after? store with
        | none => (.error (.unauthenticated .deadFamily), store)
        | some after => (g.answer e.now d, after) := by
  obtain ⟨call, now, fresh⟩ := e
  cases call with
  | renew request =>
    simp only [serve, demand]
    rcases g.getRefreshToken_cases now fresh request store with
      ⟨c, hwho, houtcome⟩ | ⟨who, hwho, hdead, houtcome⟩ | ⟨who, after, hwho, hafter, houtcome⟩
    · rw [houtcome, hwho]
      rfl
    · rw [houtcome, hwho]
      simp only [ok_bind, pure, Except.pure, Demand.after?, hdead]
      rfl
    · rw [houtcome, hwho]
      simp only [ok_bind, pure, Except.pure, Demand.after?, hafter]
      rfl
  | logout headers =>
    simp only [serve, demand]
    rcases g.deleteToken_cases now headers store with
      ⟨c, hwho, houtcome⟩ | ⟨userId, family, hwho, hdead, houtcome⟩ |
        ⟨userId, family, after, hwho, hafter, houtcome⟩
    · rw [houtcome, hwho]
      rfl
    · rw [houtcome, hwho]
      simp only [ok_bind, pure, Except.pure, Demand.after?, hdead]
      rfl
    · rw [houtcome, hwho]
      simp only [ok_bind, pure, Except.pure, Demand.after?, hafter]
      rfl

theorem granted?_eq_some_iff :
    g.granted? store e = some d ↔
      g.demand e.now e.fresh store e.call = .ok d ∧ ∃ after, d.after? store = some after := by
  unfold granted?
  cases g.demand e.now e.fresh store e.call with
  | error c => simp
  | ok d' =>
    dsimp only
    rw [Except.ok.injEq, ← Option.isSome_iff_exists]
    constructor
    · intro h
      split at h
      · rename_i hafter
        cases h
        exact ⟨rfl, hafter⟩
      · cases h
    · rintro ⟨rfl, hafter⟩
      exact if_pos hafter

/-- A call to which the store grants something is answered, and the store meets its demand. -/
theorem serve_of_granted (h : g.granted? store e = some d) :
    (g.serve store e).1 = g.answer e.now d ∧ d.after? store = some (g.serve store e).2 := by
  obtain ⟨hdemand, after, hafter⟩ := granted?_eq_some_iff.mp h
  rw [serve_eq, hdemand]
  dsimp only
  rw [hafter]
  exact ⟨rfl, rfl⟩

/-- Any other call fails and leaves the store alone. -/
theorem serve_of_not_granted (h : g.granted? store e = none) :
    (∃ c, (g.serve store e).1 = .error c) ∧ (g.serve store e).2 = store := by
  have hnone : ∀ d, g.demand e.now e.fresh store e.call = .ok d → d.after? store = none := by
    intro d hdemand
    by_contra hsome
    obtain ⟨after, hafter⟩ := Option.ne_none_iff_exists'.mp hsome
    cases h.symm.trans (granted?_eq_some_iff.mpr ⟨hdemand, after, hafter⟩)
  rw [serve_eq]
  cases hdemand : g.demand e.now e.fresh store e.call with
  | error c => exact ⟨⟨c, rfl⟩, rfl⟩
  | ok d =>
    dsimp only
    rw [hnone d hdemand]
    exact ⟨⟨_, rfl⟩, rfl⟩

/-! ## The token behind a demand -/

/-- A token is accepted when the clock can be read. -/
theorem readable_of_decode {mac : Mac} {token : Bytes} {p : Payload}
    (h : Token.decode mac now token = .ok p) : now.Readable := by
  obtain ⟨-, hclock⟩ := Token.decode_eq_ok_iff.mp h
  by_contra hnot
  have hnone : Timestamp.ofInstant? now = none := Timestamp.ofInstant?_of_not_readable hnot
  unfold Payload.checkClock at hclock
  rw [hnone] at hclock
  cases hclock

/-- Who is identified with a family presented a token that names it. -/
theorem names_of_identify {request : TokenRequest} {who : Identity}
    (h : g.identify now store request = .ok who) (hfamily : who.family = some f) :
    (Call.renew request).Names who.user.userId f ∧ now.Readable := by
  have hnamed : ∀ {token : Bytes} {p : Payload}, Token.decode g.mac now token = .ok p →
      p.named? = some (who.user.userId, f) → (Call.renew request).token? = some token →
      (Call.renew request).Names who.user.userId f ∧ now.Readable := by
    intro token p hp hname htoken
    exact ⟨⟨token, p, htoken, Token.decodeUnverified_of_decode hp, hname⟩, readable_of_decode hp⟩
  unfold identify at h
  split_ifs at h with hrefresh hauth hident
  · obtain ⟨p, hp, hkind, hsubject, -, hold⟩ := identifyByRefresh_eq_ok_iff.mp h
    cases hfamily.symm.trans hold
    exact hnamed hp (Payload.named?_of_refresh hsubject hkind) (if_pos hrefresh)
  · obtain ⟨p, hp, hkind, hsubject, -, -, hold⟩ := identifyByAuth_eq_ok_iff.mp h
    cases hfamily.symm.trans hold
    exact hnamed hp (Payload.named?_of_auth hsubject hkind)
      ((if_neg hrefresh).trans (if_pos hauth))
  · -- a secret comes with no family
    obtain ⟨-, -, hnone⟩ := identifyBySecret_eq_ok_iff.mp h
    cases hfamily.symm.trans hnone

/-- Who logs out presented a token that names the family that is to end. -/
theorem names_of_identifyLogout {headers : List Header}
    (h : g.identifyLogout now headers = .ok (userId, f)) :
    (Call.logout headers).Names userId f ∧ now.Readable := by
  obtain ⟨token, htexts, haccepted⟩ := identifyLogout_eq_ok_iff.mp h
  obtain ⟨p, hp, hname⟩ := Token.named_of_validateAuth haccepted rfl
  obtain ⟨q, hq, -⟩ := Token.validateAuth_eq_ok_iff.mp haccepted
  refine ⟨⟨token, p, ?_, hp, hname⟩, readable_of_decode hq⟩
  unfold Call.token?
  simp only [htexts]

/-- A family ends by a demand only where its own token is presented, at a time that can be
read. -/
theorem names_of_demand (h : g.demand now fresh store call = .ok d) (hold : d.old? = some f) :
    call.Names d.userId f ∧ now.Readable := by
  cases call with
  | renew request =>
    obtain ⟨who, hwho, h⟩ := bind_eq_ok_iff.mp h
    cases h
    exact names_of_identify hwho hold
  | logout headers =>
    obtain ⟨⟨userId, family⟩, hout, h⟩ := bind_eq_ok_iff.mp h
    cases h
    cases hold
    exact names_of_identifyLogout hout

/-- Where the pix cookie can be set, a call whose demand is met at a time that can be read
succeeds. -/
theorem exists_answer (hcookie : g.CookieSettable) (hclock : now.Readable) (d : Demand) :
    ∃ a, g.answer now d = .ok a := by
  cases d with
  | start who fresh =>
    obtain ⟨x, hx⟩ := (exists_grant_iff hclock).mpr fun _ => hcookie
    exact ⟨.tokens x, by rw [answer, hx]; rfl⟩
  | stop userId family =>
    have hlogout : g.pixCookieHeader [] 0 = .ok (g.pixCookieText [] 0) :=
      (pixCookieHeader_eq (by simp) 0).trans (if_pos hcookie.1)
    exact ⟨.loggedOut (g.pixCookieText [] 0), by rw [answer, hlogout]; rfl⟩

/-- A call that ends a family names it, and succeeds. -/
theorem succeeds_of_granted (hcookie : g.CookieSettable) (h : g.granted? store e = some d)
    (hold : d.old? = some f) : e.call.Names d.userId f ∧ g.Succeeds store e := by
  obtain ⟨hnames, hclock⟩ := names_of_demand (granted?_eq_some_iff.mp h).1 hold
  refine ⟨hnames, ?_⟩
  obtain ⟨a, ha⟩ := exists_answer hcookie hclock d
  exact ⟨a, (serve_of_granted h).1.trans ha⟩

/-! ## What calls leave as it is -/

theorem Demand.familyLimit_of_after? {after : UserStore} (h : d.after? store = some after) :
    after.familyLimit = store.familyLimit := by
  cases d with
  | start who fresh => exact (UserStore.rotate?_eq_some h).2.1
  | stop userId family => exact (UserStore.revoke?_eq_some h).2.1

theorem Demand.records_of_after? {after : UserStore} (h : d.after? store = some after) :
    after.records = store.records := by
  cases d with
  | start who fresh => exact UserStore.records_of_rotate? h
  | stop userId family => exact UserStore.records_of_revoke? h

theorem serve_keeps (g : Gateway) (store : UserStore) (e : Event) :
    (g.serve store e).2.familyLimit = store.familyLimit ∧
      (g.serve store e).2.records = store.records := by
  cases h : g.granted? store e with
  | none =>
    rw [(serve_of_not_granted h).2]
    exact ⟨rfl, rfl⟩
  | some d =>
    have hafter := (serve_of_granted h).2
    exact ⟨d.familyLimit_of_after? hafter, d.records_of_after? hafter⟩

theorem records_storeAfter (g : Gateway) (store : UserStore) (events : List Event) :
    (g.storeAfter store events).records = store.records := by
  induction events generalizing store with
  | nil => rfl
  | cons e rest ih => exact (ih _).trans (g.serve_keeps store e).2

/-! ## A family and the calls after it -/

/-- Meeting a demand moves a family one place at most, when another starts for the same user. -/
theorem Demand.queued_of_after? {later : Nat} {after : UserStore}
    (h : store.Queued userId f later) (hafter : d.after? store = some after)
    (hold : d.userId = userId → d.old? ≠ some f)
    (hroom : d.startsFor userId = true → later + 1 < store.familyLimit) :
    after.Queued userId f (later + if d.startsFor userId then 1 else 0) := by
  cases d with
  | start who fresh =>
    have hstarts : (Demand.start who fresh).startsFor userId = true ↔ who.user.userId = userId :=
      decide_eq_true_iff
    have hqueued := h.rotate? hafter hold fun hsame => hroom (hstarts.mpr hsame)
    by_cases hsame : who.user.userId = userId
    · rw [if_pos hsame] at hqueued
      rwa [if_pos (hstarts.mpr hsame)]
    · rw [if_neg hsame] at hqueued
      rwa [if_neg (mt hstarts.mp hsame)]
  | stop other family =>
    exact h.revoke? hafter fun hsame hfamily => hold hsame (congrArg some hfamily)

/-- So does serving a call, unless it names the family and succeeds. -/
theorem queued_serve {later : Nat} (hcookie : g.CookieSettable)
    (h : store.Queued userId f later)
    (hkept : e.call.Names userId f → ¬ g.Succeeds store e)
    (hroom : g.startsFor userId store e = true → later + 1 < store.familyLimit) :
    (g.serve store e).2.Queued userId f
      (later + if g.startsFor userId store e then 1 else 0) := by
  unfold startsFor at hroom ⊢
  cases hgranted : g.granted? store e with
  | none =>
    rw [(serve_of_not_granted hgranted).2]
    simpa using h
  | some d =>
    rw [hgranted, Option.any_some] at hroom
    refine d.queued_of_after? h (serve_of_granted hgranted).2 ?_ hroom
    -- A demand that ends the family comes of a call that names it and succeeds.
    rintro rfl hold
    obtain ⟨hnames, hsucceeds⟩ := succeeds_of_granted hcookie hgranted hold
    exact hkept hnames hsucceeds

/-- A family stays in its queue until a call that names it succeeds, or too many have started after
it. -/
theorem queued_storeAfter {later : Nat} (hcookie : g.CookieSettable) (events : List Event)
    (h : store.Queued userId f later)
    (hkept : ∀ served ∈ g.history store events, served.2.call.Names userId f →
      ¬ g.Succeeds served.1 served.2)
    (hroom : later + g.startedFor userId store events < store.familyLimit) :
    (g.storeAfter store events).Queued userId f (later + g.startedFor userId store events) := by
  -- On the calls, where the place of the family and the store are those that the first call leaves.
  induction events generalizing store later with
  | nil => exact h
  | cons e rest ih =>
    have hcount : g.startedFor userId store (e :: rest) =
        g.startedFor userId (g.serve store e).2 rest +
          if g.startsFor userId store e then 1 else 0 := by
      unfold startedFor
      rw [history, List.countP_cons]
    have hserved : (g.serve store e).2.Queued userId f
        (later + if g.startsFor userId store e then 1 else 0) := by
      refine queued_serve hcookie h (hkept (store, e) List.mem_cons_self) ?_
      intro hstarts
      rw [hcount, if_pos hstarts] at hroom
      omega
    have hrest := ih hserved (fun served hmem => hkept served (List.mem_cons_of_mem _ hmem))
      (by rw [(g.serve_keeps store e).1]; omega)
    rw [hcount, ← Nat.add_assoc, Nat.add_right_comm]
    exact hrest

end Gateway

end PicBoard
