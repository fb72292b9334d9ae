import Mathlib.Tactic
import PicBoard.Gateway.Sessions
import PicBoard.Proofs.Outcome

/-!
# Calls in flight

Any number of calls for tokens and logouts, each in three steps that may come between those of the
others: the caller is identified, then the families change in one step, then the answer is made.
Each step has its own reading of the clock, and a call may stop for good after any of them.  A call
that runs through its steps in a row comes to what `getRefreshToken` and `deleteToken` come to.
-/

namespace PicBoard.Gateway

/-! ## What a call asks for -/

/-- A call of a client: for tokens, or to log out. -/
inductive Call where
  | renew (request : TokenRequest)
  | logout (headers : List Header)

/-- What an identified caller asks of the store: to start a family, in the place of the one that
was presented, or to stop one. -/
inductive Demand where
  | start (who : Identity) (fresh : Int64)
  | stop (userId family : Int64)

namespace Demand

/-- The user whose families it changes. -/
def userId : Demand → Int64
  | start who _ => who.user.userId
  | stop userId _ => userId

/-- The family that it ends, if it ends one. -/
def old? : Demand → Option Int64
  | start who _ => who.family
  | stop _ family => some family

/-- The family that it starts, if it starts one. -/
def new? : Demand → Option Int64
  | start _ fresh => some fresh
  | stop _ _ => none

/-- The store after it; there is none when the family that it ends is not live. -/
def after? (store : UserStore) : Demand → Option UserStore
  | start who fresh => store.rotate? who.user.userId who.family fresh
  | stop userId family => store.revoke? userId family

end Demand

/-- Identifies the caller of a call, which tells what is asked of the store.  A family that is to
start gets the id `fresh`. -/
def demand (g : Gateway) (now : Instant) (fresh : Int64) (store : UserStore) :
    Call → Except GatewayError Demand
  | .renew request => do
    let who ← g.identify now store request
    return .start who fresh
  | .logout headers => do
    let (userId, family) ← g.identifyLogout now headers
    return .stop userId family

/-- What a call that succeeds gets. -/
inductive Answer where
  | tokens (grant : TokenGrant)
  | loggedOut (cookie : Bytes)

/-- Makes the answer to a call whose demand was met. -/
def answer (g : Gateway) (now : Instant) : Demand → Except GatewayError Answer
  | .start who fresh => (g.grant now who.user fresh).map .tokens
  | .stop _ _ => (g.pixCookieHeader [] 0).map .loggedOut

/-! ## The state -/

/-- How far a call has got. -/
inductive Progress where
  | arrived
  | identified (demand : Demand)
  | met (demand : Demand)
  | refused (cause : GatewayError)
  | answered (demand : Demand) (result : Except GatewayError Answer)

namespace Progress

/-- The demand that the store has still to meet. -/
def pending? : Progress → Option Demand
  | identified d => some d
  | _ => none

/-- The demand that the store has met. -/
def met? : Progress → Option Demand
  | met d | answered d _ => some d
  | _ => none

/-- The demand of a caller who was identified. -/
def demand? : Progress → Option Demand
  | identified d | met d | answered d _ => some d
  | _ => none

/-- What the caller was told, if the call is over. -/
def result? : Progress → Option (Except GatewayError Answer)
  | refused e => some (.error e)
  | answered _ r => some r
  | _ => none

theorem demand?_of_met? {p : Progress} {d : Demand} (h : p.met? = some d) : p.demand? = some d := by
  cases p with
  | met e => exact h
  | answered e r => exact h
  | arrived => cases h
  | identified e => cases h
  | refused e => cases h

end Progress

/-- A running gateway: the store, the family ids that were drawn, latest first, and the calls that
came in so far. -/
structure State where
  store : UserStore
  drawn : List Int64
  calls : Nat → Option (Call × Progress)

namespace State

/-- A gateway that was just started. -/
def start (users : List User) (limit : Nat) : State where
  store := .ofUsers users limit
  drawn := []
  calls := fun _ => none

/-- The state in which a call has got so far. -/
def put (s : State) (i : Nat) (call : Call) (progress : Progress) : State :=
  { s with calls := Function.update s.calls i (some (call, progress)) }

/-- What a call still waits for from the store. -/
def pending? (s : State) (i : Nat) : Option Demand := (s.calls i).bind (·.2.pending?)

/-- What a call got from the store. -/
def met? (s : State) (i : Nat) : Option Demand := (s.calls i).bind (·.2.met?)

/-- What the caller was told. -/
def result? (s : State) (i : Nat) : Option (Except GatewayError Answer) :=
  (s.calls i).bind (·.2.result?)

@[simp] theorem calls_put (s : State) (i : Nat) (call : Call) (p : Progress) :
    (s.put i call p).calls = Function.update s.calls i (some (call, p)) := rfl

@[simp] theorem store_put (s : State) (i : Nat) (call : Call) (p : Progress) :
    (s.put i call p).store = s.store := rfl

@[simp] theorem drawn_put (s : State) (i : Nat) (call : Call) (p : Progress) :
    (s.put i call p).drawn = s.drawn := rfl

@[simp] theorem pending?_put (s : State) (i : Nat) (call : Call) (p : Progress) :
    (s.put i call p).pending? = Function.update s.pending? i p.pending? := by
  funext j
  by_cases hj : j = i
  · subst hj
    simp [pending?]
  · simp [pending?, hj]

@[simp] theorem met?_put (s : State) (i : Nat) (call : Call) (p : Progress) :
    (s.put i call p).met? = Function.update s.met? i p.met? := by
  funext j
  by_cases hj : j = i
  · subst hj
    simp [met?]
  · simp [met?, hj]

end State

/-! ## Steps -/

/-- What may happen next: a call comes in, its caller is identified, its demand is met, or its
answer is made. -/
inductive Action where
  | arrive (i : Nat) (call : Call)
  | identify (i : Nat) (now : Instant) (fresh : Int64)
  | meet (i : Nat)
  | answer (i : Nat) (now : Instant)

instance (s : State) (d : Demand) : Decidable (∀ f ∈ d.new?, 0 < f ∧ f ∉ s.drawn) :=
  Option.decidableForallMem _

/-- One step.  An action of which it is not the turn does nothing, and nor does one that draws an
id that is not positive or was drawn before. -/
def step (g : Gateway) (s : State) : Action → State
  | .arrive i call =>
    match s.calls i with
    | none => s.put i call .arrived
    | some _ => s
  | .identify i now fresh =>
    match s.calls i with
    | some (call, .arrived) =>
      match g.demand now fresh s.store call with
      | .error e => s.put i call (.refused e)
      | .ok d =>
        if ∀ f ∈ d.new?, 0 < f ∧ f ∉ s.drawn then
          { s.put i call (.identified d) with drawn := d.new?.toList ++ s.drawn }
        else s
    | _ => s
  | .meet i =>
    match s.calls i with
    | some (call, .identified d) =>
      match d.after? s.store with
      | none => s.put i call (.refused (.unauthenticated .deadFamily))
      | some store => { s.put i call (.met d) with store }
    | _ => s
  | .answer i now =>
    match s.calls i with
    | some (call, .met d) => s.put i call (.answered d (g.answer now d))
    | _ => s

/-- The state after a number of actions. -/
def run (g : Gateway) (s : State) (actions : List Action) : State := actions.foldl (step g) s

theorem run_nil (g : Gateway) (s : State) : g.run s [] = s := rfl

theorem run_cons (g : Gateway) (s : State) (a : Action) (rest : List Action) :
    g.run s (a :: rest) = g.run (g.step s a) rest := rfl

/-- What every step keeps, every run keeps. -/
theorem run_induction {g : Gateway} {P : State → Prop} (hstep : ∀ s a, P s → P (g.step s a))
    {s : State} (h : P s) (actions : List Action) : P (g.run s actions) := by
  induction actions generalizing s with
  | nil => exact h
  | cons a rest ih => exact ih (hstep s a h)

/-! ## One call alone -/

/-- The steps of one call in a row, at one reading of the clock. -/
def alone (i : Nat) (now : Instant) (fresh : Int64) (call : Call) : List Action :=
  [.arrive i call, .identify i now fresh, .meet i, .answer i now]

theorem new?_of_demand {g : Gateway} {now : Instant} {fresh : Int64} {store : UserStore}
    {call : Call} {d : Demand} (h : g.demand now fresh store call = .ok d) :
    ∀ f ∈ d.new?, f = fresh := by
  cases call with
  | renew request =>
    obtain ⟨who, -, h⟩ := bind_eq_ok_iff.mp h
    cases h
    exact fun f hf => (Option.some.inj hf).symm
  | logout headers =>
    obtain ⟨named, -, h⟩ := bind_eq_ok_iff.mp h
    cases h
    exact nofun

theorem step_arrive (g : Gateway) {s : State} {i : Nat} (hi : s.calls i = none) (call : Call) :
    g.step s (.arrive i call) = s.put i call .arrived := by
  simp only [step, hi]

theorem step_identify_error {g : Gateway} {s : State} {i : Nat} {call : Call} {now : Instant}
    {fresh : Int64} {e : GatewayError} (hi : s.calls i = some (call, .arrived))
    (h : g.demand now fresh s.store call = .error e) :
    g.step s (.identify i now fresh) = s.put i call (.refused e) := by
  simp only [step, hi, h]

theorem step_identify_ok {g : Gateway} {s : State} {i : Nat} {call : Call} {now : Instant}
    {fresh : Int64} {d : Demand} (hi : s.calls i = some (call, .arrived))
    (h : g.demand now fresh s.store call = .ok d) (hpos : 0 < fresh) (hfresh : fresh ∉ s.drawn) :
    g.step s (.identify i now fresh) =
      { s.put i call (.identified d) with drawn := d.new?.toList ++ s.drawn } := by
  simp only [step, hi, h]
  apply if_pos
  intro f hf
  rw [new?_of_demand h f hf]
  exact ⟨hpos, hfresh⟩

/-- A call alone: the caller is told of the first step that fails, and the store changes when the
demand is met. -/
theorem run_alone (g : Gateway) {s : State} {i : Nat} (hi : s.calls i = none) {fresh : Int64}
    (hpos : 0 < fresh) (hfresh : fresh ∉ s.drawn) (now : Instant) (call : Call) :
    (g.run s (alone i now fresh call)).result? i =
        some (do
          let d ← g.demand now fresh s.store call
          match d.after? s.store with
          | none => .error (.unauthenticated .deadFamily)
          | some _ => g.answer now d) ∧
      (g.run s (alone i now fresh call)).store =
        match g.demand now fresh s.store call with
        | .error _ => s.store
        | .ok d => (d.after? s.store).getD s.store := by
  have hcall : (s.put i call .arrived).calls i = some (call, .arrived) := by simp
  simp only [alone, run_cons, run_nil, step_arrive g hi]
  cases hdemand : g.demand now fresh s.store call with
  | error e =>
    rw [step_identify_error hcall hdemand]
    simp [step, State.result?, Progress.result?]
  | ok d =>
    rw [step_identify_ok hcall hdemand hpos hfresh]
    cases hafter : d.after? s.store with
    | none => simp [step, hafter, State.result?, Progress.result?]
    | some store => simp [step, hafter, State.result?, Progress.result?]

/-- A call for tokens, alone, is answered as `getRefreshToken` answers it. -/
theorem run_alone_renew (g : Gateway) {s : State} {i : Nat} (hi : s.calls i = none)
    {fresh : Int64} (hpos : 0 < fresh) (hfresh : fresh ∉ s.drawn) (now : Instant)
    (request : TokenRequest) :
    let t := g.run s (alone i now fresh (.renew request))
    let outcome := g.getRefreshToken now fresh request s.store
    t.result? i = some (outcome.1.map .tokens) ∧ t.store = outcome.2 := by
  obtain ⟨hresult, hstore⟩ := run_alone g hi hpos hfresh now (.renew request)
  simp only [hresult, hstore, demand, getRefreshToken]
  cases g.identify now s.store request with
  | error e => exact ⟨rfl, rfl⟩
  | ok who =>
    simp only [ok_bind, pure, Except.pure, Demand.after?]
    cases s.store.rotate? who.user.userId who.family fresh with
    | none => exact ⟨rfl, rfl⟩
    | some store => exact ⟨rfl, rfl⟩

/-- A logout, alone, is answered as `deleteToken` answers it. -/
theorem run_alone_logout (g : Gateway) {s : State} {i : Nat} (hi : s.calls i = none)
    {fresh : Int64} (hpos : 0 < fresh) (hfresh : fresh ∉ s.drawn) (now : Instant)
    (headers : List Header) :
    let t := g.run s (alone i now fresh (.logout headers))
    let outcome := g.deleteToken now headers s.store
    t.result? i = some (outcome.1.map .loggedOut) ∧ t.store = outcome.2 := by
  obtain ⟨hresult, hstore⟩ := run_alone g hi hpos hfresh now (.logout headers)
  simp only [hresult, hstore, demand, deleteToken]
  cases g.identifyLogout now headers with
  | error e => exact ⟨rfl, rfl⟩
  | ok named =>
    obtain ⟨userId, family⟩ := named
    simp only [ok_bind, pure, Except.pure, Demand.after?]
    cases s.store.revoke? userId family with
    | none => exact ⟨rfl, rfl⟩
    | some store => exact ⟨rfl, rfl⟩

/-! ## Where demands come from -/

/-- Every demand was found by identifying the caller of its call. -/
def State.Founded (g : Gateway) (s : State) : Prop :=
  ∀ i call p d, s.calls i = some (call, p) → p.demand? = some d →
    ∃ now fresh store, g.demand now fresh store call = .ok d

theorem State.Founded.start (g : Gateway) (users : List User) (limit : Nat) :
    (State.start users limit).Founded g := by
  intro i call p d hcall
  cases hcall

theorem State.Founded.put {g : Gateway} {s : State} (h : s.Founded g) {i : Nat} {call : Call}
    {p : Progress} (hp : ∀ d, p.demand? = some d → ∃ now fresh store,
      g.demand now fresh store call = .ok d) : (s.put i call p).Founded g := by
  intro j call' p' d hj hd
  rw [calls_put, Function.update_apply] at hj
  split at hj
  · cases hj
    exact hp d hd
  · exact h j call' p' d hj hd

theorem step_founded (g : Gateway) (s : State) (a : Action) (h : s.Founded g) :
    (g.step s a).Founded g := by
  cases a with
  | arrive i call =>
    simp only [step]
    split
    · exact h.put nofun
    · exact h
  | identify i now fresh =>
    simp only [step]
    split
    · rename_i call hcall
      split
      · exact h.put nofun
      · rename_i d hd
        split
        · exact h.put fun e he => ⟨now, fresh, s.store, by cases he; exact hd⟩
        · exact h
    · exact h
  | meet i =>
    simp only [step]
    split
    · rename_i call d hcall
      split
      · exact h.put nofun
      · exact h.put fun e he => h i call _ e hcall he
    · exact h
  | answer i now =>
    simp only [step]
    split
    · rename_i call d hcall
      exact h.put fun e he => h i call _ e hcall he
    · exact h

theorem State.Founded.run {g : Gateway} {s : State} (h : s.Founded g) (actions : List Action) :
    (g.run s actions).Founded g :=
  run_induction (step_founded g) h actions

/-! ## What a step does -/

/-- What a step does to the store, to the ids drawn, and to the demands that calls wait for or that
were met. -/
inductive Moves (s t : State) : Prop where
  | quiet (hstore : t.store = s.store) (hdrawn : t.drawn = s.drawn)
      (hpending : ∀ i d, t.pending? i = some d → s.pending? i = some d) (hmet : t.met? = s.met?)
  | identifies (i : Nat) (d : Demand) (hfresh : ∀ f ∈ d.new?, 0 < f ∧ f ∉ s.drawn)
      (hstore : t.store = s.store) (hdrawn : t.drawn = d.new?.toList ++ s.drawn)
      (hpending : t.pending? = Function.update s.pending? i (some d)) (hmet : t.met? = s.met?)
  | meets (i : Nat) (d : Demand) (hwaits : s.pending? i = some d) (hnew : s.met? i = none)
      (hafter : d.after? s.store = some t.store) (hdrawn : t.drawn = s.drawn)
      (hpending : t.pending? = Function.update s.pending? i none)
      (hmet : t.met? = Function.update s.met? i (some d))

/-- What stands at one place after a change at another, or at the same. -/
theorem update_eq_some {f : Nat → Option Demand} {i j : Nat} {x : Option Demand} {d : Demand}
    (h : Function.update f i x j = some d) : j = i ∧ x = some d ∨ j ≠ i ∧ f j = some d := by
  rw [Function.update_apply] at h
  split at h
  · exact .inl ⟨‹_›, h⟩
  · exact .inr ⟨‹_›, h⟩

/-- A call that moves on without waiting for the store, and without having got anything new from
it. -/
theorem moves_put {s : State} {i : Nat} {call : Call} {p : Progress} (hp : p.pending? = none)
    (hmet : p.met? = s.met? i) : Moves s (s.put i call p) := by
  refine .quiet rfl rfl ?_ ?_
  · intro j d hd
    rw [State.pending?_put, hp] at hd
    rcases update_eq_some hd with ⟨-, hd⟩ | ⟨-, hd⟩
    · cases hd
    · exact hd
  · rw [State.met?_put, hmet, Function.update_eq_self]

theorem moves_refl (s : State) : Moves s s := .quiet rfl rfl (fun _ _ h => h) rfl

theorem step_moves (g : Gateway) (s : State) (a : Action) : Moves s (g.step s a) := by
  cases a with
  | arrive i call =>
    simp only [step]
    split
    · rename_i hnone
      exact moves_put rfl (by simp [State.met?, hnone, Progress.met?])
    · exact moves_refl s
  | identify i now fresh =>
    simp only [step]
    split
    · rename_i call hcall
      have hmet : s.met? i = none := by simp [State.met?, hcall, Progress.met?]
      split
      · exact moves_put rfl hmet.symm
      · -- the one case in which an id may be drawn
        rename_i d hd
        split
        · rename_i hfresh
          refine .identifies i d hfresh rfl rfl (s.pending?_put i call _) ?_
          refine (s.met?_put i call (.identified d)).trans ?_
          rw [← hmet.trans (show none = (Progress.identified d).met? from rfl),
            Function.update_eq_self]
        · exact moves_refl s
    · exact moves_refl s
  | meet i =>
    simp only [step]
    split
    · rename_i call d hcall
      have hwaits : s.pending? i = some d := by simp [State.pending?, hcall, Progress.pending?]
      have hmet : s.met? i = none := by simp [State.met?, hcall, Progress.met?]
      split
      · exact moves_put rfl hmet.symm
      · -- the one case in which the store changes
        rename_i store hafter
        exact .meets i d hwaits hmet hafter rfl (s.pending?_put i call _) (s.met?_put i call _)
    · exact moves_refl s
  | answer i now =>
    simp only [step]
    split
    · rename_i call d hcall
      exact moves_put rfl (by simp [State.met?, hcall, Progress.met?])
    · exact moves_refl s

/-- What every move keeps, every run keeps. -/
theorem run_moves {P : State → Prop} (hmoves : ∀ s t, Moves s t → P s → P t) (g : Gateway)
    {s : State} (h : P s) (actions : List Action) : P (g.run s actions) :=
  run_induction (fun s a => hmoves s _ (step_moves g s a)) h actions

end PicBoard.Gateway
