import Mathlib.Logic.Relation
import Mathlib.Tactic
import PicBoard.Proofs.Gateway.Presented

/-!
# A family is spent once

Whatever the order in which the steps of calls come, a family ends once at most, and once it has
ended it is never live again.  The invariant follows each id that was drawn: one call waits to start
it, then it is live for one user, then it is over.
-/

namespace PicBoard.Gateway

/-! ## Meeting a demand -/

/-- A demand that is met ends a live family, leaves the queues of other users alone, and puts what
it starts behind what it keeps. -/
theorem Demand.families_of_after? {d : Demand} {s t : UserStore} (h : d.after? s = some t) :
    (∀ f ∈ d.old?, f ∈ s.families d.userId) ∧
      (∀ other, other ≠ d.userId → t.families other = s.families other) ∧
      ∃ kept, kept.Sublist (UserStore.without d.old? (s.families d.userId)) ∧
        t.families d.userId = kept ++ d.new?.toList := by
  have hfamilies := Demand.families_eq_of_after? h
  have hqueue := (hfamilies d.userId).trans (if_pos rfl)
  refine ⟨?_, ?_, ?_⟩
  · cases d with
    | start who fresh => exact (UserStore.rotate?_eq_some h).1
    | stop userId family =>
      intro f hf
      cases hf
      exact (UserStore.revoke?_eq_some h).1
  · intro other hother
    exact (hfamilies other).trans (if_neg hother)
  · cases d with
    | start who fresh => exact ⟨_, UserStore.makeRoom_sublist s.familyLimit _, hqueue⟩
    | stop userId family => exact ⟨_, List.Sublist.refl _, hqueue.trans (List.append_nil _).symm⟩

/-- A family that is live after a demand was met was live before, or is the one that started. -/
theorem Demand.mem_of_after? {d : Demand} {s t : UserStore} (h : d.after? s = some t)
    {userId f : Int64} (hf : f ∈ t.families userId) :
    f ∈ s.families userId ∨ userId = d.userId ∧ f ∈ d.new? := by
  obtain ⟨-, hothers, kept, hkept, hfamilies⟩ := d.families_of_after? h
  by_cases hid : userId = d.userId
  · subst hid
    rw [hfamilies, List.mem_append, Option.mem_toList] at hf
    rcases hf with hf | hf
    · exact .inl ((UserStore.without_sublist _ _).subset (hkept.subset hf))
    · exact .inr ⟨rfl, hf⟩
  · rw [hothers userId hid] at hf
    exact .inl hf

/-! ## The stages of an id -/

namespace State

/-- An id was drawn, and no call waits to start it any more. -/
def Settled (s : State) (f : Int64) : Prop :=
  f ∈ s.drawn ∧ ∀ i d, s.pending? i = some d → f ∉ d.new?

/-- A family is neither live nor to be started. -/
def Over (s : State) (f : Int64) : Prop :=
  s.Settled f ∧ ∀ userId, f ∉ s.store.families userId

theorem Settled.moves {s t : State} {f : Int64} (hf : s.Settled f) (h : Moves s t) :
    t.Settled f := by
  obtain ⟨hdrawn, hwaits⟩ := hf
  cases h with
  | quiet hstore hdrawn' hpending hmet =>
    exact ⟨hdrawn' ▸ hdrawn, fun i d hd => hwaits i d (hpending i d hd)⟩
  | identifies i d hfresh hstore hdrawn' hpending hmet =>
    refine ⟨by rw [hdrawn']; exact List.mem_append_right _ hdrawn, ?_⟩
    intro j e he
    rw [hpending] at he
    rcases update_eq_some he with ⟨-, he⟩ | ⟨-, he⟩
    · cases he
      exact fun hnew => (hfresh f hnew).2 hdrawn
    · exact hwaits j e he
  | meets i d hwaiting hnew hafter hdrawn' hpending hmet =>
    refine ⟨hdrawn' ▸ hdrawn, ?_⟩
    intro j e he
    rw [hpending] at he
    rcases update_eq_some he with ⟨-, he⟩ | ⟨-, he⟩
    · cases he
    · exact hwaits j e he

/-- No move brings a settled id into a queue. -/
theorem Settled.live_of_moves {s t : State} {f userId : Int64} (hf : s.Settled f)
    (h : Moves s t) (hlive : f ∈ t.store.families userId) : f ∈ s.store.families userId := by
  cases h with
  | quiet hstore hdrawn hpending hmet => exact hstore ▸ hlive
  | identifies i d hfresh hstore hdrawn hpending hmet => exact hstore ▸ hlive
  | meets i d hwaiting hnew hafter hdrawn hpending hmet =>
    rcases d.mem_of_after? hafter hlive with hlive | ⟨-, hstarts⟩
    · exact hlive
    · exact absurd hstarts (hf.2 i d hwaiting)

theorem Over.moves {s t : State} {f : Int64} (hf : s.Over f) (h : Moves s t) : t.Over f :=
  ⟨hf.1.moves h, fun userId hlive => hf.2 userId (hf.1.live_of_moves h hlive)⟩

end State

/-! ## The invariant -/

/-- Every id is positive and in one stage only: one call waits to start it, or it is once in the
queue of one user, or it is over; and one call at most has ended it. -/
structure State.Sound (s : State) : Prop where
  drawn_pos : ∀ f ∈ s.drawn, 0 < f
  waiting_drawn : ∀ i d f, s.pending? i = some d → f ∈ d.new? → f ∈ s.drawn
  waiting_once : ∀ i j d e f, s.pending? i = some d → s.pending? j = some e → f ∈ d.new? →
    f ∈ e.new? → i = j
  live_settled : ∀ userId, ∀ f ∈ s.store.families userId, s.Settled f
  live_nodup : ∀ userId, (s.store.families userId).Nodup
  live_once : ∀ userId other f, f ∈ s.store.families userId → f ∈ s.store.families other →
    userId = other
  ended_over : ∀ i d f, s.met? i = some d → f ∈ d.old? → s.Over f
  ended_once : ∀ i j d e f, s.met? i = some d → s.met? j = some e → f ∈ d.old? → f ∈ e.old? →
    i = j

theorem State.Sound.start (users : List User) (limit : Nat) : (State.start users limit).Sound := by
  have hqueue : ∀ userId, (State.start users limit).store.families userId = [] :=
    UserStore.families_ofUsers users limit
  have hpending : ∀ i, (State.start users limit).pending? i = none := fun _ => rfl
  have hmet : ∀ i, (State.start users limit).met? i = none := fun _ => rfl
  constructor
  · intro f hf
    cases hf
  · intro i d f hd
    simp [hpending] at hd
  · intro i j d e f hd
    simp [hpending] at hd
  · intro userId f hf
    simp [hqueue] at hf
  · intro userId
    simp [hqueue]
  · intro userId other f hf
    simp [hqueue] at hf
  · intro i d f hd
    simp [hmet] at hd
  · intro i j d e f hd
    simp [hmet] at hd

/-- What is live after a demand was met: the families of before, settled as they are, and the one
that the call waited to start. -/
theorem State.Sound.live_of_meets {s t : State} (h : s.Sound) {i : Nat} {d : Demand}
    (hwaiting : s.pending? i = some d) (hafter : d.after? s.store = some t.store)
    {userId f : Int64} (hf : f ∈ t.store.families userId) :
    f ∈ s.store.families userId ∧ f ∉ d.new? ∨ userId = d.userId ∧ f ∈ d.new? := by
  rcases d.mem_of_after? hafter hf with hlive | hstarts
  · exact .inl ⟨hlive, (h.live_settled userId f hlive).2 i d hwaiting⟩
  · exact .inr hstarts

/-- The family that a demand ends is in no queue once it is met. -/
theorem State.Sound.over_of_meets {s t : State} (h : s.Sound) (hmoves : Moves s t) {i : Nat}
    {d : Demand} (hwaiting : s.pending? i = some d) (hafter : d.after? s.store = some t.store)
    {f : Int64} (hf : f ∈ d.old?) : t.Over f := by
  obtain ⟨hold, hothers, kept, hkept, hfamilies⟩ := d.families_of_after? hafter
  have hlive : f ∈ s.store.families d.userId := hold f hf
  have hsettled : s.Settled f := h.live_settled d.userId f hlive
  refine ⟨hsettled.moves hmoves, ?_⟩
  intro userId hmem
  by_cases hid : userId = d.userId
  · subst hid
    rw [hfamilies, List.mem_append, Option.mem_toList] at hmem
    rcases hmem with hmem | hmem
    · -- it stood in the queue once, and was taken out
      have hwithout := hkept.subset hmem
      rw [Option.mem_def.mp hf] at hwithout
      exact UserStore.not_mem_without (h.live_nodup d.userId) hwithout
    · exact hsettled.2 i d hwaiting hmem
  · rw [hothers userId hid] at hmem
    exact hid (h.live_once userId d.userId f hmem hlive)

theorem State.Sound.live_nodup_of_meets {s t : State} (h : s.Sound) {i : Nat} {d : Demand}
    (hwaiting : s.pending? i = some d) (hafter : d.after? s.store = some t.store)
    (userId : Int64) : (t.store.families userId).Nodup := by
  obtain ⟨-, hothers, kept, hkept, hfamilies⟩ := d.families_of_after? hafter
  by_cases hid : userId = d.userId
  · subst hid
    have hsub : kept.Sublist (s.store.families d.userId) :=
      hkept.trans (UserStore.without_sublist _ _)
    rw [hfamilies, List.nodup_append]
    refine ⟨(h.live_nodup d.userId).sublist hsub, ?_, ?_⟩
    · cases d.new? <;> simp
    · rintro f hf g hg rfl
      have hsettled := h.live_settled d.userId f (hsub.subset hf)
      exact hsettled.2 i d hwaiting (Option.mem_toList.mp hg)
  · rw [hothers userId hid]
    exact h.live_nodup userId

/-- A move that leaves the queues alone has to answer for the ids that are drawn and waited for
only. -/
theorem State.Sound.of_same_store {s t : State} (h : s.Sound) (hmoves : Moves s t)
    (hstore : t.store = s.store) (hmet : t.met? = s.met?) (hpos : ∀ f ∈ t.drawn, 0 < f)
    (hdrawn : ∀ i d f, t.pending? i = some d → f ∈ d.new? → f ∈ t.drawn)
    (honce : ∀ i j d e f, t.pending? i = some d → t.pending? j = some e → f ∈ d.new? →
      f ∈ e.new? → i = j) : t.Sound where
  drawn_pos := hpos
  waiting_drawn := hdrawn
  waiting_once := honce
  live_settled := by
    rw [hstore]
    exact fun userId f hf => (h.live_settled userId f hf).moves hmoves
  live_nodup := by
    rw [hstore]
    exact h.live_nodup
  live_once := by
    rw [hstore]
    exact h.live_once
  ended_over := by
    rw [hmet]
    exact fun i d f hd hf => (h.ended_over i d f hd hf).moves hmoves
  ended_once := by
    rw [hmet]
    exact h.ended_once

theorem State.Sound.moves {s t : State} (h : s.Sound) (hmoves : Moves s t) : t.Sound := by
  have hmoves' := hmoves
  cases hmoves with
  | quiet hstore hdrawn hpending hmet =>
    refine h.of_same_store hmoves' hstore hmet ?_ ?_ ?_
    · rw [hdrawn]
      exact h.drawn_pos
    · intro i d f hd hf
      rw [hdrawn]
      exact h.waiting_drawn i d f (hpending i d hd) hf
    · intro i j d e f hd he hf hf'
      exact h.waiting_once i j d e f (hpending i d hd) (hpending j e he) hf hf'
  | identifies i d hfresh hstore hdrawn hpending hmet =>
    have hcases : ∀ j e, t.pending? j = some e → j = i ∧ e = d ∨ s.pending? j = some e := by
      intro j e he
      rw [hpending] at he
      rcases update_eq_some he with ⟨hj, he⟩ | ⟨-, he⟩
      · exact .inl ⟨hj, (Option.some.inj he).symm⟩
      · exact .inr he
    refine h.of_same_store hmoves' hstore hmet ?_ ?_ ?_
    · intro f hf
      rw [hdrawn, List.mem_append, Option.mem_toList] at hf
      rcases hf with hf | hf
      · exact (hfresh f hf).1
      · exact h.drawn_pos f hf
    · intro j e f he hf
      rw [hdrawn, List.mem_append, Option.mem_toList]
      rcases hcases j e he with ⟨-, rfl⟩ | he
      · exact .inl hf
      · exact .inr (h.waiting_drawn j e f he hf)
    · -- the id was drawn only now, so no other call waits to start it
      intro j k e e' f he he' hf hf'
      rcases hcases j e he with ⟨rfl, rfl⟩ | he <;> rcases hcases k e' he' with ⟨rfl, rfl⟩ | he'
      · rfl
      · exact absurd (h.waiting_drawn k e' f he' hf') (hfresh f hf).2
      · exact absurd (h.waiting_drawn j e f he hf) (hfresh f hf').2
      · exact h.waiting_once j k e e' f he he' hf hf'
  | meets i d hwaiting hnone hafter hdrawn hpending hmet =>
    have hold : ∀ f ∈ d.old?, f ∈ s.store.families d.userId := (d.families_of_after? hafter).1
    have hwaits : ∀ j e, t.pending? j = some e → j ≠ i ∧ s.pending? j = some e := by
      intro j e he
      rw [hpending] at he
      rcases update_eq_some he with ⟨-, he⟩ | he
      · cases he
      · exact he
    have hcases : ∀ j e, t.met? j = some e → j = i ∧ e = d ∨ s.met? j = some e := by
      intro j e he
      rw [hmet] at he
      rcases update_eq_some he with ⟨hj, he⟩ | ⟨-, he⟩
      · exact .inl ⟨hj, (Option.some.inj he).symm⟩
      · exact .inr he
    have hlive : ∀ userId f, f ∈ t.store.families userId →
        f ∈ s.store.families userId ∧ f ∉ d.new? ∨ userId = d.userId ∧ f ∈ d.new? :=
      fun userId f => h.live_of_meets hwaiting hafter
    constructor
    · rw [hdrawn]
      exact h.drawn_pos
    · intro j e f he hf
      rw [hdrawn]
      exact h.waiting_drawn j e f (hwaits j e he).2 hf
    · intro j k e e' f he he' hf hf'
      exact h.waiting_once j k e e' f (hwaits j e he).2 (hwaits k e' he').2 hf hf'
    · intro userId f hf
      rcases hlive userId f hf with ⟨hf, -⟩ | ⟨-, hf⟩
      · exact (h.live_settled userId f hf).moves hmoves'
      · -- the family that starts was waited for by this call and by no other
        refine ⟨hdrawn ▸ h.waiting_drawn i d f hwaiting hf, ?_⟩
        intro j e he hf'
        obtain ⟨hj, he⟩ := hwaits j e he
        exact hj (h.waiting_once j i e d f he hwaiting hf' hf)
    · exact h.live_nodup_of_meets hwaiting hafter
    · intro userId other f hf hf'
      rcases hlive userId f hf with ⟨hf, hnot⟩ | ⟨hid, hnew⟩ <;>
        rcases hlive other f hf' with ⟨hf', hnot'⟩ | ⟨hid', hnew'⟩
      · exact h.live_once userId other f hf hf'
      · exact absurd hnew' hnot
      · exact absurd hnew hnot'
      · rw [hid, hid']
    · intro j e f he hf
      rcases hcases j e he with ⟨-, rfl⟩ | he
      · exact h.over_of_meets hmoves' hwaiting hafter hf
      · exact (h.ended_over j e f he hf).moves hmoves'
    · -- what this call ends was live, so no call has ended it before
      intro j k e e' f he he' hf hf'
      rcases hcases j e he with ⟨rfl, rfl⟩ | he <;> rcases hcases k e' he' with ⟨rfl, rfl⟩ | he'
      · rfl
      · exact absurd (hold f hf) ((h.ended_over k e' f he' hf').2 _)
      · exact absurd (hold f hf') ((h.ended_over j e f he hf).2 _)
      · exact h.ended_once j k e e' f he he' hf hf'

/-! ## Runs -/

theorem State.Sound.run {s : State} (h : s.Sound) (g : Gateway) (actions : List Action) :
    (g.run s actions).Sound :=
  run_moves (fun _ _ hmoves h => h.moves hmoves) g h actions

theorem State.Over.run {s : State} {f : Int64} (h : s.Over f) (g : Gateway)
    (actions : List Action) : (g.run s actions).Over f :=
  run_moves (fun _ _ hmoves h => State.Over.moves h hmoves) g h actions

/-- A family that was live for a user is, at any later time, still live for that user or over. -/
theorem State.Sound.live_or_over {s : State} (h : s.Sound) (g : Gateway) {userId f : Int64}
    (hf : f ∈ s.store.families userId) (actions : List Action) :
    f ∈ (g.run s actions).store.families userId ∨ (g.run s actions).Over f := by
  obtain ⟨hsettled, honly⟩ : (g.run s actions).Settled f ∧
      ∀ other, f ∈ (g.run s actions).store.families other → other = userId := by
    refine run_moves (P := fun t => t.Settled f ∧ ∀ other, f ∈ t.store.families other →
      other = userId) ?_ g ⟨h.live_settled userId f hf, ?_⟩ actions
    · rintro s t hmoves ⟨hsettled, honly⟩
      refine ⟨hsettled.moves hmoves, ?_⟩
      intro other hother
      exact honly other (hsettled.live_of_moves hmoves hother)
    · intro other hother
      exact h.live_once other userId f hother hf
  by_cases hlive : f ∈ (g.run s actions).store.families userId
  · exact .inl hlive
  · refine .inr ⟨hsettled, ?_⟩
    intro other hother
    exact hlive (honly other hother ▸ hother)

/-! ## Calls and the families that they present -/

namespace State

/-- A call that came in presents a token that names a user and a family. -/
def Presents (s : State) (i : Nat) (userId family : Int64) : Prop :=
  ∃ call p, s.calls i = some (call, p) ∧ call.Names userId family

/-- A call was told that it succeeded. -/
def Succeeded (s : State) (i : Nat) : Prop := ∃ a, s.result? i = some (.ok a)

/-- One family was started in the place of another. -/
def Rotated (s : State) (old new : Int64) : Prop :=
  ∃ i d, s.met? i = some d ∧ old ∈ d.old? ∧ new ∈ d.new?

/-- A call that succeeded got what it asked for from the store. -/
theorem Succeeded.exists_met {s : State} {i : Nat} (h : s.Succeeded i) :
    ∃ d, s.met? i = some d := by
  obtain ⟨a, h⟩ := h
  unfold result? at h
  unfold met?
  cases hcall : s.calls i with
  | none => simp [hcall] at h
  | some entry =>
    obtain ⟨call, p⟩ := entry
    cases p with
    | answered d r => exact ⟨d, rfl⟩
    | arrived => simp [hcall, Progress.result?] at h
    | identified d => simp [hcall, Progress.result?] at h
    | met d => simp [hcall, Progress.result?] at h
    | refused e => simp [hcall, Progress.result?] at h

/-- What a call gets from the store is the end of the family that it presents. -/
theorem Presents.ended {g : Gateway} {s : State} (h : s.Founded g) {i : Nat}
    {userId family : Int64} (hi : s.Presents i userId family) {d : Demand}
    (hd : s.met? i = some d) : d.userId = userId ∧ family ∈ d.old? := by
  obtain ⟨call, p, hcall, hnames⟩ := hi
  have hp : p.met? = some d := by simpa [met?, hcall] using hd
  obtain ⟨now, fresh, store, hdemand⟩ := h i call p d hcall (Progress.demand?_of_met? hp)
  exact demand_named hdemand hnames

/-- Of two live families that come from one, neither was started in the place of the other, so
they are the same. -/
theorem Sound.eq_of_rotated {s : State} (h : s.Sound) {root f f' userId userId' : Int64}
    (hf : Relation.ReflTransGen s.Rotated root f) (hf' : Relation.ReflTransGen s.Rotated root f')
    (hlive : f ∈ s.store.families userId) (hlive' : f' ∈ s.store.families userId') : f = f' := by
  have hunique : Relator.RightUnique s.Rotated := by
    rintro a b c ⟨i, d, hd, hold, hnew⟩ ⟨j, e, he, hold', hnew'⟩
    obtain rfl := h.ended_once i j d e a hd he hold hold'
    cases hd.symm.trans he
    exact Option.mem_unique hnew hnew'
  have hlast : ∀ {x y : Int64} {u : Int64}, x ∈ s.store.families u →
      Relation.ReflTransGen s.Rotated x y → x = y := by
    intro x y u hx hxy
    -- What another was started in the place of has ended.
    rcases Relation.ReflTransGen.cases_head hxy with rfl | ⟨z, ⟨i, d, hd, hold, -⟩, -⟩
    · rfl
    · exact absurd hx ((h.ended_over i d x hd hold).2 u)
  rcases Relation.ReflTransGen.total_of_right_unique hunique hf hf' with hff' | hff'
  · exact hlast hlive hff'
  · exact (hlast hlive' hff').symm

end State

/-! ## Spent once -/

/-- Whatever calls come in and however their steps are mixed: of the calls that present one family
of one user, one at most gets past the store, and so one at most succeeds.  A family whose end was
asked for and granted, or that stopped being live in any way, is never live again.  Two live
families never come from one.  And zero is no live family. -/
theorem family_spent_once (g : Gateway) (users : List User) (limit : Nat)
    (first second third : List Action) :
    let s := g.run (State.start users limit) first
    let t := g.run s second
    let u := g.run t third
    (∀ userId family i j, u.Presents i userId family → u.Presents j userId family →
      (u.Succeeded i → u.Succeeded j → i = j) ∧
      ∀ d e, u.met? i = some d → u.met? j = some e → i = j) ∧
    (∀ userId family, family ∈ s.store.families userId → family ∉ t.store.families userId →
      ∀ other, family ∉ u.store.families other) ∧
    (∀ userId family i d, t.Presents i userId family → t.met? i = some d →
      ∀ other, family ∉ u.store.families other) ∧
    (∀ root family family' userId userId', Relation.ReflTransGen u.Rotated root family →
      Relation.ReflTransGen u.Rotated root family' → family ∈ u.store.families userId →
      family' ∈ u.store.families userId' → family = family') ∧
    ∀ userId, 0 ∉ u.store.families userId := by
  intro s t u
  have hs : s.Sound := (State.Sound.start users limit).run g first
  have ht : t.Sound := hs.run g second
  have hu : u.Sound := ht.run g third
  have hfs : s.Founded g := (State.Founded.start g users limit).run first
  have hft : t.Founded g := hfs.run second
  have hfu : u.Founded g := hft.run third
  refine ⟨?_, ?_, ?_, ?_, ?_⟩
  · intro userId family i j hi hj
    have honce : ∀ d e, u.met? i = some d → u.met? j = some e → i = j := by
      intro d e hd he
      exact hu.ended_once i j d e family hd he (hi.ended hfu hd).2 (hj.ended hfu he).2
    refine ⟨?_, honce⟩
    intro hi' hj'
    obtain ⟨d, hd⟩ := hi'.exists_met
    obtain ⟨e, he⟩ := hj'.exists_met
    exact honce d e hd he
  · intro userId family hlive hgone other
    rcases hs.live_or_over g hlive second with h | h
    · exact absurd h hgone
    · exact (h.run g third).2 other
  · intro userId family i d hi hd other
    have hover : t.Over family := ht.ended_over i d family hd (hi.ended hft hd).2
    exact (hover.run g third).2 other
  · intro root family family' userId userId' hf hf' hlive hlive'
    exact hu.eq_of_rotated hf hf' hlive hlive'
  · intro userId hzero
    have hpos := hu.drawn_pos 0 (hu.live_settled userId 0 hzero).1
    exact absurd hpos (by decide)

end PicBoard.Gateway
