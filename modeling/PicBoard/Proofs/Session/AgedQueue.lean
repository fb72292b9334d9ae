import Mathlib.Tactic
import PicBoard.Proofs.Session.Families

/-!
# Queues in the order of age

The store against queues of sessions, each of which carries the number of the call that started it.
A queue of sessions holds so many at most, oldest first: a family that is started in the place of
another takes its room, and one that is started without another takes the room of the oldest when
the queue is full.  `store_refines_aged_queues`: whatever calls are made, the families in the store
are those of the sessions, and the calls are answered alike.
-/

namespace PicBoard

/-! ## Calls on the store -/

/-- A call that changes the families of a user: it starts one, in the place of another if one is
named, or it ends one. -/
inductive StoreCall where
  | rotate (userId : Int64) (old : Option Int64) (new : Int64)
  | revoke (userId family : Int64)

namespace StoreCall

/-- The user whose families it changes. -/
def userId : StoreCall → Int64
  | rotate userId _ _ => userId
  | revoke userId _ => userId

/-- The family that it ends, if it ends one. -/
def old? : StoreCall → Option Int64
  | rotate _ old _ => old
  | revoke _ family => some family

/-- The family that it starts, if it starts one. -/
def new? : StoreCall → Option Int64
  | rotate _ _ new => some new
  | revoke _ _ => none

end StoreCall

namespace UserStore

variable {s t : UserStore} {c : StoreCall}

/-- The store after a call that is granted. -/
def granted? (s : UserStore) : StoreCall → Option UserStore
  | .rotate userId old new => s.rotate? userId old new
  | .revoke userId family => s.revoke? userId family

/-- Whether a call is granted, and the store after it. -/
def call (s : UserStore) (c : StoreCall) : Bool × UserStore :=
  match s.granted? c with
  | some t => (true, t)
  | none => (false, s)

/-- The answers to a number of calls, and the store after them. -/
def callAll (s : UserStore) (calls : List StoreCall) : List Bool × UserStore :=
  calls.foldl (fun (answers, s) c => (answers ++ [(s.call c).1], (s.call c).2)) ([], s)

theorem callAll_append_one (s : UserStore) (calls : List StoreCall) (c : StoreCall) :
    s.callAll (calls ++ [c]) =
      ((s.callAll calls).1 ++ [((s.callAll calls).2.call c).1],
        ((s.callAll calls).2.call c).2) := by
  unfold callAll
  rw [List.foldl_append]
  rfl

theorem call_of_granted (h : s.granted? c = some t) : s.call c = (true, t) := by
  unfold call
  rw [h]

theorem call_of_not_granted (h : s.granted? c = none) : s.call c = (false, s) := by
  unfold call
  rw [h]

/-- A call is granted or it changes nothing. -/
theorem call_cases (s : UserStore) (c : StoreCall) :
    (∃ t, s.granted? c = some t ∧ s.call c = (true, t)) ∨
      s.granted? c = none ∧ s.call c = (false, s) := by
  cases h : s.granted? c with
  | some t => exact .inl ⟨t, rfl, call_of_granted h⟩
  | none => exact .inr ⟨rfl, call_of_not_granted h⟩

/-- A call is granted when its user is stored and the family that it ends is live. -/
theorem exists_granted?_iff :
    (∃ t, s.granted? c = some t) ↔
      (∃ e, s.stored? c.userId = some e) ∧ ∀ f ∈ c.old?, f ∈ s.families c.userId := by
  cases c with
  | rotate userId old new => exact exists_rotate?_iff
  | revoke userId family =>
    refine exists_revoke?_iff.trans ⟨?_, ?_⟩
    · intro hlive
      refine ⟨?_, ?_⟩
      · -- nobody has a live family who is not stored
        unfold families at hlive
        split at hlive
        · rename_i e he
          exact ⟨e, he⟩
        · cases hlive
      · intro f hf
        cases hf
        exact hlive
    · rintro ⟨-, hlive⟩
      exact hlive family rfl

/-- What a call that is granted does: it ends what it names, and makes room for what it starts and
puts it last. -/
theorem granted?_eq_some (h : s.granted? c = some t) :
    (∀ f ∈ c.old?, f ∈ s.families c.userId) ∧ t.familyLimit = s.familyLimit ∧
      t.records = s.records ∧ ∀ other, t.families other =
        if other = c.userId then
          match c.new? with
          | some new => makeRoom s.familyLimit (without c.old? (s.families c.userId)) ++ [new]
          | none => without c.old? (s.families c.userId)
        else s.families other := by
  cases c with
  | rotate userId old new =>
    obtain ⟨hold, hlimit, hfamilies⟩ := rotate?_eq_some h
    exact ⟨hold, hlimit, records_of_rotate? h, hfamilies⟩
  | revoke userId family =>
    obtain ⟨hold, hlimit, hfamilies⟩ := revoke?_eq_some h
    refine ⟨?_, hlimit, records_of_revoke? h, hfamilies⟩
    intro f hf
    cases hf
    exact hold

theorem familyLimit_call (s : UserStore) (c : StoreCall) :
    (s.call c).2.familyLimit = s.familyLimit := by
  rcases s.call_cases c with ⟨t, ht, hcall⟩ | ⟨-, hcall⟩
  · rw [hcall]
    exact (granted?_eq_some ht).2.1
  · rw [hcall]

theorem records_call (s : UserStore) (c : StoreCall) : (s.call c).2.records = s.records := by
  rcases s.call_cases c with ⟨t, ht, hcall⟩ | ⟨-, hcall⟩
  · rw [hcall]
    exact (granted?_eq_some ht).2.2.1
  · rw [hcall]

theorem familyLimit_callAll (s : UserStore) (calls : List StoreCall) :
    (s.callAll calls).2.familyLimit = s.familyLimit := by
  induction calls using List.reverseRecOn with
  | nil => rfl
  | append_singleton calls c ih => rw [callAll_append_one, familyLimit_call, ih]

/-- No call changes what is known of a user. -/
theorem records_callAll (s : UserStore) (calls : List StoreCall) :
    (s.callAll calls).2.records = s.records := by
  induction calls using List.reverseRecOn with
  | nil => rfl
  | append_singleton calls c ih => rw [callAll_append_one, records_call, ih]

/-! ## The loop that makes room -/

/-- Dropping the oldest family for as long as there is no room comes to an end with a queue.  An
empty queue stays empty, so with a limit of zero there never is an end. -/
inductive EvictionEnds (limit : Nat) : List Int64 → List Int64 → Prop where
  | done {queue : List Int64} (hroom : queue.length < limit) : EvictionEnds limit queue queue
  | drop {queue rest : List Int64} (hfull : limit ≤ queue.length)
      (hend : EvictionEnds limit queue.tail rest) : EvictionEnds limit queue rest

/-- The loop ends when the limit is positive, and with what `makeRoom` leaves. -/
theorem evictionEnds_iff {limit : Nat} {queue rest : List Int64} :
    EvictionEnds limit queue rest ↔ 0 < limit ∧ rest = makeRoom limit queue := by
  constructor
  · intro h
    induction h with
    | done hroom => exact ⟨by omega, (makeRoom_of_lt hroom).symm⟩
    | @drop queue rest hfull hend ih =>
      refine ⟨ih.1, ih.2.trans ?_⟩
      cases queue with
      | nil => rfl
      | cons f rest => exact (if_pos hfull).symm
  · rintro ⟨hpos, rfl⟩
    induction queue with
    | nil => exact .done hpos
    | cons f rest ih =>
      by_cases hfull : limit ≤ rest.length + 1
      · refine .drop hfull ?_
        rw [makeRoom, if_pos hfull]
        exact ih
      · rw [makeRoom_of_lt (by simpa using hfull)]
        exact .done (by simpa using hfull)

end UserStore

/-! ## Queues of sessions -/

/-- A live family, with the number of the call that started it. -/
structure Session where
  startedBy : Nat
  family : Int64

/-- What call number `n` does to the queue of its user: the queue before it, its answer, and the
queue after it. -/
inductive QueueStep (limit n : Nat) : StoreCall → List Session → Bool → List Session → Prop where
  /-- A live family is replaced: its oldest session ends, and nothing else does. -/
  | replace {userId old new : Int64} {older newer : List Session} {i : Nat}
      (hfirst : ∀ x ∈ older, x.family ≠ old) :
      QueueStep limit n (.rotate userId (some old) new) (older ++ ⟨i, old⟩ :: newer) true
        (older ++ newer ++ [⟨n, new⟩])
  /-- A family is added where there is room, and nothing ends. -/
  | add {userId new : Int64} {queue : List Session} (hroom : queue.length < limit) :
      QueueStep limit n (.rotate userId none new) queue true (queue ++ [⟨n, new⟩])
  /-- A family is added to a full queue, and just the oldest session ends. -/
  | evict {userId new : Int64} {oldest : Session} {rest : List Session}
      (hfull : (oldest :: rest).length = limit) :
      QueueStep limit n (.rotate userId none new) (oldest :: rest) true (rest ++ [⟨n, new⟩])
  /-- A live family ends: its oldest session does, and nothing else. -/
  | remove {userId family : Int64} {older newer : List Session} {i : Nat}
      (hfirst : ∀ x ∈ older, x.family ≠ family) :
      QueueStep limit n (.revoke userId family) (older ++ ⟨i, family⟩ :: newer) true
        (older ++ newer)
  /-- A family that is to end is not live, and nothing happens. -/
  | refuse {c : StoreCall} {old : Int64} {queue : List Session} (hold : c.old? = some old)
      (hdead : ∀ x ∈ queue, x.family ≠ old) : QueueStep limit n c queue false queue

/-- The queues of all users. -/
abbrev Queues := Int64 → List Session

/-- What call number `n` does to all queues: nothing but to the queue of its user, and nothing at
all when that user is not known. -/
inductive QueuesStep (known : Int64 → Prop) (limit n : Nat) (c : StoreCall) :
    Queues → Bool → Queues → Prop where
  | ofKnown {queues : Queues} {answer : Bool} {queue : List Session} (hknown : known c.userId)
      (hstep : QueueStep limit n c (queues c.userId) answer queue) :
      QueuesStep known limit n c queues answer (Function.update queues c.userId queue)
  | ofUnknown {queues : Queues} (hunknown : ¬ known c.userId) :
      QueuesStep known limit n c queues false queues

/-- The answers to calls, and the queues after them, when all queues are empty at first. -/
inductive QueuesRun (known : Int64 → Prop) (limit : Nat) :
    List StoreCall → List Bool → Queues → Prop where
  | start : QueuesRun known limit [] [] fun _ => []
  | next {calls : List StoreCall} {answers : List Bool} {queues queues' : Queues} {c : StoreCall}
      {answer : Bool} (hrun : QueuesRun known limit calls answers queues)
      (hstep : QueuesStep known limit calls.length c queues answer queues') :
      QueuesRun known limit (calls ++ [c]) (answers ++ [answer]) queues'

/-! ### What every run keeps -/

/-- A queue after some calls: within the limit, oldest session first, and each session started by
the call whose number it carries. -/
structure Aged (limit : Nat) (calls : List StoreCall) (userId : Int64) (queue : List Session) :
    Prop where
  length_le : queue.length ≤ limit
  sorted : queue.Pairwise fun x y => x.startedBy < y.startedBy
  started : ∀ x ∈ queue, ∃ old, calls[x.startedBy]? = some (.rotate userId old x.family)

namespace Aged

variable {limit : Nat} {calls : List StoreCall} {userId : Int64} {queue queue' : List Session}

/-- A queue stays in order while calls pass it by, also when sessions leave it. -/
theorem of_sublist (h : Aged limit calls userId queue) (hsub : queue'.Sublist queue)
    (c : StoreCall) : Aged limit (calls ++ [c]) userId queue' where
  length_le := hsub.length_le.trans h.length_le
  sorted := h.sorted.sublist hsub
  started := by
    intro x hx
    obtain ⟨old, hold⟩ := h.started x (hsub.subset hx)
    obtain ⟨hlt, -⟩ := List.getElem?_eq_some_iff.mp hold
    exact ⟨old, by rw [List.getElem?_append_left hlt, hold]⟩

/-- What a call starts goes behind what stays. -/
theorem append (h : Aged limit calls userId queue) (hsub : queue'.Sublist queue)
    (hroom : queue'.length < limit) (old : Option Int64) (new : Int64) :
    Aged limit (calls ++ [.rotate userId old new]) userId (queue' ++ [⟨calls.length, new⟩]) := by
  have hkept := h.of_sublist hsub (.rotate userId old new)
  refine ⟨by simpa using hroom, ?_, ?_⟩
  · rw [List.pairwise_append]
    refine ⟨hkept.sorted, List.pairwise_singleton _ _, ?_⟩
    -- what is there was started by an earlier call
    intro x hx y hy
    obtain ⟨old', hold'⟩ := h.started x (hsub.subset hx)
    obtain ⟨hlt, -⟩ := List.getElem?_eq_some_iff.mp hold'
    rw [List.mem_singleton.mp hy]
    exact hlt
  · intro x hx
    rcases List.mem_append.mp hx with hx | hx
    · exact hkept.started x hx
    · rw [List.mem_singleton.mp hx]
      exact ⟨old, by simp⟩

theorem step {c : StoreCall} {answer : Bool} (h : Aged limit calls c.userId queue)
    (hstep : QueueStep limit calls.length c queue answer queue') :
    Aged limit (calls ++ [c]) c.userId queue' := by
  cases hstep with
  | @replace userId old new older newer i hfirst =>
    have hsub : (older ++ newer).Sublist (older ++ ⟨i, old⟩ :: newer) :=
      List.Sublist.append_left (List.sublist_cons_self _ newer) older
    refine h.append hsub ?_ _ _
    have hle := h.length_le
    simp only [List.length_append, List.length_cons] at hle ⊢
    omega
  | add hroom => exact h.append (List.Sublist.refl _) hroom _ _
  | evict hfull =>
    refine h.append (List.sublist_cons_self _ _) ?_ _ _
    simp only [List.length_cons] at hfull
    omega
  | @remove userId family older newer i hfirst =>
    exact h.of_sublist (List.Sublist.append_left (List.sublist_cons_self _ newer) older) _
  | refuse hold hdead => exact h.of_sublist (List.Sublist.refl _) c

end Aged

theorem QueuesRun.aged {known : Int64 → Prop} {limit : Nat} {calls : List StoreCall}
    {answers : List Bool} {queues : Queues} (h : QueuesRun known limit calls answers queues)
    (userId : Int64) : Aged limit calls userId (queues userId) := by
  induction h with
  | start => exact ⟨Nat.zero_le _, List.Pairwise.nil, nofun⟩
  | @next calls answers queues queues' c answer hrun hstep ih =>
    cases hstep with
    | ofKnown hknown hqueue =>
      by_cases hid : userId = c.userId
      · subst hid
        rw [Function.update_self]
        exact ih.step hqueue
      · rw [Function.update_of_ne hid]
        exact ih.of_sublist (List.Sublist.refl _) c
    | ofUnknown hunknown => exact ih.of_sublist (List.Sublist.refl _) c

/-! ## The store and its queues of sessions -/

namespace UserStore

/-- The families of sessions. -/
def familiesOf (queue : List Session) : List Int64 := queue.map (·.family)

/-- A live family has an oldest session, and without it the queue loses its first place. -/
theorem exists_oldest {queue : List Session} {f : Int64} (h : f ∈ familiesOf queue) :
    ∃ older i newer, queue = older ++ ⟨i, f⟩ :: newer ∧ (∀ x ∈ older, x.family ≠ f) ∧
      (familiesOf queue).erase f = familiesOf (older ++ newer) := by
  obtain ⟨older, newer, hqueue, hfirst⟩ := List.eq_append_cons_of_mem h
  obtain ⟨older, rest, rfl, rfl, hrest⟩ := List.map_eq_append_iff.mp hqueue
  obtain ⟨⟨i, f⟩, newer, rfl, rfl, rfl⟩ := List.map_eq_cons_iff.mp hrest
  refine ⟨older, i, newer, rfl, ?_, ?_⟩
  · intro x hx hf
    exact hfirst (List.mem_map.mpr ⟨x, hx, hf⟩)
  · unfold familiesOf
    rw [List.map_append, List.map_cons, List.erase_append_right _ hfirst, List.erase_cons_head,
      List.map_append]

/-- A call that is granted is a step of its user's queue. -/
theorem queueStep_of_granted? {s t : UserStore} {c : StoreCall} {queue : List Session} (n : Nat)
    (h : s.granted? c = some t) (hqueue : s.families c.userId = familiesOf queue)
    (hlimit : queue.length ≤ s.familyLimit) :
    ∃ queue', QueueStep s.familyLimit n c queue true queue' ∧
      t.families c.userId = familiesOf queue' := by
  obtain ⟨hold, -, -, hfamilies⟩ := granted?_eq_some h
  have hafter := (hfamilies c.userId).trans (if_pos rfl)
  rw [hqueue] at hold hafter
  cases c with
  | rotate userId old new =>
    cases old with
    | some f =>
      obtain ⟨older, i, newer, rfl, hfirst, herase⟩ := exists_oldest (hold f rfl)
      refine ⟨_, .replace hfirst, hafter.trans ?_⟩
      -- one session less, so there is room
      have hroom : (familiesOf (older ++ newer)).length < s.familyLimit := by
        simp only [familiesOf, List.length_map, List.length_append, List.length_cons] at hlimit ⊢
        omega
      simp only [StoreCall.new?, StoreCall.old?, without, herase, makeRoom_of_lt hroom]
      simp [familiesOf]
    | none =>
      simp only [StoreCall.new?, StoreCall.old?, without] at hafter
      by_cases hroom : queue.length < s.familyLimit
      · refine ⟨_, .add hroom, hafter.trans ?_⟩
        rw [makeRoom_of_lt (by simpa [familiesOf] using hroom)]
        simp [familiesOf]
      · have hfull : queue.length = s.familyLimit := by omega
        cases queue with
        | nil => exact absurd hfull (by have := s.familyLimit_pos; simp; omega)
        | cons oldest rest =>
          refine ⟨_, .evict hfull, hafter.trans ?_⟩
          -- a queue is never more than full, so one session has to go
          have hone : (familiesOf (oldest :: rest)).length + 1 - s.familyLimit = 1 := by
            simp only [familiesOf, List.length_map]
            omega
          rw [makeRoom_eq_drop, hone]
          simp [familiesOf]
  | revoke userId family =>
    obtain ⟨older, i, newer, rfl, hfirst, herase⟩ := exists_oldest (hold family rfl)
    exact ⟨_, .remove hfirst, hafter.trans herase⟩

/-- A call on the store is a step of the queues. -/
theorem queuesStep_call {s : UserStore} {queues : Queues} (n : Nat) (c : StoreCall)
    (hqueues : ∀ userId, s.families userId = familiesOf (queues userId))
    (hlimit : (queues c.userId).length ≤ s.familyLimit) :
    ∃ queues', QueuesStep (fun userId => ∃ u ∈ s.records, u.userId = userId) s.familyLimit n c
        queues (s.call c).1 queues' ∧
      ∀ userId, (s.call c).2.families userId = familiesOf (queues' userId) := by
  rcases s.call_cases c with ⟨t, ht, hcall⟩ | ⟨hnone, hcall⟩
  · rw [hcall]
    obtain ⟨queue, hstep, hqueue⟩ := queueStep_of_granted? n ht (hqueues c.userId) hlimit
    have hknown := exists_stored?_iff.mp (exists_granted?_iff.mp ⟨t, ht⟩).1
    refine ⟨_, .ofKnown hknown hstep, ?_⟩
    intro userId
    by_cases hid : userId = c.userId
    · subst hid
      rw [Function.update_self, hqueue]
    · rw [Function.update_of_ne hid, ← hqueues userId]
      exact ((granted?_eq_some ht).2.2.2 userId).trans (if_neg hid)
  · rw [hcall]
    by_cases hknown : ∃ u ∈ s.records, u.userId = c.userId
    · -- the user is known, so it is the family that was wanting
      obtain ⟨f, hold, hdead⟩ : ∃ f ∈ c.old?, f ∉ s.families c.userId := by
        by_contra hall
        push Not at hall
        obtain ⟨t, ht⟩ := exists_granted?_iff.mpr ⟨exists_stored?_iff.mpr hknown, hall⟩
        rw [hnone] at ht
        cases ht
      have hrefused : QueueStep s.familyLimit n c (queues c.userId) false (queues c.userId) := by
        refine .refuse hold ?_
        intro x hx hf
        exact hdead (hqueues c.userId ▸ List.mem_map.mpr ⟨x, hx, hf⟩)
      refine ⟨_, .ofKnown hknown hrefused, ?_⟩
      rw [Function.update_eq_self]
      exact hqueues
    · exact ⟨queues, .ofUnknown hknown, hqueues⟩

/-- Any calls on the store are a run of the queues, with the same answers. -/
theorem exists_queuesRun (users : List User) (limit : Nat) (calls : List StoreCall) :
    ∃ queues, QueuesRun (fun userId => ∃ u ∈ users, u.userId = userId) (max limit 1) calls
        ((ofUsers users limit).callAll calls).1 queues ∧
      ∀ userId, ((ofUsers users limit).callAll calls).2.families userId =
        familiesOf (queues userId) := by
  induction calls using List.reverseRecOn with
  | nil => exact ⟨_, .start, families_ofUsers users limit⟩
  | append_singleton calls c ih =>
    obtain ⟨queues, hrun, hqueues⟩ := ih
    have hlimit : ((ofUsers users limit).callAll calls).2.familyLimit = max limit 1 :=
      familyLimit_callAll _ calls
    obtain ⟨queues', hstep, hqueues'⟩ := queuesStep_call calls.length c hqueues
      (hlimit ▸ (hrun.aged c.userId).length_le)
    simp only [hlimit, records_callAll, exists_record_ofUsers_iff] at hstep
    rw [callAll_append_one]
    exact ⟨queues', hrun.next hstep, hqueues'⟩

/-! ## Ids that are given once -/

/-- Of calls that start different families, two that start one family are the same. -/
theorem index_eq_of_new {calls : List StoreCall} (h : (calls.filterMap (·.new?)).Nodup)
    {i j : Nat} {c d : StoreCall} {f : Int64} (hi : calls[i]? = some c) (hj : calls[j]? = some d)
    (hc : c.new? = some f) (hd : d.new? = some f) : i = j := by
  have hpair := List.pairwise_filterMap.mp h
  have hlt : ∀ {i j : Nat} {c d : StoreCall}, calls[i]? = some c → calls[j]? = some d →
      c.new? = some f → d.new? = some f → ¬ i < j := by
    intro i j c d hi hj hc hd hij
    obtain ⟨hi', rfl⟩ := List.getElem?_eq_some_iff.mp hi
    obtain ⟨hj', rfl⟩ := List.getElem?_eq_some_iff.mp hj
    exact List.pairwise_iff_getElem.mp hpair i j hi' hj' hij f hc f hd rfl
  rcases Nat.lt_trichotomy i j with hij | hij | hij
  · exact absurd hij (hlt hi hj hc hd)
  · exact hij
  · exact absurd hij (hlt hj hi hd hc)

/-- Where every id is given once, no family stands twice in a queue. -/
theorem nodup_familiesOf {limit : Nat} {calls : List StoreCall} {userId : Int64}
    {queue : List Session} (h : Aged limit calls userId queue)
    (hnew : (calls.filterMap (·.new?)).Nodup) : (familiesOf queue).Nodup := by
  refine List.pairwise_map.mpr (h.sorted.imp_of_mem ?_)
  intro x y hx hy hlt hf
  obtain ⟨old, hold⟩ := h.started x hx
  obtain ⟨old', hold'⟩ := h.started y hy
  have hsame := index_eq_of_new hnew hold hold' rfl (by rw [← hf]; rfl)
  omega

/-- Where every id is given once, a family is in the queue of one user. -/
theorem userId_eq_of_mem_familiesOf {limit : Nat} {calls : List StoreCall} {userId other f : Int64}
    {queue queue' : List Session} (h : Aged limit calls userId queue)
    (h' : Aged limit calls other queue') (hnew : (calls.filterMap (·.new?)).Nodup)
    (hf : f ∈ familiesOf queue) (hf' : f ∈ familiesOf queue') : userId = other := by
  obtain ⟨x, hx, rfl⟩ := List.mem_map.mp hf
  obtain ⟨y, hy, hxy⟩ := List.mem_map.mp hf'
  obtain ⟨old, hold⟩ := h.started x hx
  obtain ⟨old', hold'⟩ := h'.started y hy
  have hsame := index_eq_of_new hnew hold hold' rfl (by rw [← hxy]; rfl)
  rw [← hsame, hold] at hold'
  injection Option.some.inj hold'

/-- A family that is not live stays so until a call starts it. -/
theorem not_mem_families_callAll {s : UserStore} {f : Int64} (h : ∀ userId, f ∉ s.families userId)
    {calls : List StoreCall} (hnew : ∀ c ∈ calls, c.new? ≠ some f) :
    ∀ userId, f ∉ (s.callAll calls).2.families userId := by
  induction calls using List.reverseRecOn with
  | nil => exact h
  | append_singleton calls c ih =>
    have hbefore := ih fun d hd => hnew d (List.mem_append_left _ hd)
    have hc := hnew c (by simp)
    intro userId hmem
    rw [callAll_append_one] at hmem
    rcases (s.callAll calls).2.call_cases c with ⟨t, ht, hcall⟩ | ⟨-, hcall⟩
    · rw [hcall, (granted?_eq_some ht).2.2.2 userId] at hmem
      have hkept := (without_sublist c.old? ((s.callAll calls).2.families c.userId)).subset
      split at hmem
      · split at hmem
        · rename_i new hnew'
          rcases List.mem_append.mp hmem with hmem | hmem
          · exact hbefore _ (hkept ((makeRoom_sublist _ _).subset hmem))
          · rw [List.mem_singleton.mp hmem] at hc
            exact hc hnew'
        · exact hbefore _ (hkept hmem)
      · exact hbefore _ hmem
    · rw [hcall] at hmem
      exact hbefore _ hmem

theorem callAll_append (s : UserStore) (before after : List StoreCall) :
    (s.callAll (before ++ after)).2 = ((s.callAll before).2.callAll after).2 := by
  induction after using List.reverseRecOn with
  | nil => rw [List.append_nil]; rfl
  | append_singleton after c ih =>
    rw [← List.append_assoc, callAll_append_one, callAll_append_one, ih]

/-- Where every id is given once, a family that a call has ended is live for nobody, whatever
calls come after. -/
theorem not_mem_families_of_ended {users : List User} {limit : Nat}
    {before after : List StoreCall} {c : StoreCall}
    (hnew : ((before ++ c :: after).filterMap (·.new?)).Nodup)
    (hgranted : (((ofUsers users limit).callAll before).2.call c).1 = true) {f : Int64}
    (hf : f ∈ c.old?) (userId : Int64) :
    f ∉ ((ofUsers users limit).callAll (before ++ c :: after)).2.families userId := by
  obtain ⟨queues, hrun, hqueues⟩ := exists_queuesRun users limit before
  rcases ((ofUsers users limit).callAll before).2.call_cases c with ⟨t, ht, hcall⟩ | ⟨-, hcall⟩
  swap
  · rw [hcall] at hgranted
    cases hgranted
  have hlive := (granted?_eq_some ht).1 f hf
  rw [hqueues] at hlive
  have hnewBefore : (before.filterMap (·.new?)).Nodup := by
    rw [List.filterMap_append] at hnew
    exact hnew.of_append_left
  -- the family was started before, so no call from here on starts it
  obtain ⟨x, hx, rfl⟩ := List.mem_map.mp hlive
  obtain ⟨old, hold⟩ := (hrun.aged c.userId).started x hx
  have hlater : ∀ d ∈ c :: after, d.new? ≠ some x.family := by
    intro d hd hnew'
    rw [List.filterMap_append, List.nodup_append] at hnew
    refine hnew.2.2 x.family ?_ x.family ?_ rfl
    · exact List.mem_filterMap.mpr ⟨_, List.mem_of_getElem? hold, rfl⟩
    · exact List.mem_filterMap.mpr ⟨d, hd, hnew'⟩
  have hended : ∀ other, x.family ∉ t.families other := by
    intro other hmem
    rw [(granted?_eq_some ht).2.2.2 other] at hmem
    have hgone : x.family ∉
        without c.old? (((ofUsers users limit).callAll before).2.families c.userId) := by
      rw [Option.mem_def.mp hf, hqueues]
      exact not_mem_without (nodup_familiesOf (hrun.aged c.userId) hnewBefore)
    split at hmem
    · split at hmem
      · rename_i new hnew'
        rcases List.mem_append.mp hmem with hmem | hmem
        · exact hgone ((makeRoom_sublist _ _).subset hmem)
        · refine hlater c (by simp) ?_
          rw [List.mem_singleton.mp hmem, hnew']
      · exact hgone hmem
    · -- it was live for the user of the call, and for nobody else
      rename_i hother
      rw [hqueues] at hmem
      exact hother (userId_eq_of_mem_familiesOf (hrun.aged other) (hrun.aged c.userId) hnewBefore
        hmem hlive)
  have hsplit : ((ofUsers users limit).callAll (before ++ c :: after)).2 =
      (t.callAll after).2 := by
    rw [List.append_cons, callAll_append, callAll_append_one, hcall]
  rw [hsplit]
  exact not_mem_families_callAll hended (fun d hd => hlater d (List.mem_cons_of_mem c hd)) userId

/-- Whatever calls are made on a new store, they are answered as the queues of sessions answer
them, and the families of each user are those of the sessions in the user's queue: `limit` at most,
or one where the limit is zero, in the order in which calls started them.  What is known of the
users stays as it is, a call that is not granted changes nothing, and the loop that makes room
comes to an end on every queue.  If every id is given once, no family is live twice or for two
users, and one that a call has ended is not live again. -/
theorem store_refines_aged_queues (users : List User) (limit : Nat) (calls : List StoreCall) :
    let first := ofUsers users limit
    let last := (first.callAll calls).2
    (∃ queues, QueuesRun (fun userId => ∃ u ∈ users, u.userId = userId) (max limit 1) calls
        (first.callAll calls).1 queues ∧
      ∀ userId, last.families userId = familiesOf (queues userId) ∧
        Aged (max limit 1) calls userId (queues userId)) ∧
    last.records = first.records ∧
    (∀ c, (last.call c).1 = false → (last.call c).2 = last) ∧
    (∀ queue, EvictionEnds last.familyLimit queue (makeRoom last.familyLimit queue)) ∧
    ((calls.filterMap (·.new?)).Nodup →
      (∀ userId, (last.families userId).Nodup) ∧
      (∀ userId other f, f ∈ last.families userId → f ∈ last.families other → userId = other) ∧
      ∀ before c after, calls = before ++ c :: after →
        ((first.callAll before).2.call c).1 = true → ∀ f ∈ c.old?, ∀ userId,
          f ∉ last.families userId) := by
  intro first last
  obtain ⟨queues, hrun, hqueues⟩ := exists_queuesRun users limit calls
  refine ⟨⟨queues, hrun, fun userId => ⟨hqueues userId, hrun.aged userId⟩⟩,
    records_callAll first calls, ?_, ?_, ?_⟩
  · intro c hc
    rcases last.call_cases c with ⟨t, -, hcall⟩ | ⟨-, hcall⟩
    · rw [hcall] at hc
      cases hc
    · rw [hcall]
  · intro queue
    exact evictionEnds_iff.mpr ⟨last.familyLimit_pos, rfl⟩
  · intro hnew
    refine ⟨?_, ?_, ?_⟩
    · intro userId
      rw [hqueues userId]
      exact nodup_familiesOf (hrun.aged userId) hnew
    · intro userId other f hf hf'
      rw [hqueues] at hf hf'
      exact userId_eq_of_mem_familiesOf (hrun.aged userId) (hrun.aged other) hnew hf hf'
    · rintro before c after rfl hgranted f hf userId
      exact not_mem_families_of_ended hnew hgranted hf userId

/-- The third family ends the first, and the fourth takes the place of the second without ending
another. -/
example :
    let store := ofUsers [⟨7, "alice", "", .empty⟩] 2
    let calls : List StoreCall :=
      [.rotate 7 none 1, .rotate 7 none 2, .rotate 7 none 3, .revoke 7 1, .rotate 7 (some 2) 4]
    (store.callAll calls).1 = [true, true, true, false, true] ∧
      (store.callAll calls).2.families 7 = [3, 4] := by
  decide

end UserStore

end PicBoard
