import Mathlib.Tactic
import PicBoard.Session.Store

/-!
# The queue of live families

What starting and ending a family do to the queue of each user.
-/

namespace PicBoard.UserStore

variable {s t : UserStore} {userId : Int64}

/-! ## Entries -/

/-- An entry is kept under the id of its user. -/
theorem userId_of_stored? {e : StoredUser} (h : s.stored? userId = some e) :
    e.user.userId = userId := by
  simpa using List.find?_some h

theorem userId_of_findById {u : User} (h : s.findById userId = some u) : u.userId = userId := by
  unfold findById at h
  obtain ⟨e, he, rfl⟩ := Option.map_eq_some_iff.mp h
  exact userId_of_stored? he

theorem families_of_stored? {e : StoredUser} (h : s.stored? userId = some e) :
    s.families userId = e.families := by
  unfold families
  rw [h]

/-! ## Records -/

/-- The users as they are stored, apart from their families. -/
def records (s : UserStore) : List User := s.users.map (·.user)

theorem findByIdent_eq_find? (s : UserStore) (ident : String) :
    s.findByIdent ident = s.records.find? fun u => u.ident = ident := by
  unfold findByIdent records
  rw [List.find?_map]
  rfl

theorem findById_eq_find? (s : UserStore) (userId : Int64) :
    s.findById userId = s.records.find? fun u => u.userId = userId := by
  unfold findById stored? records
  rw [List.find?_map]
  rfl

/-- Where no two users have one key, a key finds the user who has it. -/
theorem find?_key_of_mem {κ : Type} [DecidableEq κ] {key : User → κ} {users : List User} {u : User}
    (hkeys : (users.map key).Nodup) (hu : u ∈ users) :
    users.find? (fun v => key v = key u) = some u := by
  have hsome : (users.find? fun v => key v = key u).isSome = true :=
    List.find?_isSome.mpr ⟨u, hu, by simp⟩
  obtain ⟨found, hfound⟩ := Option.isSome_iff_exists.mp hsome
  have hsame : key found = key u := by simpa using List.find?_some hfound
  rw [hfound, List.inj_on_of_nodup_map hkeys (List.mem_of_find?_eq_some hfound) hu hsame]

/-- Somebody is stored under an id when a record has it. -/
theorem exists_stored?_iff :
    (∃ e, s.stored? userId = some e) ↔ ∃ u ∈ s.records, u.userId = userId := by
  constructor
  · rintro ⟨e, he⟩
    exact ⟨e.user, List.mem_map_of_mem (List.mem_of_find?_eq_some he), userId_of_stored? he⟩
  · rintro ⟨u, hu, hid⟩
    obtain ⟨e, he, rfl⟩ := List.mem_map.mp hu
    have hsome : (s.stored? userId).isSome = true :=
      List.find?_isSome.mpr ⟨e, he, by simpa using hid⟩
    exact Option.isSome_iff_exists.mp hsome

theorem records_setFamilies (s : UserStore) (userId : Int64) (families : List Int64) :
    (s.setFamilies userId families).records = s.records := by
  unfold records setFamilies
  rw [List.map_map]
  congr 1
  funext e
  simp only [Function.comp_apply]
  split <;> rfl

/-- The ids under which a new store holds users are those of the list that it was made from. -/
theorem exists_record_ofUsers_iff {users : List User} {limit : Nat} :
    (∃ u ∈ (ofUsers users limit).records, u.userId = userId) ↔
      ∃ u ∈ users, u.userId = userId := by
  have hinsert : ∀ (u : User) (stored : List StoredUser),
      (∃ e ∈ insertUser u stored, e.user.userId = userId) ↔
        u.userId = userId ∨ ∃ e ∈ stored, e.user.userId = userId := by
    intro u stored
    induction stored with
    | nil => simp [insertUser]
    | cons x rest ih =>
      unfold insertUser
      split
      · rename_i hsame
        simp [hsame]
      · simp only [List.exists_mem_cons_iff, ih]
        tauto
  have hfold : ∀ stored : List StoredUser,
      (∃ e ∈ users.foldl (fun stored u => insertUser u stored) stored, e.user.userId = userId) ↔
        (∃ u ∈ users, u.userId = userId) ∨ ∃ e ∈ stored, e.user.userId = userId := by
    induction users with
    | nil => simp
    | cons u rest ih =>
      intro stored
      rw [List.foldl_cons, ih, hinsert]
      simp only [List.exists_mem_cons_iff]
      rw [or_left_comm, or_assoc]
  simpa [records, ofUsers] using hfold []

/-- Users with different ids are all stored, as they are listed. -/
theorem records_ofUsers {users : List User} (h : (users.map (·.userId)).Nodup) (limit : Nat) :
    (ofUsers users limit).records = users := by
  have hinsert : ∀ (u : User) (stored : List StoredUser),
      (∀ e ∈ stored, e.user.userId ≠ u.userId) →
        insertUser u stored = stored ++ [{ user := u, families := [] }] := by
    intro u stored hstored
    induction stored with
    | nil => rfl
    | cons e rest ih =>
      rw [insertUser, if_neg (hstored e List.mem_cons_self),
        ih fun e' he' => hstored e' (List.mem_cons_of_mem _ he')]
      rfl
  have hfold : ∀ stored : List StoredUser, (∀ u ∈ users, ∀ e ∈ stored, e.user.userId ≠ u.userId) →
      (users.foldl (fun stored u => insertUser u stored) stored).map (·.user) =
        stored.map (·.user) ++ users := by
    induction users with
    | nil => simp
    | cons u rest ih =>
      intro stored hstored
      obtain ⟨hu, hrest⟩ := List.nodup_cons.mp h
      rw [List.foldl_cons, hinsert u stored (hstored u List.mem_cons_self), ih hrest]
      · simp
      · intro v hv e he
        rcases List.mem_append.mp he with he | he
        · exact hstored v (List.mem_cons_of_mem _ hv) e he
        · rw [List.mem_singleton.mp he]
          exact fun hsame => hu (List.mem_map.mpr ⟨v, hv, hsame.symm⟩)
  simpa [records, ofUsers] using hfold [] (by simp)

/-- A store that was just set up has no session. -/
theorem families_ofUsers (users : List User) (limit : Nat) (userId : Int64) :
    (ofUsers users limit).families userId = [] := by
  have hinsert : ∀ (u : User) (stored : List StoredUser), (∀ e ∈ stored, e.families = []) →
      ∀ e ∈ insertUser u stored, e.families = [] := by
    intro u stored hstored
    induction stored with
    | nil => simp [insertUser]
    | cons x rest ih =>
      simp only [List.forall_mem_cons] at hstored
      unfold insertUser
      split
      · simpa using hstored.2
      · simpa using ⟨hstored.1, ih hstored.2⟩
  -- Entries are only ever put in without families, also in the place of others.
  have hfold : ∀ (stored : List StoredUser), (∀ e ∈ stored, e.families = []) →
      ∀ e ∈ users.foldl (fun stored u => insertUser u stored) stored, e.families = [] := by
    induction users with
    | nil => exact fun _ h => h
    | cons u rest ih => exact fun stored h => ih _ (hinsert u stored h)
  unfold families
  split
  · rename_i e he
    exact hfold [] (by simp) e (List.mem_of_find?_eq_some he)
  · rfl

/-! ## Making room -/

/-- Making room drops just so many of the oldest families that one more fits. -/
theorem makeRoom_eq_drop (limit : Nat) (families : List Int64) :
    makeRoom limit families = families.drop (families.length + 1 - limit) := by
  induction families with
  | nil => simp [makeRoom]
  | cons f rest ih =>
    unfold makeRoom
    split
    · rename_i h
      rw [ih, List.length_cons, show rest.length + 1 + 1 - limit = rest.length + 1 - limit + 1 by
        omega, List.drop_succ_cons]
    · rename_i h
      rw [List.length_cons, show rest.length + 1 + 1 - limit = 0 by omega, List.drop_zero]

theorem makeRoom_sublist (limit : Nat) (families : List Int64) :
    (makeRoom limit families).Sublist families := by
  rw [makeRoom_eq_drop]
  exact List.drop_sublist _ _

/-- There is room already in a queue that is not full. -/
theorem makeRoom_of_lt {limit : Nat} {families : List Int64} (h : families.length < limit) :
    makeRoom limit families = families := by
  rw [makeRoom_eq_drop, show families.length + 1 - limit = 0 by omega, List.drop_zero]

/-! ## Giving a user other families -/

theorem stored?_setFamilies (s : UserStore) (userId : Int64) (families : List Int64)
    (other : Int64) :
    (s.setFamilies userId families).stored? other =
      (s.stored? other).map fun e => if other = userId then { e with families } else e := by
  unfold setFamilies stored?
  rw [List.find?_map]
  -- The change keeps the id, so the same entries are found.
  have hsame : ((fun e : StoredUser => decide (e.user.userId = other)) ∘
      fun e => if e.user.userId = userId then { e with families } else e) =
        fun e => decide (e.user.userId = other) := by
    funext e
    simp only [Function.comp_apply]
    split <;> rfl
  rw [hsame]
  cases he : s.users.find? (fun e => decide (e.user.userId = other)) with
  | none => rfl
  | some e =>
    have hid : e.user.userId = other := by simpa using List.find?_some he
    simp only [Option.map_some, hid]

theorem families_setFamilies {e : StoredUser} (he : s.stored? userId = some e)
    (families : List Int64) (other : Int64) :
    (s.setFamilies userId families).families other =
      if other = userId then families else s.families other := by
  unfold UserStore.families
  rw [stored?_setFamilies]
  by_cases hother : other = userId
  · subst hother
    simp [he]
  · simp only [if_neg hother]
    cases s.stored? other <;> rfl

/-! ## Starting and ending families -/

/-- A queue without the family that ends, if one ends. -/
def without (old : Option Int64) (families : List Int64) : List Int64 :=
  match old with
  | none => families
  | some f => families.erase f

theorem without_sublist (old : Option Int64) (families : List Int64) :
    (without old families).Sublist families := by
  cases old with
  | none => exact List.Sublist.refl _
  | some f => exact List.erase_sublist

/-- Of families that are all different, the one that ends does not stay. -/
theorem not_mem_without {f : Int64} {families : List Int64} (h : families.Nodup) :
    f ∉ without (some f) families :=
  fun hmem => (List.Nodup.mem_erase_iff h).mp hmem |>.1 rfl

/-- What starting a family comes to: the one that is to end was live, the oldest make room, and
the new one is last. -/
theorem rotate?_eq_some {old : Option Int64} {new : Int64}
    (h : s.rotate? userId old new = some t) :
    (∀ f ∈ old, f ∈ s.families userId) ∧ t.familyLimit = s.familyLimit ∧ ∀ other,
      t.families other = if other = userId
        then makeRoom s.familyLimit (without old (s.families userId)) ++ [new]
        else s.families other := by
  unfold rotate? at h
  split at h
  · cases h
  · rename_i e he
    rw [families_of_stored? he]
    cases old with
    | none =>
      injection h with h
      subst h
      exact ⟨by simp, rfl, families_setFamilies he _⟩
    | some f =>
      dsimp only at h
      split at h
      · rename_i hlive
        injection h with h
        subst h
        exact ⟨by simpa using hlive, rfl, families_setFamilies he _⟩
      · cases h

/-- What ending a family comes to: it was live, and it leaves the queue. -/
theorem revoke?_eq_some {family : Int64} (h : s.revoke? userId family = some t) :
    family ∈ s.families userId ∧ t.familyLimit = s.familyLimit ∧ ∀ other,
      t.families other = if other = userId then (s.families userId).erase family
        else s.families other := by
  unfold revoke? at h
  split at h
  · cases h
  · rename_i e he
    rw [families_of_stored? he]
    split at h
    · rename_i hlive
      injection h with h
      subst h
      exact ⟨hlive, rfl, families_setFamilies he _⟩
    · cases h

/-- Starting a family that was not live shows in the queue. -/
theorem families_ne_of_rotate? {old : Option Int64} {new : Int64}
    (h : s.rotate? userId old new = some t) (hnew : new ∉ s.families userId) :
    t.families userId ≠ s.families userId := by
  have hqueue := ((rotate?_eq_some h).2.2 userId).trans (if_pos rfl)
  have hmem : new ∈ t.families userId := by
    rw [hqueue]
    exact List.mem_append_right _ (List.mem_singleton_self new)
  intro hsame
  exact hnew (hsame ▸ hmem)

/-- Ending a family shows in the queue, which gets shorter. -/
theorem families_ne_of_revoke? {family : Int64} (h : s.revoke? userId family = some t) :
    t.families userId ≠ s.families userId := by
  obtain ⟨hlive, -, hfamilies⟩ := revoke?_eq_some h
  have hqueue := (hfamilies userId).trans (if_pos rfl)
  have hlength := List.length_erase_of_mem hlive
  have hpos := List.length_pos_of_mem hlive
  intro hsame
  rw [← hqueue, hsame] at hlength
  omega

/-- A family can be started for a user who is stored and for whom the one that is to end is
live. -/
theorem exists_rotate?_iff {old : Option Int64} {new : Int64} :
    (∃ t, s.rotate? userId old new = some t) ↔
      (∃ e, s.stored? userId = some e) ∧ ∀ f ∈ old, f ∈ s.families userId := by
  unfold rotate?
  cases he : s.stored? userId with
  | none => simp
  | some e =>
    rw [families_of_stored? he]
    cases old with
    | none => simp
    | some f =>
      by_cases hlive : f ∈ e.families
      · simp [hlive]
      · simp [hlive]

/-- A family can be ended when it is live. -/
theorem exists_revoke?_iff {family : Int64} :
    (∃ t, s.revoke? userId family = some t) ↔ family ∈ s.families userId := by
  unfold revoke? families
  cases s.stored? userId with
  | none => simp
  | some e =>
    by_cases hlive : family ∈ e.families
    · simp [hlive]
    · simp [hlive]

theorem records_of_rotate? {old : Option Int64} {new : Int64}
    (h : s.rotate? userId old new = some t) : t.records = s.records := by
  unfold rotate? at h
  split at h
  · cases h
  · rename_i e he
    cases old with
    | none =>
      injection h with h
      subst h
      exact records_setFamilies s _ _
    | some f =>
      dsimp only at h
      split at h
      · injection h with h
        subst h
        exact records_setFamilies s _ _
      · cases h

theorem records_of_revoke? {family : Int64} (h : s.revoke? userId family = some t) :
    t.records = s.records := by
  unfold revoke? at h
  split at h
  · cases h
  · split at h
    · injection h with h
      subst h
      exact records_setFamilies s _ _
    · cases h

/-! ## The place of a family in its queue -/

/-- A family is live, and at most so many that are live were started after it. -/
def Queued (s : UserStore) (userId f : Int64) (later : Nat) : Prop :=
  ∃ front back, s.families userId = front ++ f :: back ∧ back.length ≤ later

variable {f : Int64} {later : Nat}

theorem Queued.live (h : s.Queued userId f later) : f ∈ s.families userId := by
  obtain ⟨front, back, hqueue, -⟩ := h
  rw [hqueue]
  exact List.mem_append_right front List.mem_cons_self

/-- A family that has just started is the last. -/
theorem queued_of_rotate? {old : Option Int64} {new : Int64}
    (h : s.rotate? userId old new = some t) : t.Queued userId new 0 := by
  obtain ⟨-, -, hfamilies⟩ := rotate?_eq_some h
  exact ⟨_, [], (hfamilies userId).trans (if_pos rfl), le_rfl⟩

/-- Taking another family out leaves this one its place. -/
theorem exists_without_eq {old : Option Int64} (hne : old ≠ some f) (front back : List Int64) :
    ∃ front' back', without old (front ++ f :: back) = front' ++ f :: back' ∧
      back'.length ≤ back.length := by
  cases old with
  | none => exact ⟨front, back, rfl, le_rfl⟩
  | some other =>
    have hother : ¬ (f == other) = true := by
      rw [beq_iff_eq]
      rintro rfl
      exact hne rfl
    by_cases hfront : other ∈ front
    · exact ⟨front.erase other, back, List.erase_append_left _ hfront, le_rfl⟩
    · refine ⟨front, back.erase other, ?_, List.length_erase_le⟩
      rw [without, List.erase_append_right _ hfront, List.erase_cons_tail hother]

/-- Making room takes from the front, so a family with few enough after it keeps its place. -/
theorem exists_makeRoom_eq {limit : Nat} (front : List Int64) {back : List Int64}
    (hroom : back.length + 1 < limit) :
    ∃ front', makeRoom limit (front ++ f :: back) = front' ++ f :: back := by
  -- All that is dropped stands before the family.
  rw [makeRoom_eq_drop, List.drop_append_of_le_length]
  · exact ⟨_, rfl⟩
  · rw [List.length_append, List.length_cons]
    omega

/-- A family that starts for the same user goes behind, and another user's leaves all as it is. -/
theorem Queued.rotate? (h : s.Queued userId f later) {other : Int64} {old : Option Int64}
    {new : Int64} (hafter : s.rotate? other old new = some t)
    (hold : other = userId → old ≠ some f) (hroom : other = userId → later + 1 < s.familyLimit) :
    t.Queued userId f (if other = userId then later + 1 else later) := by
  obtain ⟨front, back, hqueue, hlater⟩ := h
  obtain ⟨-, -, hfamilies⟩ := rotate?_eq_some hafter
  by_cases hother : other = userId
  · subst hother
    obtain ⟨front', back', hwithout, hshorter⟩ := exists_without_eq (hold rfl) front back
    -- The family ends and room is made before the new one starts, so that one is not counted yet.
    have hfits : back'.length + 1 < s.familyLimit := by
      have := hroom rfl
      omega
    obtain ⟨front'', hmade⟩ := exists_makeRoom_eq (f := f) front' hfits
    refine ⟨front'', back' ++ [new], ?_, ?_⟩
    · rw [hfamilies other, if_pos rfl, hqueue, hwithout, hmade, List.append_assoc,
        List.cons_append]
    · rw [if_pos rfl, List.length_append, List.length_singleton]
      omega
  · rw [if_neg hother]
    exact ⟨front, back, by rw [hfamilies userId, if_neg (Ne.symm hother), hqueue], hlater⟩

/-- A family keeps its place when another one ends. -/
theorem Queued.revoke? (h : s.Queued userId f later) {other ended : Int64}
    (hafter : s.revoke? other ended = some t) (hne : other = userId → ended ≠ f) :
    t.Queued userId f later := by
  obtain ⟨front, back, hqueue, hlater⟩ := h
  obtain ⟨-, -, hfamilies⟩ := revoke?_eq_some hafter
  by_cases hother : other = userId
  · subst hother
    have hold : some ended ≠ some f := fun hsame => hne rfl (Option.some.inj hsame)
    obtain ⟨front', back', hwithout, hshorter⟩ := exists_without_eq hold front back
    refine ⟨front', back', ?_, hshorter.trans hlater⟩
    rw [hfamilies other, if_pos rfl, hqueue]
    exact hwithout
  · exact ⟨front, back, by rw [hfamilies userId, if_neg (Ne.symm hother), hqueue], hlater⟩

end PicBoard.UserStore
