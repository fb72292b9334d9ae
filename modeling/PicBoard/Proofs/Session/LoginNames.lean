import Mathlib.Tactic
import PicBoard.Gateway.Config
import PicBoard.Proofs.Session.Families

/-!
# Which account a login name means

A store is searched by name in whatever order its users are met, and by id under the id.  Of the
records of a users file those count that are the last of their ids.  In every order an id finds the
record that counts, and a name some record that counts and has it; it means one account in every
order exactly when only one record that counts has it (`login_name_fixed_iff`).
-/

namespace PicBoard.UserStore

variable {users : List User} {limit : Nat} {userId : Int64} {ident : String} {u : User}

/-! ## The records that count -/

/-- The last record of a list that has an id. -/
def lastOf (users : List User) (userId : Int64) : Option User :=
  users.findRev? fun u => u.userId = userId

/-- Whether a record is the last of its id. -/
def Counts (users : List User) (u : User) : Prop := lastOf users u.userId = some u

instance (users : List User) (u : User) : Decidable (Counts users u) :=
  inferInstanceAs (Decidable (_ = _))

theorem lastOf_cons (u : User) (rest : List User) (userId : Int64) :
    lastOf (u :: rest) userId =
      (lastOf rest userId).or (if u.userId = userId then some u else none) := by
  unfold lastOf
  rw [List.findRev?]
  cases rest.findRev? fun u => u.userId = userId with
  | some v => rfl
  | none =>
    by_cases hid : u.userId = userId
    · simp [hid]
    · simp [hid]

/-! ## A store of records -/

/-- A user who is put into a list is the one who is found there under the id. -/
theorem find?_insertUser (u : User) (stored : List StoredUser) (userId : Int64) :
    (insertUser u stored).find? (fun e => e.user.userId = userId) =
      if u.userId = userId then some { user := u, families := [] }
      else stored.find? fun e => e.user.userId = userId := by
  induction stored with
  | nil =>
    by_cases hid : u.userId = userId
    · simp [insertUser, hid]
    · simp [insertUser, hid]
  | cons e rest ih =>
    unfold insertUser
    split
    · rename_i hsame
      by_cases hid : u.userId = userId
      · simp [hid]
      · simp [hid, hsame]
    · rename_i hother
      rw [List.find?_cons, ih, List.find?_cons]
      by_cases hid : u.userId = userId
      · rw [hid] at hother
        simp [hid, hother]
      · simp only [if_neg hid]

/-- The ids in a list stay different when a user is put into it. -/
theorem nodup_insertUser {stored : List StoredUser}
    (h : (stored.map (·.user.userId)).Nodup) (u : User) :
    ((insertUser u stored).map (·.user.userId)).Nodup := by
  induction stored with
  | nil => simp [insertUser]
  | cons e rest ih =>
    obtain ⟨he, hrest⟩ := List.nodup_cons.mp h
    unfold insertUser
    split
    · rename_i hsame
      rw [List.map_cons, ← hsame]
      exact h
    · rename_i hother
      rw [List.map_cons, List.nodup_cons]
      refine ⟨?_, ih hrest⟩
      -- who has the id of the first is found among the others after the insertion as before
      intro hmem
      obtain ⟨d, hd, hid⟩ := List.mem_map.mp hmem
      have hfound : ((insertUser u rest).find? fun x => x.user.userId = e.user.userId).isSome :=
        List.find?_isSome.mpr ⟨d, hd, by simpa using hid⟩
      rw [find?_insertUser, if_neg (Ne.symm hother), List.find?_isSome] at hfound
      obtain ⟨c, hc, hsame⟩ := hfound
      exact he (List.mem_map.mpr ⟨c, hc, by simpa using hsame⟩)

/-- No two users of a store that was set up have one id. -/
theorem nodup_userIds_ofUsers (users : List User) (limit : Nat) :
    ((ofUsers users limit).records.map (·.userId)).Nodup := by
  have hfold : ∀ stored : List StoredUser, (stored.map (·.user.userId)).Nodup →
      ((users.foldl (fun stored u => insertUser u stored) stored).map
        (·.user.userId)).Nodup := by
    induction users with
    | nil => exact fun _ h => h
    | cons u rest ih => exact fun stored h => ih _ (nodup_insertUser h u)
  have h := hfold [] List.nodup_nil
  rwa [records, List.map_map]

/-- Under an id the last record of it is found. -/
theorem findById_ofUsers (users : List User) (limit : Nat) (userId : Int64) :
    (ofUsers users limit).findById userId = lastOf users userId := by
  have hfold : ∀ stored : List StoredUser,
      ((users.foldl (fun stored u => insertUser u stored) stored).find?
          fun e => e.user.userId = userId).map (·.user) =
        (lastOf users userId).or
          ((stored.find? fun e => e.user.userId = userId).map (·.user)) := by
    induction users with
    | nil => intro stored; rfl
    | cons u rest ih =>
      intro stored
      rw [List.foldl_cons, ih, lastOf_cons, find?_insertUser, Option.or_assoc]
      by_cases hid : u.userId = userId
      · simp [hid]
      · simp [hid]
  have h := hfold []
  simpa [findById, stored?, ofUsers] using h

/-- The users of a store are the records that count. -/
theorem mem_records_ofUsers_iff (limit : Nat) :
    u ∈ (ofUsers users limit).records ↔ Counts users u := by
  unfold Counts
  rw [← findById_ofUsers users limit, findById_eq_find?]
  constructor
  · intro hu
    exact find?_key_of_mem (nodup_userIds_ofUsers users limit) hu
  · exact List.mem_of_find?_eq_some

/-! ## Users met in any order -/

/-- Where no two users have one key, a key finds whoever has it. -/
theorem find?_key_eq_some_iff {κ : Type} [DecidableEq κ] {key : User → κ}
    (hkeys : (users.map key).Nodup) {k : κ} :
    users.find? (fun v => key v = k) = some u ↔ u ∈ users ∧ key u = k := by
  constructor
  · intro h
    exact ⟨List.mem_of_find?_eq_some h, by simpa using List.find?_some h⟩
  · rintro ⟨hu, rfl⟩
    exact find?_key_of_mem hkeys hu

theorem userId_of_lastOf (h : lastOf users userId = some u) : u.userId = userId := by
  rw [lastOf, List.findRev?_eq_find?_reverse] at h
  simpa using List.find?_some h

theorem Counts.mem (h : Counts users u) : u ∈ users := by
  rw [Counts, lastOf, List.findRev?_eq_find?_reverse] at h
  exact List.mem_reverse.mp (List.mem_of_find?_eq_some h)

section Met

variable {met : UserStore}

theorem mem_records_met_iff (hmet : met.users.Perm (ofUsers users limit).users) :
    u ∈ met.records ↔ Counts users u := by
  rw [← mem_records_ofUsers_iff limit]
  exact (hmet.map _).mem_iff

/-- An id finds the last record of it. -/
theorem findById_met (hmet : met.users.Perm (ofUsers users limit).users) (userId : Int64) :
    met.findById userId = lastOf users userId := by
  have hids : (met.records.map (·.userId)).Nodup :=
    ((hmet.map _).map _).nodup_iff.mpr (nodup_userIds_ofUsers users limit)
  apply Option.ext
  intro u
  rw [findById_eq_find?, find?_key_eq_some_iff hids, mem_records_met_iff hmet]
  constructor
  · rintro ⟨hu, rfl⟩
    exact hu
  · intro h
    have hid := userId_of_lastOf h
    exact ⟨by rwa [Counts, hid], hid⟩

/-- Whom a name finds has it, counts, and is found under their id. -/
theorem known_of_findByIdent_met (hmet : met.users.Perm (ofUsers users limit).users)
    (h : met.findByIdent ident = some u) :
    u.ident = ident ∧ Counts users u ∧ met.findById u.userId = some u := by
  rw [findByIdent_eq_find?] at h
  have hcounts : Counts users u := (mem_records_met_iff hmet).mp (List.mem_of_find?_eq_some h)
  refine ⟨by simpa using List.find?_some h, hcounts, ?_⟩
  rw [findById_met hmet]
  exact hcounts

/-- A name finds nobody when no record that counts has it. -/
theorem findByIdent_met_eq_none_iff (hmet : met.users.Perm (ofUsers users limit).users) :
    met.findByIdent ident = none ↔ ∀ u, Counts users u → u.ident ≠ ident := by
  rw [findByIdent_eq_find?, List.find?_eq_none]
  simp only [mem_records_met_iff hmet, decide_eq_true_eq]

/-- A name that one record has among those that count means its user. -/
theorem findByIdent_met_eq_some_iff (hmet : met.users.Perm (ofUsers users limit).users)
    (hone : ∀ u v, Counts users u → Counts users v → u.ident = ident → v.ident = ident → u = v) :
    met.findByIdent ident = some u ↔ Counts users u ∧ u.ident = ident := by
  constructor
  · intro h
    obtain ⟨hident, hcounts, -⟩ := known_of_findByIdent_met hmet h
    exact ⟨hcounts, hident⟩
  · rintro ⟨hcounts, hident⟩
    cases hfound : met.findByIdent ident with
    | none => exact absurd hident ((findByIdent_met_eq_none_iff hmet).mp hfound u hcounts)
    | some v =>
      obtain ⟨hident', hcounts', -⟩ := known_of_findByIdent_met hmet hfound
      rw [hone v u hcounts' hcounts hident' hident]

end Met

/-- Every record that counts is found by its name when its user is met first. -/
theorem exists_met_findByIdent (h : Counts users u) (limit : Nat) :
    ∃ met : UserStore, met.users.Perm (ofUsers users limit).users ∧
      met.findByIdent u.ident = some u := by
  obtain ⟨e, he, rfl⟩ := List.mem_map.mp ((mem_records_ofUsers_iff limit).mpr h)
  refine ⟨{ ofUsers users limit with users := e :: (ofUsers users limit).users.erase e },
    (List.perm_cons_erase he).symm, ?_⟩
  simp [findByIdent]

/-! ## Names of a users file -/

theorem exists_users_of_ofFile? {text : Bytes} {store : UserStore}
    (h : ofFile? text limit = some store) :
    ∃ users, (Json.parse text).bind User.listOfJson? = some users ∧
      store = ofUsers users limit := by
  obtain ⟨-, -, h⟩ := Option.bind_eq_some_iff.mp h
  obtain ⟨users, husers, h⟩ := Option.bind_eq_some_iff.mp h
  exact ⟨users, husers, (Option.some.inj h).symm⟩

/-- What the names and ids of a users file mean, in whatever order its users are met.  An id means
the last record of it.  A name finds a record that has it and that is found under its id too, so
the last of that id; it finds nobody only when no such record has it.  And any of these is found
when it is met first, so a name means one account, in whatever order, exactly when no two records
that are the last of their ids have it. -/
theorem login_name_fixed_iff {text : Bytes} {store : UserStore}
    (h : ofFile? text limit = some store) :
    ∃ users, (Json.parse text).bind User.listOfJson? = some users ∧
      (∀ met : UserStore, met.users.Perm store.users →
        (∀ userId, met.findById userId = lastOf users userId) ∧
        (∀ ident u, met.findByIdent ident = some u →
          u.ident = ident ∧ Counts users u ∧ met.findById u.userId = some u) ∧
        ∀ ident, met.findByIdent ident = none ↔ ∀ u, Counts users u → u.ident ≠ ident) ∧
      (∀ u, Counts users u →
        ∃ met : UserStore, met.users.Perm store.users ∧ met.findByIdent u.ident = some u) ∧
      ∀ ident,
        (∀ met met' : UserStore, met.users.Perm store.users → met'.users.Perm store.users →
          met.findByIdent ident = met'.findByIdent ident) ↔
        ∀ u v, Counts users u → Counts users v → u.ident = ident → v.ident = ident → u = v := by
  obtain ⟨users, husers, rfl⟩ := exists_users_of_ofFile? h
  refine ⟨users, husers, ?_, fun u hu => exists_met_findByIdent hu limit, ?_⟩
  · intro met hmet
    exact ⟨findById_met hmet, fun _ _ => known_of_findByIdent_met hmet,
      fun _ => findByIdent_met_eq_none_iff hmet⟩
  · intro ident
    constructor
    · rintro hsame u v hu hv rfl hident
      obtain ⟨met, hmet, hfound⟩ := exists_met_findByIdent hu limit
      obtain ⟨met', hmet', hfound'⟩ := exists_met_findByIdent hv limit
      rw [hident, ← hsame met met' hmet hmet', hfound] at hfound'
      exact Option.some.inj hfound'
    · intro hone met met' hmet hmet'
      apply Option.ext
      intro u
      rw [findByIdent_met_eq_some_iff hmet hone, findByIdent_met_eq_some_iff hmet' hone]

theorem ofFile?_ofText {s : String}
    (h : (Json.parse (Bytes.ofText s)).bind User.listOfJson? = some users) (limit : Nat) :
    ofFile? (Bytes.ofText s) limit = some (ofUsers users limit) := by
  simp [ofFile?, h]

/-- Somebody with neither a hash nor capabilities. -/
def plainUser (userId : Int64) (ident : String) : User :=
  { userId, ident, secretHash := "", capabilities := .empty }

/-- The first account is renamed further down in the file, so its first name means the second account
alone, in whatever order the two are met. -/
theorem name_given_up_means_other :
    let text := Bytes.ofText "[\x7b\"user_id\":1,\"ident\":\"alice\",\"secret_hash\":\"\"\x7d,
      [2,\"alice\",\"\"],\x7b\"ident\":\"bob\",\"user_id\":1,\"secret_hash\":\"\"\x7d]"
    ∃ store, ofFile? text standardLimit = some store ∧
      ∀ met : UserStore, met.users.Perm store.users →
        met.findByIdent "alice" = some (plainUser 2 "alice") := by
  intro text
  have hread : (Json.parse text).bind User.listOfJson? =
      some [plainUser 1 "alice", plainUser 2 "alice", plainUser 1 "bob"] := by decide +kernel
  have hfile := ofFile?_ofText hread standardLimit
  refine ⟨_, hfile, ?_⟩
  intro met hmet
  obtain ⟨users, husers, hall, -⟩ := login_name_fixed_iff hfile
  cases hread.symm.trans husers
  obtain ⟨-, hknown, hnone⟩ := hall met hmet
  cases hfound : met.findByIdent "alice" with
  | none => exact absurd rfl ((hnone "alice").mp hfound (plainUser 2 "alice") (by decide))
  | some u =>
    obtain ⟨hident, hcounts, -⟩ := hknown "alice" u hfound
    have hmem := hcounts.mem
    simp only [List.mem_cons, List.not_mem_nil, or_false] at hmem
    rcases hmem with rfl | rfl | rfl
    · exact absurd hcounts (by decide)
    · rfl
    · exact absurd hident (by decide)

/-- A file may give two accounts one name.  Which of them the name means then depends on the order in
which the store meets its users. -/
theorem shared_name_means_either :
    let text := Bytes.ofText "[\x7b\"user_id\":1,\"ident\":\"alice\",\"secret_hash\":\"\"\x7d,
      \x7b\"user_id\":2,\"ident\":\"alice\",\"secret_hash\":\"\"\x7d]"
    ∃ store met met' : UserStore, ofFile? text = some store ∧
      met.users.Perm store.users ∧ met'.users.Perm store.users ∧
      met.findByIdent "alice" = some (plainUser 1 "alice") ∧
      met'.findByIdent "alice" = some (plainUser 2 "alice") := by
  intro text
  have hread : (Json.parse text).bind User.listOfJson? =
      some [plainUser 1 "alice", plainUser 2 "alice"] := by decide +kernel
  have hfirst : Counts [plainUser 1 "alice", plainUser 2 "alice"] (plainUser 1 "alice") := by decide
  have hsecond : Counts [plainUser 1 "alice", plainUser 2 "alice"] (plainUser 2 "alice") := by
    decide
  obtain ⟨met, hmet, hfound⟩ := exists_met_findByIdent hfirst standardLimit
  obtain ⟨met', hmet', hfound'⟩ := exists_met_findByIdent hsecond standardLimit
  exact ⟨_, met, met', ofFile?_ofText hread standardLimit, hmet, hmet', hfound, hfound'⟩

end PicBoard.UserStore
