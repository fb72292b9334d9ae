import Mathlib.Tactic
import PicBoard.Gateway.Config
import PicBoard.Operator.Users
import PicBoard.Proofs.Json.Printing
import PicBoard.Proofs.Json.Records
import PicBoard.Proofs.Outcome
import PicBoard.Proofs.Session.Families
import PicBoard.Proofs.Text.Blank

/-!
# The users file

The operator writes entries of users, and the gateway reads them.  What the gateway finds under
each name and each id is the user whom the operator meant: with the very id, name and hash, and
with the capabilities that were named, in whatever case and however often.
-/

namespace PicBoard

open Json

/-! ## Capabilities by name -/

/-- Whether a name stands for a capability: it is the capability's own name in any case, with
blanks around it. -/
def Capability.NamedBy (c : Capability) (name : String) : Prop :=
  ∃ before letters after : List Char, name.toList = before ++ letters ++ after ∧
    (∀ x ∈ before, Text.isBlank x = true) ∧ (∀ x ∈ after, Text.isBlank x = true) ∧
    letters.map Char.toUpper = c.name.toList

/-- No blank is a letter. -/
theorem Text.toUpper_of_isBlank {x : Char} (h : isBlank x = true) : x.toUpper = x := by
  have hrange : ¬ (97 ≤ x.toNat ∧ x.toNat ≤ 122) := by
    simp only [isBlank, Bool.or_eq_true, Bool.and_eq_true, decide_eq_true_eq, beq_iff_eq] at h
    omega
  unfold Char.toUpper
  rw [dif_neg]
  simpa [UInt32.le_iff_toNat_le] using hrange

theorem Capability.not_isBlank_of_mem_name (c : Capability) :
    ∀ x ∈ c.name.toList, Text.isBlank x = false := by
  have hall : c.name.toList.all (fun x => !Text.isBlank x) = true := by cases c <;> decide
  simpa using hall

theorem Capability.ofName?_eq_some_iff {c : Capability} {s : String} :
    ofName? s = some c ↔ c.name = s := by
  constructor
  · intro h
    simpa using List.find?_some h
  · rintro rfl
    exact ofName?_name c

namespace Operator

theorem readCapability_eq_ok_iff {name : String} {c : Capability} :
    readCapability name = .ok c ↔ c.NamedBy name := by
  have hread : readCapability name = .ok c ↔
      c.name.toList = (Text.trimChars name.toList).map Char.toUpper := by
    have hupper : (Text.asciiUpper (Text.trim name)).toList =
        (Text.trimChars name.toList).map Char.toUpper := by
      simp [Text.asciiUpper, Text.trim]
    rw [← hupper, String.toList_inj, ← Capability.ofName?_eq_some_iff, readCapability]
    cases Capability.ofName? (Text.asciiUpper (Text.trim name)) with
    | none => simp
    | some d => simp
  rw [hread]
  constructor
  · intro h
    obtain ⟨before, after, hsplit, hbefore, hafter⟩ := Text.exists_eq_trimChars name.toList
    exact ⟨before, _, after, hsplit, hbefore, hafter, h.symm⟩
  · rintro ⟨before, letters, after, hsplit, hbefore, hafter, hletters⟩
    have hvisible : ∀ x ∈ letters, Text.isBlank x = false := by
      intro x hx
      by_contra hblank
      rw [Bool.not_eq_false] at hblank
      have hmem : x ∈ c.name.toList := by
        rw [← hletters, ← Text.toUpper_of_isBlank hblank]
        exact List.mem_map_of_mem hx
      rw [c.not_isBlank_of_mem_name x hmem] at hblank
      cases hblank
    rw [hsplit, Text.trimChars_append hbefore hafter hvisible, hletters]

theorem readCapabilities_eq_ok {names : List String} {set : CapabilitySet}
    (h : readCapabilities names = .ok set) (c : Capability) :
    set.contains c = true ↔ ∃ name ∈ names, c.NamedBy name := by
  unfold readCapabilities at h
  cases hread : names.mapM readCapability with
  | error e =>
    rw [hread] at h
    cases h
  | ok cs =>
    rw [hread] at h
    cases h
    show decide (c ∈ cs) = true ↔ _
    rw [decide_eq_true_iff, mem_iff_of_mapM_eq_ok hread]
    simp only [readCapability_eq_ok_iff]

/-- A user as an operator means them. -/
structure NewUser where
  userId : Int64
  ident : String
  capabilities : List String
  secretHash : String

namespace NewUser

/-- The entry that is written of a user. -/
def entry (n : NewUser) : Except OperatorError User :=
  userEntry n.userId n.ident n.capabilities n.secretHash

/-- Whether a user is the one who is meant. -/
structure Is (n : NewUser) (u : User) : Prop where
  userId : u.userId = n.userId
  ident : u.ident = n.ident
  secretHash : u.secretHash = n.secretHash
  capabilities : ∀ c, u.capabilities.contains c = true ↔ ∃ name ∈ n.capabilities, c.NamedBy name

/-- An entry is of the user who is meant. -/
theorem is_of_entry {n : NewUser} {u : User} (h : n.entry = .ok u) : n.Is u := by
  unfold entry userEntry at h
  split at h
  · cases h
  · obtain ⟨set, hset, h⟩ := bind_eq_ok_iff.mp h
    cases h
    exact ⟨rfl, rfl, rfl, readCapabilities_eq_ok hset⟩

theorem exists_entry_eq_ok {n : NewUser} (hnamed : n.ident ≠ "")
    (hread : ∃ set, readCapabilities n.capabilities = .ok set) : ∃ u, n.entry = .ok u := by
  obtain ⟨set, hset⟩ := hread
  unfold entry userEntry
  rw [if_neg hnamed, hset]
  exact ⟨_, rfl⟩

end NewUser

end Operator

/-! ## Entries as JSON -/

namespace CapabilitySet

theorem plain_toJson (s : CapabilitySet) : Plain s.toJson := by
  simp [toJson]

theorem memberOfJson?_ofText_name (c : Capability) : memberOfJson? (ofText c.name) = some c := by
  cases c <;> decide

/-- A set reads back from the names of its members. -/
theorem ofJson?_toJson (s : CapabilitySet) : ofJson? s.toJson = some s := by
  have hmembers : toList? memberOfJson? s.toJson = some s.toList :=
    toList?_map s.toList fun c _ => memberOfJson?_ofText_name c
  unfold ofJson?
  rw [hmembers, Option.map_some, ofList_toList]

end CapabilitySet

namespace User

theorem plain_toJson (u : User) : Plain u.toJson := by
  simp [toJson, CapabilitySet.plain_toJson]

/-- A user reads back from what is written of them. -/
theorem ofJson?_toJson (u : User) : ofJson? u.toJson = some u := by
  unfold ofJson? toJson
  rw [slots?_ofFields (by decide) (by simp)]
  simp [names, List.lookup_cons, CapabilitySet.ofJson?_toJson]

end User

/-! ## The file -/

/-- Whatever spells an array of users is read as a store of them. -/
theorem UserStore.ofFile?_of_spells {users : List User} {text : Bytes}
    (h : Spells (.value (.array (users.map User.toJson))) text) (limit : Nat) :
    ofFile? text limit = some (ofUsers users limit) := by
  obtain ⟨s, hs⟩ := h.isText
  have htext : Bytes.toText? text = some s := by rw [← hs, Bytes.toText?_ofText]
  have husers : User.listOfJson? (.array (users.map User.toJson)) = some users :=
    toList?_map users fun u _ => u.ofJson?_toJson
  unfold ofFile?
  rw [htext, h.parse_eq_some]
  simp [husers]

namespace Operator

/-- What is different for the users who are meant is different for the users who are written. -/
theorem map_eq_of_forall₂_is {κ : Type} {meant : NewUser → κ} {written : User → κ}
    (hsame : ∀ n u, n.Is u → written u = meant n) {given : List NewUser} {users : List User}
    (h : List.Forall₂ NewUser.Is given users) : users.map written = given.map meant := by
  induction h with
  | nil => rfl
  | cons hhead htail ih => rw [List.map_cons, List.map_cons, hsame _ _ hhead, ih]

/-- The users file gives back the users whom the operator meant: whatever their names and hashes
are, printed with blanks or without, and in whatever order the store meets its users. -/
theorem users_file_reads_back (given : List NewUser) (hids : (given.map (·.userId)).Nodup)
    (hidents : (given.map (·.ident)).Nodup) (hnamed : ∀ n ∈ given, n.ident ≠ "")
    (hread : ∀ n ∈ given, ∃ set, readCapabilities n.capabilities = .ok set) :
    ∃ users, given.mapM NewUser.entry = .ok users ∧
      ∀ text, text = (Json.array (users.map User.toJson)).compact ∨
          text = (Json.array (users.map User.toJson)).spread →
        ∃ store, UserStore.ofFile? text = some store ∧
          ∀ met : UserStore, met.users.Perm store.users → ∀ n ∈ given, ∃ u, n.Is u ∧
            met.findByIdent n.ident = some u ∧ met.findById n.userId = some u := by
  obtain ⟨users, husers⟩ := exists_mapM_eq_ok fun n hn =>
    NewUser.exists_entry_eq_ok (hnamed n hn) (hread n hn)
  have his : List.Forall₂ NewUser.Is given users :=
    (mapM_eq_ok_iff.mp husers).imp fun _ _ => NewUser.is_of_entry
  have hplain : Plain (.array (users.map User.toJson)) := by
    simp [User.plain_toJson]
  refine ⟨users, husers, ?_⟩
  intro text htext
  have hspells : Spells (.value (.array (users.map User.toJson))) text := by
    rcases htext with rfl | rfl
    · exact hplain.spells_compact
    · exact hplain.spells_spreadAt 0
  refine ⟨_, UserStore.ofFile?_of_spells hspells _, ?_⟩
  intro met hmet n hn
  -- no two records share an id or a name, so it does not matter in which order they are met
  have huserIds : (users.map (·.userId)).Nodup := by
    rwa [map_eq_of_forall₂_is (fun _ _ h => h.userId) his]
  have huserIdents : (users.map (·.ident)).Nodup := by
    rwa [map_eq_of_forall₂_is (fun _ _ h => h.ident) his]
  have hrecords : met.records.Perm users := by
    rw [← UserStore.records_ofUsers huserIds UserStore.standardLimit]
    exact hmet.map _
  obtain ⟨u, hu⟩ := NewUser.exists_entry_eq_ok (hnamed n hn) (hread n hn)
  have hmem : u ∈ met.records :=
    hrecords.mem_iff.mpr ((mem_iff_of_mapM_eq_ok husers u).mpr ⟨n, hn, hu⟩)
  have hn : n.Is u := NewUser.is_of_entry hu
  refine ⟨u, hn, ?_, ?_⟩
  · rw [UserStore.findByIdent_eq_find?, ← hn.ident]
    exact UserStore.find?_key_of_mem ((hrecords.map _).nodup_iff.mpr huserIdents) hmem
  · rw [UserStore.findById_eq_find?, ← hn.userId]
    exact UserStore.find?_key_of_mem ((hrecords.map _).nodup_iff.mpr huserIds) hmem

/-- Of two users, of whom one has a name with a quote and a line break, the other's capability is
found that was named twice and in another case. -/
theorem capability_named_twice_reads_back :
    let alice : NewUser :=
      { userId := -7, ident := "alice", capabilities := [" pic_read", "PIC_READ\n"]
        secretHash := "" }
    let other : NewUser :=
      { userId := 8, ident := "\"\n\\", capabilities := [], secretHash := "é" }
    ∃ users, [alice, other].mapM NewUser.entry = .ok users ∧
      ∃ store, UserStore.ofFile? (Json.array (users.map User.toJson)).spread = some store ∧
        ∃ u, store.findByIdent "alice" = some u ∧ u.capabilities.contains .picRead = true := by
  intro alice other
  have hnamed : ∀ n ∈ [alice, other], n.ident ≠ "" := by
    simp [alice, other]
  have hread : ∀ n ∈ [alice, other], ∃ set, readCapabilities n.capabilities = .ok set := by
    simp only [List.forall_mem_cons]
    exact ⟨⟨_, rfl⟩, ⟨_, rfl⟩, nofun⟩
  obtain ⟨users, husers, hfile⟩ :=
    users_file_reads_back [alice, other] (by decide) (by decide) hnamed hread
  obtain ⟨store, hstore, hfound⟩ := hfile _ (.inr rfl)
  obtain ⟨u, hu, hident, -⟩ := hfound store (List.Perm.refl _) alice List.mem_cons_self
  have hpicRead : Capability.picRead.NamedBy " pic_read" := readCapability_eq_ok_iff.mp rfl
  exact ⟨users, husers, store, hstore, u, hident,
    (hu.capabilities .picRead).mpr ⟨_, List.mem_cons_self, hpicRead⟩⟩

end Operator

end PicBoard
