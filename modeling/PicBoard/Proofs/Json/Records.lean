import Mathlib.Tactic
import PicBoard.Json.Fields

/-!
# Records read back from their fields

An object that is written from fields with different names fills the slot of each name with the
value of its field and leaves the others free (`slots?_ofFields`).  So a record reads back when
each of its slots does.
-/

namespace PicBoard.Json

/-! ## Objects -/

theorem idxOf?_map_ofText (names : List String) (k : String) :
    (names.map Bytes.ofText).idxOf? (Bytes.ofText k) = names.idxOf? k := by
  have hsame : ((· == Bytes.ofText k) ∘ Bytes.ofText) = (· == k) := by
    funext s
    by_cases h : s = k
    · simp [h]
    · simp [h, Bytes.ofText_inj]
  unfold List.idxOf?
  rw [List.findIdx?_map, hsame]

section

variable {names : List String} {fields : List (String × Json)} {slot : String → Slot} {k : String}

/-- A member goes to the slot of its name, if there is one. -/
theorem fillSlots_cons (hnames : names.Nodup) (hfree : slot k = .unnamed) (v : Json)
    (members : List (Bytes × Json)) :
    fillSlots (names.map Bytes.ofText) ((Bytes.ofText k, v) :: members) (names.map slot) =
      fillSlots (names.map Bytes.ofText) members
        (names.map (Function.update slot k (.value v))) := by
  rw [fillSlots, Bytes.toText?_ofText, idxOf?_map_ofText, hnames.map_update]
  cases hindex : names.idxOf? k with
  | none =>
    -- no field has this name, and the member is passed over
    have hunknown : k ∉ names := List.idxOf?_eq_none_iff.mp hindex
    simp [hunknown]
  | some i =>
    -- the slot of the name was free, so the member is not given twice
    obtain ⟨hi, hat, -⟩ := List.idxOf?_eq_some_iff.mp hindex
    have hknown : k ∈ names := hat ▸ List.getElem_mem hi
    have hget : (names.map slot)[i]? = some .unnamed := by simp [hi, hat, hfree]
    have hidx : names.idxOf k = i := by
      rw [List.idxOf_eq_getD_idxOf?, hindex]
      rfl
    simp [hget, hknown, hidx]

theorem lookup_cons_of_ne {name : String} (h : name ≠ k) (v : Json) :
    List.lookup name ((k, v) :: fields) = fields.lookup name := by
  rw [List.lookup_cons, beq_eq_false_iff_ne.mpr h]

theorem lookup_eq_none_of_not_mem (h : k ∉ fields.map (·.1)) : fields.lookup k = none := by
  rw [List.lookup_eq_none_iff]
  intro f hf
  simpa using fun hsame : k = f.1 => h (List.mem_map.mpr ⟨f, hf, hsame.symm⟩)

/-- Members with different names all go to their slots. -/
theorem fillSlots_ofFields (hnames : names.Nodup) (hfields : (fields.map (·.1)).Nodup)
    (hfree : ∀ f ∈ fields, slot f.1 = .unnamed) :
    fillSlots (names.map Bytes.ofText) (fields.map fun (name, v) => (Bytes.ofText name, v))
        (names.map slot) =
      some (names.map fun name => ((fields.lookup name).map .value).getD (slot name)) := by
  induction fields generalizing slot with
  | nil => simp [fillSlots]
  | cons f fields ih =>
    obtain ⟨k, v⟩ := f
    obtain ⟨hk, hfields⟩ := List.nodup_cons.mp hfields
    have hfree' : ∀ f ∈ fields, Function.update slot k (.value v) f.1 = .unnamed := by
      intro f hf
      have hne : f.1 ≠ k := fun hsame => hk (List.mem_map.mpr ⟨f, hf, hsame⟩)
      rw [Function.update_of_ne hne]
      exact hfree f (List.mem_cons_of_mem _ hf)
    rw [List.map_cons, fillSlots_cons hnames (hfree _ List.mem_cons_self), ih hfields hfree']
    refine congrArg some (List.map_congr_left fun name _ => ?_)
    by_cases hname : name = k
    · subst hname
      simp [lookup_eq_none_of_not_mem hk]
    · rw [lookup_cons_of_ne hname, Function.update_of_ne hname]

end

/-- What the member of a name gives for the field of that name. -/
def Slot.ofMember (member : Option Json) : Slot := (member.map .value).getD .unnamed

/-- An object fills the slots of its fields. -/
theorem slots?_ofFields {names : List String} (hnames : names.Nodup)
    {fields : List (String × Json)} (hfields : (fields.map (·.1)).Nodup) :
    slots? names (ofFields fields) =
      some (names.map fun name => Slot.ofMember (fields.lookup name)) :=
  fillSlots_ofFields hnames hfields fun _ _ => rfl

/-! ## Values -/

@[simp] theorem toText?_ofText (s : String) : (ofText s).toText? = some s :=
  Bytes.toText?_ofText s

@[simp] theorem toInt64?_ofInt64 (n : Int64) : (ofInt64 n).toInt64? = some n := by
  have hrange : Int64.minValue.toInt ≤ n.toInt ∧ n.toInt ≤ Int64.maxValue.toInt :=
    ⟨n.minValue_le_toInt, n.toInt_le⟩
  have hread : (ofInt64 n).toInt64? = some (Int64.ofInt n.toInt) := if_pos hrange
  rw [hread, Int64.ofInt_toInt]

/-- An array of what is written of values reads back when each of them does. -/
theorem toList?_map {α : Type} {item : Json → Option α} {write : α → Json} (as : List α)
    (h : ∀ a ∈ as, item (write a) = some a) : toList? item (.array (as.map write)) = some as := by
  show (as.map write).mapM item = some as
  induction as with
  | nil => rfl
  | cons a as ih =>
    rw [List.map_cons, List.mapM_cons, h a List.mem_cons_self,
      ih fun b hb => h b (List.mem_cons_of_mem _ hb)]
    rfl

/-- What is written of a value that is never null reads back where null may stand. -/
theorem toOption?_of_ne_null {α : Type} {item : Json → Option α} {j : Json} {a : α}
    (hread : item j = some a) (hnull : j ≠ .null) : toOption? item j = some (some a) := by
  unfold toOption?
  split
  · exact absurd rfl hnull
  · rw [hread]
    rfl

/-! ## Slots -/

namespace Slot

variable {α : Type} {item : Json → Option α} {write : α → Json}

@[simp] theorem required_ofMember (j : Json) : (ofMember (some j)).required item = item j := rfl

@[simp] theorem withDefault_ofMember (j : Json) (default : α) :
    (ofMember (some j)).withDefault item default = item j := rfl

@[simp] theorem nullable_ofMember (j : Json) :
    (ofMember (some j)).nullable item = toOption? item j := rfl

/-- A field that is left out when it is absent reads back. -/
theorem optional_ofMember (hread : ∀ a, item (write a) = some a) (hnull : ∀ a, write a ≠ .null)
    (o : Option α) : (ofMember (o.map write)).optional item = some o := by
  cases o with
  | none => rfl
  | some a => exact toOption?_of_ne_null (hread a) (hnull a)

end Slot

end PicBoard.Json
