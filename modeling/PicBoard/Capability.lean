/-!
# Capabilities

What a user may do, and sets of it.  A set lists its members in the order of declaration.
-/

namespace PicBoard

/-- One thing that a user may be allowed to do. -/
inductive Capability where
  | picCreate
  | picIndex
  | picRead
  | picUpdateViewCounter
  | picSoftDelete
  | picTagCreate
  | picCommentCreate
  | picVoteCreate
  | userCreate
  | userUpdateCapability
deriving DecidableEq, Repr

namespace Capability

/-- Every capability, in order. -/
def all : List Capability :=
  [.picCreate, .picIndex, .picRead, .picUpdateViewCounter, .picSoftDelete, .picTagCreate,
    .picCommentCreate, .picVoteCreate, .userCreate, .userUpdateCapability]

/-- No capability is missing from the list. -/
theorem mem_all (c : Capability) : c ∈ all := by cases c <;> decide

/-- The name by which a capability is written. -/
def name : Capability → String
  | .picCreate => "PIC_CREATE"
  | .picIndex => "PIC_INDEX"
  | .picRead => "PIC_READ"
  | .picUpdateViewCounter => "PIC_UPDATE_VIEW_COUNTER"
  | .picSoftDelete => "PIC_SOFT_DELETE"
  | .picTagCreate => "PIC_TAG_CREATE"
  | .picCommentCreate => "PIC_COMMENT_CREATE"
  | .picVoteCreate => "PIC_VOTE_CREATE"
  | .userCreate => "USER_CREATE"
  | .userUpdateCapability => "USER_UPDATE_CAPABILITY"

/-- The capability of a name. -/
def ofName? (s : String) : Option Capability := all.find? fun c => c.name = s

/-- A capability is found by its name. -/
@[simp] theorem ofName?_name (c : Capability) : ofName? c.name = some c := by
  cases c <;> decide

end Capability

/-- A set of capabilities. -/
structure CapabilitySet where
  contains : Capability → Bool

namespace CapabilitySet

/-- The set without members. -/
def empty : CapabilitySet := ⟨fun _ => false⟩

/-- The set with one more member. -/
def insert (s : CapabilitySet) (c : Capability) : CapabilitySet :=
  ⟨fun d => d = c || s.contains d⟩

/-- The set of the members of a list. -/
def ofList (cs : List Capability) : CapabilitySet := ⟨fun c => c ∈ cs⟩

/-- The members in order. -/
def toList (s : CapabilitySet) : List Capability := Capability.all.filter s.contains

/-- Sets with the same members are equal. -/
theorem ext_contains {s t : CapabilitySet} (h : ∀ c, s.contains c = t.contains c) : s = t := by
  cases s; cases t; congr; funext c; exact h c

theorem mem_toList {s : CapabilitySet} {c : Capability} : c ∈ s.toList ↔ s.contains c = true := by
  simp [toList, Capability.mem_all]

/-- A set is the set of its list. -/
@[simp] theorem ofList_toList (s : CapabilitySet) : ofList s.toList = s := by
  apply ext_contains
  intro c
  have h : (c ∈ s.toList) ↔ s.contains c = true := mem_toList
  simp [ofList, h]

instance : DecidableEq CapabilitySet := fun s t =>
  if h : s.toList = t.toList then
    .isTrue (by rw [← ofList_toList s, h, ofList_toList])
  else
    .isFalse fun e => h (by rw [e])

end CapabilitySet

end PicBoard
