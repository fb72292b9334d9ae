import PicBoard.Capability
import PicBoard.Json.Fields

/-!
# Users

A user as the users file lists them.
-/

namespace PicBoard

namespace CapabilitySet

/-- A set as JSON: the names of its members, in order. -/
def toJson (s : CapabilitySet) : Json := .array (s.toList.map fun c => .ofText c.name)

/-- A capability from JSON: its name, or an object with that one member, which is null. -/
def memberOfJson? : Json → Option Capability
  | .object [(name, .null)] => do Capability.ofName? (← Bytes.toText? name)
  | j => do Capability.ofName? (← j.toText?)

/-- Reads a set from JSON; a name may occur twice. -/
def ofJson? (j : Json) : Option CapabilitySet :=
  (Json.toList? memberOfJson? j).map ofList

end CapabilitySet

/-- A user: the id by which tokens name them, the name and the hashed secret by which they log in,
and what they may do. -/
structure User where
  userId : Int64
  ident : String
  secretHash : String
  capabilities : CapabilitySet
deriving DecidableEq

namespace User

/-- The names of the fields, in order. -/
def names : List String := ["user_id", "ident", "secret_hash", "capabilities"]

/-- A user as JSON. -/
def toJson (u : User) : Json :=
  .ofFields
    [("user_id", .ofInt64 u.userId), ("ident", .ofText u.ident),
      ("secret_hash", .ofText u.secretHash), ("capabilities", u.capabilities.toJson)]

/-- Reads a user from JSON; the capabilities may be missing. -/
def ofJson? (j : Json) : Option User := do
  match ← Json.slots? names j with
  | [userId, ident, secretHash, capabilities] =>
    return {
      userId := ← userId.required Json.toInt64?
      ident := ← ident.required Json.toText?
      secretHash := ← secretHash.required Json.toText?
      capabilities := ← capabilities.withDefault CapabilitySet.ofJson? .empty }
  | _ => none

/-- Reads a users file: an array of users. -/
def listOfJson? (j : Json) : Option (List User) := Json.toList? ofJson? j

end User

end PicBoard
