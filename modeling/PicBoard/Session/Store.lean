import PicBoard.Session.User

/-!
# Users and their sessions

The store keeps, for each user, the refresh families that are live, oldest start first.  A user
has at most so many; starting one more ends the oldest.
-/

namespace PicBoard

/-- A user with the live families, oldest start first. -/
structure StoredUser where
  user : User
  families : List Int64
deriving DecidableEq

/-- The users, in the order in which a search by name meets them, and the greatest number of live
families of one user. -/
structure UserStore where
  users : List StoredUser
  familyLimit : Nat
  familyLimit_pos : 0 < familyLimit

namespace UserStore

/-- How many families a user may have when nothing else is configured. -/
def standardLimit : Nat := 16

/-- A user in the place of one with the same id, or else at the end. -/
def insertUser (u : User) : List StoredUser → List StoredUser
  | [] => [{ user := u, families := [] }]
  | s :: rest =>
    if s.user.userId = u.userId then { user := u, families := [] } :: rest
    else s :: insertUser u rest

/-- The store of a list of users, none of whom has a session.  Of users with one id the last
counts, and a limit of zero counts as one. -/
def ofUsers (users : List User) (limit : Nat := standardLimit) : UserStore where
  users := users.foldl (fun stored u => insertUser u stored) []
  familyLimit := max limit 1
  familyLimit_pos := by omega

/-! ## Looking up -/

/-- The first user met with a name. -/
def findByIdent (s : UserStore) (ident : String) : Option User :=
  (s.users.find? fun u => u.user.ident = ident).map (·.user)

/-- What is stored under an id. -/
def stored? (s : UserStore) (userId : Int64) : Option StoredUser :=
  s.users.find? fun u => u.user.userId = userId

/-- The user with an id. -/
def findById (s : UserStore) (userId : Int64) : Option User :=
  (s.stored? userId).map (·.user)

/-- The live families of a user, oldest start first. -/
def families (s : UserStore) (userId : Int64) : List Int64 :=
  match s.stored? userId with
  | some u => u.families
  | none => []

/-! ## Starting and ending families -/

/-- Ends the oldest families until there is room for one more. -/
def makeRoom (limit : Nat) : List Int64 → List Int64
  | [] => []
  | f :: rest => if limit ≤ rest.length + 1 then makeRoom limit rest else f :: rest

/-- Gives a user other families. -/
def setFamilies (s : UserStore) (userId : Int64) (families : List Int64) : UserStore :=
  { s with users := s.users.map fun u =>
      if u.user.userId = userId then { u with families } else u }

/-- Starts family `new` for a user, ending family `old` if one is given.  Nothing is done, and
the answer is `none`, when there is no such user or `old` is not live. -/
def rotate? (s : UserStore) (userId : Int64) (old : Option Int64) (new : Int64) :
    Option UserStore :=
  match s.stored? userId with
  | none => none
  | some u =>
    let start (families : List Int64) :=
      s.setFamilies userId (makeRoom s.familyLimit families ++ [new])
    match old with
    | none => some (start u.families)
    | some old =>
      if old ∈ u.families then some (start (u.families.erase old)) else none

/-- Ends a family of a user.  Nothing is done, and the answer is `none`, when it is not live. -/
def revoke? (s : UserStore) (userId family : Int64) : Option UserStore :=
  match s.stored? userId with
  | none => none
  | some u =>
    if family ∈ u.families then some (s.setFamilies userId (u.families.erase family)) else none

end UserStore

end PicBoard
