import PicBoard.Json.Printer
import PicBoard.Operator.Failure
import PicBoard.Secret.Bcrypt
import PicBoard.Session.User
import PicBoard.Text.Blank

/-!
# Entries of the users file

An operator makes the entry of a new user from an id, a name, capabilities by name and the hash
of a secret.
-/

namespace PicBoard.Operator

/-- The capability that a name in any case, with blanks around it, stands for. -/
def readCapability (name : String) : Except OperatorError Capability :=
  match Capability.ofName? (Text.asciiUpper (Text.trim name)) with
  | some c => .ok c
  | none => .error (.unknownCapability name)

/-- The set of the capabilities with these names. -/
def readCapabilities (names : List String) : Except OperatorError CapabilitySet :=
  (names.mapM readCapability).map .ofList

/-- The entry of a user. -/
def userEntry (userId : Int64) (ident : String) (capabilities : List String)
    (secretHash : String) : Except OperatorError User :=
  if ident = "" then .error .emptyIdent
  else do
    let capabilities ← readCapabilities capabilities
    return { userId, ident, secretHash, capabilities }

/-- Prints the entry of a user whose secret was given twice, hashed with a salt. -/
def showUserEntry (userId : Int64) (ident : String) (capabilities : List String)
    (secret again : String) (salt : Bytes) : Except OperatorError Bytes :=
  if secret ≠ again then .error .secretsDiffer
  else do
    let hash := Bcrypt.standardHash salt (Bytes.ofText secret)
    let entry ← userEntry userId ident capabilities hash.toLatin1
    return Outcome.line entry.toJson.spread

end PicBoard.Operator
