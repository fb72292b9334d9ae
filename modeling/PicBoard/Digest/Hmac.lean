import PicBoard.Digest.Sha512

/-!
# Message authentication

A signature of a message under a key: HMAC with SHA-512/256.  What checks tokens uses a signing
function only through `Mac`, so its laws hold of every function with results of that length.
-/

namespace PicBoard

/-- A signing function: from a message to a signature of 32 bytes. -/
structure Mac where
  sign : Bytes → Bytes
  sign_length : ∀ message, (sign message).length = Sha512.hashLength

namespace Hmac

/-- The length of a block of the hash. -/
def blockLength : Nat := 128

/-- A key as one block: a longer key is hashed first, and zeros fill the block. -/
def keyBlock (key : Bytes) : Bytes :=
  let k := if blockLength < key.length then Sha512.hash256 key else key
  k ++ List.replicate (blockLength - k.length) 0

/-- The signature of a message: the hash, under the key with one mask, of the hash of the message
under the key with the other. -/
def sign (key message : Bytes) : Bytes :=
  let block := keyBlock key
  let inner := Sha512.hash256 (block.map (· ^^^ 0x36) ++ message)
  Sha512.hash256 (block.map (· ^^^ 0x5c) ++ inner)

@[simp] theorem sign_length (key message : Bytes) :
    (sign key message).length = Sha512.hashLength := rfl

end Hmac

/-- A signing function as it is shown, without its key. -/
def Mac.describe (_ : Mac) : String := "PwtCoder \x7b .. \x7d"

/-- The signing function of a key. -/
def Mac.hmac (key : Bytes) : Mac where
  sign := Hmac.sign key
  sign_length := Hmac.sign_length key

end PicBoard
