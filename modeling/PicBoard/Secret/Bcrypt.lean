import PicBoard.Secret.Blowfish
import PicBoard.Text.Decimal

/-!
# Hashed login secrets

A secret is stored as a bcrypt hash, `$2b$`, the cost, `$`, and the salt and the hash in a base64
of their own.  A hash that is not written so matches no secret.
-/

namespace PicBoard.Bcrypt

/-! ## The text of bytes -/

/-- The symbols of the text, in ascending order of value. -/
def alphabet : Bytes :=
  Bytes.ofText "./ABCDEFGHIJKLMNOPQRSTUVWXYZabcdefghijklmnopqrstuvwxyz0123456789"

/-- The symbol of a value below 64. -/
def symbol (n : Nat) : UInt8 := alphabet.getD n 0

/-- The symbols of a byte string. -/
def encode : Bytes → Bytes
  | [] => []
  | [x] => [symbol (x.toNat / 4), symbol (x.toNat % 4 * 16)]
  | [x, y] =>
    [symbol (x.toNat / 4), symbol (x.toNat % 4 * 16 + y.toNat / 16), symbol (y.toNat % 16 * 4)]
  | x :: y :: z :: rest =>
    symbol (x.toNat / 4) :: symbol (x.toNat % 4 * 16 + y.toNat / 16) ::
      symbol (y.toNat % 16 * 4 + z.toNat / 64) :: symbol (z.toNat % 64) :: encode rest

/-- The bytes of groups of four values; unused bits at the end must be zero. -/
def join : List Nat → Option Bytes
  | [] => some []
  | [a, b] => if b % 16 = 0 then some [UInt8.ofNat (a * 4 + b / 16)] else none
  | [a, b, c] =>
    if c % 4 = 0 then some [UInt8.ofNat (a * 4 + b / 16), UInt8.ofNat (b % 16 * 16 + c / 4)]
    else none
  | a :: b :: c :: d :: rest =>
    (join rest).map fun more =>
      UInt8.ofNat (a * 4 + b / 16) :: UInt8.ofNat (b % 16 * 16 + c / 4) ::
        UInt8.ofNat (c % 4 * 64 + d) :: more
  | _ => none

/-- The bytes of a text. -/
def decode? (text : Bytes) : Option Bytes := do
  join (← text.mapM fun b => alphabet.idxOf? b)

/-! ## Hashing -/

/-- The least cost. -/
def minCost : Nat := 4

/-- The greatest cost. -/
def maxCost : Nat := 31

/-- The cost of new hashes. -/
def standardCost : Nat := 12

/-- The secret with a zero byte after it, cut to 72 bytes. -/
def keyOf (secret : Bytes) : Bytes := (secret ++ [0]).take 72

/-- The text that is enciphered under the key, as words. -/
def magicWords : List (UInt32 × UInt32) :=
  [(0x4f727068, 0x65616e42), (0x65686f6c, 0x64657253), (0x63727944, 0x6f756274)]

/-- The big-endian bytes of a word. -/
def bytesOf (w : UInt32) : Bytes :=
  [(w >>> 24).toUInt8, (w >>> 16).toUInt8, (w >>> 8).toUInt8, w.toUInt8]

/-- The 23 bytes of the hash of a secret. -/
def digest (cost : Nat) (salt secret : Bytes) : Bytes :=
  let t := Blowfish.schedule cost salt (keyOf secret)
  (magicWords.flatMap fun (l, r) =>
    let (l, r) := Blowfish.encipherTimes t 64 l r
    bytesOf l ++ bytesOf r).take 23

/-- The text of a hash. -/
structure Hash where
  cost : Nat
  salt : Bytes
  digest : Bytes
deriving DecidableEq, Repr

/-- The cost of a secret's hash is out of range. -/
structure CostError where
  cost : Nat
deriving DecidableEq, Repr

/-- The wording of a refusal. -/
def CostError.message (e : CostError) : String :=
  s!"secret hashing failed: Cost needs to be between {minCost} and {maxCost}, got {e.cost}"

/-- Two digits. -/
def twoDigits (n : Nat) : Bytes := [Decimal.digitByte (n / 10), Decimal.digitByte n]

/-- The text of a hash. -/
def Hash.text (h : Hash) : Bytes :=
  Bytes.ofText "$2b$" ++ twoDigits h.cost ++ [36] ++ encode h.salt ++ encode h.digest

/-- Hashes a secret with a salt of 16 bytes. -/
def hash (cost : Nat) (salt secret : Bytes) : Except CostError Bytes :=
  if cost < minCost ∨ maxCost < cost then .error ⟨cost⟩
  else .ok (Hash.text { cost, salt, digest := digest cost salt secret })

/-- Hashes a secret at the standard cost with a salt of 16 bytes. -/
def standardHash (salt secret : Bytes) : Bytes :=
  Hash.text { cost := standardCost, salt, digest := digest standardCost salt secret }

/-! ## Matching -/

/-- The kinds of hash, which are all treated alike. -/
def kinds : List Bytes := ["2a", "2b", "2x", "2y"].map Bytes.ofText

/-- Reads the text of a hash.  The parts are what stands between dollar signs and is not empty. -/
def Hash.ofText? (text : Bytes) : Option Hash :=
  match (Bytes.pieces 36 text).filter (· ≠ []) with
  | [kind, cost, body] =>
    if kind ∉ kinds then none
    else
      match Decimal.readNat (Decimal.unsignedMax 32) cost with
      | .error _ => none
      | .ok cost =>
        if body.length ≠ 53 ∨ cost < minCost ∨ maxCost < cost then none
        else do
          let salt ← decode? (body.take 22)
          let digest ← decode? (body.drop 22)
          return { cost, salt, digest }
  | _ => none

/-- Whether a secret has the hash of a text. -/
def verify (secret text : Bytes) : Bool :=
  match Hash.ofText? text with
  | none => false
  | some h => digest h.cost h.salt secret = h.digest

end PicBoard.Bcrypt
