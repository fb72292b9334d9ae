/-!
# The binary fraction of pi

The cipher under the secret hash starts from the first bits of the fraction of pi.  They are
computed by pi/4 = 4 arctan(1/5) - arctan(1/239) in whole numbers, with spare bits for the
rounding of each term.
-/

namespace PicBoard.PiFraction

/-- Adds the terms of the series of arctan(1/x) from the one of odd number `n` on, where `power`
is the scaled 1/x^n. -/
def arctanTerms (x : Nat) : (fuel n : Nat) → (power : Nat) → (positive : Bool) → Int → Int
  | 0, _, _, _, sum => sum
  | fuel + 1, n, power, positive, sum =>
    if power = 0 then sum
    else
      let term : Int := (power / n : Nat)
      arctanTerms x fuel (n + 2) (power / (x * x)) (!positive)
        (if positive then sum + term else sum - term)

/-- The scaled arctan(1/x); `bits` terms are more than the series has. -/
def arctanInverse (bits scale x : Nat) : Int :=
  arctanTerms x bits 1 (scale / x) true 0

/-- The spare bits. -/
def spareBits : Nat := 64

/-- The first `bits` bits of the fraction of pi. -/
def fraction (bits : Nat) : Nat :=
  let scale := Nat.pow 2 (bits + spareBits)
  let pi := 4 * (4 * arctanInverse bits scale 5 - arctanInverse bits scale 239)
  pi.toNat / Nat.pow 2 spareBits % Nat.pow 2 bits

/-- Takes the words of 32 bits off the low end of a number, so many, in front of others. -/
def splitWords : (count : Nat) → Nat → List UInt32 → List UInt32
  | 0, _, words => words
  | count + 1, n, words => splitWords count (n / UInt32.size) (UInt32.ofNat n :: words)

/-- The first words of the fraction. -/
def words (count : Nat) : List UInt32 :=
  splitWords count (fraction (32 * count)) []

end PicBoard.PiFraction
