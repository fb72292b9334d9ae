import PicBoard.Text.Decimal

/-!
# The shortest decimal of a binary fraction

A floating-point number is written with the fewest digits that read back as it; of several such
decimals the nearest is taken.  A point stands in it when the first digit lies between five places
after the point and sixteen before it, and otherwise there is an exponent.
-/

namespace PicBoard.Shortest

/-- A positive number m · 2^q whose neighbours are those of a floating-point number. -/
structure Binary where
  mantissa : Nat
  exponent : Int
  /-- Whether the neighbour below is nearer than the one above. -/
  nearBelow : Bool

/-- The parts of a positive finite floating-point number. -/
def Binary.ofFloat (x : Float) : Binary :=
  let bits := x.toBits.toNat
  let fraction : Nat := bits % Nat.pow 2 52
  let biased : Nat := bits / Nat.pow 2 52 % Nat.pow 2 11
  if biased = 0 then { mantissa := fraction, exponent := -1074, nearBelow := false }
  else
    { mantissa := Nat.pow 2 52 + fraction, exponent := (biased : Int) - 1075,
      nearBelow := fraction = 0 && 1 < biased }

/-- A quotient of natural numbers. -/
structure Ratio where
  num : Nat
  den : Nat

/-- A number of units of 2^(q-2). -/
def Binary.quarters (b : Binary) (n : Nat) : Ratio :=
  let p := b.exponent - 2
  if 0 ≤ p then { num := n * Nat.pow 2 p.toNat, den := 1 }
  else { num := n, den := Nat.pow 2 (-p).toNat }

/-- The sign of d · 10^j minus a quotient. -/
def compareDecimal (d : Nat) (j : Int) (r : Ratio) : Ordering :=
  if 0 ≤ j then compare (d * Nat.pow 10 j.toNat * r.den) r.num
  else compare (d * r.den) (r.num * Nat.pow 10 (-j).toNat)

/-- The whole number of units of 10^j in a quotient. -/
def unitsIn (j : Int) (r : Ratio) : Nat :=
  if 0 ≤ j then r.num / (r.den * Nat.pow 10 j.toNat) else r.num * Nat.pow 10 (-j).toNat / r.den

/-- The power of ten of the first digit, searched from `k` downward. -/
def leadingPower (r : Ratio) : (fuel : Nat) → Int → Int
  | 0, k => k
  | fuel + 1, k =>
    match compareDecimal 1 k r with
    | .gt => leadingPower r fuel (k - 1)
    | _ => k

/-- Whether d · 10^j reads back as a number: it lies between the halfway points to the
neighbours, or on one when the number is even. -/
def readsBack (b : Binary) (d : Nat) (j : Int) : Bool :=
  let low := b.quarters (4 * b.mantissa - (if b.nearBelow then 1 else 2))
  let high := b.quarters (4 * b.mantissa + 2)
  let even := b.mantissa % 2 = 0
  let above := match compareDecimal d j low with
    | .gt => true
    | .eq => even
    | .lt => false
  let below := match compareDecimal d j high with
    | .lt => true
    | .eq => even
    | .gt => false
  above && below

/-- The decimal of the least number of digits, from `n` on, that reads back: its digits as a
number and the power of ten of the last. -/
def search (b : Binary) (k : Int) : (fuel n : Nat) → Nat × Int
  | 0, _ => (b.mantissa, 0)
  | fuel + 1, n =>
    let value := b.quarters (4 * b.mantissa)
    let j := k - n + 1
    let d := unitsIn j value
    let down := readsBack b d j
    let up := readsBack b (d + 1) j
    if down && up then
      -- the nearer one: compare the value with the middle between them
      match compareDecimal (10 * d + 5) (j - 1) value with
      | .lt => (d + 1, j)
      | _ => (d, j)
    else if down then (d, j)
    else if up then (d + 1, j)
    else search b k fuel (n + 1)

/-- Takes the zeros off the end of a number, raising the power of ten. -/
def stripZeros : (fuel : Nat) → Nat → Int → Nat × Int
  | 0, d, j => (d, j)
  | fuel + 1, d, j => if d % 10 = 0 ∧ d ≠ 0 then stripZeros fuel (d / 10) (j + 1) else (d, j)

/-- The text of digits with the power of ten of the last. -/
def layout (d : Nat) (j : Int) : Bytes :=
  let digits := Decimal.digits d
  let n := digits.length
  let place : Int := n + j
  let zeros (count : Int) : Bytes := List.replicate count.toNat 48
  if 0 ≤ j ∧ place ≤ 16 then digits ++ zeros j ++ [46, 48]
  else if 0 < place ∧ place ≤ 16 then
    digits.take place.toNat ++ 46 :: digits.drop place.toNat
  else if -5 < place ∧ place ≤ 0 then [48, 46] ++ zeros (-place) ++ digits
  else
    let exponent := 101 :: Decimal.integer (place - 1)
    if n = 1 then digits ++ exponent
    else digits.take 1 ++ 46 :: digits.drop 1 ++ exponent

/-- The text of a number that is zero or positive. -/
def text (x : Float) : Bytes :=
  let b := Binary.ofFloat x
  if b.mantissa = 0 then Bytes.ofText "0.0"
  else
    let k := leadingPower (b.quarters (4 * b.mantissa)) 700 309
    let (d, j) := search b k 17 1
    let (d, j) := stripZeros 20 d j
    layout d j

end PicBoard.Shortest
