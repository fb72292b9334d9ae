/-!
# Clock readings and timestamps

A clock reading is a whole number of seconds since 1970, counted downward before it, and a number
of nanoseconds after that second.  A timestamp is the same pair as it stands in a record, where
nothing keeps it in range: it is valid from year 1 through 9999 with nanoseconds below a billion.
-/

namespace PicBoard

/-- Nanoseconds in a second. -/
def nanosPerSecond : Nat := 1000000000

/-- A clock reading: `nanos` nanoseconds after the start of second `seconds`. -/
structure Instant where
  seconds : Int64
  nanos : Nat
  nanos_lt : nanos < nanosPerSecond := by decide
deriving DecidableEq, Repr

namespace Instant

/-- The start of a second. -/
def ofSeconds (s : Int64) : Instant := { seconds := s, nanos := 0 }

/-- The reading so many seconds away, if it is in the range of clock readings. -/
def shift? (t : Instant) (by' : Int) : Option Instant :=
  let s := t.seconds.toInt + by'
  if Int64.minValue.toInt ≤ s ∧ s ≤ Int64.maxValue.toInt then
    some { t with seconds := Int64.ofInt s }
  else none

/-- The reading so many nanoseconds later, of which a billion make a second, if it is in the range of
clock readings. -/
def addNanos? (t : Instant) (n : Nat) : Option Instant :=
  let nanos := t.nanos + n
  let inSecond : Instant :=
    { seconds := t.seconds, nanos := nanos % nanosPerSecond, nanos_lt := Nat.mod_lt _ (by decide) }
  inSecond.shift? (nanos / nanosPerSecond : Nat)

/-- A duration with its sign: whether it lies before the epoch, whole seconds, nanoseconds. -/
structure Offset where
  beforeEpoch : Bool
  seconds : Nat
  nanos : Nat
deriving DecidableEq, Repr

/-- The distance of a reading from the epoch. -/
def offset (t : Instant) : Offset :=
  let s := t.seconds.toInt
  if 0 ≤ s then { beforeEpoch := false, seconds := s.toNat, nanos := t.nanos }
  else if t.nanos = 0 then { beforeEpoch := true, seconds := (-s).toNat, nanos := 0 }
  else
    { beforeEpoch := true, seconds := (-s).toNat - 1, nanos := nanosPerSecond - t.nanos }

end Instant

/-- A point in time as a record holds it: any seconds and any nanoseconds. -/
structure Timestamp where
  seconds : Int64
  nanos : Int32
deriving DecidableEq, Repr

namespace Timestamp

/-- The first second of year 1. -/
def minSeconds : Int := -62135596800

/-- The last second of year 9999. -/
def maxSeconds : Int := 253402300799

/-- The start of a second. -/
def ofSeconds (s : Int64) : Timestamp := { seconds := s, nanos := 0 }

/-- Whether a timestamp lies in the years 1 through 9999 and its nanoseconds are below a
billion. -/
def isValid (t : Timestamp) : Bool :=
  minSeconds ≤ t.seconds.toInt && t.seconds.toInt ≤ maxSeconds &&
    0 ≤ t.nanos.toInt && t.nanos.toInt < nanosPerSecond

/-- The timestamp at a distance from the epoch.  Before the epoch a part of a second is counted up
from the second below.  There is none where a 64-bit number of seconds has no opposite number. -/
def ofOffset? (d : Instant.Offset) : Option Timestamp :=
  let seconds := Int64.ofNat d.seconds
  let nanos := Int32.ofNat d.nanos
  if !d.beforeEpoch then some { seconds, nanos }
  else if seconds = Int64.minValue then none
  else if 0 < nanos then
    some { seconds := -seconds - 1, nanos := Int32.ofNat nanosPerSecond - nanos }
  else some { seconds := -seconds, nanos }

/-- The timestamp of a clock reading, from its distance from the epoch.  There is none for the very
first reading. -/
def ofInstant? (t : Instant) : Option Timestamp := ofOffset? t.offset

/-- The clock reading that a valid timestamp denotes: its seconds forward or back from 1970, and its
nanoseconds on from there. -/
def toInstant? (t : Timestamp) : Option Instant :=
  if t.isValid then do
    let second ← (Instant.ofSeconds 0).shift? t.seconds.toInt
    second.addNanos? t.nanos.toInt.toNat
  else none

/-- Order in time, for timestamps whose nanoseconds are in range: by seconds, then by
nanoseconds. -/
def before (a b : Timestamp) : Bool :=
  a.seconds < b.seconds || (a.seconds == b.seconds && a.nanos < b.nanos)

end Timestamp

end PicBoard
