import PicBoard.Operator.Program
import Std.Time.DateTime.Timestamp

/-!
# The operator's program

The outer layer: files, the clock and the streams of the process.  Nothing can be connected to and
no other program can be started from here.
-/

namespace PicBoard.Terminal

open Operator

/-- The reading of the clock. -/
def clock : IO Instant := do
  let n := (← Std.Time.Timestamp.now).toNanosecondsSinceUnixEpoch.val
  let nanos := (n % (nanosPerSecond : Int)).toNat
  if h : nanos < nanosPerSecond then
    return { seconds := Int64.ofInt (n / (nanosPerSecond : Int)), nanos, nanos_lt := h }
  else return Instant.ofSeconds 0

/-- What reading an open file gives. -/
def readAll (handle : IO.FS.Handle) : IO Intake := do
  try
    return { reads := [(← handle.readBinToEnd).data.toList] }
  catch e => return { reads := [], failure := some (toString e) }

/-- Opens a file and reads it; a directory can be opened but not read. -/
def openFile (path : String) : IO (Option Intake) := do
  try
    let handle ← IO.FS.Handle.mk path .read
    return some (← readAll handle)
  catch _ => return none

/-- Writes a file, and tells whether that was done. -/
def writeFile (path : String) (content : Bytes) : IO Bool := do
  try
    IO.FS.writeBinFile path ⟨content.toArray⟩
    return true
  catch _ => return false

/-- Asks on the error output and reads an answer.  A secret cannot be read without echo. -/
def ask : Prompt → IO (Option String)
  | .secret => return none
  | .ident => do
    IO.eprint "ident: "
    try
      return identOfInput (Bytes.ofText (← (← IO.getStdin).getLine))
    catch _ => return none

/-- What the process gives to commands. -/
def surroundings : Surroundings IO where
  ask := ask
  send := fun _ _ => return none
  openFile := openFile
  writeFile := writeFile
  tool := fun _ => .failed "No such file or directory (os error 2)"
  clock := clock
  salt := do return (← IO.getRandomBytes 16).data.toList

/-- Tells of a failure, with what lies behind it. -/
def report (c : Completion) : IO Unit := do
  if let some line := c.errorLine? then
    IO.eprintln line
    if let some cause := c.failure.bind (·.cause?) then
      IO.eprintln ("\nCaused by:\n    " ++ cause)
  else if c.code = 2 then IO.eprint Program.usage

end PicBoard.Terminal

/-- Runs the program with the arguments of the process, and waits when nothing comes of it. -/
def main (args : List String) : IO UInt32 := do
  let some c ← PicBoard.Program.run PicBoard.Terminal.surroundings args
    | repeat IO.sleep 60000
      return 1
  let out ← IO.getStdout
  out.write ⟨c.output.toArray⟩
  out.flush
  PicBoard.Terminal.report c
  return UInt32.ofNat c.code
