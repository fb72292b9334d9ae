import PicBoard.Media.Webm

/-!
# Decoding a WebM file, step by step

What goes on while a file is decoded: a copier that writes the file to both tools, the two tools,
and for each of them a task that reads what it writes.  Bytes go through pipes that hold so many and
no more, and whoever finds a pipe full, or empty while its other end is open, waits.  In each step
one of the five parties gets on by one byte, and which of them does is left open.
-/

namespace PicBoard

/-- What a tool does next. -/
inductive Act where
  /-- Takes a byte of its input, or sees that there is none. -/
  | take
  | out (byte : UInt8)
  | err (byte : UInt8)
deriving DecidableEq, Repr

namespace Act

/-- What is written on the output. -/
def outs : List Act → Bytes := List.filterMap fun
  | .out byte => some byte
  | _ => none

/-- What is written on the error output. -/
def errs : List Act → Bytes := List.filterMap fun
  | .err byte => some byte
  | _ => none

end Act

/-- All that a tool does, unless it dies before. -/
structure Child where
  acts : List Act
  exit : ExitStatus
deriving DecidableEq, Repr

/-- What a tool does that is not hindered. -/
def Child.run (c : Child) : ToolRun :=
  { stdout := [Act.outs c.acts], stderr := [Act.errs c.acts], exit := c.exit }

/-- A tool, the pipes to and from it, and the task that reads what it writes. -/
structure Branch where
  /-- What the tool has yet to do. -/
  todo : List Act
  /-- How the tool ended, once it has. -/
  status : Option ExitStatus := none
  /-- What is in the pipe to the tool. -/
  input : Bytes := []
  /-- Whether the copier still holds its end of the pipe to the tool. -/
  isFed : Bool := true
  /-- What is in the pipe of the output. -/
  output : Bytes := []
  /-- What is in the pipe of the error output. -/
  errors : Bytes := []
  /-- What was read of the output. -/
  out : Bytes := []
  /-- What was read of the error output. -/
  err : Bytes := []
  /-- Whether the reading of the output is over. -/
  outOver : Bool := false
  /-- Whether the error output was read to its end, which closes it. -/
  errOver : Bool := false
  /-- Whether the output was closed by the task. -/
  isClosed : Bool := false
  /-- Whether the task is over. -/
  isReturned : Bool := false
deriving DecidableEq, Repr

namespace Branch

/-- The status of a tool that writes where nobody reads. -/
def brokenPipe : ExitStatus := .signal 13

/-- The status of a tool that the task stops. -/
def killed : ExitStatus := .signal 9

/-- The tool gets on. -/
def act (capacity : Nat) (exit : ExitStatus) (b : Branch) : Option Branch :=
  match b.status with
  | some _ => none
  | none =>
    match b.todo with
    | [] => some { b with status := some exit }
    | .take :: todo =>
      match b.input with
      | _ :: input => some { b with todo, input }
      | [] => if b.isFed then none else some { b with todo }
    | .out byte :: todo =>
      if b.isClosed then some { b with status := some brokenPipe }
      else if b.output.length < capacity then
        some { b with todo, output := b.output ++ [byte] }
      else none
    | .err byte :: todo =>
      if b.errOver then some { b with status := some brokenPipe }
      else if b.errors.length < capacity then
        some { b with todo, errors := b.errors ++ [byte] }
      else none

/-- The task gets on with the output, of which nothing more is read once it is settled what the
output comes to. -/
def readOut (settled : Bytes → Bool) (b : Branch) : Option Branch :=
  if b.outOver then none
  else if settled b.out then some { b with outOver := true }
  else
    match b.output with
    | byte :: output => some { b with output, out := b.out ++ [byte] }
    | [] => if b.status.isSome then some { b with outOver := true } else none

/-- The task gets on with the error output. -/
def readErr (b : Branch) : Option Branch :=
  if b.errOver then none
  else
    match b.errors with
    | byte :: errors => some { b with errors, err := b.err ++ [byte] }
    | [] => if b.status.isSome then some { b with errOver := true } else none

/-- The task gets on when both outputs are over: it closes the output, stops the tool if the output
is no good, and else waits until the tool has ended. -/
def finish (isBad : Bytes → Bool) (b : Branch) : Option Branch :=
  if b.isReturned then none
  else if b.isClosed then
    if b.status.isSome then some { b with isReturned := true } else none
  else if b.outOver && b.errOver then
    if isBad b.out then
      some { b with isClosed := true, status := b.status.or (some killed), isReturned := true }
    else some { b with isClosed := true }
  else none

/-- The tool as far as its task has seen it. -/
def seen (b : Branch) : ToolRun :=
  { stdout := [b.out], stderr := [b.err], exit := b.status.getD killed }

end Branch

/-- A decoding: the room in each pipe, how what the tools write is read, the file, and what the
tools do. -/
structure Pipeline where
  capacity : Nat
  capacity_pos : 0 < capacity
  readers : Webm.Readers
  file : Intake
  child : Tool → Child

namespace Pipeline

/-- How far a decoding has got. -/
structure State where
  /-- What the copier has yet to read of the file. -/
  rest : Reads
  /-- What the copier has yet to write of what it read last, and to whom. -/
  sends : List (Tool × Bytes) := []
  /-- Whether the copier is over. -/
  isCopied : Bool := false
  branch : Tool → Branch

namespace State

/-- A state with another branch. -/
def set (s : State) (t : Tool) (b : Branch) : State :=
  { s with branch := fun u => if u = t then b else s.branch u }

/-- Whether all is over. -/
def isReturned (s : State) : Bool :=
  s.isCopied && (s.branch .ffprobe).isReturned && (s.branch .ffmpeg).isReturned

end State

/-- What gets on in a step. -/
inductive Move where
  | copy
  | act (tool : Tool)
  | readOut (tool : Tool)
  | readErr (tool : Tool)
  | finish (tool : Tool)
deriving DecidableEq, Repr

variable (p : Pipeline)

/-- Whether it is settled what an output comes to by what was read of it.  The prober's is read to
its end, the converter's up to the last frame that is taken or the first that is no good. -/
def settled : Tool → Bytes → Bool
  | .ffprobe, _ => false
  | .ffmpeg, out => FrameStream.isSettled p.readers.frame out

/-- How many bytes of a tool's output its task never reads. -/
def leftBehind : Tool → Nat
  | .ffprobe => 0
  | .ffmpeg => FrameStream.unread p.readers.frame (p.child .ffmpeg).run.stdout

/-- Whether what was read of an output is no good. -/
def isBad : Tool → Bytes → Bool
  | .ffprobe, _ => false
  | .ffmpeg, out =>
    match FrameStream.keepLast p.readers.frame [out] with
    | .error _ => true
    | .ok _ => false

/-- The state before anything is done. -/
def start : State where
  rest := p.file.reads
  branch t := { todo := (p.child t).acts }

/-- The copier gets on.  A tool that has ended is given nothing more, and where the file ends, or
cannot be read further, neither is. -/
def copy (s : State) : Option State :=
  if s.isCopied then none
  else
    match s.sends with
    | [] =>
      match s.rest with
      | piece :: rest => some { s with rest, sends := [(.ffprobe, piece), (.ffmpeg, piece)] }
      | [] =>
        some { s with isCopied := true, branch := fun t => { s.branch t with isFed := false } }
    | (t, bytes) :: sends =>
      let b := s.branch t
      if b.isFed then
        match bytes with
        | [] => some { s with sends }
        | byte :: bytes =>
          if b.status.isSome then some ({ s with sends }.set t { b with isFed := false })
          else if b.input.length < p.capacity then
            some ({ s with sends := (t, bytes) :: sends }.set t
              { b with input := b.input ++ [byte] })
          else none
      else some { s with sends }

/-- One step, if it can be made. -/
def step (s : State) : Move → Option State
  | .copy => p.copy s
  | .act t => ((s.branch t).act p.capacity (p.child t).exit).map (s.set t)
  | .readOut t => ((s.branch t).readOut (p.settled t)).map (s.set t)
  | .readErr t => (s.branch t).readErr.map (s.set t)
  | .finish t => ((s.branch t).finish (p.isBad t)).map (s.set t)

/-- Steps one after the other. -/
def run (s : State) : List Move → Option State
  | [] => some s
  | m :: moves =>
    match p.step s m with
    | some s => run s moves
    | none => none

/-- What a decoding has come to, by what the tasks have seen. -/
def result (s : State) : Except WebmError WebmImage :=
  (Webm.attend p.readers (s.branch .ffprobe).seen (s.branch .ffmpeg).seen p.file).verdict

/-- The same decoding, by what the tools do when they are not hindered. -/
def decoding : Option (Decoding WebmError WebmImage) :=
  Webm.decodeWith p.capacity p.readers (.started (p.child .ffprobe).run)
    (.started (p.child .ffmpeg).run) p.file

/-- Not all is over, and nothing can get on. -/
def Stuck (s : State) : Prop := s.isReturned = false ∧ ∀ m, p.step s m = none

/-- A state that can come about. -/
def Reachable (s : State) : Prop := ∃ moves, p.run p.start moves = some s

end Pipeline

end PicBoard
