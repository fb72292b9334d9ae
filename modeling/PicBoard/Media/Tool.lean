import PicBoard.Media.Reads
import PicBoard.Text.Decimal

/-!
# External tools

Two tools look at a video: one describes its container, the other turns it into pictures.  What a
tool does is given by what it takes of its input, what it writes, and how it ends.
-/

namespace PicBoard

/-- The tools. -/
inductive Tool where
  | ffprobe
  | ffmpeg
deriving DecidableEq, Repr

namespace Tool

/-- The name of a tool, which is also the program that is run when no other is configured. -/
def name : Tool → String
  | .ffprobe => "ffprobe"
  | .ffmpeg => "ffmpeg"

/-- The arguments that a tool is given. -/
def arguments : Tool → List String
  | .ffprobe => ["-hide_banner", "-print_format", "json", "-show_format", "-show_streams", "-"]
  | .ffmpeg =>
    ["-hide_banner", "-t", "1.0", "-i", "-", "-frames:v", "120", "-codec:v", "png",
      "-compression_level", "0", "-f", "image2pipe", "-"]

end Tool

/-- How a tool ended. -/
inductive ExitStatus where
  | code (n : Nat)
  | signal (n : Nat)
deriving DecidableEq, Repr

namespace ExitStatus

/-- Whether a tool ended well. -/
def isSuccess (s : ExitStatus) : Bool := s == .code 0

/-- The names of the signals, from number one on. -/
def signalNames : List String :=
  ["SIGHUP", "SIGINT", "SIGQUIT", "SIGILL", "SIGTRAP", "SIGABRT", "SIGBUS", "SIGFPE", "SIGKILL",
    "SIGUSR1", "SIGSEGV", "SIGUSR2", "SIGPIPE", "SIGALRM", "SIGTERM", "SIGSTKFLT", "SIGCHLD",
    "SIGCONT", "SIGSTOP", "SIGTSTP", "SIGTTIN", "SIGTTOU", "SIGURG", "SIGXCPU", "SIGXFSZ",
    "SIGVTALRM", "SIGPROF", "SIGWINCH", "SIGIO", "SIGPWR", "SIGSYS"]

/-- The wording of a status. -/
def describe : ExitStatus → String
  | .code n => s!"exit status: {n}"
  | .signal n =>
    match n with
    | 0 => "signal: 0"
    | n + 1 =>
      match signalNames[n]? with
      | some name => s!"signal: {n + 1} ({name})"
      | none => s!"signal: {n + 1}"

end ExitStatus

/-- What a tool that was started does. -/
structure ToolRun where
  /-- How many bytes of its input it takes before it stops reading; all of them when absent. -/
  appetite : Option Nat := none
  stdout : Reads
  stderr : Reads
  exit : ExitStatus
deriving DecidableEq, Repr

namespace ToolRun

/-- How many bytes of what a tool wrote on its error output are kept. -/
def diagnosticsLength : Nat := 4096

/-- The end of what a tool wrote on its error output. -/
def diagnostics (r : ToolRun) : String :=
  (r.stderr.bytes.lastBytes diagnosticsLength).toTextLossy

end ToolRun

/-- What becomes of starting a tool. -/
inductive ToolStart where
  | failed (reason : String)
  | started (run : ToolRun)
deriving DecidableEq, Repr

end PicBoard
