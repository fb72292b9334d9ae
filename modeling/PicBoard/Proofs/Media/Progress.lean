import Mathlib.Tactic
import PicBoard.Proofs.Media.Branch
import PicBoard.Proofs.Media.Verdict

/-!
# When a decoding comes to an end

Every run of a decoding is finite (`Change.work_lt`), and what it comes to when it returns does not
depend on the schedule (`result_of_returned`).  Nothing can get on in one situation only: the
converter's task has read the last frame that it takes, and the converter has more to write than
goes into the pipe (`Stuck.blocked`).  The task then waits for the end of the error output, which
the converter closes when it ends, and the converter waits for room in its output, which the task
closes when it has seen the end of the error output.
-/

namespace PicBoard.Pipeline

variable {p : Pipeline} {s s' : State} {m : Move} {t : Tool}

/-! ## Steps -/

@[simp] theorem State.set_self (s : State) (t : Tool) (b : Branch) : (s.set t b).branch t = b :=
  if_pos rfl

theorem State.set_other (s : State) {t u : Tool} (h : u ≠ t) (b : Branch) :
    (s.set t b).branch u = s.branch u := if_neg h

/-- What can happen in one step: the copier gets on, or a tool with its task. -/
inductive Change (p : Pipeline) (s : State) : State → Prop where
  | feeds {piece : Bytes} {rest : Reads} (reading : s.isCopied = false) (idle : s.sends = [])
      (more : s.rest = piece :: rest) :
      Change p s { s with rest, sends := [(.ffprobe, piece), (.ffmpeg, piece)] }
  | copied (reading : s.isCopied = false) (idle : s.sends = []) (done : s.rest = []) :
      Change p s { s with isCopied := true, branch := fun t => { s.branch t with isFed := false } }
  | skips {t : Tool} {bytes : Bytes} {sends : List (Tool × Bytes)}
      (next : s.sends = (t, bytes) :: sends) : Change p s { s with sends }
  | drops {t : Tool} {bytes : Bytes} {sends : List (Tool × Bytes)}
      (next : s.sends = (t, bytes) :: sends) :
      Change p s ({ s with sends }.set t { s.branch t with isFed := false })
  | sends {t : Tool} {byte : UInt8} {bytes : Bytes} {sends : List (Tool × Bytes)} {input : Bytes}
      (next : s.sends = (t, byte :: bytes) :: sends) :
      Change p s ({ s with sends := (t, bytes) :: sends }.set t { s.branch t with input })
  | branch {t : Tool} {b : Branch}
      (step : (s.branch t).Step p.capacity (p.child t).exit (p.settled t) (p.isBad t) b) :
      Change p s (s.set t b)

theorem change_of_copy (h : p.copy s = some s') : Change p s s' := by
  unfold copy at h
  split at h
  · cases h
  rename_i reading
  have reading := Bool.eq_false_of_not_eq_true reading
  split at h <;> rename_i hsends
  · split at h <;> rename_i hrest
    · cases h
      exact .feeds reading hsends hrest
    · cases h
      exact .copied reading hsends hrest
  · dsimp only at h
    split at h
    · split at h
      · cases h
        exact .skips hsends
      · split at h
        · cases h
          exact .drops hsends
        · split at h
          · cases h
            exact .sends hsends
          · cases h
    · cases h
      exact .skips hsends

theorem change_of_step (h : p.step s m = some s') : Change p s s' := by
  cases m with
  | copy => exact change_of_copy h
  | act t =>
    obtain ⟨b, hb, rfl⟩ := Option.map_eq_some_iff.mp h
    exact .branch (Branch.step_of_act hb)
  | readOut t =>
    obtain ⟨b, hb, rfl⟩ := Option.map_eq_some_iff.mp h
    exact .branch (Branch.step_of_readOut hb)
  | readErr t =>
    obtain ⟨b, hb, rfl⟩ := Option.map_eq_some_iff.mp h
    exact .branch (Branch.step_of_readErr hb)
  | finish t =>
    obtain ⟨b, hb, rfl⟩ := Option.map_eq_some_iff.mp h
    exact .branch (Branch.step_of_finish hb)

/-! ## What every step preserves -/

/-- What holds of every state that can come about. -/
def Safe (p : Pipeline) (s : State) : Prop := ∀ t, Sound p t s.isCopied (s.branch t)

theorem safe_set {b : Branch} (h : Safe p s) (hb : Sound p t s.isCopied b) :
    Safe p (s.set t b) := by
  intro u
  by_cases hu : u = t
  · subst hu
    rw [State.set_self]
    exact hb
  · rw [State.set_other s hu]
    exact h u

theorem Safe.change (h : Safe p s) (hstep : Change p s s') : Safe p s' := by
  cases hstep with
  | feeds reading idle more => exact h
  | copied reading idle done => exact fun t => (h t).unfed true
  | skips next => exact h
  | drops next => exact safe_set (s := { s with sends := _ }) h ((h _).unfed _)
  | sends next => exact safe_set (s := { s with sends := _ }) h ((h _).feed _)
  | branch step => exact safe_set h ((h _).step step)

theorem Safe.run {moves : List Move} (h : Safe p s) (hrun : p.run s moves = some s') :
    Safe p s' := by
  induction moves generalizing s with
  | nil =>
    cases hrun
    exact h
  | cons m moves ih =>
    rw [Pipeline.run] at hrun
    split at hrun
    · exact ih (h.change (change_of_step ‹_›)) hrun
    · cases hrun

theorem Reachable.safe (h : p.Reachable s) : Safe p s := by
  obtain ⟨moves, hrun⟩ := h
  exact Safe.run (s := p.start) (sound_start p) hrun

/-! ## Runs are finite -/

/-- How many steps can still be made, at most. -/
def State.work (s : State) : Nat :=
  (s.rest.map fun piece => 2 * piece.length + 3).sum +
    (s.sends.map fun send => send.2.length + 1).sum + (!s.isCopied).toNat +
    (s.branch .ffprobe).work + (s.branch .ffmpeg).work

theorem State.work_set (s : State) (t : Tool) (b : Branch) :
    (s.set t b).work + (s.branch t).work = s.work + b.work := by
  cases t <;> simp [State.work, State.set] <;> omega

theorem State.work_set_of_eq {s : State} {t : Tool} {b : Branch}
    (h : b.work = (s.branch t).work) : (s.set t b).work = s.work := by
  have hwork := s.work_set t b
  omega

theorem Change.work_lt (h : Change p s s') : s'.work < s.work := by
  cases h with
  | feeds reading idle more => simp [State.work, idle, more]; omega
  | copied reading idle done =>
    have hbranch : ∀ t, Branch.work { s.branch t with isFed := false } = (s.branch t).work :=
      fun _ => rfl
    simp only [State.work, reading, hbranch]
    simp
  | skips next => simp [State.work, next]
  | @drops t bytes sends next =>
    calc State.work (State.set { s with sends } t { s.branch t with isFed := false })
        = State.work { s with sends } := State.work_set_of_eq rfl
      _ < s.work := by simp [State.work, next]
  | @sends t byte bytes sends input next =>
    calc State.work (State.set { s with sends := (t, bytes) :: sends } t { s.branch t with input })
        = State.work { s with sends := (t, bytes) :: sends } := State.work_set_of_eq rfl
      _ < s.work := by simp [State.work, next]
  | @branch t b step =>
    have hwork := State.work_set s t b
    have hlt := step.work_lt
    omega

theorem length_add_work_le {moves : List Move} (hrun : p.run s moves = some s') :
    moves.length + s'.work ≤ s.work := by
  induction moves generalizing s with
  | nil =>
    cases hrun
    simp
  | cons m moves ih =>
    rw [Pipeline.run] at hrun
    split at hrun
    · have hle := ih hrun
      have hlt := (change_of_step ‹_›).work_lt
      rw [List.length_cons]
      omega
    · cases hrun

/-- Every run can be gone on with until nothing can get on. -/
theorem exists_halted (p : Pipeline) (s : State) :
    ∃ moves s', p.run s moves = some s' ∧ ∀ m, p.step s' m = none := by
  induction hwork : s.work using Nat.strong_induction_on generalizing s with
  | _ n ih =>
    by_cases hhalted : ∀ m, p.step s m = none
    · exact ⟨[], s, rfl, hhalted⟩
    · obtain ⟨m, hm⟩ := not_forall.mp hhalted
      obtain ⟨s₁, hstep⟩ := Option.ne_none_iff_exists'.mp hm
      have hlt := (change_of_step hstep).work_lt
      obtain ⟨moves, s', hrun, hnone⟩ := ih s₁.work (hwork ▸ hlt) s₁ rfl
      refine ⟨m :: moves, s', ?_, hnone⟩
      rw [Pipeline.run, hstep]
      exact hrun

/-! ## Where nothing can get on -/

theorem copy_eq_none (h : p.copy s = none) :
    s.isCopied = true ∨
      ∃ t, (s.branch t).status = none ∧ p.capacity ≤ (s.branch t).input.length := by
  unfold copy at h
  split at h
  · exact .inl ‹_›
  split at h
  · split at h <;> cases h
  · rename_i t bytes sends hsends
    dsimp only at h
    split at h
    · split at h
      · cases h
      · split at h
        · cases h
        · split at h
          · cases h
          · exact .inr ⟨t, Option.not_isSome_iff_eq_none.mp ‹_›, Nat.le_of_not_lt ‹_›⟩
    · cases h

/-- A tool and its task that can do nothing. -/
structure Halted (p : Pipeline) (t : Tool) (b : Branch) : Prop where
  act : b.act p.capacity (p.child t).exit = none
  readOut : b.readOut (p.settled t) = none
  readErr : b.readErr = none
  finish : b.finish (p.isBad t) = none

theorem halted_of_step_eq_none (h : ∀ m, p.step s m = none) (t : Tool) :
    Halted p t (s.branch t) where
  act := Option.map_eq_none_iff.mp (h (.act t))
  readOut := Option.map_eq_none_iff.mp (h (.readOut t))
  readErr := Option.map_eq_none_iff.mp (h (.readErr t))
  finish := Option.map_eq_none_iff.mp (h (.finish t))

/-- A task whose tool has ended gets to its end. -/
theorem Halted.returned {b : Branch} (h : Halted p t b) (hended : b.status ≠ none) :
    b.isReturned = true := by
  have hout : b.outOver = true := (Branch.readOut_eq_none h.readOut).resolve_right
    fun hwait => hended hwait.2.2
  have herr : b.errOver = true := (Branch.readErr_eq_none h.readErr).resolve_right
    fun hwait => hended hwait.2
  rcases Branch.finish_eq_none h.finish with hreturned | hnone | hopen | hopen
  · exact hreturned
  · exact absurd hnone hended
  · rw [hout] at hopen
    cases hopen
  · rw [herr] at hopen
    cases hopen

/-- A tool that cannot get on waits for its input, or for room in its output. -/
theorem Halted.waits {b : Branch} (h : Halted p t b) (halive : b.status = none) :
    (b.input = [] ∧ b.isFed = true) ∨
      ∃ byte todo, b.todo = .out byte :: todo ∧ p.capacity ≤ b.output.length := by
  rcases Branch.act_eq_none h.act with hended | ⟨-, hinput | hout | ⟨hreading, hfull⟩⟩
  · rw [halive] at hended
    cases hended
  · exact .inl hinput
  · exact .inr hout
  · -- its error output is read whatever else goes on
    rcases Branch.readErr_eq_none h.readErr with hover | ⟨hempty, -⟩
    · rw [hreading] at hover
      cases hover
    · rw [hempty] at hfull
      exact absurd p.capacity_pos (Nat.not_lt_of_le hfull)

/-- In a state where nothing can get on, a tool waits for room in its output. -/
theorem Stuck.blocked (hsafe : Safe p s) (h : p.Stuck s) :
    ∃ t byte todo, (s.branch t).status = none ∧ (s.branch t).todo = .out byte :: todo ∧
      p.capacity ≤ (s.branch t).output.length := by
  obtain ⟨hreturned, hnone⟩ := h
  have hhalted := halted_of_step_eq_none hnone
  by_contra hblocked
  have hwaits : ∀ t, (s.branch t).status = none →
      (s.branch t).input = [] ∧ (s.branch t).isFed = true := by
    intro t halive
    refine ((hhalted t).waits halive).resolve_right ?_
    rintro ⟨byte, todo, hnext, hfull⟩
    exact hblocked ⟨t, byte, todo, halive, hnext, hfull⟩
  -- the copier does not wait either: the pipe that it writes to would have to be full
  have hcopied : s.isCopied = true := by
    refine (copy_eq_none (hnone .copy)).resolve_right ?_
    rintro ⟨t, halive, hfull⟩
    rw [(hwaits t halive).1] at hfull
    exact absurd p.capacity_pos (Nat.not_lt_of_le hfull)
  have hended : ∀ t, (s.branch t).status ≠ none := by
    intro t halive
    have hreading := (hsafe t).fed (hwaits t halive).2
    rw [hcopied] at hreading
    cases hreading
  have hall : s.isReturned = true := by
    rw [State.isReturned, hcopied, (hhalted .ffprobe).returned (hended _),
      (hhalted .ffmpeg).returned (hended _)]
    rfl
  rw [hreturned] at hall
  cases hall

/-- Then more is left behind of the converter's output than goes into a pipe. -/
theorem Stuck.capacity_lt (hsafe : Safe p s) (h : p.Stuck s) :
    p.capacity < p.leftBehind .ffmpeg := by
  obtain ⟨t, byte, todo, halive, hnext, hfull⟩ := h.blocked hsafe
  -- its task does not read on although there is something in the pipe, so the output is settled
  have hover : (s.branch t).outOver = true := by
    refine (Branch.readOut_eq_none (halted_of_step_eq_none h.2 t).readOut).resolve_right ?_
    rintro ⟨-, hempty, -⟩
    rw [hempty] at hfull
    exact absurd p.capacity_pos (Nat.not_lt_of_le hfull)
  have hsettled : p.settled t (s.branch t).out = true := by
    refine ((hsafe t).outOver hover).resolve_right ?_
    rintro ⟨hended, -⟩
    rw [halive] at hended
    cases hended
  have hle := length_le_of_settled hsettled (hsafe t).outKept
  rw [hnext, List.length_append, Act.outs_out, List.length_cons] at hle
  cases t with
  | ffprobe => cases hsettled
  | ffmpeg => omega

/-! ## What a decoding comes to -/

theorem Sound.of_returned {b : Branch} {isCopied : Bool} (h : Sound p t isCopied b)
    (hreturned : b.isReturned = true) :
    b.status = some (p.child t).exit ∧ b.todo = [] ∧ b.errors = [] ∧ b.outOver = true := by
  obtain ⟨hout, herr⟩ := h.closed (h.returned hreturned)
  obtain ⟨hended, hempty⟩ := h.errOver herr
  obtain ⟨status, hstatus⟩ := Option.isSome_iff_exists.mp hended
  obtain ⟨rfl, htodo⟩ := h.ended status hstatus
  exact ⟨hstatus, htodo, hempty, hout⟩

/-- A tool whose task has returned had room in the pipe for all that the task left behind. -/
theorem Sound.leftBehind_le_capacity {b : Branch} {isCopied : Bool} (h : Sound p t isCopied b)
    (hreturned : b.isReturned = true) : p.leftBehind t ≤ p.capacity := by
  have hleft := h.left
  rw [(h.of_returned hreturned).2.1, Act.outs_nil, List.append_nil] at hleft
  exact hleft.trans h.fits

/-- A decoding that has returned had room in the pipe for what was left of the converter's
output. -/
theorem leftBehind_le_of_returned (hsafe : Safe p s) (h : s.isReturned = true) :
    p.leftBehind .ffmpeg ≤ p.capacity :=
  (hsafe .ffmpeg).leftBehind_le_capacity (Bool.and_eq_true_iff.mp h).2

/-- Nothing can get on at some time exactly when more of the converter's output is left behind than
goes into a pipe. -/
theorem exists_stuck_iff (p : Pipeline) :
    (∃ s, p.Reachable s ∧ p.Stuck s) ↔ p.capacity < p.leftBehind .ffmpeg := by
  constructor
  · rintro ⟨s, hreachable, hstuck⟩
    exact hstuck.capacity_lt hreachable.safe
  · intro hlt
    -- a run that cannot be gone on with has not returned
    obtain ⟨moves, s, hrun, hnone⟩ := p.exists_halted p.start
    have hreachable : p.Reachable s := ⟨moves, hrun⟩
    refine ⟨s, hreachable, ?_, hnone⟩
    by_contra hreturned
    have hle := leftBehind_le_of_returned hreachable.safe (Bool.eq_true_of_not_eq_false hreturned)
    omega

/-- What the task sees of a tool until it returns is what the tool does, as far as the output
matters. -/
theorem Sound.seen_of_returned {b : Branch} {isCopied : Bool} (h : Sound p t isCopied b)
    (hreturned : b.isReturned = true) : b.seen = { (p.child t).run with stdout := [b.out] } := by
  obtain ⟨hstatus, htodo, herrors, -⟩ := h.of_returned hreturned
  have herr := h.errKept
  rw [htodo, herrors, Act.errs_nil, List.append_nil, List.append_nil] at herr
  simp only [Branch.seen, Child.run, hstatus, herr, Option.getD_some]

theorem Sound.prober_out {b : Branch} {isCopied : Bool} (h : Sound p .ffprobe isCopied b)
    (hreturned : b.isReturned = true) : b.out = Act.outs (p.child .ffprobe).acts := by
  obtain ⟨-, htodo, -, hover⟩ := h.of_returned hreturned
  rcases h.outOver hover with hsettled | ⟨-, hempty⟩
  · cases hsettled
  · have hout := h.outKept
    rwa [htodo, hempty, Act.outs_nil, List.append_nil, List.append_nil] at hout

theorem Sound.converter_frames {b : Branch} {isCopied : Bool} (h : Sound p .ffmpeg isCopied b)
    (hreturned : b.isReturned = true) :
    FrameStream.keepLast p.readers.frame [b.out] =
      FrameStream.keepLast p.readers.frame (p.child .ffmpeg).run.stdout := by
  obtain ⟨-, htodo, -, hover⟩ := h.of_returned hreturned
  rw [Child.run, ← h.outKept]
  rcases h.outOver hover with hsettled | ⟨-, hempty⟩
  · exact (FrameStream.settled_append hsettled _).2.1.symm
  · rw [htodo, hempty, Act.outs_nil, List.append_nil, List.append_nil]

/-- What the converter comes to is told by its frames. -/
theorem convert_of_keepLast {k : Webm.Readers} {r : ToolRun} {out : Bytes}
    (h : FrameStream.keepLast k.frame [out] = FrameStream.keepLast k.frame r.stdout) :
    Webm.convert k { r with stdout := [out] } = Webm.convert k r := by
  unfold Webm.convert
  rw [h]
  rfl

/-- Nothing comes of a decoding exactly when nothing can get on at some time. -/
theorem decoding_eq_none_iff (p : Pipeline) :
    p.decoding = none ↔ ∃ s, p.Reachable s ∧ p.Stuck s := by
  rw [exists_stuck_iff, decoding, Webm.decodeWith_eq_none, leftBehind]

/-- What a decoding comes to does not depend on the schedule. -/
theorem result_of_returned (hsafe : Safe p s) (h : s.isReturned = true) :
    ∃ d, p.decoding = some d ∧ d.verdict = p.result s := by
  obtain ⟨hfirst, hconverter⟩ := Bool.and_eq_true_iff.mp h
  obtain ⟨-, hprober⟩ := Bool.and_eq_true_iff.mp hfirst
  have hroom : p.leftBehind .ffmpeg ≤ p.capacity := leftBehind_le_of_returned hsafe h
  refine ⟨Webm.attend p.readers (p.child .ffprobe).run (p.child .ffmpeg).run p.file, ?_, ?_⟩
  · rw [decoding, Webm.decodeWith_started]
    exact if_neg (Nat.not_lt_of_le hroom)
  · rw [result, (hsafe .ffprobe).seen_of_returned hprober, (hsafe .ffprobe).prober_out hprober,
      (hsafe .ffmpeg).seen_of_returned hconverter]
    exact Webm.verdict_congr rfl
      (convert_of_keepLast ((hsafe .ffmpeg).converter_frames hconverter)).symm p.file

/-- A decoding makes finitely many steps, and what it comes to when it returns does not depend on
the schedule.  It always gets there when a pipe holds what is left unread of the converter's output:
there is then no schedule on which nothing can get on before.  When a pipe does not hold it, no
schedule gets there, and nothing comes of the decoding. -/
theorem never_stuck_iff (p : Pipeline) :
    (∃ n, ∀ moves s, p.run p.start moves = some s → moves.length ≤ n) ∧
      (∀ s, p.Reachable s → s.isReturned = true →
        ∃ d, p.decoding = some d ∧ d.verdict = p.result s) ∧
      ((∀ s, p.Reachable s → ¬ p.Stuck s) ↔
        FrameStream.unread p.readers.frame (p.child .ffmpeg).run.stdout ≤ p.capacity) ∧
      (p.capacity < FrameStream.unread p.readers.frame (p.child .ffmpeg).run.stdout →
        p.decoding = none ∧ ∀ s, p.Reachable s → s.isReturned = false) := by
  refine ⟨⟨p.start.work, fun moves s hrun => ?_⟩,
    fun s hreachable => result_of_returned hreachable.safe, ?_, fun hlt => ⟨?_, ?_⟩⟩
  · have hle := length_add_work_le hrun
    omega
  · have hiff := not_congr p.exists_stuck_iff
    rw [Nat.not_lt] at hiff
    rw [leftBehind] at hiff
    rw [← hiff]
    simp only [not_exists, not_and]
  · rw [decoding_eq_none_iff, exists_stuck_iff]
    exact hlt
  · intro s hreachable
    by_contra hreturned
    have hle := leftBehind_le_of_returned hreachable.safe (Bool.eq_true_of_not_eq_false hreturned)
    exact absurd hlt (Nat.not_lt_of_le hle)

/-- A converter that takes the whole video and then writes 200000 bytes that are no frame, to pipes
of the usual size. -/
def babbling : Pipeline where
  capacity := 65536
  capacity_pos := by decide
  readers := .standard
  file := { reads := [[0x1a, 0x45, 0xdf, 0xa3]] }
  child
    | .ffprobe => { acts := List.replicate 5 .take, exit := .code 0 }
    | .ffmpeg =>
      { acts := List.replicate 5 .take ++ List.replicate 200000 (.out 0x78), exit := .code 0 }

/-- It is told by the first eight of these that there is no frame, and then nothing gets on. -/
theorem babbling_stuck : ∃ s, babbling.Reachable s ∧ babbling.Stuck s := by
  have hout : (babbling.child .ffmpeg).run.stdout = [List.replicate (199992 + 8) 0x78] := by
    rw [Child.run, babbling, Act.outs_append, Act.outs_replicate_take, Act.outs_replicate_out,
      List.nil_append]
  rw [exists_stuck_iff, leftBehind, hout, FrameStream.unread_replicate]
  decide

end PicBoard.Pipeline
