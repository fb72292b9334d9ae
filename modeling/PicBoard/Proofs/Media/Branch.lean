import Mathlib.Tactic
import PicBoard.Media.Pipeline
import PicBoard.Proofs.Media.Frames

/-!
# One tool and its task

What a tool and the task that reads it can do in one step (`Step`), when they can do nothing
(`act_eq_none` and its neighbours), and what every step preserves (`Sound`): a tool's output is what
was read of it, what is in the pipe and what the tool has yet to write, in this order, and no less
of it is left than the task leaves behind.  A tool ends on its own: its error output is read to the
end before its output is closed, so it never finds that closed.
-/

namespace PicBoard

/-! ## What is written -/

namespace Act

@[simp] theorem outs_nil : outs [] = [] := rfl
@[simp] theorem errs_nil : errs [] = [] := rfl
@[simp] theorem outs_take (acts : List Act) : outs (.take :: acts) = outs acts := rfl
@[simp] theorem errs_take (acts : List Act) : errs (.take :: acts) = errs acts := rfl
@[simp] theorem outs_out (x : UInt8) (acts : List Act) :
    outs (.out x :: acts) = x :: outs acts := rfl
@[simp] theorem errs_out (x : UInt8) (acts : List Act) : errs (.out x :: acts) = errs acts := rfl
@[simp] theorem outs_err (x : UInt8) (acts : List Act) : outs (.err x :: acts) = outs acts := rfl
@[simp] theorem errs_err (x : UInt8) (acts : List Act) :
    errs (.err x :: acts) = x :: errs acts := rfl

theorem outs_append (first second : List Act) :
    outs (first ++ second) = outs first ++ outs second := List.filterMap_append

theorem outs_replicate_take (n : Nat) : outs (List.replicate n .take) = [] := by
  induction n with
  | zero => rfl
  | succ n ih => rw [List.replicate_succ, outs_take, ih]

theorem outs_replicate_out (n : Nat) (x : UInt8) :
    outs (List.replicate n (.out x)) = List.replicate n x := by
  induction n with
  | zero => rfl
  | succ n ih => rw [List.replicate_succ, outs_out, ih, List.replicate_succ]

end Act

namespace Branch

/-! ## What a step can do -/

variable {capacity : Nat} {exit : ExitStatus} {settled isBad : Bytes → Bool} {b b' : Branch}

/-- What can happen to a tool and its task in one step. -/
inductive Step (capacity : Nat) (exit : ExitStatus) (settled isBad : Bytes → Bool) (b : Branch) :
    Branch → Prop where
  | ends (alive : b.status = none) (done : b.todo = []) :
      Step capacity exit settled isBad b { b with status := some exit }
  | takes {todo : List Act} {input : Bytes} (alive : b.status = none)
      (next : b.todo = .take :: todo) : Step capacity exit settled isBad b { b with todo, input }
  | writes {byte : UInt8} {todo : List Act} (alive : b.status = none)
      (next : b.todo = .out byte :: todo) (room : b.output.length < capacity) :
      Step capacity exit settled isBad b { b with todo, output := b.output ++ [byte] }
  | complains {byte : UInt8} {todo : List Act} (alive : b.status = none)
      (next : b.todo = .err byte :: todo) (room : b.errors.length < capacity) :
      Step capacity exit settled isBad b { b with todo, errors := b.errors ++ [byte] }
  | dies (alive : b.status = none) (unheard : b.isClosed = true ∨ b.errOver = true) :
      Step capacity exit settled isBad b { b with status := some brokenPipe }
  | settles (reading : b.outOver = false) (enough : settled b.out = true) :
      Step capacity exit settled isBad b { b with outOver := true }
  | reads {byte : UInt8} {output : Bytes} (reading : b.outOver = false)
      (more : settled b.out = false) (there : b.output = byte :: output) :
      Step capacity exit settled isBad b { b with output, out := b.out ++ [byte] }
  | outEnds (reading : b.outOver = false) (empty : b.output = []) (ended : b.status.isSome = true) :
      Step capacity exit settled isBad b { b with outOver := true }
  | readsErr {byte : UInt8} {errors : Bytes} (reading : b.errOver = false)
      (there : b.errors = byte :: errors) :
      Step capacity exit settled isBad b { b with errors, err := b.err ++ [byte] }
  | errEnds (reading : b.errOver = false) (empty : b.errors = []) (ended : b.status.isSome = true) :
      Step capacity exit settled isBad b { b with errOver := true }
  | closes (opened : b.isClosed = false) (outOver : b.outOver = true) (errOver : b.errOver = true) :
      Step capacity exit settled isBad b { b with isClosed := true }
  | stops (opened : b.isClosed = false) (outOver : b.outOver = true) (errOver : b.errOver = true)
      (bad : isBad b.out = true) (running : b.isReturned = false) :
      Step capacity exit settled isBad b
        { b with isClosed := true, status := b.status.or (some killed), isReturned := true }
  | returns (running : b.isReturned = false) (closed : b.isClosed = true)
      (ended : b.status.isSome = true) :
      Step capacity exit settled isBad b { b with isReturned := true }

theorem step_of_act (h : b.act capacity exit = some b') :
    Step capacity exit settled isBad b b' := by
  unfold act at h
  split at h
  · cases h
  rename_i alive
  split at h <;> rename_i next
  · cases h
    exact .ends alive next
  · split at h
    · cases h
      exact .takes alive next
    · split at h <;> cases h
      exact .takes alive next
  · split at h
    · cases h
      exact .dies alive (.inl ‹_›)
    · split at h <;> cases h
      exact .writes alive next ‹_›
  · split at h
    · cases h
      exact .dies alive (.inr ‹_›)
    · split at h <;> cases h
      exact .complains alive next ‹_›

theorem step_of_readOut (h : b.readOut settled = some b') :
    Step capacity exit settled isBad b b' := by
  unfold readOut at h
  split at h
  · cases h
  rename_i reading
  split at h
  · cases h
    exact .settles (Bool.eq_false_of_not_eq_true reading) ‹_›
  rename_i more
  split at h
  · cases h
    exact .reads (Bool.eq_false_of_not_eq_true reading) (Bool.eq_false_of_not_eq_true more) ‹_›
  · split at h <;> cases h
    exact .outEnds (Bool.eq_false_of_not_eq_true reading) ‹_› ‹_›

theorem step_of_readErr (h : b.readErr = some b') : Step capacity exit settled isBad b b' := by
  unfold readErr at h
  split at h
  · cases h
  rename_i reading
  split at h
  · cases h
    exact .readsErr (Bool.eq_false_of_not_eq_true reading) ‹_›
  · split at h <;> cases h
    exact .errEnds (Bool.eq_false_of_not_eq_true reading) ‹_› ‹_›

theorem step_of_finish (h : b.finish isBad = some b') : Step capacity exit settled isBad b b' := by
  unfold finish at h
  split at h
  · cases h
  rename_i running
  split at h
  · split at h <;> cases h
    exact .returns (Bool.eq_false_of_not_eq_true running) ‹_› ‹_›
  rename_i opened
  split at h
  · rename_i both
    obtain ⟨outOver, errOver⟩ := Bool.and_eq_true_iff.mp both
    split at h <;> cases h
    · exact .stops (Bool.eq_false_of_not_eq_true opened) outOver errOver ‹_›
        (Bool.eq_false_of_not_eq_true running)
    · exact .closes (Bool.eq_false_of_not_eq_true opened) outOver errOver
  · cases h

/-- How many steps a tool and its task can still make, at most. -/
def work (b : Branch) : Nat :=
  2 * b.todo.length + b.output.length + b.errors.length + b.status.isNone.toNat +
    (!b.outOver).toNat + (!b.errOver).toNat + (!b.isClosed).toNat + (!b.isReturned).toNat

theorem Step.work_lt (h : Step capacity exit settled isBad b b') : b'.work < b.work := by
  cases h with
  | ends alive done => simp [work, alive]
  | takes alive next => simp [work, next]
  | writes alive next room => simp [work, next]; omega
  | complains alive next room => simp [work, next]; omega
  | dies alive unheard => simp [work, alive]
  | settles reading enough => simp [work, reading]
  | reads reading more there => simp [work, there]
  | outEnds reading empty ended => simp [work, reading]
  | readsErr reading there => simp [work, there]
  | errEnds reading empty ended => simp [work, reading]
  | closes opened outOver errOver => simp [work, opened]
  | stops opened outOver errOver bad running =>
    cases hstatus : b.status with
    | none => simp [work, opened, running, hstatus]; omega
    | some status => simp [work, opened, running, hstatus]
  | returns running closed ended => simp [work, running]

/-! ## When nothing can be done -/

theorem act_eq_none (h : b.act capacity exit = none) :
    b.status.isSome = true ∨
      (b.status = none ∧
        ((b.input = [] ∧ b.isFed = true) ∨
          (∃ byte todo, b.todo = .out byte :: todo ∧ capacity ≤ b.output.length) ∨
          (b.errOver = false ∧ capacity ≤ b.errors.length))) := by
  unfold act at h
  split at h
  · exact .inl (by rw [‹b.status = some _›]; rfl)
  rename_i alive
  refine .inr ⟨alive, ?_⟩
  split at h <;> rename_i next
  · cases h
  · split at h
    · cases h
    · split at h
      · exact .inl ⟨‹_›, ‹_›⟩
      · cases h
  · split at h
    · cases h
    · split at h
      · cases h
      · exact .inr (.inl ⟨_, _, next, Nat.le_of_not_lt ‹_›⟩)
  · split at h
    · cases h
    · split at h
      · cases h
      · exact .inr (.inr ⟨Bool.eq_false_of_not_eq_true ‹_›, Nat.le_of_not_lt ‹_›⟩)

theorem readOut_eq_none (h : b.readOut settled = none) :
    b.outOver = true ∨ (settled b.out = false ∧ b.output = [] ∧ b.status = none) := by
  unfold readOut at h
  split at h
  · exact .inl ‹_›
  split at h
  · cases h
  rename_i more
  split at h
  · cases h
  · split at h
    · cases h
    · exact .inr ⟨Bool.eq_false_of_not_eq_true more, ‹_›, Option.not_isSome_iff_eq_none.mp ‹_›⟩

theorem readErr_eq_none (h : b.readErr = none) :
    b.errOver = true ∨ (b.errors = [] ∧ b.status = none) := by
  unfold readErr at h
  split at h
  · exact .inl ‹_›
  split at h
  · cases h
  · split at h
    · cases h
    · exact .inr ⟨‹_›, Option.not_isSome_iff_eq_none.mp ‹_›⟩

theorem finish_eq_none (h : b.finish isBad = none) :
    b.isReturned = true ∨ b.status = none ∨ b.outOver = false ∨ b.errOver = false := by
  unfold finish at h
  split at h
  · exact .inl ‹_›
  split at h
  · split at h
    · cases h
    · exact .inr (.inl (Option.not_isSome_iff_eq_none.mp ‹_›))
  split at h
  · split at h <;> cases h
  · rename_i both
    refine .inr (.inr ?_)
    simpa [Bool.and_eq_true_iff, imp_iff_not_or] using both

end Branch

/-! ## What every step preserves -/

namespace Pipeline

variable {p : Pipeline} {t : Tool} {b b' : Branch} {isCopied : Bool}

/-- Once an output is settled, no more of it is to come than is left behind. -/
theorem length_le_of_settled {front rest : Bytes} (h : p.settled t front = true)
    (hout : front ++ rest = Act.outs (p.child t).acts) : rest.length ≤ p.leftBehind t := by
  cases t with
  | ffprobe => cases h
  | ffmpeg =>
    obtain ⟨-, -, hunread⟩ := FrameStream.settled_append h rest
    rw [leftBehind, Child.run, ← hout, hunread]
    exact Nat.le_add_left _ _

/-- Before that, more of it is to come. -/
theorem lt_length_of_not_settled {front rest : Bytes} (h : p.settled t front = false)
    (hrest : rest ≠ []) (hout : front ++ rest = Act.outs (p.child t).acts) :
    p.leftBehind t < rest.length := by
  cases t with
  | ffprobe => exact List.length_pos_iff.mpr hrest
  | ffmpeg =>
    rw [leftBehind, Child.run, ← hout]
    exact FrameStream.unread_lt_of_not_settled h hrest

theorem leftBehind_le (p : Pipeline) (t : Tool) :
    p.leftBehind t ≤ (Act.outs (p.child t).acts).length := by
  cases t with
  | ffprobe => exact Nat.zero_le _
  | ffmpeg =>
    have hle := FrameStream.unread_le p.readers.frame (p.child .ffmpeg).run.stdout
    rwa [Child.run, FrameStream.bytes_singleton] at hle

/-- What holds of a tool and its task at any time, while the copier is over or not. -/
structure Sound (p : Pipeline) (t : Tool) (isCopied : Bool) (b : Branch) : Prop where
  outKept : b.out ++ (b.output ++ Act.outs b.todo) = Act.outs (p.child t).acts
  errKept : b.err ++ (b.errors ++ Act.errs b.todo) = Act.errs (p.child t).acts
  fits : b.output.length ≤ p.capacity
  left : p.leftBehind t ≤ (b.output ++ Act.outs b.todo).length
  ended : ∀ status, b.status = some status → status = (p.child t).exit ∧ b.todo = []
  outOver : b.outOver = true → p.settled t b.out = true ∨ b.status.isSome = true ∧ b.output = []
  errOver : b.errOver = true → b.status.isSome = true ∧ b.errors = []
  closed : b.isClosed = true → b.outOver = true ∧ b.errOver = true
  returned : b.isReturned = true → b.isClosed = true
  fed : b.isFed = true → isCopied = false

theorem sound_start (p : Pipeline) (t : Tool) : Sound p t false (p.start.branch t) where
  outKept := rfl
  errKept := rfl
  fits := Nat.zero_le _
  left := p.leftBehind_le t
  ended := nofun
  outOver := nofun
  errOver := nofun
  closed := nofun
  returned := nofun
  fed _ := rfl

/-- A tool of which the error output was read to the end has ended on its own. -/
theorem Sound.isSome_of_unheard (h : Sound p t isCopied b)
    (unheard : b.isClosed = true ∨ b.errOver = true) : b.status.isSome = true := by
  rcases unheard with hclosed | herr
  · exact (h.errOver (h.closed hclosed).2).1
  · exact (h.errOver herr).1

theorem Sound.step (h : Sound p t isCopied b)
    (hstep : Branch.Step p.capacity (p.child t).exit (p.settled t) (p.isBad t) b b') :
    Sound p t isCopied b' := by
  cases hstep with
  | ends alive done =>
    exact { h with
      ended := by
        rintro _ ⟨⟩
        exact ⟨rfl, done⟩
      outOver := fun hover => (h.outOver hover).imp_right fun hend => ⟨rfl, hend.2⟩
      errOver := fun hover => ⟨rfl, (h.errOver hover).2⟩ }
  | takes alive next =>
    exact { h with
      outKept := by simpa [next] using h.outKept
      errKept := by simpa [next] using h.errKept
      left := by simpa [next] using h.left
      ended := fun _ hstatus => by cases alive.symm.trans hstatus }
  | writes alive next room =>
    exact { h with
      outKept := by simpa [next] using h.outKept
      errKept := by simpa [next] using h.errKept
      fits := by simpa using room
      left := by simpa [next] using h.left
      ended := fun _ hstatus => by cases alive.symm.trans hstatus
      outOver := fun hover => .inl <| (h.outOver hover).resolve_right fun hend => by
        simp [alive] at hend }
  | complains alive next room =>
    exact { h with
      outKept := by simpa [next] using h.outKept
      errKept := by simpa [next] using h.errKept
      left := by simpa [next] using h.left
      ended := fun _ hstatus => by cases alive.symm.trans hstatus
      errOver := fun hover => by
        have hended := (h.errOver hover).1
        simp [alive] at hended }
  | dies alive unheard =>
    have hended := h.isSome_of_unheard unheard
    simp [alive] at hended
  | settles reading enough =>
    exact { h with
      outOver := fun _ => .inl enough
      closed := fun hclosed => ⟨rfl, (h.closed hclosed).2⟩ }
  | reads reading more there =>
    exact { h with
      outKept := by simpa [there] using h.outKept
      fits := by
        have hfits := h.fits
        rw [there, List.length_cons] at hfits
        exact Nat.le_of_succ_le hfits
      left := by
        -- a byte is read only before the output is settled, when more is to come than is left
        have hlt := lt_length_of_not_settled more (by simp [there]) h.outKept
        rw [there] at hlt
        exact Nat.le_of_lt_succ hlt
      outOver := fun hover => by cases reading.symm.trans hover }
  | outEnds reading empty ended =>
    exact { h with
      outOver := fun _ => .inr ⟨ended, empty⟩
      closed := fun hclosed => ⟨rfl, (h.closed hclosed).2⟩ }
  | readsErr reading there =>
    exact { h with
      errKept := by simpa [there] using h.errKept
      errOver := fun hover => by cases reading.symm.trans hover }
  | errEnds reading empty ended =>
    exact { h with
      errOver := fun _ => ⟨ended, empty⟩
      closed := fun hclosed => ⟨(h.closed hclosed).1, rfl⟩ }
  | closes opened outOver errOver =>
    exact { h with
      closed := fun _ => ⟨outOver, errOver⟩
      returned := fun _ => rfl }
  | stops opened outOver errOver bad running =>
    -- the tool has ended, so stopping it changes nothing
    obtain ⟨status, hstatus⟩ := Option.isSome_iff_exists.mp (h.errOver errOver).1
    have hsame : b.status.or (some Branch.killed) = b.status := by rw [hstatus]; rfl
    rw [hsame]
    exact { h with
      closed := fun _ => ⟨outOver, errOver⟩
      returned := fun _ => rfl }
  | returns running closed ended => exact { h with returned := fun _ => closed }

/-- What the copier puts into the pipe to a tool is no matter for the rest, nor is that it stops
to. -/
theorem Sound.feed (h : Sound p t isCopied b) (input : Bytes) :
    Sound p t isCopied { b with input } := { h with }

theorem Sound.unfed (h : Sound p t isCopied b) (isCopied' : Bool) :
    Sound p t isCopied' { b with isFed := false } :=
  { h with fed := nofun }

end Pipeline

end PicBoard
