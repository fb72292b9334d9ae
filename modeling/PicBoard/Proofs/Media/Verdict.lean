import Mathlib.Tactic
import PicBoard.Media.Webm
import PicBoard.Proofs.Media.Delivery
import PicBoard.Proofs.Outcome

/-!
# Which failure of a decoding is reported

Nine things can go wrong with a WebM file, in three activities that go on at the same time.  Each is
told apart here without regard to the others (`Fails`).  Unless the converter never ends (`Stalls`),
the one that is reported is the first of those that did go wrong, whatever else did, and a file is
decoded exactly when none did (`decodes_or_first_failure`).
-/

namespace PicBoard.Webm

open FrameStream (keepLast)

/-- What can go wrong with a file. -/
inductive Stage where
  | proberStart
  | converterStart
  | copy
  | proberExit
  | proberOutput
  | frames
  | converterExit
  | noFrames
  | policy
deriving DecidableEq, Repr

/-- The place of a stage in the order in which failures are reported. -/
def Stage.rank : Stage → Nat
  | .proberStart => 0
  | .converterStart => 1
  | .copy => 2
  | .proberExit => 3
  | .proberOutput => 4
  | .frames => 5
  | .converterExit => 6
  | .noFrames => 7
  | .policy => 8

theorem Stage.rank_injective {s t : Stage} (h : s.rank = t.rank) : s = t := by
  cases s <;> cases t <;> first | rfl | exact absurd h (by decide)

variable {capacity : Nat} {k : Readers} {ffprobe ffmpeg : ToolStart} {i : Intake}

/-- What goes wrong at each stage, taken by itself, and how it is reported. -/
inductive Fails (k : Readers) (ffprobe ffmpeg : ToolStart) (i : Intake) :
    Stage → WebmError → Prop where
  | proberStart {reason : String} (missing : ffprobe = .failed reason) :
      Fails k ffprobe ffmpeg i .proberStart (.spawn .ffprobe reason)
  | converterStart {reason : String} (missing : ffmpeg = .failed reason) :
      Fails k ffprobe ffmpeg i .converterStart (.spawn .ffmpeg reason)
  | copy {reason : String} (unread : i.failure = some reason) :
      Fails k ffprobe ffmpeg i .copy (.copy reason)
  | proberExit {r : ToolRun} (ran : ffprobe = .started r) (bad : r.exit ≠ .code 0) :
      Fails k ffprobe ffmpeg i .proberExit (.toolFailed .ffprobe r.exit r.diagnostics)
  | proberOutput {r : ToolRun} (ran : ffprobe = .started r)
      (unread : k.container r.stdout.bytes = none) :
      Fails k ffprobe ffmpeg i .proberOutput (.probeOutput r.diagnostics)
  | badFrame {r : ToolRun} {fault : FrameStream.Fault} (ran : ffmpeg = .started r)
      (bad : keepLast k.frame r.stdout = .error (.stream fault)) :
      Fails k ffprobe ffmpeg i .frames (.pipe .ffmpeg fault.message r.diagnostics)
  | undecodable {r : ToolRun} (ran : ffmpeg = .started r)
      (bad : keepLast k.frame r.stdout = .error .undecodable) :
      Fails k ffprobe ffmpeg i .frames (.frameDecode r.diagnostics)
  | converterExit {r : ToolRun} (ran : ffmpeg = .started r) (bad : r.exit ≠ .code 0) :
      Fails k ffprobe ffmpeg i .converterExit (.toolFailed .ffmpeg r.exit r.diagnostics)
  | noFrames {r : ToolRun} (ran : ffmpeg = .started r)
      (empty : keepLast k.frame r.stdout = .ok none) :
      Fails k ffprobe ffmpeg i .noFrames (.noFrames r.diagnostics)
  | policy {r : ToolRun} {c : Container} {cause : Container.Rejection}
      (ran : ffprobe = .started r) (read : k.container r.stdout.bytes = some c)
      (refused : c.check = .error cause) : Fails k ffprobe ffmpeg i .policy (.rejected cause)

/-- What it takes for a file to be decoded, and to what. -/
inductive Decodes (k : Readers) (ffprobe ffmpeg : ToolStart) (i : Intake) (w : WebmImage) :
    Prop where
  | intro {r s : ToolRun} {c : Container} {n : Nat} (prober : ffprobe = .started r)
      (converter : ffmpeg = .started s) (copied : i.failure = none)
      (proberEnded : r.exit = .code 0) (told : k.container r.stdout.bytes = some c)
      (converterEnded : s.exit = .code 0)
      (shown : keepLast k.frame s.stdout = .ok (some (w.frame, n)))
      (allowed : c.check = .ok w.duration) (tags : w.tags = c.format.tags) :
      Decodes k ffprobe ffmpeg i w

/-- What it takes for nothing to be reported: tools that both start, and more of the converter's
output left unread than a pipe holds. -/
inductive Stalls (capacity : Nat) (k : Readers) (ffprobe ffmpeg : ToolStart) : Prop where
  | intro {r s : ToolRun} (prober : ffprobe = .started r) (converter : ffmpeg = .started s)
      (full : capacity < FrameStream.unread k.frame s.stdout) : Stalls capacity k ffprobe ffmpeg

/-- What is reported of a file, if anything is. -/
def report (capacity : Nat) (k : Readers) (ffprobe ffmpeg : ToolStart) (i : Intake) :
    Option (Except WebmError WebmImage) :=
  (decodeWith capacity k ffprobe ffmpeg i).map Decoding.verdict

/-! ## At most one failure at each stage, and the first of them -/

/-- A stage fails in one way only. -/
theorem Fails.unique {s : Stage} {e e' : WebmError} (h : Fails k ffprobe ffmpeg i s e)
    (h' : Fails k ffprobe ffmpeg i s e') : e = e' := by
  cases h <;> cases h' <;> simp_all

/-- Nothing goes wrong before a stage. -/
def Clear (k : Readers) (ffprobe ffmpeg : ToolStart) (i : Intake) (s : Stage) : Prop :=
  ∀ earlier e, earlier.rank < s.rank → ¬ Fails k ffprobe ffmpeg i earlier e

theorem clear_proberStart : Clear k ffprobe ffmpeg i .proberStart := by
  intro earlier e hlt
  exact absurd hlt (Nat.not_lt_zero _)

/-- Where a stage does not go wrong either, nothing goes wrong before the one after it. -/
theorem Clear.next {s t : Stage} (hclear : Clear k ffprobe ffmpeg i s)
    (hrank : t.rank = s.rank + 1) (hs : ∀ e, ¬ Fails k ffprobe ffmpeg i s e) :
    Clear k ffprobe ffmpeg i t := by
  intro earlier e hlt hfails
  rw [hrank, Nat.lt_succ_iff_lt_or_eq] at hlt
  rcases hlt with hlt | heq
  · exact hclear earlier e hlt hfails
  · rw [Stage.rank_injective heq] at hfails
    exact hs e hfails

/-- There is one first failure. -/
theorem Fails.first_unique {s s' : Stage} {e e' : WebmError} (h : Fails k ffprobe ffmpeg i s e)
    (hclear : Clear k ffprobe ffmpeg i s) (h' : Fails k ffprobe ffmpeg i s' e')
    (hclear' : Clear k ffprobe ffmpeg i s') : e = e' := by
  rcases Nat.lt_trichotomy s.rank s'.rank with hlt | heq | hgt
  · exact absurd h (hclear' s e hlt)
  · rw [← Stage.rank_injective heq] at h'
    exact h.unique h'
  · exact absurd h' (hclear s' e' hgt)

/-! ## What each activity comes to -/

theorem isSuccess_iff (s : ExitStatus) : s.isSuccess = true ↔ s = .code 0 := by
  simp [ExitStatus.isSuccess]

theorem checkExit_eq_ok_iff {tool : Tool} {r : ToolRun} {u : Unit} :
    checkExit tool r = .ok u ↔ r.exit = .code 0 := by
  unfold checkExit
  rw [← isSuccess_iff]
  split <;> simp_all

theorem checkExit_eq_error_iff {tool : Tool} {r : ToolRun} {e : WebmError} :
    checkExit tool r = .error e ↔
      r.exit ≠ .code 0 ∧ .toolFailed tool r.exit r.diagnostics = e := by
  unfold checkExit
  rw [ne_eq, ← isSuccess_iff]
  split <;> simp_all

theorem probe_eq_ok_iff {r : ToolRun} {c : Container} :
    probe k r = .ok c ↔ r.exit = .code 0 ∧ k.container r.stdout.bytes = some c := by
  unfold probe
  simp only [bind_eq_ok_iff, checkExit_eq_ok_iff, exists_const]
  cases k.container r.stdout.bytes <;> simp [pure, Except.pure]

theorem probe_eq_error_iff {r : ToolRun} {e : WebmError} :
    probe k r = .error e ↔
      (r.exit ≠ .code 0 ∧ .toolFailed .ffprobe r.exit r.diagnostics = e) ∨
        (r.exit = .code 0 ∧ k.container r.stdout.bytes = none ∧
          .probeOutput r.diagnostics = e) := by
  unfold probe
  simp only [bind_eq_error_iff, checkExit_eq_ok_iff, checkExit_eq_error_iff, exists_const]
  cases k.container r.stdout.bytes <;> simp [pure, Except.pure]

theorem convert_eq_ok_iff {r : ToolRun} {frame : Image} :
    convert k r = .ok frame ↔
      r.exit = .code 0 ∧ ∃ n, keepLast k.frame r.stdout = .ok (some (frame, n)) := by
  unfold convert
  rcases keepLast k.frame r.stdout with (fault | _) | last
  · simp
  · simp
  · simp only [bind_eq_ok_iff, checkExit_eq_ok_iff, exists_const, Except.ok.injEq]
    rcases last with _ | ⟨image, n⟩ <;> simp [pure, Except.pure]

theorem convert_eq_error_iff {r : ToolRun} {e : WebmError} :
    convert k r = .error e ↔
      (∃ fault, keepLast k.frame r.stdout = .error (.stream fault) ∧
          .pipe .ffmpeg fault.message r.diagnostics = e) ∨
        (keepLast k.frame r.stdout = .error .undecodable ∧ .frameDecode r.diagnostics = e) ∨
        (∃ last, keepLast k.frame r.stdout = .ok last ∧ r.exit ≠ .code 0 ∧
          .toolFailed .ffmpeg r.exit r.diagnostics = e) ∨
        (keepLast k.frame r.stdout = .ok none ∧ r.exit = .code 0 ∧
          .noFrames r.diagnostics = e) := by
  unfold convert
  rcases keepLast k.frame r.stdout with (fault | _) | last
  · simp
  · simp
  · simp only [bind_eq_error_iff, checkExit_eq_ok_iff, checkExit_eq_error_iff, exists_const]
    rcases last with _ | ⟨image, n⟩ <;> simp [pure, Except.pure]

theorem accept_eq_ok_iff {c : Container} {frame : Image} {w : WebmImage} :
    accept c frame = .ok w ↔
      c.check = .ok w.duration ∧ w.frame = frame ∧ w.tags = c.format.tags := by
  unfold accept
  cases c.check with
  | error cause => simp
  | ok d =>
    obtain ⟨image, duration, tags⟩ := w
    simp only [Except.ok.injEq, WebmImage.mk.injEq]
    constructor
    · rintro ⟨rfl, rfl, rfl⟩
      exact ⟨rfl, rfl, rfl⟩
    · rintro ⟨rfl, rfl, rfl⟩
      exact ⟨rfl, rfl, rfl⟩

theorem accept_eq_error_iff {c : Container} {frame : Image} {e : WebmError} :
    accept c frame = .error e ↔ ∃ cause, c.check = .error cause ∧ .rejected cause = e := by
  unfold accept
  cases c.check <;> simp

/-! ## The whole decoding -/

/-- What matters of the tools is what their activities come to. -/
theorem verdict_congr {r r' s s' : ToolRun} (hprobe : probe k r = probe k r')
    (hconvert : convert k s = convert k s') (i : Intake) :
    (attend k r s i).verdict = (attend k r' s' i).verdict := by
  cases hcopied : i.failure with
  | some reason => rw [verdict_of_failure hcopied, verdict_of_failure hcopied]
  | none => rw [verdict_of_copied hcopied, verdict_of_copied hcopied, hprobe, hconvert]

theorem verdict_eq_ok_iff {r s : ToolRun} {w : WebmImage} :
    (attend k r s i).verdict = .ok w ↔ Decodes k (.started r) (.started s) i w := by
  constructor
  · intro h
    cases hcopied : i.failure with
    | some reason =>
      rw [verdict_of_failure hcopied] at h
      cases h
    | none =>
      rw [verdict_of_copied hcopied] at h
      obtain ⟨c, hprobe, h⟩ := bind_eq_ok_iff.mp h
      obtain ⟨frame, hconvert, h⟩ := bind_eq_ok_iff.mp h
      obtain ⟨hended, htold⟩ := probe_eq_ok_iff.mp hprobe
      obtain ⟨hended', n, hshown⟩ := convert_eq_ok_iff.mp hconvert
      obtain ⟨hcheck, rfl, htags⟩ := accept_eq_ok_iff.mp h
      exact .intro rfl rfl hcopied hended htold hended' hshown hcheck htags
  · rintro ⟨hprober, hconverter, hcopied, hended, htold, hended', hshown, hcheck, htags⟩
    cases hprober
    cases hconverter
    rw [verdict_of_copied hcopied, probe_eq_ok_iff.mpr ⟨hended, htold⟩, ok_bind,
      convert_eq_ok_iff.mpr ⟨hended', _, hshown⟩, ok_bind]
    exact accept_eq_ok_iff.mpr ⟨hcheck, rfl, htags⟩

/-- Where a file is decoded, nothing has gone wrong. -/
theorem Decodes.not_fails {w : WebmImage} (h : Decodes k ffprobe ffmpeg i w) (s : Stage)
    (e : WebmError) : ¬ Fails k ffprobe ffmpeg i s e := by
  obtain ⟨rfl, rfl, hcopied, hended, htold, hended', hshown, hcheck, -⟩ := h
  intro hfails
  cases hfails <;> simp_all

section Order

variable {r s : ToolRun} {c : Container}

theorem clear_converterStart : Clear k (.started r) ffmpeg i .converterStart :=
  clear_proberStart.next rfl fun _ hfails => by
    obtain ⟨missing⟩ := hfails
    cases missing

theorem clear_copy : Clear k (.started r) (.started s) i .copy :=
  clear_converterStart.next rfl fun _ hfails => by
    obtain _ | ⟨missing⟩ := hfails
    cases missing

theorem clear_proberExit (hcopied : i.failure = none) :
    Clear k (.started r) (.started s) i .proberExit :=
  clear_copy.next rfl fun _ hfails => by
    cases hfails with
    | copy unread =>
      rw [hcopied] at unread
      cases unread

theorem clear_proberOutput (hcopied : i.failure = none) (hended : r.exit = .code 0) :
    Clear k (.started r) (.started s) i .proberOutput :=
  (clear_proberExit hcopied).next rfl fun _ hfails => by
    cases hfails with
    | proberExit ran bad =>
      cases ran
      exact bad hended

theorem clear_frames (hcopied : i.failure = none) (hprobe : probe k r = .ok c) :
    Clear k (.started r) (.started s) i .frames := by
  obtain ⟨hended, htold⟩ := probe_eq_ok_iff.mp hprobe
  refine (clear_proberOutput hcopied hended).next rfl fun _ hfails => ?_
  cases hfails with
  | proberOutput ran unread =>
    cases ran
    rw [htold] at unread
    cases unread

theorem clear_converterExit (hcopied : i.failure = none) (hprobe : probe k r = .ok c)
    {last : Option (Image × Nat)} (hshown : keepLast k.frame s.stdout = .ok last) :
    Clear k (.started r) (.started s) i .converterExit := by
  refine (clear_frames hcopied hprobe).next rfl fun _ hfails => ?_
  cases hfails with
  | badFrame ran bad =>
    cases ran
    rw [hshown] at bad
    cases bad
  | undecodable ran bad =>
    cases ran
    rw [hshown] at bad
    cases bad

theorem clear_noFrames (hcopied : i.failure = none) (hprobe : probe k r = .ok c)
    {last : Option (Image × Nat)} (hshown : keepLast k.frame s.stdout = .ok last)
    (hended : s.exit = .code 0) : Clear k (.started r) (.started s) i .noFrames :=
  (clear_converterExit hcopied hprobe hshown).next rfl fun _ hfails => by
    cases hfails with
    | converterExit ran bad =>
      cases ran
      exact bad hended

theorem clear_policy (hcopied : i.failure = none) (hprobe : probe k r = .ok c) {frame : Image}
    (hconvert : convert k s = .ok frame) : Clear k (.started r) (.started s) i .policy := by
  obtain ⟨hended, n, hshown⟩ := convert_eq_ok_iff.mp hconvert
  refine (clear_noFrames hcopied hprobe hshown hended).next rfl fun _ hfails => ?_
  cases hfails with
  | noFrames ran empty =>
    cases ran
    rw [hshown] at empty
    cases empty

end Order

/-- What tools that start and end come to went wrong, and nothing before it did. -/
theorem first_of_verdict {r s : ToolRun} {e : WebmError}
    (h : (attend k r s i).verdict = .error e) :
    ∃ stage, Fails k (.started r) (.started s) i stage e ∧
      Clear k (.started r) (.started s) i stage := by
  cases hcopied : i.failure with
  | some reason =>
    rw [verdict_of_failure hcopied] at h
    cases h
    exact ⟨_, .copy hcopied, clear_copy⟩
  | none =>
    rw [verdict_of_copied hcopied] at h
    rcases bind_eq_error_iff.mp h with hfailed | ⟨c, hprobe, h⟩
    · rcases probe_eq_error_iff.mp hfailed with ⟨hbad, rfl⟩ | ⟨hended, hunread, rfl⟩
      · exact ⟨_, .proberExit rfl hbad, clear_proberExit hcopied⟩
      · exact ⟨_, .proberOutput rfl hunread, clear_proberOutput hcopied hended⟩
    rcases bind_eq_error_iff.mp h with hfailed | ⟨frame, hconvert, h⟩
    · rcases convert_eq_error_iff.mp hfailed with
        ⟨fault, hbad, rfl⟩ | ⟨hbad, rfl⟩ | ⟨last, hshown, hbad, rfl⟩ | ⟨hshown, hended, rfl⟩
      · exact ⟨_, .badFrame rfl hbad, clear_frames hcopied hprobe⟩
      · exact ⟨_, .undecodable rfl hbad, clear_frames hcopied hprobe⟩
      · exact ⟨_, .converterExit rfl hbad, clear_converterExit hcopied hprobe hshown⟩
      · exact ⟨_, .noFrames rfl hshown, clear_noFrames hcopied hprobe hshown hended⟩
    · obtain ⟨cause, hcheck, rfl⟩ := accept_eq_error_iff.mp h
      exact ⟨_, .policy rfl (probe_eq_ok_iff.mp hprobe).2 hcheck,
        clear_policy hcopied hprobe hconvert⟩

/-! ## What is reported -/

theorem stalls_started {r s : ToolRun} :
    Stalls capacity k (.started r) (.started s) ↔
      capacity < FrameStream.unread k.frame s.stdout := by
  constructor
  · rintro ⟨hprober, hconverter, hfull⟩
    cases hprober
    cases hconverter
    exact hfull
  · intro hfull
    exact .intro rfl rfl hfull

theorem report_started {r s : ToolRun} :
    report capacity k (.started r) (.started s) i =
      if capacity < FrameStream.unread k.frame s.stdout then none
      else some (attend k r s i).verdict := by
  rw [report, decodeWith_started]
  split <;> rfl

/-- What can be reported: that a tool does not start, or what tools come to that start and end. -/
theorem report_cases {x : Except WebmError WebmImage}
    (h : report capacity k ffprobe ffmpeg i = some x) :
    (∃ reason, ffprobe = .failed reason ∧ x = .error (.spawn .ffprobe reason)) ∨
      (∃ r reason, ffprobe = .started r ∧ ffmpeg = .failed reason ∧
        x = .error (.spawn .ffmpeg reason)) ∨
      ∃ r s, ffprobe = .started r ∧ ffmpeg = .started s ∧
        ¬ Stalls capacity k (.started r) (.started s) ∧ x = (attend k r s i).verdict := by
  cases ffprobe with
  | failed reason => exact .inl ⟨reason, rfl, (Option.some.inj h).symm⟩
  | started r =>
    cases ffmpeg with
    | failed reason => exact .inr (.inl ⟨r, reason, rfl, rfl, (Option.some.inj h).symm⟩)
    | started s =>
      rw [report_started] at h
      split at h
      · cases h
      · rename_i hroom
        exact .inr (.inr ⟨r, s, rfl, rfl, mt stalls_started.mp hroom, (Option.some.inj h).symm⟩)

theorem report_eq_none_iff :
    report capacity k ffprobe ffmpeg i = none ↔ Stalls capacity k ffprobe ffmpeg := by
  constructor
  · intro h
    cases ffprobe with
    | failed reason => cases h
    | started r =>
      cases ffmpeg with
      | failed reason => cases h
      | started s =>
        rw [report, Option.map_eq_none_iff, decodeWith_eq_none] at h
        exact stalls_started.mpr h
  · rintro ⟨rfl, rfl, hfull⟩
    rw [report_started, if_pos hfull]

theorem report_eq_ok_iff {w : WebmImage} :
    report capacity k ffprobe ffmpeg i = some (.ok w) ↔
      Decodes k ffprobe ffmpeg i w ∧ ¬ Stalls capacity k ffprobe ffmpeg := by
  constructor
  · intro h
    rcases report_cases h with ⟨_, _, hspawn⟩ | ⟨_, _, _, _, hspawn⟩ | ⟨r, s, rfl, rfl, hends, hw⟩
    · cases hspawn
    · cases hspawn
    · exact ⟨verdict_eq_ok_iff.mp hw.symm, hends⟩
  · rintro ⟨hdecodes, hends⟩
    have hstarted := hdecodes
    obtain ⟨rfl, rfl, -⟩ := hstarted
    rw [report_started, if_neg (mt stalls_started.mpr hends), verdict_eq_ok_iff.mpr hdecodes]

/-- What is reported went wrong, and nothing before it did. -/
theorem first_of_report {e : WebmError}
    (h : report capacity k ffprobe ffmpeg i = some (.error e)) :
    ∃ stage, Fails k ffprobe ffmpeg i stage e ∧ Clear k ffprobe ffmpeg i stage := by
  rcases report_cases h with ⟨reason, rfl, hspawn⟩ | ⟨r, reason, rfl, rfl, hspawn⟩ |
    ⟨r, s, rfl, rfl, -, he⟩
  · cases hspawn
    exact ⟨_, .proberStart rfl, clear_proberStart⟩
  · cases hspawn
    exact ⟨_, .converterStart rfl, clear_converterStart⟩
  · exact first_of_verdict he.symm

/-- The tool whose output or end is what went wrong. -/
def failedTool? : WebmError → Option Tool
  | .pipe tool _ _ | .toolFailed tool _ _ => some tool
  | .probeOutput _ => some .ffprobe
  | .frameDecode _ | .noFrames _ => some .ffmpeg
  | .spawn _ _ | .copy _ | .rejected _ => none

/-- How a tool starts. -/
def startOf (ffprobe ffmpeg : ToolStart) : Tool → ToolStart
  | .ffprobe => ffprobe
  | .ffmpeg => ffmpeg

/-- The failure of a tool comes with what that tool wrote on its error output. -/
theorem Fails.diagnostics {s : Stage} {e : WebmError} {tool : Tool}
    (h : Fails k ffprobe ffmpeg i s e) (htool : failedTool? e = some tool) :
    ∃ r, startOf ffprobe ffmpeg tool = .started r ∧ e.diagnostics? = some r.diagnostics := by
  cases h <;> cases htool <;> exact ⟨_, ‹_›, rfl⟩

/-- Nothing is reported exactly when the converter is left with more output unread than a pipe
holds.  Otherwise a file is decoded exactly when nothing goes wrong, to the last frame of the
converter and the duration and tags that the prober tells, and else the failure that is reported is
the first that there is in the order of the stages, whatever goes wrong after it.  That of a tool
comes with the end of what the same tool wrote on its error output. -/
theorem decodes_or_first_failure (capacity : Nat) (k : Readers) (ffprobe ffmpeg : ToolStart)
    (i : Intake) :
    (report capacity k ffprobe ffmpeg i = none ↔ Stalls capacity k ffprobe ffmpeg) ∧
      (∀ w, report capacity k ffprobe ffmpeg i = some (.ok w) ↔
        Decodes k ffprobe ffmpeg i w ∧ ¬ Stalls capacity k ffprobe ffmpeg) ∧
      (∀ e, report capacity k ffprobe ffmpeg i = some (.error e) ↔
        (∃ s, Fails k ffprobe ffmpeg i s e ∧
          ∀ earlier e', earlier.rank < s.rank → ¬ Fails k ffprobe ffmpeg i earlier e') ∧
        ¬ Stalls capacity k ffprobe ffmpeg) ∧
      ∀ e tool, report capacity k ffprobe ffmpeg i = some (.error e) →
        failedTool? e = some tool →
          ∃ r, startOf ffprobe ffmpeg tool = .started r ∧
            e.diagnostics? = some (r.stderr.bytes.lastBytes 4096).toTextLossy := by
  refine ⟨report_eq_none_iff, fun w => report_eq_ok_iff, fun e => ⟨?_, ?_⟩, ?_⟩
  · intro h
    refine ⟨first_of_report h, ?_⟩
    intro hstalls
    rw [report_eq_none_iff.mpr hstalls] at h
    cases h
  · rintro ⟨⟨s, hfails, hclear⟩, hends⟩
    -- something is reported, and the first failure is the only thing that it can be
    obtain ⟨x, hx⟩ := Option.ne_none_iff_exists'.mp (mt report_eq_none_iff.mp hends)
    cases x with
    | ok w => exact absurd hfails ((report_eq_ok_iff.mp hx).1.not_fails s e)
    | error e' =>
      obtain ⟨s', hfails', hclear'⟩ := first_of_report hx
      rw [hx, hfails'.first_unique hclear' hfails hclear]
  · intro e tool herror htool
    obtain ⟨s, hfails, -⟩ := first_of_report herror
    exact hfails.diagnostics htool

/-- Where a container is told of and the converter writes 200000 bytes that are no frame, the frames
are the first thing that goes wrong, and nothing is reported. -/
theorem bad_frames_not_reported :
    let k : Readers :=
      { container := fun _ => some
          { streams := [{ codecType := "video", codecName := "vp9" }]
            format := { formatName := "matroska,webm", duration := "3.500000" } }
        frame := fun _ => none }
    let prober : ToolRun := { stdout := [], stderr := [], exit := .code 0 }
    let converter : ToolRun :=
      { stdout := [List.replicate 200000 0x78], stderr := [], exit := .code 1 }
    let i : Intake := { reads := [[0x1a, 0x45, 0xdf, 0xa3]] }
    (Fails k (.started prober) (.started converter) i .frames
        (.pipe .ffmpeg "bad PNG signature" converter.diagnostics) ∧
      ∀ earlier e, earlier.rank < Stage.rank .frames →
        ¬ Fails k (.started prober) (.started converter) i earlier e) ∧
      decodeWith pipeCapacity k (.started prober) (.started converter) i = none := by
  intro k prober converter i
  have hbad : keepLast k.frame converter.stdout = .error (.stream .badSignature) :=
    FrameStream.keepLast_replicate 199992 0x78
  have hunread : FrameStream.unread k.frame converter.stdout = 199992 :=
    FrameStream.unread_replicate 199992 0x78
  refine ⟨⟨.badFrame rfl hbad, clear_frames rfl rfl⟩, ?_⟩
  rw [decodeWith_eq_none, hunread]
  decide

end PicBoard.Webm
