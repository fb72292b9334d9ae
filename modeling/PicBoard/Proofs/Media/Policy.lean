import Mathlib.Tactic
import PicBoard.Proofs.Media.Duration

/-!
# Exactly the allowed containers are accepted

The streams are gone through in order.  An allowed stream leaves nothing behind but whether it is
video, and any other ends the walk with what is wrong with it, so that a walk ends well when all
streams are allowed, and else at the first that is not (`checkStreams_of_allowed`,
`checkStreams_of_firstOffence`).  The rules on the container come before it.  Every container is
accepted or refused for the first rule that it breaks (`accepted_or_refused`), and the policy says
so (`containers_accepted_exactly`).
-/

namespace PicBoard.Container

variable {c : Container} {d : Duration} {s : MediaStream} {streams front back : List MediaStream}
  {e : Rejection} {found : Bool}

/-! ## One stream -/

/-- A stream that is allowed.  Each type has codecs of its own. -/
inductive Allowed (s : MediaStream) : Prop where
  | video (type : s.codecType = "video") (codec : s.codecName = "vp8" ∨ s.codecName = "vp9")
  | audio (type : s.codecType = "audio") (codec : s.codecName = "vorbis" ∨ s.codecName = "opus")

/-- What is wrong with a stream that is not: its codec, or its type, whatever the codec is. -/
inductive Offends (s : MediaStream) : Rejection → Prop where
  | video (type : s.codecType = "video") (codec : s.codecName ≠ "vp8" ∧ s.codecName ≠ "vp9") :
      Offends s (.unsupportedVideo s.codecName)
  | audio (type : s.codecType = "audio") (codec : s.codecName ≠ "vorbis" ∧ s.codecName ≠ "opus") :
      Offends s (.unsupportedAudio s.codecName)
  | other (notVideo : s.codecType ≠ "video") (notAudio : s.codecType ≠ "audio") :
      Offends s (.unsupportedStream s.codecType s.codecName)

theorem Allowed.streamFault (h : Allowed s) : streamFault s = none := by
  cases h with
  | video type codec =>
    have hcodec : s.codecName ∈ videoCodecs := by simpa [videoCodecs] using codec
    rw [Container.streamFault, if_pos type, if_pos hcodec]
  | audio type codec =>
    have hvideo : s.codecType ≠ "video" := by simp [type]
    have hcodec : s.codecName ∈ audioCodecs := by simpa [audioCodecs] using codec
    rw [Container.streamFault, if_neg hvideo, if_pos type, if_pos hcodec]

theorem Offends.streamFault (h : Offends s e) : streamFault s = some e := by
  cases h with
  | video type codec =>
    have hcodec : s.codecName ∉ videoCodecs := by simpa [videoCodecs] using codec
    rw [Container.streamFault, if_pos type, if_neg hcodec]
  | audio type codec =>
    have hvideo : s.codecType ≠ "video" := by simp [type]
    have hcodec : s.codecName ∉ audioCodecs := by simpa [audioCodecs] using codec
    rw [Container.streamFault, if_neg hvideo, if_pos type, if_neg hcodec]
  | other notVideo notAudio =>
    rw [Container.streamFault, if_neg notVideo, if_neg notAudio]

theorem allowed_or_offends (s : MediaStream) : Allowed s ∨ ∃ e, Offends s e := by
  by_cases hvideo : s.codecType = "video"
  · by_cases hcodec : s.codecName = "vp8" ∨ s.codecName = "vp9"
    · exact .inl (.video hvideo hcodec)
    · exact .inr ⟨_, .video hvideo (not_or.mp hcodec)⟩
  · by_cases haudio : s.codecType = "audio"
    · by_cases hcodec : s.codecName = "vorbis" ∨ s.codecName = "opus"
      · exact .inl (.audio haudio hcodec)
      · exact .inr ⟨_, .audio haudio (not_or.mp hcodec)⟩
    · exact .inr ⟨_, .other hvideo haudio⟩

/-! ## All streams -/

/-- A stream is in the list that is not allowed, and all before it are. -/
inductive FirstOffence : List MediaStream → Rejection → Prop where
  | intro {front back : List MediaStream} {s : MediaStream} {e : Rejection}
      (before : ∀ x ∈ front, Allowed x) (offends : Offends s e) :
      FirstOffence (front ++ s :: back) e

theorem checkStreams_cons_of_allowed (h : Allowed s) (found : Bool) (rest : List MediaStream) :
    checkStreams found (s :: rest) = checkStreams (found || s.codecType == "video") rest := by
  rw [checkStreams, h.streamFault]

theorem checkStreams_cons_of_offends (h : Offends s e) (found : Bool) (rest : List MediaStream) :
    checkStreams found (s :: rest) = .error e := by
  rw [checkStreams, h.streamFault]

/-- Behind allowed streams the walk goes on, and it is known whether there was video. -/
theorem checkStreams_append (h : ∀ x ∈ front, Allowed x) (found : Bool)
    (back : List MediaStream) :
    checkStreams found (front ++ back) =
      checkStreams (found || front.any (·.codecType == "video")) back := by
  induction front generalizing found with
  | nil => rw [List.nil_append, List.any_nil, Bool.or_false]
  | cons x front ih =>
    rw [List.forall_mem_cons] at h
    rw [List.cons_append, checkStreams_cons_of_allowed h.1, ih h.2, List.any_cons, Bool.or_assoc]

/-- A walk through allowed streams only ends with whether there was video. -/
theorem checkStreams_of_allowed (h : ∀ x ∈ streams, Allowed x) (found : Bool) :
    checkStreams found streams = .ok (found || streams.any (·.codecType == "video")) := by
  have hwalk := checkStreams_append h found []
  rwa [List.append_nil] at hwalk

/-- A walk ends at the first stream that is not allowed. -/
theorem checkStreams_of_firstOffence (h : FirstOffence streams e) (found : Bool) :
    checkStreams found streams = .error e := by
  cases h with
  | intro before offends =>
    rw [checkStreams_append before, checkStreams_cons_of_offends offends]

theorem FirstOffence.exists_offends (h : FirstOffence streams e) : ∃ s ∈ streams, Offends s e := by
  cases h with
  | intro before offends => exact ⟨_, by simp, offends⟩

theorem Offends.firstOffence (h : Offends s e) (back : List MediaStream) :
    FirstOffence (s :: back) e := by
  have hnone : ∀ x ∈ ([] : List MediaStream), Allowed x := by
    intro x hx
    cases hx
  exact FirstOffence.intro hnone h

theorem FirstOffence.cons (hs : Allowed s) (h : FirstOffence streams e) :
    FirstOffence (s :: streams) e := by
  cases h with
  | intro before offends =>
    rw [← List.cons_append]
    apply FirstOffence.intro _ offends
    rw [List.forall_mem_cons]
    exact ⟨hs, before⟩

theorem allowed_or_firstOffence (streams : List MediaStream) :
    (∀ x ∈ streams, Allowed x) ∨ ∃ e, FirstOffence streams e := by
  induction streams with
  | nil =>
    left
    intro x hx
    cases hx
  | cons s rest ih =>
    rcases allowed_or_offends s with hs | ⟨e, he⟩
    · rcases ih with hrest | ⟨e, he⟩
      · left
        rw [List.forall_mem_cons]
        exact ⟨hs, hrest⟩
      · right
        exact ⟨e, he.cons hs⟩
    · right
      exact ⟨e, he.firstOffence rest⟩

/-! ## The container -/

/-- A container that passes the rules before those on streams, and its duration. -/
structure Fits (c : Container) (d : Duration) : Prop where
  format : c.format.formatName = "matroska,webm"
  count : 1 ≤ c.format.streamCount.toInt
  read : parseDuration c.format.duration = .ok d
  positive : 0 < d.toNanos
  short : d.toNanos ≤ 121 * 10 ^ 9

/-- A container that passes all rules. -/
structure Accepted (c : Container) (d : Duration) : Prop where
  fits : c.Fits d
  allowed : ∀ s ∈ c.streams, Allowed s
  video : ∃ s ∈ c.streams, s.codecType = "video"

/-- A container that breaks a rule and none before it. -/
inductive Refused (c : Container) : Rejection → Prop where
  | format (format : c.format.formatName ≠ "matroska,webm") :
      Refused c (.notWebm c.format.formatName)
  | count (format : c.format.formatName = "matroska,webm")
      (count : c.format.streamCount.toInt < 1) : Refused c .noStreams
  | duration (format : c.format.formatName = "matroska,webm")
      (count : 1 ≤ c.format.streamCount.toInt)
      (unread : ∀ d, parseDuration c.format.duration ≠ .ok d) :
      Refused c (.badDuration c.format.duration)
  | range {d : Duration} (format : c.format.formatName = "matroska,webm")
      (count : 1 ≤ c.format.streamCount.toInt) (read : parseDuration c.format.duration = .ok d)
      (outside : d.toNanos = 0 ∨ 121 * 10 ^ 9 < d.toNanos) : Refused c (.durationOutOfRange d)
  | stream {d : Duration} {e : Rejection} (fits : c.Fits d) (first : FirstOffence c.streams e) :
      Refused c e
  | noVideo {d : Duration} (fits : c.Fits d) (allowed : ∀ s ∈ c.streams, Allowed s)
      (none : ∀ s ∈ c.streams, s.codecType ≠ "video") : Refused c .noVideo

theorem toNanos_longest : longest.toNanos = 121 * 10 ^ 9 := rfl

theorem streamCount_le_zero_iff : c.format.streamCount ≤ 0 ↔ c.format.streamCount.toInt < 1 := by
  have hzero : (0 : Int64).toInt = 0 := rfl
  rw [Int64.le_iff_toInt_le, hzero]
  omega

/-- With the right format and a stream or more, the duration is looked at, and then the streams. -/
theorem check_of_counted (format : c.format.formatName = "matroska,webm")
    (count : 1 ≤ c.format.streamCount.toInt) :
    c.check =
      match parseDuration c.format.duration with
      | .error e => .error e
      | .ok d =>
        if d.toNanos = 0 ∨ longest.toNanos < d.toNanos then .error (.durationOutOfRange d)
        else
          match checkStreams false c.streams with
          | .error e => .error e
          | .ok videoFound => if videoFound then .ok d else .error .noVideo := by
  have hformat : ¬ c.format.formatName ≠ webmFormatName := not_not.mpr format
  have hcount : ¬ c.format.streamCount ≤ 0 := by
    rw [streamCount_le_zero_iff]
    exact not_lt.mpr count
  unfold Container.check
  refine (if_neg hformat).trans ?_
  exact if_neg hcount

/-- Where nothing else is wrong the streams decide. -/
theorem Fits.check (h : c.Fits d) :
    c.check =
      match checkStreams false c.streams with
      | .error e => .error e
      | .ok videoFound => if videoFound then .ok d else .error .noVideo := by
  have hrange : ¬ (d.toNanos = 0 ∨ longest.toNanos < d.toNanos) := by
    rw [toNanos_longest, not_or, not_lt]
    exact ⟨h.positive.ne', h.short⟩
  rw [check_of_counted h.format h.count, h.read]
  exact if_neg hrange

theorem Accepted.check (h : c.Accepted d) : c.check = .ok d := by
  have hvideo : c.streams.any (·.codecType == "video") = true := by
    rw [List.any_eq_true]
    simpa using h.video
  rw [h.fits.check, checkStreams_of_allowed h.allowed, hvideo]
  rfl

theorem Refused.check (h : c.Refused e) : c.check = .error e := by
  cases h with
  | format format =>
    unfold Container.check
    exact if_pos format
  | count format count =>
    have hformat : ¬ c.format.formatName ≠ webmFormatName := not_not.mpr format
    unfold Container.check
    rw [if_neg hformat]
    exact if_pos (streamCount_le_zero_iff.mpr count)
  | duration format count unread =>
    have hbad : parseDuration c.format.duration = .error (.badDuration c.format.duration) := by
      rw [Duration.parseDuration_eq_error_iff]
      rintro ⟨d, hd⟩
      exact unread d (Duration.parseDuration_eq_ok_iff.mpr hd)
    rw [check_of_counted format count, hbad]
  | range format count read outside =>
    rw [check_of_counted format count, read]
    exact if_pos outside
  | stream fits first => rw [fits.check, checkStreams_of_firstOffence first]
  | noVideo fits allowed none =>
    have hvideo : c.streams.any (·.codecType == "video") = false := by
      rw [List.any_eq_false]
      simpa using none
    rw [fits.check, checkStreams_of_allowed allowed, hvideo]
    rfl

/-- Every container passes all rules or breaks a first one. -/
theorem accepted_or_refused (c : Container) : (∃ d, c.Accepted d) ∨ ∃ e, c.Refused e := by
  -- one case for each rule, in the order of the rules, so that no earlier one is broken
  by_cases hformat : c.format.formatName = "matroska,webm"
  · by_cases hcount : 1 ≤ c.format.streamCount.toInt
    · by_cases hread : ∃ d, parseDuration c.format.duration = .ok d
      · obtain ⟨d, hd⟩ := hread
        by_cases houtside : d.toNanos = 0 ∨ 121 * 10 ^ 9 < d.toNanos
        · exact .inr ⟨_, .range hformat hcount hd houtside⟩
        · have hfits : c.Fits d := ⟨hformat, hcount, hd, by omega, by omega⟩
          rcases allowed_or_firstOffence c.streams with hallowed | ⟨e, he⟩
          · by_cases hvideo : ∃ s ∈ c.streams, s.codecType = "video"
            · exact .inl ⟨d, hfits, hallowed, hvideo⟩
            · refine .inr ⟨_, .noVideo hfits hallowed ?_⟩
              intro s hs htype
              exact hvideo ⟨s, hs, htype⟩
          · exact .inr ⟨e, .stream hfits he⟩
      · exact .inr ⟨_, .duration hformat hcount (not_exists.mp hread)⟩
    · exact .inr ⟨_, .count hformat (not_le.mp hcount)⟩
  · exact .inr ⟨_, .format hformat⟩

theorem check_eq_ok_iff : c.check = .ok d ↔ c.Accepted d := by
  constructor
  · intro h
    rcases c.accepted_or_refused with ⟨d', hd'⟩ | ⟨e, he⟩
    · cases h.symm.trans hd'.check
      exact hd'
    · cases h.symm.trans he.check
  · exact Accepted.check

theorem check_eq_error_iff : c.check = .error e ↔ c.Refused e := by
  constructor
  · intro h
    rcases c.accepted_or_refused with ⟨d, hd⟩ | ⟨e', he'⟩
    · cases h.symm.trans hd.check
    · cases h.symm.trans he'.check
      exact he'
  · exact Refused.check

/-- Whether a container passes hangs on which streams it has and not on their order. -/
theorem Accepted.of_perm (h : c.Accepted d) (hperm : c.streams.Perm streams) :
    ({ c with streams } : Container).Accepted d := by
  refine ⟨⟨h.fits.format, h.fits.count, h.fits.read, h.fits.positive, h.fits.short⟩, ?_, ?_⟩
  · intro s hs
    exact h.allowed s (hperm.mem_iff.mpr hs)
  · obtain ⟨s, hs, htype⟩ := h.video
    exact ⟨s, hperm.mem_iff.mp hs, htype⟩

/-- A container is accepted, with its duration, exactly when it passes all rules, in whatever order
its streams are; and it is refused for a cause exactly when that is the first rule that it breaks,
or the first stream that is not allowed, with its own type and codec.  So no video is reported only
where every stream is allowed. -/
theorem containers_accepted_exactly (c : Container) :
    (∀ d, c.check = .ok d ↔ c.Accepted d) ∧
    (∀ streams, c.streams.Perm streams → ∀ d,
      ({ c with streams } : Container).check = .ok d ↔ c.check = .ok d) ∧
    (∀ e, c.check = .error e ↔ c.Refused e) ∧
    (c.check = .error .noVideo → ∀ s ∈ c.streams, Allowed s) := by
  refine ⟨fun d => check_eq_ok_iff, ?_, fun e => check_eq_error_iff, ?_⟩
  · intro streams hperm d
    rw [check_eq_ok_iff, check_eq_ok_iff]
    constructor
    · intro h
      exact h.of_perm hperm.symm
    · intro h
      exact h.of_perm hperm
  · intro h
    rw [check_eq_error_iff] at h
    cases h with
    | stream fits first =>
      -- a stream that is not allowed is reported as something else
      obtain ⟨s, -, offends⟩ := first.exists_offends
      cases offends
    | noVideo fits allowed none => exact allowed

/-- A video stream behind an audio stream is accepted, and so it is in front of it; with a stream of
subtitles behind both, that is what is refused. -/
theorem audio_and_video_in_any_order :
    let audio : MediaStream := { codecType := "audio", codecName := "opus" }
    let video : MediaStream := { codecType := "video", codecName := "vp9" }
    let subtitles : MediaStream := { codecType := "subtitle", codecName := "vp9" }
    let format : ContainerFormat :=
      { formatName := "matroska,webm", streamCount := 1, duration := "121.0" }
    let c : Container := { streams := [audio, video], format }
    c.streams.Perm [video, audio] ∧
      ({ c with streams := [video, audio] } : Container).check = .ok longest ∧
      ({ c with streams := [video, audio, subtitles] } : Container).check =
        .error (.unsupportedStream "subtitle" "vp9") := by
  intro audio video subtitles format c
  have hperm : c.streams.Perm [video, audio] := List.Perm.swap video audio []
  have hread : parseDuration format.duration = .ok longest := by rfl
  have haudio : Allowed audio := .audio rfl (.inr rfl)
  have hvideo : Allowed video := .video rfl (.inr rfl)
  have hfits : ∀ streams, ({ streams, format } : Container).Fits longest := by
    intro streams
    have hcount : 1 ≤ format.streamCount.toInt := by decide
    exact ⟨rfl, hcount, hread, by decide, by decide⟩
  obtain ⟨haccepted, hany, -, -⟩ := containers_accepted_exactly c
  refine ⟨hperm, (hany _ hperm longest).mpr ((haccepted longest).mpr ⟨hfits _, ?_, ?_⟩), ?_⟩
  · simp [c, haudio, hvideo]
  · simp [c, video]
  · obtain ⟨-, -, hrefused, -⟩ :=
      containers_accepted_exactly { c with streams := [video, audio, subtitles] }
    refine (hrefused _).mpr (.stream (hfits _) ?_)
    exact ((Offends.other (by decide) (by decide)).firstOffence []).cons haudio |>.cons hvideo

end PicBoard.Container
