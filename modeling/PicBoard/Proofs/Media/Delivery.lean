import Mathlib.Tactic
import PicBoard.Media.Decode
import PicBoard.Proofs.Media.Frames
import PicBoard.Proofs.Outcome

/-!
# Where the bytes of a file go

A file comes in pieces, is looked at, and is handed on with what was looked at put back in front.
Nothing of it is lost, doubled or moved on the way: not by the look (`exists_peek`), nor by the
copying to several readers that each may stop at any byte (`copyReads_eq`, `Sink.gets_after`).  What
the two tools were given is part of what comes of a video (`Webm.delivery_attend`), and what becomes
of a file that is handed on is said for each kind of file in `Media.HandedOn`.
-/

namespace PicBoard

/-! ## One reader -/

namespace Sink

/-- A reader after it was given the pieces of a file. -/
def after (s : Sink) (r : Reads) : Sink := r.foldl (fun s piece => s.write piece) s

@[simp] theorem after_nil (s : Sink) : s.after [] = s := rfl

@[simp] theorem after_cons (s : Sink) (piece : Bytes) (rest : Reads) :
    s.after (piece :: rest) = (s.write piece).after rest := rfl

theorem after_append (s : Sink) (front back : Reads) :
    s.after (front ++ back) = (s.after front).after back := List.foldl_append

/-- A reader that has stopped is given nothing. -/
theorem write_of_stopped {s : Sink} (h : s.isOpen = false) (piece : Bytes) : s.write piece = s := by
  unfold write
  rw [h, if_neg Bool.false_ne_true]

theorem after_of_stopped {s : Sink} (h : s.isOpen = false) (r : Reads) : s.after r = s := by
  induction r with
  | nil => rfl
  | cons piece rest ih => rw [after_cons, write_of_stopped h, ih]

/-- A reader that takes all its input has got every piece. -/
theorem received_after_of_all {s : Sink} (hopen : s.isOpen = true) (hroom : s.room = none)
    (r : Reads) : (s.after r).received = s.received ++ r.bytes ∧ (s.after r).isOpen = true := by
  induction r generalizing s with
  | nil => exact ⟨by simp [Reads.bytes], hopen⟩
  | cons piece rest ih =>
    have hwrite : s.write piece = { s with taken := piece :: s.taken } := by
      unfold write
      rw [if_pos hopen, hroom]
    rw [after_cons, hwrite]
    obtain ⟨hreceived, hstill⟩ := ih (s := { s with taken := piece :: s.taken }) hopen hroom
    refine ⟨?_, hstill⟩
    rw [hreceived]
    simp [received, Reads.bytes]

/-- A reader that stops after `n` bytes has got these, or all there are when there are fewer. -/
theorem received_after_of_some {s : Sink} (hopen : s.isOpen = true) {n : Nat}
    (hroom : s.room = some n) (r : Reads) :
    (s.after r).received = s.received ++ r.bytes.take n := by
  induction r generalizing s n with
  | nil => simp [Reads.bytes]
  | cons piece rest ih =>
    rw [after_cons]
    by_cases hfits : piece.length ≤ n
    · have hwrite : s.write piece =
          { s with room := some (n - piece.length), taken := piece :: s.taken } := by
        unfold write
        rw [if_pos hopen, hroom]
        exact if_pos hfits
      rw [hwrite, ih (s := { s with room := some (n - piece.length), taken := piece :: s.taken })
        hopen rfl]
      simp [received, Reads.bytes, List.take_append, List.take_of_length_le hfits]
    · -- the piece is cut, and nothing is given after it
      have hwrite : s.write piece =
          { room := some 0, taken := piece.take n :: s.taken, isOpen := false } := by
        unfold write
        rw [if_pos hopen, hroom]
        exact if_neg hfits
      rw [hwrite, after_of_stopped rfl]
      simp [received, Reads.bytes, List.take_append_of_le_length (show n ≤ piece.length by omega)]

end Sink

/-! ## All readers -/

/-- Every reader gets on as if it were alone. -/
theorem copyReads_eq (r : Reads) (total : Nat) (sinks : List Sink) :
    copyReads r total sinks = (total + r.bytes.length, sinks.map fun s => s.after r) := by
  induction r generalizing total sinks with
  | nil => simp [copyReads, Reads.bytes]
  | cons piece rest ih =>
    rw [copyReads, ih]
    simp [Reads.bytes, Nat.add_assoc]

/-- What comes of copying a file: the number of its bytes, unless reading it failed. -/
theorem fanOut_eq (i : Intake) (sinks : List Sink) :
    i.fanOut sinks =
      (match i.failure with
        | none => .ok i.reads.bytes.length
        | some reason => .error reason,
      sinks.map fun s => s.after i.reads) := by
  unfold Intake.fanOut
  rw [copyReads_eq, Nat.zero_add]
  cases i.failure <;> rfl

/-! ## The look at the front -/

namespace MediaFormat

/-- Whether a file starts with a signature is seen from as many bytes as the signature has. -/
theorem starts_take {p : Pattern} {n : Nat} (h : p.length ≤ n) (b : Bytes) :
    starts p (b.take n) = starts p b := by
  induction p generalizing n b with
  | nil => rfl
  | cons x p ih =>
    cases b with
    | nil => rw [List.take_nil]
    | cons c rest =>
      cases n with
      | zero => simp at h
      | succ n =>
        have hrest : starts p (rest.take n) = starts p rest := ih (by simpa using h) rest
        cases x with
        | none => exact hrest
        | some x => simp only [List.take_succ_cons, starts, hrest]

/-- No signature is cut by the look: a file is what its front shows. -/
theorem sniff_take (b : Bytes) : sniff (b.take sniffLength) = sniff b := by
  have hlength : ∀ p ∈ signatures, p.1.length ≤ sniffLength := by decide
  unfold sniff
  congr 1
  exact List.find?_congr fun p hp => starts_take (hlength p hp) b

end MediaFormat

/-- What is taken by the look and what is left are the file, unless reading fails within the
look. -/
theorem exists_peek {i : Intake} {n : Nat} (h : i.failure = none ∨ n ≤ i.reads.bytes.length) :
    ∃ rest : Intake, i.peek n = .ok (i.reads.bytes.take n, rest) ∧
      (rest.prepend (i.reads.bytes.take n)).reads.bytes = i.reads.bytes ∧
      rest.failure = i.failure := by
  refine ⟨{ i with reads := (i.reads.take n).2 }, ?_, ?_, rfl⟩
  · have hhead : (i.reads.take n).1 = i.reads.bytes.take n := Reads.take_fst n i.reads
    unfold Intake.peek
    rw [← hhead]
    cases hfailure : i.failure with
    | none => rfl
    | some reason =>
      have hlength : ¬ (i.reads.take n).1.length < n := by
        rw [hfailure] at h
        rw [hhead, List.length_take]
        rcases h with h | h
        · cases h
        · omega
      exact if_neg hlength
  · have hrest : Reads.bytes (i.reads.take n).2 = i.reads.bytes.drop n :=
      Reads.bytes_take_snd n i.reads
    simp only [Intake.prepend]
    rw [Reads.bytes, List.flatten_cons, ← Reads.bytes, hrest, List.take_append_drop]

/-! ## A whole file -/

/-- What a reader gets of a file: all of it in order, or the front of it up to where it stops.
Nothing is given to it once it has stopped. -/
structure Sink.Gets (appetite : Option Nat) (r : Reads) (s : Sink) : Prop where
  all : appetite = none → s.received = r.bytes ∧ s.isOpen = true
  front : ∀ n, appetite = some n → s.received = r.bytes.take n
  silent : ∀ before later, r = before ++ later →
    (Sink.after { room := appetite } before).isOpen = false →
      s = Sink.after { room := appetite } before

/-- A reader that has got nothing yet gets what its appetite is for. -/
theorem Sink.gets_after (appetite : Option Nat) (r : Reads) :
    Sink.Gets appetite r (Sink.after { room := appetite } r) where
  all := by
    rintro rfl
    exact received_after_of_all (s := { room := none }) rfl rfl r
  front := by
    rintro n rfl
    exact received_after_of_some (s := { room := some n }) rfl rfl r
  silent := by
    rintro before later rfl hstopped
    rw [after_append, after_of_stopped hstopped]

namespace Webm

variable {capacity : Nat} {k : Readers} {prober converter : ToolRun} {file : Intake}

/-- What two tools that were started are given, each as if it were alone. -/
theorem delivery_attend (k : Readers) (prober converter : ToolRun) (file : Intake) :
    (attend k prober converter file).delivery =
      some (match file.failure with
        | none => .ok file.reads.bytes.length
        | some reason => .error reason,
      [Sink.after { room := prober.appetite } file.reads,
        Sink.after { room := converter.appetite } file.reads]) :=
  congrArg some (fanOut_eq file (sinks prober converter))

/-- A video that cannot be read through is not decoded, for that reason. -/
theorem verdict_of_failure {reason : String} (h : file.failure = some reason) :
    (attend k prober converter file).verdict = .error (.copy reason) := by
  have hcopied : (file.fanOut (sinks prober converter)).1 = .error reason := by
    rw [fanOut_eq, h]
  simp only [attend, conclude, hcopied]

/-- A video that is read through is left to what the tools tell. -/
theorem verdict_of_copied (h : file.failure = none) :
    (attend k prober converter file).verdict =
      probe k prober >>= fun container => convert k converter >>= fun frame =>
        accept container frame := by
  have hcopied : (file.fanOut (sinks prober converter)).1 = .ok file.reads.bytes.length := by
    rw [fanOut_eq, h]
  simp only [attend, conclude, hcopied]

/-- Of tools that start nothing comes when more of the converter's output is left unread than a pipe
holds; else both are attended to. -/
theorem decodeWith_started :
    decodeWith capacity k (.started prober) (.started converter) file =
      if capacity < FrameStream.unread k.frame converter.stdout then none
      else some (attend k prober converter file) := by
  simp only [decodeWith, stalls, decide_eq_true_eq]

theorem decodeWith_eq_none :
    decodeWith capacity k (.started prober) (.started converter) file = none ↔
      capacity < FrameStream.unread k.frame converter.stdout := by
  rw [decodeWith_started]
  split <;> simp_all

theorem eq_attend_of_decodeWith {d : Decoding WebmError WebmImage}
    (h : decodeWith capacity k (.started prober) (.started converter) file = some d) :
    d = attend k prober converter file := by
  rw [decodeWith_started] at h
  split at h
  · cases h
  · exact (Option.some.inj h).symm

end Webm

namespace Media

variable {capacity : Nat} {k : Webm.Readers} {still : ImageFormat → Bytes → Option Image}
  {i file : Intake}

/-- A picture is read from all bytes of a file. -/
theorem readStill_eq (format : ImageFormat) :
    readStill still format file =
      match file.failure with
      | some reason => .error (.read reason)
      | none =>
        match still format file.reads.bytes with
        | none => .error .image
        | some image => .ok (.still format image) := by
  unfold readStill Intake.readAll
  cases file.failure <;> rfl

/-- What becomes of the file `i` that is handed on as `file`, to the backend that all of it calls
for. -/
structure HandedOn (capacity : Nat) (k : Webm.Readers)
    (still : ImageFormat → Bytes → Option Image) (i file : Intake) : Prop where
  unknown : MediaFormat.sniff i.reads.bytes = .unknown → ∀ ffprobe ffmpeg,
    decodeWith capacity k still ffprobe ffmpeg i = some { verdict := .error .unknownFormat }
  image : ∀ format, MediaFormat.sniff i.reads.bytes = .image format → ∀ ffprobe ffmpeg,
    decodeWith capacity k still ffprobe ffmpeg i = some
      { verdict :=
          match i.failure with
          | some reason => .error (.read reason)
          | none =>
            match still format i.reads.bytes with
            | none => .error .image
            | some image => .ok (.still format image) }
  video : MediaFormat.sniff i.reads.bytes = .webm → ∀ ffprobe ffmpeg,
    decodeWith capacity k still ffprobe ffmpeg i =
      (Webm.decodeWith capacity k ffprobe ffmpeg file).map ofWebm
  /-- Tools that start never end when more of the converter's output is left unread than a pipe
  holds. -/
  stalled : MediaFormat.sniff i.reads.bytes = .webm → ∀ prober converter,
    decodeWith capacity k still (.started prober) (.started converter) i = none ↔
      capacity < FrameStream.unread k.frame converter.stdout
  /-- Else each has got its part of the file, whatever the other does. -/
  delivered : MediaFormat.sniff i.reads.bytes = .webm → ∀ prober converter d,
    decodeWith capacity k still (.started prober) (.started converter) i = some d →
      d.delivery = some (match i.failure with
        | none => .ok i.reads.bytes.length
        | some reason => .error reason,
      [Sink.after { room := prober.appetite } file.reads,
        Sink.after { room := converter.appetite } file.reads])
  broken : MediaFormat.sniff i.reads.bytes = .webm → ∀ prober converter d,
    decodeWith capacity k still (.started prober) (.started converter) i = some d →
      ∀ reason, i.failure = some reason → d.verdict = .error (.webm (.copy reason))

/-- What comes of a video that is handed on to tools that start and end. -/
theorem eq_attend_of_video {prober converter : ToolRun} {d : Decoding MediaError DecodedMedia}
    (hvideo : decodeWith capacity k still (.started prober) (.started converter) i =
      (Webm.decodeWith capacity k (.started prober) (.started converter) file).map ofWebm)
    (h : decodeWith capacity k still (.started prober) (.started converter) i = some d) :
    d = ofWebm (Webm.attend k prober converter file) := by
  rw [hvideo] at h
  obtain ⟨d', hd', rfl⟩ := Option.map_eq_some_iff.mp h
  rw [Webm.eq_attend_of_decodeWith hd']

/-- It is enough to hand on the same bytes with the same failure behind them. -/
theorem handedOn_of_dispatch (hbytes : file.reads.bytes = i.reads.bytes)
    (hfailure : file.failure = i.failure)
    (hroute : ∀ ffprobe ffmpeg, decodeWith capacity k still ffprobe ffmpeg i =
      dispatch capacity k still ffprobe ffmpeg file (MediaFormat.sniff i.reads.bytes)) :
    HandedOn capacity k still i file := by
  have hvideo : MediaFormat.sniff i.reads.bytes = .webm → ∀ ffprobe ffmpeg,
      decodeWith capacity k still ffprobe ffmpeg i =
        (Webm.decodeWith capacity k ffprobe ffmpeg file).map ofWebm := by
    intro hsniff ffprobe ffmpeg
    rw [hroute, hsniff, dispatch]
  refine ⟨?_, ?_, hvideo, ?_, ?_, ?_⟩
  · intro hsniff ffprobe ffmpeg
    rw [hroute, hsniff, dispatch]
  · intro format hsniff ffprobe ffmpeg
    rw [hroute, hsniff, dispatch, readStill_eq, hbytes, hfailure]
  · intro hsniff prober converter
    rw [hvideo hsniff, Option.map_eq_none_iff, Webm.decodeWith_eq_none]
  · intro hsniff prober converter d h
    rw [eq_attend_of_video (hvideo hsniff _ _) h, ← hbytes, ← hfailure]
    exact Webm.delivery_attend k prober converter file
  · -- the copying failed, which is told before anything that the tools tell
    intro hsniff prober converter d h reason hbroken
    have hverdict : (Webm.attend k prober converter file).verdict = .error (.copy reason) :=
      Webm.verdict_of_failure (hfailure.trans hbroken)
    rw [eq_attend_of_video (hvideo hsniff _ _) h, ofWebm, hverdict]

/-- A file that can be read through the look is handed on with what the look took put back in
front. -/
theorem exists_handedOn (capacity : Nat) (k : Webm.Readers)
    (still : ImageFormat → Bytes → Option Image)
    (h : i.failure = none ∨ MediaFormat.sniffLength ≤ i.reads.bytes.length) :
    ∃ (head : Bytes) (rest : Intake), i.peek MediaFormat.sniffLength = .ok (head, rest) ∧
      (rest.prepend head).reads.bytes = i.reads.bytes ∧
      HandedOn capacity k still i (rest.prepend head) := by
  obtain ⟨rest, hpeek, hbytes, hfailure⟩ := exists_peek h
  refine ⟨_, rest, hpeek, hbytes, handedOn_of_dispatch hbytes hfailure ?_⟩
  intro ffprobe ffmpeg
  unfold decodeWith
  rw [hpeek, ← MediaFormat.sniff_take]

/-- A file is handed on whole: to the backend that all of it calls for, by whatever signature, in
whatever pieces it comes, with what the look took put back in front.  A decoder of still pictures is
given exactly its bytes.  Of the two tools each gets exactly these in order or, if it stops reading
at some byte, those before it and nothing more, and gets the same whatever the other does; the number
of bytes is told.  Where reading fails behind the look, the tools have got what came before and the
failure is what is reported.  The one thing that keeps a video from being reported on at all is a
converter with more output left unread than a pipe holds. -/
theorem no_media_byte_lost (capacity : Nat) (k : Webm.Readers)
    (still : ImageFormat → Bytes → Option Image) (i : Intake)
    (h : i.failure = none ∨ MediaFormat.sniffLength ≤ i.reads.bytes.length) :
    ∃ (head : Bytes) (rest : Intake), i.peek MediaFormat.sniffLength = .ok (head, rest) ∧
      (rest.prepend head).reads.bytes = i.reads.bytes ∧
      HandedOn capacity k still i (rest.prepend head) ∧
      ∀ appetite, Sink.Gets appetite (rest.prepend head).reads
        (Sink.after { room := appetite } (rest.prepend head).reads) := by
  rcases exists_handedOn capacity k still h with ⟨head, rest, hpeek, hbytes, hhanded⟩
  refine ⟨head, rest, hpeek, hbytes, hhanded, ?_⟩
  intro appetite
  exact Sink.gets_after appetite (rest.prepend head).reads

/-- A video in three pieces, the first of which cuts its signature, breaks off after nineteen
bytes.  The prober has read all of them and the converter, which stops on its own, the first
five. -/
theorem no_byte_lost_of_broken_video :
    let i : Intake :=
      { reads := [[0x1a], [0x45, 0xdf, 0xa3], List.replicate 15 7], failure := some "reset" }
    let prober : ToolRun := { stdout := [], stderr := [], exit := .code 0 }
    let converter : ToolRun :=
      { appetite := some 5, stdout := [], stderr := [], exit := .code 0 }
    MediaFormat.sniffLength ≤ i.reads.bytes.length ∧
      ∃ d, decode (.started prober) (.started converter) i = some d ∧
        d.verdict = .error (.webm (.copy "reset")) ∧
        ∃ first second, d.delivery = some (.error "reset", [first, second]) ∧
          first.received = [0x1a, 0x45, 0xdf, 0xa3] ++ List.replicate 15 7 ∧
          second.received = [0x1a, 0x45, 0xdf, 0xa3, 7] := by
  intro i prober converter
  have hlong : MediaFormat.sniffLength ≤ i.reads.bytes.length := by decide
  have hsniff : MediaFormat.sniff i.reads.bytes = .webm := by decide
  obtain ⟨head, rest, -, hbytes, hhanded, hgets⟩ :=
    no_media_byte_lost Webm.pipeCapacity .standard decodeStill i (.inr hlong)
  -- nothing is written on either output, so the pipes hold it
  have hends : decode (.started prober) (.started converter) i ≠ none := by
    intro hnone
    exact absurd ((hhanded.stalled hsniff prober converter).mp hnone) (by decide)
  obtain ⟨d, hd⟩ := Option.ne_none_iff_exists'.mp hends
  refine ⟨hlong, d, hd, hhanded.broken hsniff prober converter d hd "reset" rfl, _, _,
    hhanded.delivered hsniff prober converter d hd, ?_, ?_⟩
  · rw [((hgets none).all rfl).1, hbytes]
    rfl
  · rw [(hgets (some 5)).front 5 rfl, hbytes]
    rfl

/-- Nothing is reported of the same video when the converter, having taken it, writes 200000 bytes
that are no frame. -/
theorem broken_video_not_reported :
    let i : Intake :=
      { reads := [[0x1a], [0x45, 0xdf, 0xa3], List.replicate 15 7], failure := some "reset" }
    let prober : ToolRun := { stdout := [], stderr := [], exit := .code 0 }
    let converter : ToolRun :=
      { stdout := [List.replicate 200000 0x78], stderr := [], exit := .code 0 }
    MediaFormat.sniffLength ≤ i.reads.bytes.length ∧
      MediaFormat.sniff i.reads.bytes = .webm ∧
      decode (.started prober) (.started converter) i = none := by
  intro i prober converter
  have hlong : MediaFormat.sniffLength ≤ i.reads.bytes.length := by decide
  have hsniff : MediaFormat.sniff i.reads.bytes = .webm := by decide
  refine ⟨hlong, hsniff, ?_⟩
  have hunread : FrameStream.unread Webm.Readers.standard.frame converter.stdout = 199992 :=
    FrameStream.unread_replicate 199992 0x78
  obtain ⟨head, rest, -, -, hhanded⟩ :=
    exists_handedOn Webm.pipeCapacity .standard decodeStill (.inr hlong)
  rw [decode, hhanded.stalled hsniff, hunread]
  decide

end Media

end PicBoard
