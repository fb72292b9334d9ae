import Mathlib.Tactic
import PicBoard.Proofs.Media.Frames

/-!
# How a stream is split into frames

A frame is the signature of a PNG file and chunks, of which the last and no other has the kind that
ends a file.  Whatever the data of its chunks is and however a stream is cut into reads, frames that
stand one after the other are found one after the other, and what is cut short behind them is the end
(`frames_found`).  On every stream reading frames on and on comes to an end, and to one: `Splits` says
to which.
-/

namespace PicBoard.FrameStream

/-! ## Frames -/

/-- A chunk: four bytes that are the length of its data, four of its kind, the data, and four of a
checksum, which may be any. -/
structure Chunk where
  size : Bytes
  kind : Bytes
  data : Bytes
  checksum : Bytes
  length_size : size.length = 4
  length_kind : kind.length = 4
  length_checksum : checksum.length = 4
  numberOf_size : Png.numberOf size = data.length
  data_fits : data.length ≤ longestChunk

/-- The bytes of a chunk. -/
def Chunk.bytes (c : Chunk) : Bytes := c.size ++ c.kind ++ (c.data ++ c.checksum)

/-- A frame: chunks of which the last, and only the last, ends a file. -/
structure Frame where
  front : List Chunk
  last : Chunk
  kind_front : ∀ c ∈ front, c.kind ≠ Png.typeEnd
  kind_last : last.kind = Png.typeEnd

/-- The bytes of a frame: the signature and the chunks. -/
def Frame.bytes (f : Frame) : Bytes :=
  Png.signature ++ (f.front.flatMap Chunk.bytes ++ f.last.bytes)

/-- What is left of a frame that is cut short, which may be nothing. -/
def CutShort (tail : Bytes) : Prop := ∃ f : Frame, tail <+: f.bytes ∧ tail ≠ f.bytes

/-! ## One frame -/

/-- A chunk at the front of a stream is taken in two parts, and is not too long. -/
theorem Chunk.exists_exactly (c : Chunk) {r : Reads} {e : Bytes} (h : r.bytes = c.bytes ++ e) :
    ∃ r₁ r₂, r.exactly 8 = some (c.size ++ c.kind, r₁) ∧
      ¬ longestChunk < Png.numberOf ((c.size ++ c.kind).take 4) ∧
      r₁.exactly (Png.numberOf ((c.size ++ c.kind).take 4) + 4) = some (c.data ++ c.checksum, r₂) ∧
      r₂.bytes = e := by
  have hhead : (c.size ++ c.kind).length = 8 := by
    rw [List.length_append, c.length_size, c.length_kind]
  have hbody : (c.data ++ c.checksum).length = c.data.length + 4 := by
    rw [List.length_append, c.length_checksum]
  rw [List.take_left' c.length_size, c.numberOf_size]
  rw [Chunk.bytes, List.append_assoc] at h
  obtain ⟨r₁, hr₁, hrest₁⟩ := Reads.exists_exactly hhead h
  obtain ⟨r₂, hr₂, hrest₂⟩ := Reads.exists_exactly hbody hrest₁
  exact ⟨r₁, r₂, hr₁, not_lt.mpr c.data_fits, hr₂, hrest₂⟩

theorem Chunk.drop_head (c : Chunk) : (c.size ++ c.kind).drop 4 = c.kind :=
  List.drop_left' c.length_size

/-- Chunks up to the last of a frame are taken off a stream. -/
theorem chunkLoop_of_frame {front : List Chunk} {last : Chunk}
    (hfront : ∀ c ∈ front, c.kind ≠ Png.typeEnd) (hlast : last.kind = Png.typeEnd)
    (taken : List Bytes) {r : Reads} {e : Bytes}
    (h : r.bytes = front.flatMap Chunk.bytes ++ (last.bytes ++ e)) :
    ∃ rest, rest.bytes = e ∧ ChunkLoop taken r
      (.frame (taken.reverse.flatten ++ (front.flatMap Chunk.bytes ++ last.bytes)) rest) := by
  induction front generalizing taken r with
  | nil =>
    obtain ⟨r₁, rest, hhead, hfits, hbody, hrest⟩ := last.exists_exactly h
    refine ⟨rest, hrest, ?_⟩
    have hloop : ChunkLoop taken r _ := .last hhead hfits hbody (last.drop_head.trans hlast)
    simpa [Chunk.bytes] using hloop
  | cons c front ih =>
    rw [List.flatMap_cons, List.append_assoc] at h
    obtain ⟨r₁, r₂, hhead, hfits, hbody, hrest⟩ := c.exists_exactly h
    have hc : (c.size ++ c.kind).drop 4 ≠ Png.typeEnd := by
      rw [c.drop_head]
      exact hfront c List.mem_cons_self
    obtain ⟨rest, hrest', hloop⟩ := ih (fun d hd => hfront d (List.mem_cons_of_mem _ hd))
      ((c.data ++ c.checksum) :: (c.size ++ c.kind) :: taken) hrest
    refine ⟨rest, hrest', ?_⟩
    have hmore := ChunkLoop.more hhead hfits hbody hc hloop
    simpa [Chunk.bytes] using hmore

/-- A frame at the front of a stream is found. -/
theorem Frame.next_eq (f : Frame) {r : Reads} {e : Bytes} (h : r.bytes = f.bytes ++ e) :
    ∃ rest, next r = .frame f.bytes rest ∧ rest.bytes = e := by
  rw [Frame.bytes, List.append_assoc, List.append_assoc] at h
  obtain ⟨r₁, hfront, hrest⟩ := Reads.exists_exactly rfl h
  obtain ⟨rest, hrest', hloop⟩ :=
    chunkLoop_of_frame f.kind_front f.kind_last [Png.signature] hrest
  exact ⟨rest, frameRead_iff.mp (.chunks hfront hloop), hrest'⟩

theorem Front.rest?_eq_none_iff {x : Front} : x.rest? = none ↔ x = .ended := by
  cases x <;> simp [rest?]

theorem Front.rest?_before {x : Front} {u : Reads} (h : x.rest? = some u) (v : Reads) :
    (x.before v).rest? = some v := by
  cases x with
  | ended => cases h
  | frame bytes rest => rfl
  | fault cause rest => rfl

/-- Of a frame that is cut short nothing is found but the end. -/
theorem next_of_cutShort {r : Reads} (h : CutShort r.bytes) : next r = .ended := by
  obtain ⟨f, ⟨missing, hmissing⟩, hne⟩ := h
  rw [← Front.rest?_eq_none_iff, Option.eq_none_iff_forall_ne_some]
  intro u hu
  -- what is found would be found in the whole frame too, with more left behind it than there is
  obtain ⟨q, hq, hsame⟩ := next_of_rest hu
  obtain ⟨u', hnext, hu'⟩ := hsame [f.bytes] (u.bytes ++ missing)
    (by rw [bytes_singleton, ← hmissing, hq, List.append_assoc])
  obtain ⟨rest, hframe, hempty⟩ := f.next_eq (r := [f.bytes]) (e := [])
    (by rw [bytes_singleton, List.append_nil])
  have hrest := Front.rest?_before hu u'
  rw [← hnext, hframe] at hrest
  cases hrest
  rw [hempty] at hu'
  have hnone : missing = [] := (List.append_eq_nil_iff.mp hu'.symm).2
  rw [hnone, List.append_nil] at hmissing
  exact hne hmissing

/-! ## Frame after frame -/

/-- What reading frames on and on comes to: the frames, and what is found behind them. -/
inductive Splits : Reads → List Bytes → Front → Prop
  | last {r : Reads} {x : Front} (hnext : next r = x) (hx : ∀ b rest, x ≠ .frame b rest) :
      Splits r [] x
  | frame {r rest : Reads} {b : Bytes} {frames : List Bytes} {x : Front}
      (hnext : next r = .frame b rest) (hrest : Splits rest frames x) : Splits r (b :: frames) x

/-- Frames that stand one after the other are found, and nothing but the end behind them. -/
theorem splits_of_frames {frames : List Frame} {tail : Bytes} (htail : CutShort tail) {r : Reads}
    (h : r.bytes = frames.flatMap Frame.bytes ++ tail) :
    Splits r (frames.map Frame.bytes) .ended := by
  induction frames generalizing r with
  | nil => exact .last (next_of_cutShort (by rwa [h])) (fun _ _ => nofun)
  | cons f frames ih =>
    rw [List.flatMap_cons, List.append_assoc] at h
    obtain ⟨rest, hnext, hrest⟩ := f.next_eq h
    exact .frame hnext (ih hrest)

/-- What is found at the front of a stream takes bytes off it. -/
theorem length_lt_of_rest {r u : Reads} (h : (next r).rest? = some u) :
    u.bytes.length < r.bytes.length := by
  obtain ⟨q, hq, hsame⟩ := next_of_rest h
  have hne : q ≠ [] := by
    rintro rfl
    -- it would be found on an empty stream too
    obtain ⟨u', hu', -⟩ := hsame [] [] rfl
    have hrest := Front.rest?_before h u'
    rw [← hu'] at hrest
    cases hrest
  have hpos := List.length_pos_iff.mpr hne
  rw [hq, List.length_append]
  omega

/-- Reading frames on and on comes to an end on every stream. -/
theorem exists_splits (r : Reads) : ∃ frames x, Splits r frames x := by
  induction hn : r.bytes.length using Nat.strong_induction_on generalizing r with
  | _ n ih =>
    cases hnext : next r with
    | ended => exact ⟨[], .ended, .last hnext (fun _ _ => nofun)⟩
    | fault cause rest => exact ⟨[], .fault cause rest, .last hnext (fun _ _ => nofun)⟩
    | frame b rest =>
      have hshorter : rest.bytes.length < n := hn ▸ length_lt_of_rest (by rw [hnext]; rfl)
      obtain ⟨frames, x, hsplits⟩ := ih _ hshorter rest rfl
      exact ⟨b :: frames, x, .frame hnext hsplits⟩

/-- It comes to one thing only. -/
theorem Splits.unique {r : Reads} {frames frames' : List Bytes} {x x' : Front}
    (h : Splits r frames x) (h' : Splits r frames' x') : frames = frames' ∧ x = x' := by
  induction h generalizing frames' with
  | last hnext hx =>
    cases h' with
    | last hnext' _ => exact ⟨rfl, hnext.symm.trans hnext'⟩
    | frame hnext' _ => exact absurd (hnext.symm.trans hnext') (hx _ _)
  | frame hnext _ ih =>
    cases h' with
    | last hnext' hx => exact absurd (hnext'.symm.trans hnext) (hx _ _)
    | frame hnext' hrest =>
      obtain ⟨rfl, rfl⟩ := Front.frame.inj (hnext.symm.trans hnext')
      obtain ⟨rfl, rfl⟩ := ih hrest
      exact ⟨rfl, rfl⟩

/-! ## What is kept -/

section Kept

variable {α : Type} {decode : Bytes → Option α} {frames : List Frame} {e e' : Bytes}
  {count seen : Nat} {last : Option (α × Nat)} {r r' : Reads}

/-- A frame that does not decode, among those that are looked at, is what the reading of frames
comes to. -/
theorem stopAfter_of_undecodable (hbad : ∃ f ∈ frames.take count, decode f.bytes = none)
    (h : r.bytes = frames.flatMap Frame.bytes ++ e) :
    (stopAfter decode count seen last r).verdict = .error .undecodable := by
  induction count generalizing frames seen last r with
  | zero => simp at hbad
  | succ count ih =>
    cases frames with
    | nil => simp at hbad
    | cons f frames =>
      rw [List.flatMap_cons, List.append_assoc] at h
      obtain ⟨rest, hnext, hrest⟩ := f.next_eq h
      cases hdecode : decode f.bytes with
      | none => rw [stopAfter_of_none hnext hdecode]
      | some image =>
        rw [stopAfter_of_some hnext hdecode]
        refine ih ?_ hrest
        obtain ⟨g, hg, hnone⟩ := hbad
        rcases List.mem_cons.mp hg with rfl | hg
        · rw [hdecode] at hnone
          cases hnone
        · exact ⟨g, hg, hnone⟩

/-- Where all frames decode that are looked at, the last of them is kept with its number. -/
theorem stopAfter_of_decodable (hgood : ∀ f ∈ frames.take count, decode f.bytes ≠ none)
    (hend : count ≤ frames.length ∨ CutShort e) (h : r.bytes = frames.flatMap Frame.bytes ++ e) :
    (stopAfter decode count seen last r).verdict =
      .ok (match (frames.take count).getLast? with
        | none => last
        | some f => (decode f.bytes).map fun image =>
          (image, seen + (frames.take count).length)) := by
  induction count generalizing frames seen last r with
  | zero => rfl
  | succ count ih =>
    cases frames with
    | nil =>
      have hcut : CutShort r.bytes := by
        rcases hend with hle | hcut
        · cases hle
        · rwa [h]
      rw [stopAfter_of_ended (next_of_cutShort hcut)]
      rfl
    | cons f frames =>
      rw [List.flatMap_cons, List.append_assoc] at h
      obtain ⟨rest, hnext, hrest⟩ := f.next_eq h
      obtain ⟨image, himage⟩ := Option.ne_none_iff_exists'.mp (hgood f List.mem_cons_self)
      rw [stopAfter_of_some hnext himage, List.take_succ_cons,
        ih (fun g hg => hgood g (List.mem_cons_of_mem _ hg)) (hend.imp_left Nat.le_of_succ_le_succ)
          hrest, List.getLast?_cons]
      -- the frame that was read now is kept unless others are looked at behind it
      cases hlast : (frames.take count).getLast? with
      | none =>
        have hnil : frames.take count = [] := List.getLast?_eq_none_iff.mp hlast
        simp [hnil, himage]
      | some g =>
        have hcount : seen + 1 + (frames.take count).length =
            seen + (f :: frames.take count).length := by
          rw [List.length_cons]
          omega
        simp only [Option.getD_some, hcount]

/-- The last of the frames that are looked at, by its number. -/
theorem getLast?_take_frames (hsome : frames ≠ []) :
    (frames.take maxFrames).getLast? = frames[min frames.length maxFrames - 1]? := by
  have hpos := List.length_pos_iff.mpr hsome
  rw [List.getLast?_eq_getElem?, List.length_take, Nat.min_comm, List.getElem?_take_of_lt]
  have hmax : 0 < maxFrames := by decide
  omega

/-- Where the frames that are looked at decode, the last of them is kept with its number. -/
theorem keepLast_of_decodable (hsome : frames ≠ [])
    (hgood : ∀ f ∈ frames.take maxFrames, decode f.bytes ≠ none)
    (hend : maxFrames ≤ frames.length ∨ CutShort e) (h : r.bytes = frames.flatMap Frame.bytes ++ e) :
    ∃ f image, frames[min frames.length maxFrames - 1]? = some f ∧ decode f.bytes = some image ∧
      keepLast decode r = .ok (some (image, min frames.length maxFrames)) := by
  have hpos := List.length_pos_iff.mpr hsome
  have hmax : 0 < maxFrames := by decide
  have hlast : min frames.length maxFrames - 1 < frames.length := by omega
  have hget := List.getElem?_eq_getElem hlast
  have hmem : frames[min frames.length maxFrames - 1] ∈ frames.take maxFrames := by
    rw [← getLast?_take_frames hsome] at hget
    exact List.mem_of_getLast? hget
  obtain ⟨image, himage⟩ := Option.ne_none_iff_exists'.mp (hgood _ hmem)
  refine ⟨_, image, hget, himage, ?_⟩
  unfold keepLast stop
  rw [stopAfter_of_decodable hgood hend h, getLast?_take_frames hsome, hget]
  simp only [himage, Option.map_some, List.length_take, Nat.zero_add, Nat.min_comm maxFrames]

/-- What stands behind the frames that are looked at has no influence. -/
theorem keepLast_of_behind (hmax : maxFrames ≤ frames.length)
    (h : r.bytes = frames.flatMap Frame.bytes ++ e)
    (h' : r'.bytes = frames.flatMap Frame.bytes ++ e') : keepLast decode r = keepLast decode r' := by
  unfold keepLast stop
  -- either way the verdict is told by the frames alone
  by_cases hbad : ∃ f ∈ frames.take maxFrames, decode f.bytes = none
  · rw [stopAfter_of_undecodable hbad h, stopAfter_of_undecodable hbad h']
  · have hgood : ∀ f ∈ frames.take maxFrames, decode f.bytes ≠ none :=
      fun f hf hnone => hbad ⟨f, hf, hnone⟩
    rw [stopAfter_of_decodable hgood (.inl hmax) h, stopAfter_of_decodable hgood (.inl hmax) h']

end Kept

/-- However a stream is cut into reads, the frames on it are found one after the other, whatever the
data of their chunks is, and nothing but the end in what is cut short behind them.  Of the first
120 the last is kept with its number if all of them decode, and it is an error if one does not;
nothing behind them has an influence.  On every stream, whatever it holds, the loops come to an
end. -/
theorem frames_found {α : Type} (decode : Bytes → Option α) :
    (∀ (frames : List Frame) (tail : Bytes) (r : Reads), CutShort tail →
      r.bytes = frames.flatMap Frame.bytes ++ tail →
        Splits r (frames.map Frame.bytes) .ended ∧
        (frames = [] → keepLast decode r = .ok none) ∧
        (frames ≠ [] → (∀ f ∈ frames.take maxFrames, decode f.bytes ≠ none) →
          ∃ f image, frames[min frames.length maxFrames - 1]? = some f ∧
            decode f.bytes = some image ∧
            keepLast decode r = .ok (some (image, min frames.length maxFrames))) ∧
        ((∃ f ∈ frames.take maxFrames, decode f.bytes = none) →
          keepLast decode r = .error .undecodable)) ∧
    (∀ (frames : List Frame) (e e' : Bytes) (r r' : Reads), frames.length = maxFrames →
      r.bytes = frames.flatMap Frame.bytes ++ e → r'.bytes = frames.flatMap Frame.bytes ++ e' →
        keepLast decode r = keepLast decode r') ∧
    ∀ r : Reads, (∀ x, FrameRead r x ↔ next r = x) ∧
      ∃ frames x, Splits r frames x ∧
        ∀ frames' x', Splits r frames' x' → frames' = frames ∧ x' = x := by
  refine ⟨fun frames tail r htail h => ⟨splits_of_frames htail h, ?_, ?_, ?_⟩, ?_, fun r => ⟨?_, ?_⟩⟩
  · rintro rfl
    unfold keepLast stop
    rw [stopAfter_of_decodable (by simp) (.inr htail) h]
    rfl
  · intro hsome hgood
    exact keepLast_of_decodable hsome hgood (.inr htail) h
  · intro hbad
    exact stopAfter_of_undecodable hbad h
  · intro frames e e' r r' hmax h h'
    exact keepLast_of_behind hmax.ge h h'
  · exact fun x => frameRead_iff
  · obtain ⟨frames, x, hsplits⟩ := exists_splits r
    exact ⟨frames, x, hsplits, fun _ _ h => h.unique hsplits⟩

/-- The chunk that ends a file, as it is always written. -/
def Chunk.ending : Chunk where
  size := [0, 0, 0, 0]
  kind := Png.typeEnd
  data := []
  checksum := [0xae, 0x42, 0x60, 0x82]
  length_size := rfl
  length_kind := by decide
  length_checksum := rfl
  numberOf_size := by decide
  data_fits := by decide

/-- A chunk whose data is the mark of an end and a signature. -/
def Chunk.ofMarks : Chunk where
  size := [0, 0, 0, 12]
  kind := Bytes.ofText "IDAT"
  data := Png.typeEnd ++ Png.signature
  checksum := Png.typeEnd
  length_size := rfl
  length_kind := by decide
  length_checksum := by decide
  numberOf_size := by decide
  data_fits := by decide

/-- A frame in which the marks of an end and of a start are no marks. -/
def Frame.ofMarks : Frame where
  front := [.ofMarks]
  last := .ending
  kind_front := by decide
  kind_last := rfl

/-- That frame and the first bytes of another, in three reads that are cut within the data and
within the second signature; and 120 times that frame before what is no frame. -/
theorem marks_in_data_are_data :
    CutShort (Png.signature.take 3) ∧
      Reads.bytes [Frame.ofMarks.bytes.take 19, Frame.ofMarks.bytes.drop 19 ++
        Png.signature.take 2, [0x4e]] = [Frame.ofMarks].flatMap Frame.bytes ++
          Png.signature.take 3 ∧
      keepLast some [Frame.ofMarks.bytes.take 19, Frame.ofMarks.bytes.drop 19 ++
        Png.signature.take 2, [0x4e]] = .ok (some (Frame.ofMarks.bytes, 1)) ∧
      keepLast some [(List.replicate maxFrames Frame.ofMarks).flatMap Frame.bytes ++
        Chunk.ending.bytes] =
          keepLast some [(List.replicate maxFrames Frame.ofMarks).flatMap Frame.bytes ++ []] := by
  have hcut : CutShort (Png.signature.take 3) := ⟨.ofMarks, by decide, by decide⟩
  have hbytes : Reads.bytes [Frame.ofMarks.bytes.take 19, Frame.ofMarks.bytes.drop 19 ++
      Png.signature.take 2, [0x4e]] = [Frame.ofMarks].flatMap Frame.bytes ++
        Png.signature.take 3 := by decide
  obtain ⟨hfound, hbehind, -⟩ := frames_found (some : Bytes → Option Bytes)
  obtain ⟨-, -, hkept, -⟩ := hfound [.ofMarks] _ _ hcut hbytes
  obtain ⟨f, image, hf, himage, hkeep⟩ := hkept (by simp) (by simp)
  cases hf
  cases himage
  exact ⟨hcut, hbytes, hkeep, hbehind (List.replicate maxFrames .ofMarks) _ _ _ _
    List.length_replicate (bytes_singleton _) (bytes_singleton _)⟩

end PicBoard.FrameStream
