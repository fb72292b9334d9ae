import Mathlib.Tactic
import PicBoard.Media.FrameStream

/-!
# How far the reading of frames goes

`ChunkLoop` and `FrameRead` say without fuel what the loops that read a frame come to; there is enough
fuel for what they say (`frameRead_iff`).  Frames are read off a stream without looking behind the
last of them.  So what a stream comes to, when it is not read to its end, is settled by the bytes
that were read, and comes to the same whatever stands behind these (`stop_of_unread`).
-/

namespace PicBoard

namespace Reads

theorem bytes_of_exactly {n : Nat} {r rest : Reads} {b : Bytes}
    (h : r.exactly n = some (b, rest)) : b.length = n ∧ r.bytes = b ++ rest.bytes := by
  have hfst := take_fst n r
  have hsnd := bytes_take_snd n r
  revert h hfst hsnd
  unfold exactly
  rcases take n r with ⟨front, left⟩
  dsimp only
  split
  · rename_i hlength
    rintro ⟨⟩ rfl hsnd
    exact ⟨hlength, by rw [hsnd, List.take_append_drop]⟩
  · rintro ⟨⟩

theorem exists_exactly {n : Nat} {r : Reads} {b e : Bytes} (hlength : b.length = n)
    (h : r.bytes = b ++ e) : ∃ rest, r.exactly n = some (b, rest) ∧ rest.bytes = e := by
  have hfst : (take n r).1 = b := by rw [take_fst, h, List.take_left' hlength]
  have hsnd : bytes (take n r).2 = e := by rw [bytes_take_snd, h, List.drop_left' hlength]
  refine ⟨(take n r).2, ?_, hsnd⟩
  unfold exactly
  rw [← hfst] at hlength ⊢
  exact if_pos hlength

end Reads

namespace FrameStream

/-! ## The front of a stream -/

namespace Front

/-- What stands behind what was read, unless the stream has ended. -/
def rest? : Front → Option Reads
  | frame _ rest | fault _ rest => some rest
  | ended => none

/-- The same with something else behind it. -/
def before (rest : Reads) : Front → Front
  | frame bytes _ => frame bytes rest
  | fault cause _ => fault cause rest
  | ended => ended

end Front

/-! ## The loops without a bound -/

section Chunks

variable {fuel : Nat} {front : List Bytes} {head body : Bytes} {r r₁ r₂ : Reads}

theorem chunks_of_long (hhead : r.exactly 8 = some (head, r₁))
    (hlong : longestChunk < Png.numberOf (head.take 4)) :
    chunks (fuel + 1) front r = .fault (.chunkTooLong (Png.numberOf (head.take 4))) r₁ := by
  simp only [chunks, hhead]
  exact if_pos hlong

theorem chunks_of_body (hhead : r.exactly 8 = some (head, r₁))
    (hfits : ¬ longestChunk < Png.numberOf (head.take 4))
    (hbody : r₁.exactly (Png.numberOf (head.take 4) + 4) = some (body, r₂)) :
    chunks (fuel + 1) front r =
      if head.drop 4 = Png.typeEnd then .frame (body :: head :: front).reverse.flatten r₂
      else chunks fuel (body :: head :: front) r₂ := by
  simp only [chunks, hhead, if_neg hfits, hbody]

end Chunks

/-- The loop that takes chunks, without a bound on how often it goes round: what it comes to after
the pieces of a frame in `front`, which are given last first. -/
inductive ChunkLoop : (front : List Bytes) → Reads → Front → Prop
  | cutHead {front : List Bytes} {r : Reads} (hhead : r.exactly 8 = none) :
      ChunkLoop front r .ended
  | tooLong {front : List Bytes} {head : Bytes} {r r₁ : Reads}
      (hhead : r.exactly 8 = some (head, r₁))
      (hlong : longestChunk < Png.numberOf (head.take 4)) :
      ChunkLoop front r (.fault (.chunkTooLong (Png.numberOf (head.take 4))) r₁)
  | cutBody {front : List Bytes} {head : Bytes} {r r₁ : Reads}
      (hhead : r.exactly 8 = some (head, r₁))
      (hfits : ¬ longestChunk < Png.numberOf (head.take 4))
      (hbody : r₁.exactly (Png.numberOf (head.take 4) + 4) = none) :
      ChunkLoop front r .ended
  | last {front : List Bytes} {head body : Bytes} {r r₁ r₂ : Reads}
      (hhead : r.exactly 8 = some (head, r₁))
      (hfits : ¬ longestChunk < Png.numberOf (head.take 4))
      (hbody : r₁.exactly (Png.numberOf (head.take 4) + 4) = some (body, r₂))
      (hend : head.drop 4 = Png.typeEnd) :
      ChunkLoop front r (.frame (body :: head :: front).reverse.flatten r₂)
  | more {front : List Bytes} {head body : Bytes} {r r₁ r₂ : Reads} {x : Front}
      (hhead : r.exactly 8 = some (head, r₁))
      (hfits : ¬ longestChunk < Png.numberOf (head.take 4))
      (hbody : r₁.exactly (Png.numberOf (head.take 4) + 4) = some (body, r₂))
      (hend : head.drop 4 ≠ Png.typeEnd)
      (hloop : ChunkLoop (body :: head :: front) r₂ x) : ChunkLoop front r x

/-- What one frame is read by: the signature, and the loop that takes chunks. -/
inductive FrameRead : Reads → Front → Prop
  | cutSignature {r : Reads} (hfront : r.exactly Png.signature.length = none) : FrameRead r .ended
  | badSignature {r r₁ : Reads} {b : Bytes}
      (hfront : r.exactly Png.signature.length = some (b, r₁)) (hbad : b ≠ Png.signature) :
      FrameRead r (.fault .badSignature r₁)
  | chunks {r r₁ : Reads} {x : Front}
      (hfront : r.exactly Png.signature.length = some (Png.signature, r₁))
      (hloop : ChunkLoop [Png.signature] r₁ x) : FrameRead r x

/-- Every time round, the loop takes bytes off the stream. -/
theorem length_lt_of_body {head body : Bytes} {r r₁ r₂ : Reads} {n : Nat}
    (hhead : r.exactly 8 = some (head, r₁)) (hbody : r₁.exactly n = some (body, r₂)) :
    r₂.bytes.length < r.bytes.length := by
  obtain ⟨hlength, hbytes⟩ := Reads.bytes_of_exactly hhead
  obtain ⟨-, hbytes₁⟩ := Reads.bytes_of_exactly hbody
  rw [hbytes, hbytes₁, List.length_append, List.length_append, hlength]
  omega

/-- The loop goes round no more often than there are bytes. -/
theorem chunkLoop_chunks {fuel : Nat} (front : List Bytes) {r : Reads}
    (hfuel : r.bytes.length < fuel) : ChunkLoop front r (chunks fuel front r) := by
  induction fuel generalizing front r with
  | zero => omega
  | succ fuel ih =>
    cases hhead : r.exactly 8 with
    | none =>
      simp only [chunks, hhead]
      exact .cutHead hhead
    | some found =>
      obtain ⟨head, r₁⟩ := found
      by_cases hlong : longestChunk < Png.numberOf (head.take 4)
      · rw [chunks_of_long hhead hlong]
        exact .tooLong hhead hlong
      · cases hbody : r₁.exactly (Png.numberOf (head.take 4) + 4) with
        | none =>
          simp only [chunks, hhead, if_neg hlong, hbody]
          exact .cutBody hhead hlong hbody
        | some found =>
          obtain ⟨body, r₂⟩ := found
          rw [chunks_of_body hhead hlong hbody]
          by_cases hend : head.drop 4 = Png.typeEnd
          · rw [if_pos hend]
            exact .last hhead hlong hbody hend
          · rw [if_neg hend]
            -- the fuel that is left is enough for the bytes that are left
            have hshorter := length_lt_of_body hhead hbody
            exact .more hhead hlong hbody hend (ih _ (by omega))

/-- What the loop comes to is found with fuel for all bytes. -/
theorem ChunkLoop.chunks_eq {front : List Bytes} {r : Reads} {x : Front}
    (h : ChunkLoop front r x) {fuel : Nat} (hfuel : r.bytes.length ≤ fuel) :
    chunks (fuel + 1) front r = x := by
  induction h generalizing fuel with
  | cutHead hhead => simp only [chunks, hhead]
  | tooLong hhead hlong => exact chunks_of_long hhead hlong
  | cutBody hhead hfits hbody => simp only [chunks, hhead, if_neg hfits, hbody]
  | last hhead hfits hbody hend => rw [chunks_of_body hhead hfits hbody, if_pos hend]
  | more hhead hfits hbody hend _ ih =>
    have hshorter := length_lt_of_body hhead hbody
    obtain ⟨fuel, rfl⟩ : ∃ k, fuel = k + 1 := ⟨fuel - 1, by omega⟩
    rw [chunks_of_body hhead hfits hbody, if_neg hend]
    exact ih (by omega)

theorem frameRead_next (r : Reads) : FrameRead r (next r) := by
  unfold next
  cases hfront : r.exactly Png.signature.length with
  | none => exact .cutSignature hfront
  | some found =>
    obtain ⟨b, r₁⟩ := found
    dsimp only
    by_cases hbad : b ≠ Png.signature
    · rw [if_pos hbad]
      exact .badSignature hfront hbad
    · rw [if_neg hbad]
      rw [not_not] at hbad
      subst hbad
      exact .chunks hfront (chunkLoop_chunks _ (Nat.lt_succ_self _))

/-- What a frame is read by comes to one thing on every stream, and that is what `next` finds. -/
theorem frameRead_iff {r : Reads} {x : Front} : FrameRead r x ↔ next r = x := by
  constructor
  · intro h
    unfold next
    cases h with
    | cutSignature hfront => simp only [hfront]
    | badSignature hfront hbad => simp only [hfront, if_pos hbad]
    | chunks hfront hloop =>
      simp only [hfront, ne_eq, not_true_eq_false, if_false]
      exact hloop.chunks_eq le_rfl
  · rintro rfl
    exact frameRead_next r

/-! ## What stands behind a frame -/

/-- What chunks come to depends on nothing behind them. -/
theorem ChunkLoop.of_rest {front : List Bytes} {r u : Reads} {x : Front}
    (h : ChunkLoop front r x) (hu : x.rest? = some u) :
    ∃ q, r.bytes = q ++ u.bytes ∧ ∀ (r' : Reads) (e : Bytes), r'.bytes = q ++ e →
      ∃ u', ChunkLoop front r' (x.before u') ∧ u'.bytes = e := by
  -- along the run: `q` is the head and body that were read, and before the last chunk also what
  -- the rest of the run has read
  induction h with
  | cutHead => cases hu
  | cutBody => cases hu
  | @tooLong front head r r₁ hhead hlong =>
    cases hu
    obtain ⟨hlength, hbytes⟩ := Reads.bytes_of_exactly hhead
    refine ⟨head, hbytes, fun r' e hr' => ?_⟩
    obtain ⟨u', hhead', hu'⟩ := Reads.exists_exactly hlength hr'
    exact ⟨u', .tooLong hhead' hlong, hu'⟩
  | @last front head body r r₁ r₂ hhead hfits hbody hend =>
    cases hu
    obtain ⟨hlength, hbytes⟩ := Reads.bytes_of_exactly hhead
    obtain ⟨hlength₁, hbytes₁⟩ := Reads.bytes_of_exactly hbody
    refine ⟨head ++ body, by rw [hbytes, hbytes₁, List.append_assoc], fun r' e hr' => ?_⟩
    rw [List.append_assoc] at hr'
    obtain ⟨r₁', hhead', hr₁'⟩ := Reads.exists_exactly hlength hr'
    obtain ⟨u', hbody', hu'⟩ := Reads.exists_exactly hlength₁ hr₁'
    exact ⟨u', .last hhead' hfits hbody' hend, hu'⟩
  | @more front head body r r₁ r₂ x hhead hfits hbody hend _ ih =>
    obtain ⟨hlength, hbytes⟩ := Reads.bytes_of_exactly hhead
    obtain ⟨hlength₁, hbytes₁⟩ := Reads.bytes_of_exactly hbody
    obtain ⟨q, hq, hsame⟩ := ih hu
    refine ⟨head ++ (body ++ q), by simp only [hbytes, hbytes₁, hq, List.append_assoc],
      fun r' e hr' => ?_⟩
    rw [List.append_assoc, List.append_assoc] at hr'
    obtain ⟨r₁', hhead', hr₁'⟩ := Reads.exists_exactly hlength hr'
    obtain ⟨r₂', hbody', hr₂'⟩ := Reads.exists_exactly hlength₁ hr₁'
    obtain ⟨u', hloop, hu'⟩ := hsame r₂' e hr₂'
    exact ⟨u', .more hhead' hfits hbody' hend hloop, hu'⟩

/-- What stands at the front of a stream depends on nothing behind it. -/
theorem next_of_rest {r u : Reads} (h : (next r).rest? = some u) :
    ∃ q, r.bytes = q ++ u.bytes ∧ ∀ (r' : Reads) (e : Bytes), r'.bytes = q ++ e →
      ∃ u', next r' = (next r).before u' ∧ u'.bytes = e := by
  simp only [← frameRead_iff]
  generalize hx : next r = x at h ⊢
  cases frameRead_iff.mpr hx with
  | cutSignature => cases h
  | badSignature hfront hbad =>
    cases h
    obtain ⟨hlength, hbytes⟩ := Reads.bytes_of_exactly hfront
    refine ⟨_, hbytes, fun r' e hr' => ?_⟩
    obtain ⟨u', hfront', hu'⟩ := Reads.exists_exactly hlength hr'
    exact ⟨u', .badSignature hfront' hbad, hu'⟩
  | chunks hfront hloop =>
    obtain ⟨hlength, hbytes⟩ := Reads.bytes_of_exactly hfront
    obtain ⟨q, hq, hsame⟩ := hloop.of_rest h
    refine ⟨Png.signature ++ q, by rw [hbytes, hq, List.append_assoc], fun r' e hr' => ?_⟩
    rw [List.append_assoc] at hr'
    obtain ⟨r₁', hfront', hr₁'⟩ := Reads.exists_exactly hlength hr'
    obtain ⟨u', hloop', hu'⟩ := hsame r₁' e hr₁'
    exact ⟨u', .chunks hfront' hloop', hu'⟩

/-! ## Frame after frame -/

variable {α : Type} {decode : Bytes → Option α}

section Step

variable {count seen : Nat} {last : Option (α × Nat)} {r rest : Reads} {b : Bytes} {cause : Fault}
  {image : α}

theorem stopAfter_of_ended (hnext : next r = .ended) :
    stopAfter decode (count + 1) seen last r = { verdict := .ok last, unread := none } := by
  rw [stopAfter, hnext]

theorem stopAfter_of_fault (hnext : next r = .fault cause rest) :
    stopAfter decode (count + 1) seen last r =
      { verdict := .error (.stream cause), unread := some rest } := by
  rw [stopAfter, hnext]

theorem stopAfter_of_none (hnext : next r = .frame b rest) (hdecode : decode b = none) :
    stopAfter decode (count + 1) seen last r =
      { verdict := .error .undecodable, unread := some rest } := by
  rw [stopAfter, hnext]
  simp only [hdecode]

theorem stopAfter_of_some (hnext : next r = .frame b rest) (hdecode : decode b = some image) :
    stopAfter decode (count + 1) seen last r =
      stopAfter decode count (seen + 1) (some (image, seen + 1)) rest := by
  rw [stopAfter, hnext]
  simp only [hdecode]

end Step

/-- What a stream comes to that is not read to its end depends on nothing behind what was read. -/
theorem stopAfter_of_unread {count seen : Nat} {last : Option (α × Nat)} {r u : Reads}
    (h : (stopAfter decode count seen last r).unread = some u) :
    ∃ q, r.bytes = q ++ u.bytes ∧ ∀ (r' : Reads) (e : Bytes), r'.bytes = q ++ e →
      ∃ u', stopAfter decode count seen last r' =
        { stopAfter decode count seen last r with unread := some u' } ∧ u'.bytes = e := by
  induction count generalizing seen last r with
  | zero =>
    cases h
    exact ⟨[], rfl, fun r' e hr' => ⟨r', rfl, hr'⟩⟩
  | succ count ih =>
    have hnext := @next_of_rest r
    cases hfront : next r with
    | ended =>
      rw [stopAfter_of_ended hfront] at h
      cases h
    | fault cause rest =>
      rw [stopAfter_of_fault hfront] at h ⊢
      cases h
      rw [hfront] at hnext
      obtain ⟨q, hq, hrest⟩ := hnext rfl
      refine ⟨q, hq, fun r' e hr' => ?_⟩
      obtain ⟨u', hu', he⟩ := hrest r' e hr'
      exact ⟨u', stopAfter_of_fault hu', he⟩
    | frame b rest =>
      rw [hfront] at hnext
      obtain ⟨q, hq, hrest⟩ := hnext rfl
      cases himage : decode b with
      | none =>
        rw [stopAfter_of_none hfront himage] at h ⊢
        cases h
        refine ⟨q, hq, fun r' e hr' => ?_⟩
        obtain ⟨u', hu', he⟩ := hrest r' e hr'
        exact ⟨u', stopAfter_of_none hu' himage, he⟩
      | some image =>
        rw [stopAfter_of_some hfront himage] at h ⊢
        obtain ⟨q₁, hq₁, hrest₁⟩ := ih h
        refine ⟨q ++ q₁, by rw [hq, hq₁, List.append_assoc], fun r' e hr' => ?_⟩
        rw [List.append_assoc] at hr'
        obtain ⟨r₁', hr₁', he₁⟩ := hrest r' (q₁ ++ e) hr'
        rw [stopAfter_of_some hr₁' himage]
        exact hrest₁ r₁' e he₁

/-- What the frames of a stream come to, when it is not read to its end, is settled by the bytes
that were read. -/
theorem stop_of_unread {r u : Reads} (h : (stop decode r).unread = some u) :
    ∃ q, r.bytes = q ++ u.bytes ∧ ∀ (r' : Reads) (e : Bytes), r'.bytes = q ++ e →
      ∃ u', stop decode r' = { stop decode r with unread := some u' } ∧ u'.bytes = e :=
  stopAfter_of_unread h

/-! ## The bytes that settle it -/

@[simp] theorem bytes_singleton (b : Bytes) : Reads.bytes [b] = b := List.append_nil b

theorem unread_eq {r u : Reads} (h : (stop decode r).unread = some u) :
    unread decode r = u.bytes.length := by
  unfold unread
  rw [h]

/-- No more is left behind than there is. -/
theorem unread_le (decode : Bytes → Option α) (r : Reads) : unread decode r ≤ r.bytes.length := by
  cases hu : (stop decode r).unread with
  | none =>
    unfold unread
    rw [hu]
    exact Nat.zero_le _
  | some u =>
    obtain ⟨q, hq, -⟩ := stop_of_unread hu
    rw [unread_eq hu, hq, List.length_append]
    exact Nat.le_add_left _ _

/-- Once it is settled what frames come to, all that follows is left unread. -/
theorem settled_append {b : Bytes} (h : isSettled decode b = true) (e : Bytes) :
    isSettled decode (b ++ e) = true ∧ keepLast decode [b ++ e] = keepLast decode [b] ∧
      unread decode [b ++ e] = unread decode [b] + e.length := by
  obtain ⟨u, hu⟩ := Option.isSome_iff_exists.mp h
  obtain ⟨q, hq, hrest⟩ := stop_of_unread hu
  rw [bytes_singleton] at hq
  obtain ⟨u', hstop, hu'⟩ := hrest [b ++ e] (u.bytes ++ e) (by rw [bytes_singleton, hq,
    List.append_assoc])
  refine ⟨?_, ?_, ?_⟩
  · rw [isSettled, hstop]
    rfl
  · rw [keepLast, hstop]
    rfl
  · rw [unread_eq hu, unread_eq (u := u') (by rw [hstop]), hu', List.length_append]

/-- It is settled what frames come to as soon as no more is left than is never read. -/
theorem settled_of_length_le {b e : Bytes} (h : isSettled decode (b ++ e) = true)
    (hle : e.length ≤ unread decode [b ++ e]) : isSettled decode b = true := by
  obtain ⟨u, hu⟩ := Option.isSome_iff_exists.mp h
  obtain ⟨q, hq, hrest⟩ := stop_of_unread hu
  rw [bytes_singleton] at hq
  rw [unread_eq hu] at hle
  -- what was read is a front of `b`, since no more stands behind `b` than was left
  obtain ⟨d, rfl⟩ : ∃ d, b = q ++ d := by
    rcases List.append_eq_append_iff.mp hq with ⟨d, rfl, hd⟩ | ⟨d, rfl, -⟩
    · have hlength : e.length = d.length + u.bytes.length := by rw [hd, List.length_append]
      have hd : d = [] := List.eq_nil_of_length_eq_zero (by omega)
      exact ⟨[], by rw [hd, List.append_nil, List.append_nil]⟩
    · exact ⟨d, rfl⟩
  obtain ⟨u', hstop, -⟩ := hrest [q ++ d] d (bytes_singleton _)
  rw [isSettled, hstop]
  rfl

/-- Before that, more is left than is never read. -/
theorem unread_lt_of_not_settled {b e : Bytes} (h : isSettled decode b = false) (he : e ≠ []) :
    unread decode [b ++ e] < e.length := by
  by_contra hge
  have hsettled : isSettled decode (b ++ e) = true := by
    rw [isSettled, Option.isSome_iff_ne_none]
    intro hnone
    have hzero : unread decode [b ++ e] = 0 := by
      unfold unread
      rw [hnone]
    have hpos := List.length_pos_iff.mpr he
    omega
  rw [settled_of_length_le hsettled (by omega)] at h
  cases h

/-! ## No frame at all -/

/-- A stream that does not start with the signature is left behind it. -/
theorem exists_stop_of_bad_signature {b : Bytes} (hlength : b.length = Png.signature.length)
    (hbad : b ≠ Png.signature) (e : Bytes) :
    ∃ rest : Reads, rest.bytes = e ∧
      stop decode [b ++ e] =
        { verdict := .error (.stream .badSignature), unread := some rest } := by
  obtain ⟨rest, hfront, hrest⟩ := Reads.exists_exactly hlength (bytes_singleton (b ++ e))
  have hnext : next [b ++ e] = .fault .badSignature rest := by
    unfold next
    simp only [hfront, if_pos hbad]
  refine ⟨rest, hrest, ?_⟩
  unfold stop
  rw [show maxFrames = 119 + 1 from rfl, stopAfter_of_fault hnext]

/-- One byte over and over is no signature, and what is behind eight of it is not read. -/
theorem exists_stop_replicate (decode : Bytes → Option α) (n : Nat) (x : UInt8) :
    ∃ rest : Reads, rest.bytes = List.replicate n x ∧
      stop decode [List.replicate (n + 8) x] =
        { verdict := .error (.stream .badSignature), unread := some rest } := by
  have hlength : (List.replicate 8 x).length = Png.signature.length := List.length_replicate
  have hbad : List.replicate 8 x ≠ Png.signature := by
    intro heq
    have hsame : ∀ c ∈ Png.signature, c = x := heq ▸ fun c hc => List.eq_of_mem_replicate hc
    have hfirst : 0x89 = x := hsame 0x89 (by decide)
    have hsecond : 0x50 = x := hsame 0x50 (by decide)
    rw [← hsecond] at hfirst
    exact absurd hfirst (by decide)
  rw [Nat.add_comm, ← List.replicate_append_replicate]
  exact exists_stop_of_bad_signature hlength hbad (List.replicate n x)

theorem unread_replicate (n : Nat) (x : UInt8) :
    unread decode [List.replicate (n + 8) x] = n := by
  obtain ⟨rest, hrest, hstop⟩ := exists_stop_replicate decode n x
  unfold unread
  rw [hstop]
  simp only [hrest, List.length_replicate]

theorem keepLast_replicate (n : Nat) (x : UInt8) :
    keepLast decode [List.replicate (n + 8) x] = .error (.stream .badSignature) := by
  obtain ⟨rest, -, hstop⟩ := exists_stop_replicate decode n x
  unfold keepLast
  rw [hstop]

end FrameStream

end PicBoard
