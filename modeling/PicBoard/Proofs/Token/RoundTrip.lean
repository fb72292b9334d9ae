import PicBoard.Proofs.Token.Acceptance
import PicBoard.Proofs.Wire.RoundTrip

/-!
# Tokens say what they were issued to say

Every payload but the one without any field is read back from its token, through the record, the
base64url text and the dots.  The one payload that is lost has an empty part, which no reader takes.
-/

namespace PicBoard

open Wire

/-! ## Records -/

namespace Timestamp

/-- A timestamp is read from its record. -/
theorem takes_encode (budget : Nat) (t : Timestamp) :
    Takes merge budget zero (encode t) t := by
  have hseconds : Takes merge budget zero (int64Field 1 t.seconds)
      { zero with seconds := t.seconds } :=
    takes_int64Field (fun v => { zero with seconds := v }) (by decide)
      (fun _ => rfl) rfl t.seconds
  have hnanos : Takes merge budget { zero with seconds := t.seconds } (int32Field 2 t.nanos) t :=
    takes_int32Field (fun v => { t with nanos := v }) (by decide)
      (fun _ => rfl) rfl t.nanos
  exact hseconds.append hnanos

/-- The record of a timestamp is short. -/
theorem encode_length_lt (t : Timestamp) : (encode t).length < UInt64.size := by
  have hseconds : (int64Field 1 t.seconds).length ≤ 11 := by
    unfold int64Field
    split
    · simp
    · exact numberField_length_le (by decide) t.seconds.toUInt64.toNat_lt
  have hnanos : (int32Field 2 t.nanos).length ≤ 11 := by
    unfold int32Field
    split
    · simp
    · exact numberField_length_le (by decide) t.nanos.toInt64.toUInt64.toNat_lt
  rw [encode, List.length_append]
  simp only [UInt64.size]
  omega

end Timestamp

namespace TokenHeader

/-- A header is read from its record. -/
theorem decode_encode (h : TokenHeader) : decode h.encode = .ok h := by
  have halg : Takes merge nesting {} (int32Field 1 h.algorithm) { algorithm := h.algorithm } :=
    takes_int32Field (fun v => ({ algorithm := v } : TokenHeader)) (by decide) (fun _ => rfl) rfl _
  have hver : Takes merge nesting { algorithm := h.algorithm } (int64Field 2 h.version) h :=
    takes_int64Field (fun v => { h with version := v }) (by decide) (fun _ => rfl) rfl _
  exact readRecord_of_takes (halg.append hver)

end TokenHeader

namespace Payload

/-- The texts of a payload are no longer than the 64-bit number that counts their bytes; no memory
holds a longer one. -/
def Holdable (p : Payload) : Prop :=
  (Bytes.ofText p.subject).length < UInt64.size ∧ (Bytes.ofText p.issuer).length < UInt64.size

/-- A payload is read from its record. -/
theorem decode_encode (p : Payload) (h : p.Holdable) : decode p.encode = .ok p := by
  obtain ⟨hsubject, hissuer⟩ := h
  -- What stands there after each field, from the first to the last but one.  A field that is left
  -- out changes nothing, so these are met in any case.
  let p1 : Payload := { subject := p.subject }
  let p2 : Payload := { p1 with notBefore := p.notBefore }
  let p3 : Payload := { p2 with notAfter := p.notAfter }
  let p4 : Payload := { p3 with softNotAfter := p.softNotAfter }
  let p5 : Payload := { p4 with tokenId := p.tokenId }
  let p6 : Payload := { p5 with tokenParentId := p.tokenParentId }
  let p7 : Payload := { p6 with typeCode := p.typeCode }
  have h1 : Takes merge nesting {} (textField 1 p.subject) p1 :=
    takes_textField (fun v => ({ subject := v } : Payload)) (by decide) (fun _ => rfl) rfl hsubject
  have h2 : Takes merge nesting p1 (recordField Timestamp.encode 2 p.notBefore) p2 :=
    takes_recordField (fun v => { p1 with notBefore := v }) (by decide) (fun _ => rfl) rfl
      Timestamp.encode_length_lt (Timestamp.takes_encode _) _
  have h3 : Takes merge nesting p2 (recordField Timestamp.encode 3 p.notAfter) p3 :=
    takes_recordField (fun v => { p2 with notAfter := v }) (by decide) (fun _ => rfl) rfl
      Timestamp.encode_length_lt (Timestamp.takes_encode _) _
  have h4 : Takes merge nesting p3 (recordField Timestamp.encode 4 p.softNotAfter) p4 :=
    takes_recordField (fun v => { p3 with softNotAfter := v }) (by decide) (fun _ => rfl)
      rfl Timestamp.encode_length_lt (Timestamp.takes_encode _) _
  have h5 : Takes merge nesting p4 (int64Field 5 p.tokenId) p5 :=
    takes_int64Field (fun v => { p4 with tokenId := v }) (by decide) (fun _ => rfl) rfl _
  have h6 : Takes merge nesting p5 (int64Field 6 p.tokenParentId) p6 :=
    takes_int64Field (fun v => { p5 with tokenParentId := v }) (by decide) (fun _ => rfl)
      rfl _
  have h7 : Takes merge nesting p6 (int32Field 7 p.typeCode) p7 :=
    takes_int32Field (fun v => { p6 with typeCode := v }) (by decide) (fun _ => rfl) rfl _
  have h8 : Takes merge nesting p7 (textField 8 p.issuer) p :=
    takes_textField (fun v => { p with issuer := v }) (by decide) (fun _ => rfl) rfl hissuer
  exact readRecord_of_takes
    (((((((h1.append h2).append h3).append h4).append h5).append h6).append h7).append h8)

/-- Only the payload without fields has an empty record. -/
theorem encode_ne_nil {p : Payload} (h : p.Holdable) (hp : p ≠ {}) : p.encode ≠ [] := by
  intro he
  -- The empty record is read as the payload without fields.
  have hread := decode_encode p h
  rw [he] at hread
  cases hread
  exact hp rfl

end Payload

/-! ## Tokens -/

namespace Token

/-- The header of every token issued here passes. -/
theorem checkHeader_current : checkHeader (Base64Url.encode TokenHeader.current.encode) = .ok () :=
  checkHeader_eq_ok_iff.mpr
    ⟨_, TokenHeader.current, Base64Url.decode_eq_ok_iff.mpr rfl, TokenHeader.decode_encode _,
      rfl, rfl⟩

/-- A token that was issued is authentic. -/
theorem authenticate_encode (mac : Mac) {p : Payload} (h : p.Holdable) (hp : p ≠ {}) :
    authenticate mac (encode mac p) = .ok p := by
  rw [authenticate_iff_text]
  refine ⟨_, _, rfl, dot_not_mem_encode _, dot_not_mem_encode _, ?_, checkHeader_current, ?_⟩
  · intro he
    exact Payload.encode_ne_nil h hp (Base64Url.encode_eq_nil_iff.mp he)
  · exact readPayload_eq_ok_iff.mpr
      ⟨_, Base64Url.decode_eq_ok_iff.mpr rfl, Payload.decode_encode p h⟩

/-- The token of the payload without fields is cut into no parts, for its second is empty. -/
theorem segments_encode_default (mac : Mac) :
    segments (encode mac {}) = .error (.malformed .segments) := by
  have hpieces := Bytes.pieces_eq_three_iff.mpr
    ⟨rfl, dot_not_mem_encode TokenHeader.current.encode, dot_not_mem_encode (Payload.encode {}),
      dot_not_mem_encode (mac.sign (signedPart {}))⟩
  unfold segments encode
  unfold signedPart at hpieces ⊢
  rw [hpieces]
  exact if_pos (Or.inl rfl)

/-- The token of any payload with a field in it reads as that payload without the signature, and
with it under the same key as that payload if it holds now and else as what is wrong with it now.
The token of the payload without fields is malformed either way. -/
theorem token_round_trip (mac : Mac) (now : Instant) (p : Payload) (h : p.Holdable) :
    (p ≠ {} →
      decodeUnverified (encode mac p) = .ok p ∧
      decode mac now (encode mac p) = (p.checkClock now).map fun _ => p) ∧
    (p = {} →
      Base64Url.encode p.encode = [] ∧
      decodeUnverified (encode mac p) = .error (.malformed .segments) ∧
      decode mac now (encode mac p) = .error (.malformed .segments)) := by
  constructor
  · intro hp
    have hread := authenticate_encode mac h hp
    refine ⟨decodeUnverified_of_authenticate hread, ?_⟩
    unfold decode
    rw [hread, ok_bind]
    cases p.checkClock now with
    | error e => rfl
    | ok u => rfl
  · rintro rfl
    have hcut := segments_encode_default mac
    refine ⟨rfl, ?_, ?_⟩
    · unfold decodeUnverified
      rw [hcut, error_bind]
    · unfold decode authenticate
      rw [hcut, error_bind, error_bind]

/-- Such a payload, with a bound that is present but zero, one that is not normalised, and negative
numbers: read without the signature, and with it, out of time. -/
theorem token_round_trip_negative :
    Payload.Holdable
      { notBefore := some .zero, notAfter := some ⟨-5, -7⟩, tokenId := -1, typeCode := -3 } ∧
    decodeUnverified (encode (.hmac [7])
      { notBefore := some .zero, notAfter := some ⟨-5, -7⟩, tokenId := -1, typeCode := -3 }) =
        .ok { notBefore := some .zero, notAfter := some ⟨-5, -7⟩, tokenId := -1, typeCode := -3 } ∧
    decode (.hmac [7]) ⟨0, 0, by decide⟩ (encode (.hmac [7])
      { notBefore := some .zero, notAfter := some ⟨-5, -7⟩, tokenId := -1, typeCode := -3 }) =
        .error .expired := by
  have h : Payload.Holdable
      { notBefore := some .zero, notAfter := some ⟨-5, -7⟩, tokenId := -1, typeCode := -3 } := by
    unfold Payload.Holdable
    decide
  have hround := (token_round_trip (.hmac [7]) ⟨0, 0, by decide⟩ _ h).1 (by decide)
  exact ⟨h, hround.1, hround.2.trans rfl⟩

end Token

end PicBoard
