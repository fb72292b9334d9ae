import PicBoard.Proofs.Outcome
import PicBoard.Proofs.Text.Base64Url
import PicBoard.Proofs.Text.Bytes
import PicBoard.Token.Codec

/-!
# Which tokens are accepted

Each check of a token succeeds on exactly one kind of text: cutting on two dots, a part on the
base64url text of its bytes, the header on the one algorithm and version.  Put together, they say
which tokens are accepted.  So there is one signature for each header and payload, and no change to
a token that is accepted keeps its header and payload.
-/

namespace PicBoard.Token

/-! ## The parts -/

/-- The dot is no base64url symbol, so no part written in base64url holds one. -/
theorem dot_not_mem_encode (b : Bytes) : dot ∉ Base64Url.encode b :=
  Base64Url.not_mem_encode rfl b

/-- A token is cut into three parts that hold no dot, of which only the header may be empty. -/
theorem segments_eq_ok_iff {token : Bytes} {s : Segments} :
    segments token = .ok s ↔
      token = s.signed ++ dot :: s.signature ∧
      (dot ∉ s.header ∧ dot ∉ s.payload ∧ dot ∉ s.signature) ∧
      s.payload ≠ [] ∧ s.signature ≠ [] := by
  constructor
  · intro h
    unfold segments at h
    split at h
    · rename_i header payload signature hp
      split at h
      · cases h
      · rename_i hne
        simp only [Except.ok.injEq] at h
        obtain ⟨htoken, hdots⟩ := Bytes.pieces_eq_three_iff.mp hp
        subst h
        refine ⟨htoken, hdots, ?_, ?_⟩
        · intro he
          exact hne (Or.inl he)
        · intro he
          exact hne (Or.inr he)
    · cases h
  · rintro ⟨htoken, hdots, hp, hs⟩
    have hpieces := Bytes.pieces_eq_three_iff.mpr ⟨htoken, hdots⟩
    unfold segments
    rw [hpieces]
    simp [hp, hs]

/-- A part is read as the bytes whose text it is. -/
theorem partBytes_eq_ok_iff {part : TokenPart} {segment b : Bytes} :
    partBytes part segment = .ok b ↔ Base64Url.decode segment = .ok b := by
  unfold partBytes
  cases Base64Url.decode segment with
  | error e => simp
  | ok c => simp

/-- A header passes when it is the record of the one algorithm and the one version. -/
theorem checkHeader_eq_ok_iff {segment : Bytes} :
    checkHeader segment = .ok () ↔
      ∃ b h, Base64Url.decode segment = .ok b ∧ TokenHeader.decode b = .ok h ∧
        h.algorithm = TokenHeader.hmacSha512_256 ∧ h.version = TokenHeader.currentVersion := by
  unfold checkHeader
  rw [bind_eq_ok_iff]
  constructor
  · rintro ⟨b, hb, h⟩
    rw [partBytes_eq_ok_iff] at hb
    split at h
    · cases h
    · rename_i header hdecode
      split at h
      · cases h
      · rename_i halg
        split at h
        · cases h
        · rename_i hver
          exact ⟨b, header, hb, hdecode, not_not.mp halg, not_not.mp hver⟩
  · rintro ⟨b, header, hb, hdecode, halg, hver⟩
    refine ⟨b, partBytes_eq_ok_iff.mpr hb, ?_⟩
    simp [hdecode, halg, hver]

/-- A payload is read when the part is the text of a record of it. -/
theorem readPayload_eq_ok_iff {segment : Bytes} {p : Payload} :
    readPayload segment = .ok p ↔
      ∃ b, Base64Url.decode segment = .ok b ∧ Payload.decode b = .ok p := by
  unfold readPayload
  rw [bind_eq_ok_iff]
  constructor
  · rintro ⟨b, hb, h⟩
    refine ⟨b, partBytes_eq_ok_iff.mp hb, ?_⟩
    split at h
    · cases h
    · rename_i q hq
      cases h
      exact hq
  · rintro ⟨b, hb, h⟩
    refine ⟨b, partBytes_eq_ok_iff.mpr hb, ?_⟩
    simp [h]

/-! ## The whole token -/

/-- A token is made of base64url symbols and dots. -/
theorem toNat_of_mem_encode {mac : Mac} {p : Payload} {b : UInt8} (h : b ∈ encode mac p) :
    45 ≤ b.toNat ∧ b.toNat ≤ 122 := by
  have hpart : ∀ c : Bytes, b ∈ Base64Url.encode c → 45 ≤ b.toNat ∧ b.toNat ≤ 122 := by
    intro c hc
    obtain ⟨n, hn⟩ := Base64Url.value?_of_mem_encode hc
    exact Base64Url.toNat_of_value? hn
  simp only [encode, signedPart, List.mem_append, List.mem_cons] at h
  rcases h with (h | rfl | h) | rfl | h
  · exact hpart _ h
  · decide
  · exact hpart _ h
  · decide
  · exact hpart _ h

/-- A token reads back from its characters. -/
theorem ofText_toLatin1_encode (mac : Mac) (p : Payload) :
    Bytes.ofText (encode mac p).toLatin1 = encode mac p := by
  refine Bytes.ofText_toLatin1 ?_
  intro b hb
  have hrange := toNat_of_mem_encode hb
  omega

/-- A token is read without its signature when its header passes and its payload is read. -/
theorem decodeUnverified_eq_ok_iff {token : Bytes} {p : Payload} :
    decodeUnverified token = .ok p ↔
      ∃ s, segments token = .ok s ∧ checkHeader s.header = .ok () ∧
        readPayload s.payload = .ok p := by
  simp only [decodeUnverified, bind_eq_ok_iff]
  constructor
  · rintro ⟨s, hs, ⟨⟩, hheader, hpayload⟩
    exact ⟨s, hs, hheader, hpayload⟩
  · rintro ⟨s, hs, hheader, hpayload⟩
    exact ⟨s, hs, (), hheader, hpayload⟩

/-- A token is authentic when it could be read without its signature and its signature is the
text of the one that its key gives. -/
theorem authenticate_eq_ok_iff {mac : Mac} {token : Bytes} {p : Payload} :
    authenticate mac token = .ok p ↔
      ∃ s, segments token = .ok s ∧ checkHeader s.header = .ok () ∧
        s.signature = Base64Url.encode (mac.sign s.signed) ∧ readPayload s.payload = .ok p := by
  simp only [authenticate, bind_eq_ok_iff, partBytes_eq_ok_iff, Base64Url.decode_eq_ok_iff]
  constructor
  · rintro ⟨s, hs, ⟨⟩, hheader, signature, hsig, h⟩
    split at h
    · cases h
    · rename_i hmac
      refine ⟨s, hs, hheader, ?_, h⟩
      rw [hsig, not_not.mp hmac]
  · rintro ⟨s, hs, hheader, hsig, hpayload⟩
    refine ⟨s, hs, (), hheader, mac.sign s.signed, hsig, ?_⟩
    simpa using hpayload

/-- A token is accepted when it is authentic and its payload holds now. -/
theorem decode_eq_ok_iff {mac : Mac} {now : Instant} {token : Bytes} {p : Payload} :
    decode mac now token = .ok p ↔ authenticate mac token = .ok p ∧ p.checkClock now = .ok () := by
  simp only [decode, bind_eq_ok_iff]
  constructor
  · rintro ⟨q, hq, ⟨⟩, hclock, h⟩
    cases h
    exact ⟨hq, hclock⟩
  · rintro ⟨hp, hclock⟩
    exact ⟨p, hp, (), hclock, rfl⟩

/-- An authentic token says the same when its signature is not looked at. -/
theorem decodeUnverified_of_authenticate {mac : Mac} {token : Bytes} {p : Payload}
    (h : authenticate mac token = .ok p) : decodeUnverified token = .ok p := by
  obtain ⟨s, hs, hheader, -, hpayload⟩ := authenticate_eq_ok_iff.mp h
  exact decodeUnverified_eq_ok_iff.mpr ⟨s, hs, hheader, hpayload⟩

/-- So does one that holds now. -/
theorem decodeUnverified_of_decode {mac : Mac} {now : Instant} {token : Bytes} {p : Payload}
    (h : decode mac now token = .ok p) : decodeUnverified token = .ok p :=
  decodeUnverified_of_authenticate (decode_eq_ok_iff.mp h).1

/-- The signature of a key as text is never empty. -/
theorem signature_ne_nil (mac : Mac) (signed : Bytes) :
    Base64Url.encode (mac.sign signed) ≠ [] := by
  intro h
  have hlen := mac.sign_length signed
  rw [Base64Url.encode_eq_nil_iff.mp h] at hlen
  cases hlen

/-- The text of an authentic token. -/
theorem authenticate_iff_text {mac : Mac} {token : Bytes} {p : Payload} :
    authenticate mac token = .ok p ↔
      ∃ header payload, token = header ++ dot :: payload ++
          dot :: Base64Url.encode (mac.sign (header ++ dot :: payload)) ∧
        dot ∉ header ∧ dot ∉ payload ∧ payload ≠ [] ∧
        checkHeader header = .ok () ∧ readPayload payload = .ok p := by
  rw [authenticate_eq_ok_iff]
  constructor
  · rintro ⟨s, hs, hheader, hsig, hpayload⟩
    obtain ⟨htoken, ⟨hdh, hdp, -⟩, hne, -⟩ := segments_eq_ok_iff.mp hs
    -- The signature part is the text of the bytes that the key gives, and no other text is read
    -- as these.
    rw [hsig] at htoken
    exact ⟨s.header, s.payload, htoken, hdh, hdp, hne, hheader, hpayload⟩
  · rintro ⟨header, payload, htoken, hdh, hdp, hne, hheader, hpayload⟩
    refine ⟨⟨header, payload, Base64Url.encode (mac.sign (header ++ dot :: payload))⟩, ?_,
      hheader, rfl, hpayload⟩
    exact segments_eq_ok_iff.mpr
      ⟨htoken, ⟨hdh, hdp, dot_not_mem_encode _⟩, hne, signature_ne_nil mac _⟩

/-- Three parts that make up a token are the parts into which it is cut, whatever they are taken
to be: were there a dot in one of them, there would be more than three. -/
theorem segments_of_parts {header payload signature : Bytes} {s : Segments}
    (h : segments (header ++ dot :: payload ++ dot :: signature) = .ok s) :
    s = ⟨header, payload, signature⟩ := by
  obtain ⟨htoken, ⟨hh, hp, hs⟩, -⟩ := segments_eq_ok_iff.mp h
  -- The parts of the cut hold no dot, so the token holds two, and these are the ones in sight.
  have hcount := congrArg (List.count dot) htoken
  simp only [Segments.signed, List.count_append, List.count_cons_self,
    List.count_eq_zero_of_not_mem hh, List.count_eq_zero_of_not_mem hp,
    List.count_eq_zero_of_not_mem hs] at hcount
  have hh' : dot ∉ header := List.count_eq_zero.mp (by omega)
  have hp' : dot ∉ payload := List.count_eq_zero.mp (by omega)
  have hs' : dot ∉ signature := List.count_eq_zero.mp (by omega)
  have hleft := Bytes.pieces_eq_three_iff.mpr ⟨rfl, hh', hp', hs'⟩
  have hright := Bytes.pieces_eq_three_iff.mpr ⟨htoken, hh, hp, hs⟩
  rw [hleft] at hright
  simp only [List.cons.injEq, and_true] at hright
  obtain ⟨e1, e2, e3⟩ := hright
  rw [e1, e2, e3]

/-- There is one signature for a header and a payload. -/
theorem signature_of_authenticate {mac : Mac} {header payload signature : Bytes} {p : Payload}
    (h : authenticate mac (header ++ dot :: payload ++ dot :: signature) = .ok p) :
    signature = Base64Url.encode (mac.sign (header ++ dot :: payload)) := by
  obtain ⟨s, hs, -, hsig, -⟩ := authenticate_eq_ok_iff.mp h
  rw [segments_of_parts hs] at hsig
  exact hsig

/-- A token is accepted as `p` exactly when it is a header, a payload and a signature with two dots
between them, where neither of the first two holds a dot and the payload is not empty; the header
is base64url of a record with the one algorithm and version; the signature is the base64url text
of that which the key gives for the header, the dot and the payload as they stand; the payload is
base64url of a record of `p`; and `p` holds now.  So a header and a payload are accepted with one
signature only, and what is accepted reads the same when its signature is not looked at. -/
theorem decode_accepts_iff (mac : Mac) (now : Instant) (token : Bytes) (p : Payload) :
    (decode mac now token = .ok p ↔
      ∃ header payload signature : Bytes,
        token = header ++ dot :: payload ++ dot :: signature ∧
        dot ∉ header ∧ dot ∉ payload ∧ payload ≠ [] ∧
        (∃ b h, Base64Url.decode header = .ok b ∧ TokenHeader.decode b = .ok h ∧
          h.algorithm = TokenHeader.hmacSha512_256 ∧ h.version = TokenHeader.currentVersion) ∧
        signature = Base64Url.encode (mac.sign (header ++ dot :: payload)) ∧
        (∃ b, Base64Url.decode payload = .ok b ∧ Payload.decode b = .ok p) ∧
        p.checkClock now = .ok ()) ∧
    (∀ (header payload signature signature' : Bytes) (q q' : Payload),
      decode mac now (header ++ dot :: payload ++ dot :: signature) = .ok q →
      decode mac now (header ++ dot :: payload ++ dot :: signature') = .ok q' →
      signature = signature') ∧
    (decode mac now token = .ok p → decodeUnverified token = .ok p) := by
  refine ⟨?_, ?_, ?_⟩
  · rw [decode_eq_ok_iff, authenticate_iff_text]
    simp only [checkHeader_eq_ok_iff, readPayload_eq_ok_iff]
    constructor
    · rintro ⟨⟨header, payload, htoken, hdh, hdp, hne, hheader, hpayload⟩, hclock⟩
      exact ⟨header, payload, _, htoken, hdh, hdp, hne, hheader, rfl, hpayload, hclock⟩
    · rintro ⟨header, payload, signature, htoken, hdh, hdp, hne, hheader, rfl, hpayload, hclock⟩
      exact ⟨⟨header, payload, htoken, hdh, hdp, hne, hheader, hpayload⟩, hclock⟩
  · intro header payload signature signature' q q' h h'
    have hsig := signature_of_authenticate (decode_eq_ok_iff.mp h).1
    have hsig' := signature_of_authenticate (decode_eq_ok_iff.mp h').1
    rw [hsig, hsig']
  · intro h
    exact decodeUnverified_of_authenticate (decode_eq_ok_iff.mp h).1

end PicBoard.Token
