import PicBoard.Proofs.Token.Acceptance

/-!
# Tokens that are not signed

A token whose signature is not the one that its key gives is refused for its header or for its
signature, whatever its payload is and whatever the time (`decode_of_not_signed`).  So whoever is
told of a fault in a payload, or that a payload does not hold yet or any more, holds a token that
was signed (`signed_of_tellsOfPayload`).  Told of the time alone is only who holds one that is
authentic (`not_tellsOfTime_of_authenticate`).
-/

namespace PicBoard

/-- A refusal that tells something of a payload, or of the time. -/
def TokenError.TellsOfPayload : TokenError → Prop
  | .malformed (.base64 .payload _) | .malformed (.record .payload _) => True
  | .notYetValid | .expired | .wrongType _ _ | .badSubject _ | .clockUnreadable => True
  | _ => False

/-- A refusal for the time alone, which may be one that has no timestamp. -/
def TokenError.TellsOfTime : TokenError → Prop
  | .notYetValid | .expired | .clockUnreadable => True
  | _ => False

theorem TokenError.TellsOfTime.tellsOfPayload {e : TokenError} (h : e.TellsOfTime) :
    e.TellsOfPayload := by
  cases e with
  | notYetValid => exact trivial
  | expired => exact trivial
  | clockUnreadable => exact trivial
  | _ => exact h.elim

namespace Token

variable {mac : Mac} {now : Instant} {token segment : Bytes} {s : Segments} {e : TokenError}

/-- The signature of a token is read as the one that its key gives for the header, the dot and the
payload as they stand. -/
def Signed (mac : Mac) (token : Bytes) : Prop :=
  ∃ s, segments token = .ok s ∧ Base64Url.decode s.signature = .ok (mac.sign s.signed)

/-! ## Stages before the payload -/

theorem not_tellsOfPayload_of_segments (h : segments token = .error e) : ¬ e.TellsOfPayload := by
  unfold segments at h
  split at h
  · split at h
    · cases h
      exact id
    · cases h
  · cases h
    exact id

theorem not_tellsOfPayload_of_partBytes {part : TokenPart} (hpart : part ≠ .payload)
    (h : partBytes part segment = .error e) : ¬ e.TellsOfPayload := by
  unfold partBytes at h
  split at h
  · cases h
  · cases h
    cases part with
    | payload => exact absurd rfl hpart
    | header => exact id
    | signature => exact id

theorem not_tellsOfPayload_of_checkHeader (h : checkHeader segment = .error e) :
    ¬ e.TellsOfPayload := by
  unfold checkHeader at h
  rcases bind_eq_error_iff.mp h with h | ⟨b, -, h⟩
  · exact not_tellsOfPayload_of_partBytes (by decide) h
  · split at h
    · cases h
      exact id
    · split_ifs at h
      · cases h
        exact id
      · cases h
        exact id

/-- The payload is read without a look at the time. -/
theorem not_tellsOfTime_of_readPayload (h : readPayload segment = .error e) : ¬ e.TellsOfTime := by
  unfold readPayload at h
  rcases bind_eq_error_iff.mp h with h | ⟨b, -, h⟩
  · unfold partBytes at h
    split at h
    · cases h
    · cases h
      exact id
  · split at h
    · cases h
      exact id
    · cases h

/-! ## The whole token -/

/-- What is said of a token that is not signed comes from its header and its signature alone. -/
theorem decode_of_not_signed (hs : segments token = .ok s)
    (h : Base64Url.decode s.signature ≠ .ok (mac.sign s.signed)) (now : Instant) :
    decode mac now token = (do
      checkHeader s.header
      let _ ← partBytes .signature s.signature
      .error .badSignature) := by
  unfold decode authenticate
  rw [hs, ok_bind]
  cases checkHeader s.header with
  | error e => rfl
  | ok _ =>
    cases hsig : partBytes .signature s.signature with
    | error e => rfl
    | ok signature =>
      -- the bytes of the signature are not those that the key gives, so the payload is not reached
      have hne : signature ≠ mac.sign s.signed := by
        rintro rfl
        exact h (partBytes_eq_ok_iff.mp hsig)
      simp only [ok_bind, if_pos hne, error_bind]

/-- Who is told something of a payload, or of the time, holds a token that is signed. -/
theorem signed_of_tellsOfPayload (h : decode mac now token = .error e) (htells : e.TellsOfPayload) :
    Signed mac token := by
  cases hs : segments token with
  | error c =>
    rw [decode, authenticate, hs] at h
    cases h
    exact absurd htells (not_tellsOfPayload_of_segments hs)
  | ok s =>
    by_contra hnot
    have hsig : Base64Url.decode s.signature ≠ .ok (mac.sign s.signed) := by
      intro hsig
      exact hnot ⟨s, hs, hsig⟩
    rw [decode_of_not_signed hs hsig] at h
    -- each stage that is passed without the signature is silent about the payload
    rcases bind_eq_error_iff.mp h with h | ⟨-, -, h⟩
    · exact not_tellsOfPayload_of_checkHeader h htells
    · rcases bind_eq_error_iff.mp h with h | ⟨-, -, h⟩
      · exact not_tellsOfPayload_of_partBytes (by decide) h htells
      · cases h
        exact htells

/-- A token that is not authentic is not refused for the time. -/
theorem not_tellsOfTime_of_authenticate (h : authenticate mac token = .error e) :
    ¬ e.TellsOfTime := by
  unfold authenticate at h
  rcases bind_eq_error_iff.mp h with h | ⟨s, -, h⟩
  · exact fun htime => not_tellsOfPayload_of_segments h htime.tellsOfPayload
  rcases bind_eq_error_iff.mp h with h | ⟨-, -, h⟩
  · exact fun htime => not_tellsOfPayload_of_checkHeader h htime.tellsOfPayload
  rcases bind_eq_error_iff.mp h with h | ⟨signature, -, h⟩
  · exact fun htime => not_tellsOfPayload_of_partBytes (by decide) h htime.tellsOfPayload
  split_ifs at h
  · cases h
    exact id
  · exact not_tellsOfTime_of_readPayload h

/-- A payload and a signature that are put behind a header without its key: the payload is any text
without a dot, and the signature is base64url of other bytes than those that the key gives. -/
structure Forged (mac : Mac) (header payload signature : Bytes) : Prop where
  payload_ne_nil : payload ≠ []
  dot_not_mem : dot ∉ payload
  signature_ne_nil : signature ≠ []
  bytes : ∃ b, Base64Url.decode signature = .ok b ∧ b ≠ mac.sign (header ++ dot :: payload)

/-- A forged token is refused for its signature. -/
theorem Forged.decode {header payload signature : Bytes} (h : Forged mac header payload signature)
    (hheader : checkHeader header = .ok ()) (now : Instant) :
    decode mac now (header ++ dot :: payload ++ dot :: signature) = .error .badSignature := by
  rcases h.bytes with ⟨b, hb, hne⟩
  rcases checkHeader_eq_ok_iff.mp hheader with ⟨c, -, hc, -⟩
  have hdots : dot ∉ header ∧ dot ∉ payload ∧ dot ∉ signature := by
    rw [Base64Url.decode_eq_ok_iff.mp hc, Base64Url.decode_eq_ok_iff.mp hb]
    exact ⟨dot_not_mem_encode c, h.dot_not_mem, dot_not_mem_encode b⟩
  have hs : segments (header ++ dot :: payload ++ dot :: signature) =
      .ok ⟨header, payload, signature⟩ :=
    segments_eq_ok_iff.mpr ⟨rfl, hdots, h.payload_ne_nil, h.signature_ne_nil⟩
  have hsig : Base64Url.decode signature ≠ .ok (mac.sign (header ++ dot :: payload)) := by
    rw [hb]
    intro heq
    exact hne (Except.ok.inj heq)
  have hpart : partBytes .signature signature = .ok b := partBytes_eq_ok_iff.mpr hb
  rw [decode_of_not_signed hs hsig, hheader, ok_bind, hpart, ok_bind]

/-- Two forged tokens behind one header that passes are refused alike, for their signatures,
whatever the payloads are and whatever the two times.  And of no token that is not signed is
anything said that comes from its payload or from the time: neither that the payload cannot be
read, nor that it does not hold yet, nor that it holds no more. -/
theorem unsigned_payload_never_read (mac : Mac) {header payload payload' signature
    signature' : Bytes} (hheader : checkHeader header = .ok ())
    (h : Forged mac header payload signature) (h' : Forged mac header payload' signature')
    (now now' : Instant) :
    decode mac now (header ++ dot :: payload ++ dot :: signature) = .error .badSignature ∧
      decode mac now' (header ++ dot :: payload' ++ dot :: signature') = .error .badSignature ∧
      ∀ (token : Bytes) (t : Instant) (e : TokenError),
        decode mac t token = .error e → e.TellsOfPayload → Signed mac token := by
  refine ⟨h.decode hheader now, h'.decode hheader now', ?_⟩
  intro token t e herror htells
  exact signed_of_tellsOfPayload herror htells

/-- A payload that is not even base64url, and one that would read as a record without bounds, are
refused alike, the second at the time of which there is no timestamp. -/
theorem garbage_and_unbounded_refused_alike :
    let mac := Mac.hmac [7]
    decode mac (.ofSeconds 0) (Bytes.ofText "CAE.!.AAAA") = .error .badSignature ∧
      decode mac (.ofSeconds Int64.minValue) (Bytes.ofText "CAE.CgFn.AA") =
        .error .badSignature := by
  intro mac
  have hheader : checkHeader (Bytes.ofText "CAE") = .ok () := by decide +kernel
  have hforged : ∀ payload signature b : Bytes, payload ≠ [] → dot ∉ payload → signature ≠ [] →
      Base64Url.decode signature = .ok b → b.length < 32 →
      Forged mac (Bytes.ofText "CAE") payload signature := by
    intro payload signature b hpayload hdot hsignature hb hlen
    refine ⟨hpayload, hdot, hsignature, b, hb, ?_⟩
    rintro rfl
    exact absurd hlen (by rw [mac.sign_length]; decide)
  have h := hforged (Bytes.ofText "!") (Bytes.ofText "AAAA") [0, 0, 0] (by decide +kernel)
    (by decide +kernel) (by decide +kernel) (by decide +kernel) (by decide)
  have h' := hforged (Bytes.ofText "CgFn") (Bytes.ofText "AA") [0] (by decide +kernel)
    (by decide +kernel) (by decide +kernel) (by decide +kernel) (by decide)
  rcases unsigned_payload_never_read mac hheader h h' (.ofSeconds 0) (.ofSeconds Int64.minValue)
    with ⟨hfirst, hsecond, -⟩
  exact ⟨hfirst, hsecond⟩

end Token

end PicBoard
