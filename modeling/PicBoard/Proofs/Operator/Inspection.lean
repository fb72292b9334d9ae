import PicBoard.Operator.Tokens
import PicBoard.Proofs.Text.Blank
import PicBoard.Proofs.Token.Forgery
import PicBoard.Proofs.Token.Lifetime

/-!
# What an operator is told of a token

With a key, a token is shown when it is signed with it, whether it holds now or not, and no other
token is; what is shown is the payload that was signed.  The payload of a token out of its time is
read a second time, without its signature: that its signature is right then follows from what it
was refused for (`readSigned_of_authenticate`, `readSigned_of_rejected`).  Put together in
`inspection_vouches_for_signed`.
-/

namespace PicBoard

/-! ## Signed tokens -/

namespace Token

/-- A token is three parts with dots between them: a header of the one algorithm and version, the
base64url text of a record of a payload, and that of the signature which the key gives for the two
parts as they stand. -/
def SignedText (mac : Mac) (token : Bytes) (p : Payload) : Prop :=
  ∃ header payload : Bytes,
    token = header ++ dot :: payload ++
      dot :: Base64Url.encode (mac.sign (header ++ dot :: payload)) ∧
    dot ∉ header ∧ dot ∉ payload ∧ payload ≠ [] ∧
    (∃ b h, Base64Url.decode header = .ok b ∧ TokenHeader.decode b = .ok h ∧
      h.algorithm = TokenHeader.hmacSha512_256 ∧ h.version = TokenHeader.currentVersion) ∧
    ∃ b, Base64Url.decode payload = .ok b ∧ Payload.decode b = .ok p

theorem signedText_iff {mac : Mac} {token : Bytes} {p : Payload} :
    SignedText mac token p ↔ authenticate mac token = .ok p := by
  rw [authenticate_iff_text]
  simp only [checkHeader_eq_ok_iff, readPayload_eq_ok_iff]
  exact Iff.rfl

/-- No blank stands in a token. -/
theorem ofText_trim_encodeText (mac : Mac) (p : Payload) :
    Bytes.ofText (Text.trim (encodeText mac p)) = encode mac p := by
  have hchars : ∀ c ∈ (encodeText mac p).toList, Text.isBlank c = false := by
    intro c hc
    rw [encodeText, Bytes.toLatin1, String.toList_ofList] at hc
    obtain ⟨b, hb, rfl⟩ := List.mem_map.mp hc
    have hrange := toNat_of_mem_encode hb
    have hall : ∀ k : Fin 128, 45 ≤ k.val → Text.isBlank (Char.ofNat k) = false := by decide
    exact hall ⟨b.toNat, by omega⟩ hrange.1
  rw [Text.trim_eq_self hchars]
  exact ofText_toLatin1_encode mac p

end Token

namespace Operator

open Token (SignedText signedText_iff)

variable {mac : Mac} {now : Instant} {t : Bytes} {p : Payload} {state : TokenState}
  {e : TokenError} {c : OperatorError}

/-! ## Reading -/

/-- A signed token is read at all times, and as the payload that was signed. -/
theorem readSigned_of_authenticate (h : Token.authenticate mac t = .ok p) (hnow : now.Readable) :
    readSigned mac now t = .ok p := by
  unfold readSigned Token.decode
  rw [h, ok_bind]
  -- out of its time the token is read again, and without its signature it says the same
  have hagain : readUnverified t = .ok p := by
    unfold readUnverified
    rw [Token.decodeUnverified_of_authenticate h]
  rcases p.checkClock_cases now with
    ⟨hnot, -⟩ | ⟨-, -, hclock⟩ | ⟨-, -, -, hclock⟩ | ⟨-, -, -, hclock⟩
  · exact absurd hnow hnot
  · rw [hclock]
    rfl
  · rw [hclock]
    exact hagain
  · rw [hclock]
    exact hagain

theorem readSigned_of_not_readable (h : Token.authenticate mac t = .ok p) (hnow : ¬ now.Readable) :
    readSigned mac now t = .error .timeOutOfRange := by
  unfold readSigned Token.decode
  rw [h, ok_bind, p.checkClock_of_not_readable hnow]
  rfl

/-- What a token is rejected for is never the time, for that comes last. -/
theorem readSigned_of_rejected (h : Token.authenticate mac t = .error e) (now : Instant) :
    readSigned mac now t = .error (.tokenRejected e) := by
  have hdecode : Token.decode mac now t = .error e := by
    unfold Token.decode
    rw [h, error_bind]
  have htime := Token.not_tellsOfTime_of_authenticate h
  unfold readSigned
  rw [hdecode]
  cases e with
  | notYetValid => exact absurd trivial htime
  | expired => exact absurd trivial htime
  | clockUnreadable => exact absurd trivial htime
  | _ => rfl

/-! ## Telling -/

/-- What is printed of a token. -/
def Inspection.lines (i : Inspection) : Bytes := Outcome.line i.toJson.spread

section

variable {key : Option Mac} {verified : Bool} {token : String}

/-- Of a signed token is told what its payload comes to, at every time. -/
theorem inspect_signed (h : SignedText mac (Bytes.ofText (Text.trim token)) p) (now : Instant) :
    inspect (some mac) now token = Inspection.ofPayload now true p := by
  have hread := signedText_iff.mp h
  unfold inspect
  by_cases hnow : now.Readable
  · simp only [readSigned_of_authenticate hread hnow, ok_bind]
  · -- the reading of the token stops where the telling of its state would have stopped
    simp only [readSigned_of_not_readable hread hnow, error_bind]
    unfold Inspection.ofPayload
    rw [TokenState.read?_of_not_readable p hnow]

theorem inspect_rejected (h : ∀ p, ¬ SignedText mac (Bytes.ofText (Text.trim token)) p)
    (now : Instant) : ∃ e, inspect (some mac) now token = .error (.tokenRejected e) := by
  cases hread : Token.authenticate mac (Bytes.ofText (Text.trim token)) with
  | ok p => exact absurd (signedText_iff.mpr hread) (h p)
  | error e =>
    refine ⟨e, ?_⟩
    unfold inspect
    simp only [readSigned_of_rejected hread, error_bind]

theorem inspect_unverified (h : Token.decodeUnverified (Bytes.ofText (Text.trim token)) = .ok p)
    (now : Instant) : inspect none now token = Inspection.ofPayload now false p := by
  unfold inspect readUnverified
  simp only [h, ok_bind]

theorem inspect_unreadable
    (h : ∀ p, Token.decodeUnverified (Bytes.ofText (Text.trim token)) ≠ .ok p) (now : Instant) :
    ∃ e, inspect none now token = .error (.tokenUnreadable e) := by
  cases hread : Token.decodeUnverified (Bytes.ofText (Text.trim token)) with
  | ok p => exact absurd hread (h p)
  | error e =>
    refine ⟨e, ?_⟩
    unfold inspect readUnverified
    simp only [hread, error_bind]

theorem showInspection_of_state (h : inspect key now token = Inspection.ofPayload now verified p)
    (hstate : TokenState.read? p now = some state) :
    showInspection key now token =
      .ok (Inspection.lines { verified, state, payload := p.view }) := by
  unfold showInspection
  rw [h, Inspection.ofPayload, hstate]
  rfl

theorem showInspection_of_not_readable
    (h : inspect key now token = Inspection.ofPayload now verified p) (hnow : ¬ now.Readable) :
    showInspection key now token = .error .timeOutOfRange := by
  unfold showInspection
  rw [h, Inspection.ofPayload, TokenState.read?_of_not_readable p hnow]
  rfl

theorem showInspection_of_error (h : inspect key now token = .error c) :
    showInspection key now token = .error c := by
  unfold showInspection
  rw [h]
  rfl

/-- Where a token comes to the telling of a payload, it is told whenever the clock can be read. -/
theorem exists_showInspection_iff
    (h : inspect key now token = Inspection.ofPayload now verified p) :
    (∃ out, showInspection key now token = .ok out) ↔ now.Readable := by
  constructor
  · rintro ⟨out, hout⟩
    by_contra hnow
    cases hout.symm.trans (showInspection_of_not_readable h hnow)
  · intro hnow
    obtain ⟨state, hstate⟩ := TokenState.exists_read? p hnow
    exact ⟨_, showInspection_of_state h hstate⟩

/-- Blanks around a token do not tell. -/
theorem showInspection_around (key : Option Mac) (now : Instant) (token : String)
    {before after : String} (hbefore : ∀ c ∈ before.toList, Text.isBlank c = true)
    (hafter : ∀ c ∈ after.toList, Text.isBlank c = true) :
    showInspection key now (before ++ token ++ after) = showInspection key now token := by
  unfold showInspection inspect
  rw [Text.trim_around hbefore hafter]

end

/-- What is printed of a token, at every reading of the clock and with blanks around it or not.
With a key something is printed exactly of a token that is signed with it, and it is that the
signature is right, the payload that was signed, and its state; the state is one of the two good
ones when the token is accepted at that time, and at all other times the token is shown too.  Every
other token is rejected.  Without a key it is printed of every token that can be read that its
signature was not checked.  At the one reading of which there is no timestamp nothing is printed. -/
theorem inspection_vouches_for_signed (mac : Mac) (now : Instant) (token : String) :
    let t := Bytes.ofText (Text.trim token)
    ((∃ out, showInspection (some mac) now token = .ok out) ↔
      (∃ p, SignedText mac t p) ∧ now.time ≠ -2 ^ 63) ∧
    (∀ p, SignedText mac t p → now.time ≠ -2 ^ 63 →
      ∃ state, TokenState.read? p now = some state ∧
        showInspection (some mac) now token =
          .ok (Inspection.lines { verified := true, state, payload := p.view }) ∧
        (state = .live ∨ state = .softExpired ↔ ∃ q, Token.decode mac now t = .ok q)) ∧
    (∀ p, SignedText mac t p → now.time = -2 ^ 63 →
      showInspection (some mac) now token = .error .timeOutOfRange) ∧
    ((∀ p, ¬ SignedText mac t p) →
      ∃ e, showInspection (some mac) now token = .error (.tokenRejected e)) ∧
    ((∃ out, showInspection none now token = .ok out) ↔
      (∃ p, Token.decodeUnverified t = .ok p) ∧ now.time ≠ -2 ^ 63) ∧
    (∀ p, Token.decodeUnverified t = .ok p → now.time ≠ -2 ^ 63 →
      ∃ state, TokenState.read? p now = some state ∧
        showInspection none now token =
          .ok (Inspection.lines { verified := false, state, payload := p.view })) ∧
    ∀ (key : Option Mac) (before after : String), (∀ c ∈ before.toList, Text.isBlank c = true) →
      (∀ c ∈ after.toList, Text.isBlank c = true) →
        showInspection key now (before ++ token ++ after) = showInspection key now token := by
  intro t
  have hclock : now.time = -2 ^ 63 ↔ ¬ now.Readable := by rw [Instant.readable_iff, not_not]
  simp only [Ne, hclock, not_not]
  refine ⟨?_, ?_, ?_, ?_, ?_, ?_, ?_⟩
  · by_cases hsigned : ∃ p, SignedText mac t p
    · obtain ⟨p, h⟩ := hsigned
      rw [exists_showInspection_iff (inspect_signed h now)]
      exact ⟨fun hnow => ⟨⟨p, h⟩, hnow⟩, And.right⟩
    · obtain ⟨e, he⟩ := inspect_rejected (not_exists.mp hsigned) now
      simp [hsigned, showInspection_of_error he]
  · intro p h hnow
    obtain ⟨state, hstate⟩ := TokenState.exists_read? p hnow
    refine ⟨state, hstate, showInspection_of_state (inspect_signed h now) hstate, ?_⟩
    rw [TokenState.live_or_softExpired_iff hstate]
    have hread := signedText_iff.mp h
    simp only [Token.decode_eq_ok_iff]
    constructor
    · intro hgood
      exact ⟨p, hread, hgood⟩
    · rintro ⟨q, hq, hgood⟩
      cases hread.symm.trans hq
      exact hgood
  · intro p h hnow
    exact showInspection_of_not_readable (inspect_signed h now) hnow
  · intro hsigned
    obtain ⟨e, he⟩ := inspect_rejected hsigned now
    exact ⟨e, showInspection_of_error he⟩
  · by_cases hreadable : ∃ p, Token.decodeUnverified t = .ok p
    · obtain ⟨p, h⟩ := hreadable
      rw [exists_showInspection_iff (inspect_unverified h now)]
      exact ⟨fun hnow => ⟨⟨p, h⟩, hnow⟩, And.right⟩
    · obtain ⟨e, he⟩ := inspect_unreadable (not_exists.mp hreadable) now
      simp [hreadable, showInspection_of_error he]
  · intro p h hnow
    obtain ⟨state, hstate⟩ := TokenState.exists_read? p hnow
    exact ⟨state, hstate, showInspection_of_state (inspect_unverified h now) hstate⟩
  · intro key before after hbefore hafter
    exact showInspection_around key now token hbefore hafter

/-- A token that is long past, with blanks around it, is shown as one whose signature is right. -/
theorem expired_token_shown_as_verified :
    let p : Payload := { subject := "h6", notBefore := some ⟨0, 0⟩, notAfter := some ⟨1, 0⟩ }
    let token := " \t" ++ Token.encodeText (.hmac [7]) p ++ "\n"
    SignedText (.hmac [7]) (Bytes.ofText (Text.trim token)) p ∧
      (Instant.ofSeconds 100).time ≠ -2 ^ 63 ∧
      showInspection (some (.hmac [7])) (.ofSeconds 100) token =
        .ok (Inspection.lines { verified := true, state := .expired, payload := p.view }) := by
  intro p token
  have htrim : Bytes.ofText (Text.trim token) = Token.encode (.hmac [7]) p := by
    have hbefore : ∀ c ∈ " \t".toList, Text.isBlank c = true := List.all_eq_true.mp (by decide)
    have hafter : ∀ c ∈ "\n".toList, Text.isBlank c = true := List.all_eq_true.mp (by decide)
    rw [Text.trim_around hbefore hafter, Token.ofText_trim_encodeText]
  have hsigned : SignedText (.hmac [7]) (Bytes.ofText (Text.trim token)) p := by
    rw [htrim, signedText_iff]
    exact Token.authenticate_encode _ (by unfold Payload.Holdable; decide) (by decide)
  have hclock : (Instant.ofSeconds 100).time ≠ -2 ^ 63 := Instant.readable_iff.mp (by decide)
  obtain ⟨-, hshown, -⟩ := inspection_vouches_for_signed (.hmac [7]) (.ofSeconds 100) token
  obtain ⟨state, hstate, hprinted, -⟩ := hshown p hsigned hclock
  have hexpired : TokenState.read? p (.ofSeconds 100) = some .expired := rfl
  cases hstate.symm.trans hexpired
  exact ⟨hsigned, hclock, hprinted⟩

/-- At the first reading of a clock nothing is printed of a signed token. -/
theorem nothing_printed_without_timestamp :
    let p : Payload := { subject := "h6", notBefore := some ⟨0, 0⟩, notAfter := some ⟨1, 0⟩ }
    SignedText (.hmac [7])
        (Bytes.ofText (Text.trim (Token.encodeText (.hmac [7]) p))) p ∧
      showInspection (some (.hmac [7])) (.ofSeconds Int64.minValue)
        (Token.encodeText (.hmac [7]) p) = .error .timeOutOfRange := by
  intro p
  have hsigned : SignedText (.hmac [7])
      (Bytes.ofText (Text.trim (Token.encodeText (.hmac [7]) p))) p := by
    rw [Token.ofText_trim_encodeText, signedText_iff]
    exact Token.authenticate_encode _ (by unfold Payload.Holdable; decide) (by decide)
  exact ⟨hsigned, showInspection_of_not_readable (inspect_signed hsigned _) (by decide)⟩

end Operator

end PicBoard
