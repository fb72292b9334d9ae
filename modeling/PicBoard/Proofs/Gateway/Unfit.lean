import Mathlib.Tactic
import PicBoard.Proofs.Gateway.Presented

/-!
# Tokens that do not pass

Why a token does not pass for one of a kind, and which session one names that does.
-/

namespace PicBoard

/-- Why a token does not pass for one of a kind: it is malformed, forged or out of its time, or it
is of another kind, or it is one of a session but for nobody. -/
inductive Token.Unfit (mac : Mac) (now : Instant) (kind : TokenType) (token : Bytes) : Prop where
  | refused (e : TokenError) (decoded : decode mac now token = .error e)
      (running : e ≠ .clockUnreadable)
  | otherKind (p : Payload) (decoded : decode mac now token = .ok p) (other : p.type ≠ kind)
  | noSubject (p : Payload) (e : TokenError) (decoded : decode mac now token = .ok p)
      (ofKind : p.type = kind) (session : kind ≠ .pix) (subject : subjectId p = .error e)

/-- A pix token is for reading only and names no session. -/
theorem Payload.named?_of_pix {p : Payload} (hkind : p.type = .pix) : p.named? = none := by
  unfold named?
  rw [hkind]
  split
  · rfl
  · rfl

namespace Token

variable {mac : Mac} {now : Instant} {kind : TokenType} {token : Bytes} {e : TokenError}

theorem decodeTyped_eq_error_iff :
    decodeTyped mac now token kind = .error e ↔
      decode mac now token = .error e ∨
        ∃ p, decode mac now token = .ok p ∧ p.type ≠ kind ∧ e = .wrongType kind p.type := by
  unfold decodeTyped
  rw [bind_eq_error_iff]
  refine or_congr_right (exists_congr fun p => and_congr_right fun _ => ?_)
  split
  · rename_i hkind
    simp [hkind]
  · rename_i hkind
    simp [hkind, eq_comm]

theorem ne_clockUnreadable_of_subjectId {p : Payload} (h : subjectId p = .error e) :
    e ≠ .clockUnreadable := by
  unfold subjectId at h
  split at h
  · cases h
  · cases h
    exact nofun

/-- A token is refused before its subject is read when its text is or when it is of another
kind. -/
theorem exists_decodeTyped_error_iff :
    (∃ e, decodeTyped mac now token kind = .error e ∧ e ≠ .clockUnreadable) ↔
      (∃ e, decode mac now token = .error e ∧ e ≠ .clockUnreadable) ∨
        ∃ p, decode mac now token = .ok p ∧ p.type ≠ kind := by
  simp only [decodeTyped_eq_error_iff]
  constructor
  · rintro ⟨e, he | ⟨p, hp, hkind, -⟩, hrunning⟩
    · exact .inl ⟨e, he, hrunning⟩
    · exact .inr ⟨p, hp, hkind⟩
  · rintro (⟨e, he, hrunning⟩ | ⟨p, hp, hkind⟩)
    · exact ⟨e, .inl he, hrunning⟩
    · exact ⟨_, .inr ⟨p, hp, hkind, rfl⟩, nofun⟩

/-- A pix token is refused when it does not pass. -/
theorem unfit_pix_iff :
    Unfit mac now .pix token ↔
      ∃ e, decodeTyped mac now token .pix = .error e ∧ e ≠ .clockUnreadable := by
  rw [exists_decodeTyped_error_iff]
  constructor
  · intro h
    cases h with
    | refused e decoded running => exact .inl ⟨e, decoded, running⟩
    | otherKind p decoded other => exact .inr ⟨p, decoded, other⟩
    | noSubject p e decoded ofKind session subject => exact absurd rfl session
  · rintro (⟨e, he, hrunning⟩ | ⟨p, hp, hkind⟩)
    · exact .refused e he hrunning
    · exact .otherKind p hp hkind

/-- A token of a session is refused when it does not pass, whatever is read from it. -/
theorem unfit_iff_of_session {γ : Type} (hkind : kind ≠ .pix) (claims : Payload → Int64 → γ) :
    Unfit mac now kind token ↔
      ∃ e, (do
        let p ← decodeTyped mac now token kind
        let userId ← subjectId p
        return claims p userId) = .error e ∧ e ≠ .clockUnreadable := by
  constructor
  · intro h
    cases h with
    | refused e decoded running =>
      exact ⟨e, bind_eq_error_iff.mpr (.inl (decodeTyped_eq_error_iff.mpr (.inl decoded))), running⟩
    | otherKind p decoded other =>
      have htyped : decodeTyped mac now token kind = .error (.wrongType kind p.type) :=
        decodeTyped_eq_error_iff.mpr (.inr ⟨p, decoded, other, rfl⟩)
      exact ⟨_, bind_eq_error_iff.mpr (.inl htyped), nofun⟩
    | noSubject p e decoded ofKind session subject =>
      have htyped : decodeTyped mac now token kind = .ok p :=
        decodeTyped_eq_ok_iff.mpr ⟨decoded, ofKind⟩
      refine ⟨e, bind_eq_error_iff.mpr (.inr ⟨p, htyped, ?_⟩),
        ne_clockUnreadable_of_subjectId subject⟩
      exact bind_eq_error_iff.mpr (.inl subject)
  · rintro ⟨e, he, hrunning⟩
    rcases bind_eq_error_iff.mp he with htyped | ⟨p, htyped, he⟩
    · rcases decodeTyped_eq_error_iff.mp htyped with hdecode | ⟨p, hp, hother, -⟩
      · exact .refused e hdecode hrunning
      · exact .otherKind p hp hother
    · rcases bind_eq_error_iff.mp he with hsubject | ⟨userId, -, he⟩
      · rcases decodeTyped_eq_ok_iff.mp htyped with ⟨hp, htype⟩
        exact .noSubject p e hp htype hkind hsubject
      · cases he

theorem unfit_refresh_iff :
    Unfit mac now .refresh token ↔
      ∃ e, validateRefresh mac now token = .error e ∧ e ≠ .clockUnreadable :=
  unfit_iff_of_session (by decide) fun p userId =>
    ({ userId, family := p.tokenId } : RefreshClaims)

theorem unfit_auth_iff :
    Unfit mac now .auth token ↔
      ∃ e, validateAuth mac now token = .error e ∧ e ≠ .clockUnreadable :=
  unfit_iff_of_session (by decide) fun p userId =>
    ({ userId, family := if p.tokenParentId = 0 then none else some p.tokenParentId } : AuthClaims)

/-- A refresh token names the session that is read from it. -/
theorem exists_named_refresh_iff (dead : Int64 → Int64 → Prop) :
    (∃ p, decode mac now token = .ok p ∧ p.type = .refresh ∧
        ∃ userId family, p.named? = some (userId, family) ∧ dead userId family) ↔
      ∃ c, validateRefresh mac now token = .ok c ∧ dead c.userId c.family := by
  constructor
  · rintro ⟨p, hp, hkind, userId, family, hnamed, hdead⟩
    cases hsubject : subjectId p with
    | error e =>
      unfold Payload.named? at hnamed
      rw [hsubject] at hnamed
      cases hnamed
    | ok subject =>
      rw [Payload.named?_of_refresh hsubject hkind] at hnamed
      cases hnamed
      exact ⟨{ userId, family := p.tokenId },
        validateRefresh_eq_ok_iff.mpr ⟨p, hp, hkind, hsubject, rfl⟩, hdead⟩
  · rintro ⟨c, hc, hdead⟩
    rcases validateRefresh_eq_ok_iff.mp hc with ⟨p, hp, hkind, hsubject, hfamily⟩
    refine ⟨p, hp, hkind, _, _, Payload.named?_of_refresh hsubject hkind, ?_⟩
    rwa [← hfamily]

/-- An auth token that passes for one came with no family, or names the session that is read from
it. -/
theorem unfit_auth_or_named_iff (dead : Int64 → Int64 → Prop) :
    (Unfit mac now .auth token ∨ ∃ p, decode mac now token = .ok p ∧ p.type = .auth ∧
        (p.tokenParentId = 0 ∨
          ∃ userId family, p.named? = some (userId, family) ∧ dead userId family)) ↔
      Unfit mac now .auth token ∨
        ∃ c, validateAuth mac now token = .ok c ∧ ∀ f ∈ c.family, dead c.userId f := by
  constructor
  · rintro (hunfit | ⟨p, hp, hkind, h⟩)
    · exact .inl hunfit
    · cases hsubject : subjectId p with
      | error e => exact .inl (.noSubject p e hp hkind (by decide) hsubject)
      | ok userId =>
        refine .inr ⟨{ userId, family := if p.tokenParentId = 0 then none else p.tokenParentId },
          validateAuth_eq_ok_iff.mpr ⟨p, hp, hkind, hsubject, rfl⟩, ?_⟩
        by_cases hparent : p.tokenParentId = 0
        · simp [hparent]
        · rcases h with hzero | ⟨id, family, hnamed, hdead⟩
          · exact absurd hzero hparent
          · rw [Payload.named?_of_auth hsubject hkind] at hnamed
            cases hnamed
            simpa [hparent] using hdead
  · rintro (hunfit | ⟨c, hc, hdead⟩)
    · exact .inl hunfit
    · rcases validateAuth_eq_ok_iff.mp hc with ⟨p, hp, hkind, hsubject, hfamily⟩
      refine .inr ⟨p, hp, hkind, ?_⟩
      by_cases hparent : p.tokenParentId = 0
      · exact .inl hparent
      · rw [hfamily, if_neg hparent] at hdead
        exact .inr ⟨_, _, Payload.named?_of_auth hsubject hkind, hdead _ rfl⟩

end Token

end PicBoard
