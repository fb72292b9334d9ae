import Mathlib.Tactic
import PicBoard.Gateway.Access
import PicBoard.Proofs.Token.Acceptance

/-!
# Tokens in headers

A token is visible ASCII, so it may stand in a header.  Whether a pix cookie can be set is therefore
a matter of its name alone.
-/

namespace PicBoard

/-! ## Bytes that may stand in a header -/

namespace Header

theorem isVisible_iff {b : UInt8} :
    isVisible b = true ↔ 32 ≤ b.toNat ∧ b.toNat < 127 ∨ b = 9 := by
  simp [isVisible]

/-- What is visible may stand in a header value. -/
theorem isAllowed_of_isVisible {b : UInt8} (h : isVisible b = true) : isAllowed b = true := by
  have hne : b.toNat ≠ 127 → b ≠ 127 := by
    rintro hb rfl
    exact hb rfl
  rcases isVisible_iff.mp h with ⟨hlo, hhi⟩ | rfl
  · simp only [isAllowed, Bool.or_eq_true, Bool.and_eq_true, decide_eq_true_iff, bne_iff_ne]
    exact .inl ⟨hlo, hne (by omega)⟩
  · rfl

/-- The one header of a name, when its value is a text. -/
theorem texts_singleton {name : String} {value : Bytes}
    (h : ∀ b ∈ value, isVisible b = true) : texts [{ name, value }] name = [value] := by
  have hall : value.all isVisible = true := List.all_eq_true.mpr h
  unfold texts named
  rw [List.filter_cons_of_pos (by simp), List.filter_nil]
  simp only [List.filterMap_cons, List.filterMap_nil, if_pos hall]

end Header

namespace Decimal

/-- The digits of a number are ASCII digits. -/
theorem isVisible_of_mem_digits {n : Nat} {b : UInt8} (h : b ∈ digits n) :
    Header.isVisible b = true := by
  have hdigit : ∀ k, Header.isVisible (digitByte k) = true := by
    intro k
    have hk : k % 10 < 10 := Nat.mod_lt k (by decide)
    rw [Header.isVisible_iff, digitByte, UInt8.toNat_ofNat_of_lt' (by simp [UInt8.size]; omega)]
    omega
  induction n using digits.induct with
  | case1 n hlt =>
    rw [digits, if_pos hlt, List.mem_singleton] at h
    rw [h]
    exact hdigit n
  | case2 n hge ih =>
    rw [digits, if_neg hge, List.mem_append, List.mem_singleton] at h
    rcases h with h | rfl
    · exact ih h
    · exact hdigit n

theorem isVisible_of_mem_integer {n : Int} {b : UInt8} (h : b ∈ integer n) :
    Header.isVisible b = true := by
  cases n with
  | ofNat m => exact isVisible_of_mem_digits h
  | negSucc m =>
    rcases List.mem_cons.mp h with rfl | h
    · rfl
    · exact isVisible_of_mem_digits h

end Decimal

/-! ## Tokens -/

namespace Token

/-- A token may stand in a header. -/
theorem isVisible_of_mem_encode {mac : Mac} {p : Payload} {b : UInt8} (h : b ∈ encode mac p) :
    Header.isVisible b = true := by
  have hrange := toNat_of_mem_encode h
  exact Header.isVisible_iff.mpr (.inl (by omega))

/-- A token as characters is not the empty text, which stands for no token. -/
theorem toLatin1_encode_ne_empty (mac : Mac) (p : Payload) : (encode mac p).toLatin1 ≠ "" := by
  intro h
  have hbytes := ofText_toLatin1_encode mac p
  rw [h, Bytes.ofText_empty] at hbytes
  simp [encode] at hbytes

end Token

/-! ## The pix cookie -/

namespace Gateway

/-- The name of the pix cookie may stand in a header. -/
def CookieNameAllowed (g : Gateway) : Prop :=
  ∀ b ∈ Bytes.ofText g.pixCookie, Header.isAllowed b = true

instance (g : Gateway) : Decidable g.CookieNameAllowed :=
  inferInstanceAs (Decidable (∀ _ ∈ _, _))

/-- The text of the header that sets the pix cookie. -/
def pixCookieText (g : Gateway) (token : Bytes) (maxAge : Int) : Bytes :=
  Bytes.ofText g.pixCookie ++ 61 :: token ++ Bytes.ofText "; Path=/pix/; Max-Age=" ++
    Decimal.integer maxAge ++ Bytes.ofText "; HttpOnly; SameSite=Strict"

/-- The pix cookie can be set to what may stand in a header exactly when its name may. -/
theorem pixCookieHeader_eq {g : Gateway} {token : Bytes}
    (htoken : ∀ b ∈ token, Header.isAllowed b = true) (maxAge : Int) :
    g.pixCookieHeader token maxAge =
      if g.CookieNameAllowed then .ok (g.pixCookieText token maxAge)
      else .error (.internal .badCookie) := by
  have hage : ∀ b ∈ Decimal.integer maxAge, Header.isAllowed b = true := fun b hb =>
    Header.isAllowed_of_isVisible (Decimal.isVisible_of_mem_integer hb)
  have hall : (g.pixCookieText token maxAge).all Header.isAllowed = true ↔
      g.CookieNameAllowed := by
    have hpath : ∀ b ∈ Bytes.ofText "; Path=/pix/; Max-Age=", Header.isAllowed b = true := by
      decide +kernel
    have hrest : ∀ b ∈ Bytes.ofText "; HttpOnly; SameSite=Strict", Header.isAllowed b = true := by
      decide +kernel
    have hequals : Header.isAllowed 61 = true := rfl
    unfold pixCookieText CookieNameAllowed
    simp only [List.all_eq_true, List.mem_append, List.mem_cons]
    constructor
    · intro h b hb
      exact h b (.inl (.inl (.inl (.inl hb))))
    · rintro hname b ((((hb | rfl | hb) | hb) | hb) | hb)
      · exact hname b hb
      · exact hequals
      · exact htoken b hb
      · exact hpath b hb
      · exact hage b hb
      · exact hrest b hb
  unfold pixCookieHeader
  exact if_congr hall rfl rfl

end Gateway

end PicBoard
