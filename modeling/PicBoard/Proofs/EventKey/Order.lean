import Mathlib.Data.Prod.Lex
import Mathlib.Tactic
import PicBoard.EventKey
import PicBoard.Proofs.GlyphNumber.Order

/-!
# Event keys sort by user, time and index

Keys compare as their numbers do, user first, though an index of zero is left out of the text
(`encode_lt_encode_iff`).  In a list that is in the order of the texts the keys of a user therefore
stand together, in the order of time.
-/

namespace PicBoard.EventKey

/-! ## Two keys -/

/-- The text of a key's index, which is left out when it is zero. -/
def indexText (index : Int64) : Bytes := if index = 0 then [] else GlyphNumber.encode index

theorem encode_eq (k : EventKey) :
    k.encode =
      GlyphNumber.encode k.userId ++ (GlyphNumber.encode k.createdTs ++ indexText k.index) :=
  List.append_assoc _ _ _

/-- The place of a key among others: its numbers without sign, user before time before index. -/
def rank (k : EventKey) : Nat ×ₗ Nat ×ₗ Nat :=
  toLex (k.userId.toUInt64.toNat, toLex (k.createdTs.toUInt64.toNat, k.index.toUInt64.toNat))

/-- Numbers that are the same without sign are the same. -/
theorem toNat_inj {a b : Int64} : a.toUInt64.toNat = b.toUInt64.toNat ↔ a = b := by
  constructor
  · intro h
    have hback := congrArg UInt64.toInt64 (UInt64.toNat_inj.mp h)
    rwa [Int64.toInt64_toUInt64, Int64.toInt64_toUInt64] at hback
  · rintro rfl
    rfl

/-- Leaving a zero out puts it before all others. -/
theorem indexText_lt_iff (i j : Int64) :
    indexText i < indexText j ↔ i.toUInt64.toNat < j.toUInt64.toNat := by
  have hzero : (0 : Int64).toUInt64.toNat = 0 := by decide
  have hpos : ∀ k : Int64, k ≠ 0 → 0 < k.toUInt64.toNat := by
    intro k hk
    apply Nat.pos_of_ne_zero
    rw [← hzero]
    exact mt toNat_inj.mp hk
  unfold indexText
  by_cases hi : i = 0
  · by_cases hj : j = 0
    · simp [hi, hj]
    · have hnext := hpos j hj
      rw [if_pos hi, if_neg hj, hi, hzero, GlyphNumber.encode, GlyphNumber.encodeNat]
      simp [hnext]
  · by_cases hj : j = 0
    · rw [if_neg hi, if_pos hj, hj, hzero]
      simp
    · rw [if_neg hi, if_neg hj, GlyphNumber.encode_lt_encode_iff, UInt64.lt_iff_toNat_lt]

/-- Keys compare as their numbers. -/
theorem encode_lt_encode_iff (x y : EventKey) : x.encode < y.encode ↔ x.rank < y.rank := by
  unfold rank
  rw [encode_eq, encode_eq, GlyphNumber.encode_append_lt_iff,
    GlyphNumber.encode_append_lt_iff, indexText_lt_iff, Prod.Lex.toLex_lt_toLex,
    Prod.Lex.toLex_lt_toLex, UInt64.lt_iff_toNat_lt, UInt64.lt_iff_toNat_lt, toNat_inj, toNat_inj]

theorem encode_le_encode_iff (x y : EventKey) : x.encode ≤ y.encode ↔ x.rank ≤ y.rank := by
  have hlt : y.encode < x.encode ↔ y.rank < x.rank := encode_lt_encode_iff y x
  rw [← not_lt, ← hlt]
  rfl

/-! ## Scans -/

section
variable {α β : Type} [LinearOrder β] (f : α → β)

/-- In a sorted list with nothing below `b`, what is at `b` is the start of the list. -/
theorem filter_prefix_of_sorted {b : β} {l : List α} (h : l.Pairwise fun x y => f x ≤ f y)
    (habove : ∀ x ∈ l, b ≤ f x) : l.filter (f · = b) <+: l := by
  induction l with
  | nil => simp
  | cons x l ih =>
    rcases List.pairwise_cons.mp h with ⟨hx, hl⟩
    have hb : b ≤ f x := habove x List.mem_cons_self
    by_cases hxb : f x = b
    · have hrest := ih hl fun y hy => habove y (List.mem_cons_of_mem _ hy)
      simpa [hxb] using hrest
    · -- above `b` nothing comes back to it
      have hnone : ∀ y ∈ x :: l, ¬ f y = b := by
        intro y hy
        rcases List.mem_cons.mp hy with rfl | hy
        · exact hxb
        · have hxy : f x ≤ f y := hx y hy
          intro hyb
          exact hxb (le_antisymm (hyb ▸ hxy) hb)
      rw [List.filter_eq_nil_iff.mpr (by simpa using hnone)]
      exact List.nil_prefix

/-- In a sorted list, what is at `b` stands together. -/
theorem filter_infix_of_sorted (b : β) {l : List α} (h : l.Pairwise fun x y => f x ≤ f y) :
    l.filter (f · = b) <:+: l := by
  induction l with
  | nil => simp
  | cons x l ih =>
    rcases List.pairwise_cons.mp h with ⟨hx, hl⟩
    rcases lt_or_ge (f x) b with hlt | hge
    · have hne : ¬ f x = b := hlt.ne
      rw [List.filter_cons_of_neg (by simpa using hne)]
      exact (ih hl).trans (List.suffix_cons x l).isInfix
    · apply List.IsPrefix.isInfix
      apply filter_prefix_of_sorted f h
      intro y hy
      rcases List.mem_cons.mp hy with rfl | hy
      · exact hge
      · exact hge.trans (hx y hy)

end

/-- In the order of the texts, the keys of a user stand together, in the order of time. -/
theorem scan_of_user {keys : List EventKey} (h : (keys.map encode).Pairwise (· ≤ ·))
    (userId : Int64) :
    keys.filter (·.userId = userId) <:+: keys ∧
      (keys.filter (·.userId = userId)).Pairwise
        fun x y => x.createdTs.toUInt64 ≤ y.createdTs.toUInt64 := by
  have hranks : keys.Pairwise fun x y => x.rank ≤ y.rank := by
    rw [List.pairwise_map] at h
    apply h.imp
    intro x y hxy
    exact (encode_le_encode_iff x y).mp hxy
  constructor
  · have husers : keys.Pairwise fun x y => x.userId.toUInt64.toNat ≤ y.userId.toUInt64.toNat := by
      apply hranks.imp
      intro x y hxy
      exact Prod.Lex.monotone_fst _ _ hxy
    have htogether := filter_infix_of_sorted (fun k : EventKey => k.userId.toUInt64.toNat)
      userId.toUInt64.toNat husers
    simpa only [toNat_inj] using htogether
  · rw [List.pairwise_filter]
    apply hranks.imp
    intro x y hxy hx hy
    have hsame : x.userId = y.userId := by
      rw [of_decide_eq_true hx, of_decide_eq_true hy]
    -- of one user's keys the rest of the rank decides
    rw [UInt64.le_iff_toNat_le]
    rcases Prod.Lex.toLex_le_toLex.mp hxy with hlt | ⟨-, hrest⟩
    · rw [hsame] at hlt
      exact absurd hlt (lt_irrefl _)
    · exact Prod.Lex.monotone_fst _ _ hrest

/-- Texts of numbers sort as the numbers do, read without sign, and texts of keys as their users,
then their times, then their indices.  So a list in the order of the texts has the keys of each user
in one place, in the order of time. -/
theorem texts_sort_as_numbers :
    (∀ a b : Int64,
      a.toUInt64 < b.toUInt64 ↔ GlyphNumber.encode a < GlyphNumber.encode b) ∧
    (∀ x y : EventKey, x.encode < y.encode ↔ x.rank < y.rank) ∧
    ∀ keys : List EventKey, (keys.map encode).Pairwise (· ≤ ·) → ∀ userId,
      keys.filter (·.userId = userId) <:+: keys ∧
        (keys.filter (·.userId = userId)).Pairwise
          fun x y => x.createdTs.toUInt64 ≤ y.createdTs.toUInt64 :=
  ⟨fun a b => (GlyphNumber.encode_lt_encode_iff a b).symm, encode_lt_encode_iff,
    fun _ hsorted => scan_of_user hsorted⟩

end PicBoard.EventKey
