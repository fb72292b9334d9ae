import Mathlib.Tactic
import PicBoard.Text.Utf8

/-!
# Cutting bytes, and bytes as characters

`pieces_eq_iff`: the pieces of a byte string are the one list of strings without the separator
that, put together with it, give the string.  `ofText_toLatin1`: bytes below 128 are the bytes of
the characters they stand for.  `exists_textFrom?`: so behind such bytes any text may be cut.
-/

namespace PicBoard.Bytes

/-! ## Cutting -/

/-- Cutting into pieces is the library's splitting of lists. -/
theorem pieces_eq_splitOn (sep : UInt8) (b : Bytes) : pieces sep b = b.splitOn sep := by
  induction b with
  | nil => rfl
  | cons x rest ih =>
    rw [pieces, List.splitOn_cons_eq_if_modifyHead, ih]
    by_cases hx : x = sep
    · simp [hx]
    · obtain ⟨p, ps, hps⟩ := List.exists_cons_of_ne_nil (List.splitOn_ne_nil sep rest)
      simp [hx, hps]

/-- No piece holds the separator. -/
theorem not_mem_of_mem_pieces {sep : UInt8} {b p : Bytes} (h : p ∈ pieces sep b) : sep ∉ p := by
  induction b generalizing p with
  | nil =>
    have hp : p = [] := by simpa [pieces] using h
    simp [hp]
  | cons x rest ih =>
    unfold pieces at h
    split at h
    · rcases List.mem_cons.mp h with rfl | h
      · simp
      · exact ih h
    · rename_i hx
      split at h
      · have hp : p = [x] := by simpa using h
        simpa [hp] using fun e => hx e.symm
      · -- the byte goes in front of the first piece of the rest
        rename_i q qs hq
        rcases List.mem_cons.mp h with rfl | h
        · have hq' : sep ∉ q := ih (by simp [hq])
          simpa [hq'] using fun e => hx e.symm
        · exact ih (by simp [hq, h])

/-- The pieces are those strings without the separator that give the whole when it is put
between them. -/
theorem pieces_eq_iff {sep : UInt8} {b : Bytes} {ps : List Bytes} :
    pieces sep b = ps ↔ ps ≠ [] ∧ (∀ p ∈ ps, sep ∉ p) ∧ [sep].intercalate ps = b := by
  constructor
  · rintro rfl
    refine ⟨?_, fun p hp => not_mem_of_mem_pieces hp, ?_⟩
    · rw [pieces_eq_splitOn]
      exact List.splitOn_ne_nil sep b
    · rw [pieces_eq_splitOn, List.intercalate_splitOn]
  · rintro ⟨hne, hmem, rfl⟩
    rw [pieces_eq_splitOn, List.splitOn_intercalate sep hmem hne]

/-- A string has exactly three pieces when it holds the separator twice. -/
theorem pieces_eq_three_iff {sep : UInt8} {b p q r : Bytes} :
    pieces sep b = [p, q, r] ↔
      b = p ++ sep :: q ++ sep :: r ∧ sep ∉ p ∧ sep ∉ q ∧ sep ∉ r := by
  rw [pieces_eq_iff]
  constructor
  · rintro ⟨-, hmem, rfl⟩
    refine ⟨by simp, hmem p (by simp), hmem q (by simp), hmem r (by simp)⟩
  · rintro ⟨rfl, hp, hq, hr⟩
    refine ⟨by simp, ?_, by simp⟩
    intro s hs
    simp only [List.mem_cons, List.not_mem_nil, or_false] at hs
    rcases hs with rfl | rfl | rfl
    · exact hp
    · exact hq
    · exact hr

/-! ## Bytes as characters -/

/-- A character below 128 is one byte. -/
theorem utf8EncodeChar_ofNat {n : Nat} (h : n < 128) :
    String.utf8EncodeChar (Char.ofNat n) = [UInt8.ofNat n] := by
  have hall : ∀ k : Fin 128, String.utf8EncodeChar (Char.ofNat k) = [UInt8.ofNat k] := by decide
  exact hall ⟨n, h⟩

/-- Any other character is bytes from 128 on. -/
theorem utf8EncodeChar_ge {c : Char} (h : 128 ≤ c.toNat) :
    ∀ b ∈ String.utf8EncodeChar c, 128 ≤ b.toNat := by
  intro b hb
  have hc : c.val.toNat = c.toNat := rfl
  unfold String.utf8EncodeChar at hb
  rw [hc] at hb
  dsimp only at hb
  split_ifs at hb
  · omega
  all_goals
    simp only [List.mem_cons, List.not_mem_nil, or_false] at hb
    rcases hb with rfl | rfl | rfl | rfl <;> simp <;> omega

theorem ofText_eq_flatMap (s : String) : ofText s = s.toList.flatMap String.utf8EncodeChar := by
  rw [ofText, ← String.utf8Encode_toList, List.utf8Encode]
  simp

theorem utf8EncodeChar_of_lt {c : Char} (h : c.toNat < 128) :
    String.utf8EncodeChar c = [UInt8.ofNat c.toNat] := by
  rw [← utf8EncodeChar_ofNat h, Char.ofNat_toNat]

/-- A character below 128 is in a text when its byte is. -/
theorem mem_ofText_iff {c : Char} (hc : c.toNat < 128) {s : String} :
    UInt8.ofNat c.toNat ∈ ofText s ↔ c ∈ s.toList := by
  rw [ofText_eq_flatMap, List.mem_flatMap]
  constructor
  · rintro ⟨d, hd, hb⟩
    have hbyte : (UInt8.ofNat c.toNat).toNat = c.toNat := by
      rw [UInt8.toNat_ofNat']
      omega
    by_cases hlt : d.toNat < 128
    · rw [utf8EncodeChar_of_lt hlt, List.mem_singleton, ← UInt8.toNat_inj, hbyte,
        UInt8.toNat_ofNat', Nat.mod_eq_of_lt (by omega)] at hb
      rwa [Char.ext (UInt32.toNat_inj.mp hb)]
    · -- a byte of another character is at least 128
      have hge := utf8EncodeChar_ge (not_lt.mp hlt) _ hb
      omega
  · intro h
    exact ⟨c, h, by rw [utf8EncodeChar_of_lt hc]; exact List.mem_singleton_self _⟩

/-- Changing characters below 128 into such characters is changing their bytes. -/
theorem utf8EncodeChar_map {f : Char → Char} {g : UInt8 → UInt8}
    (hlow : ∀ k : Fin 128, String.utf8EncodeChar (f (Char.ofNat k)) =
      (String.utf8EncodeChar (Char.ofNat k)).map g)
    (hchar : ∀ c : Char, 128 ≤ c.toNat → f c = c) (hbyte : ∀ b : UInt8, 128 ≤ b.toNat → g b = b)
    (c : Char) : String.utf8EncodeChar (f c) = (String.utf8EncodeChar c).map g := by
  by_cases hc : c.toNat < 128
  · have h := hlow ⟨c.toNat, hc⟩
    rwa [Char.ofNat_toNat] at h
  · have hbytes : ∀ b ∈ String.utf8EncodeChar c, g b = b :=
      fun b hb => hbyte b (utf8EncodeChar_ge (not_lt.mp hc) b hb)
    rw [hchar c (not_lt.mp hc), List.map_congr_left hbytes, List.map_id']

/-- Bytes below 128 are the bytes of the characters they stand for. -/
theorem ofText_toLatin1 {b : Bytes} (h : ∀ x ∈ b, x.toNat < 128) : ofText b.toLatin1 = b := by
  have hbytes : ∀ c : Bytes, (∀ x ∈ c, x.toNat < 128) →
      (c.map fun x => Char.ofNat x.toNat).flatMap String.utf8EncodeChar = c := by
    intro c
    induction c with
    | nil => intro _; rfl
    | cons x rest ih =>
      intro hc
      have hx := utf8EncodeChar_ofNat (hc x (by simp))
      have hrest := ih (fun y hy => hc y (by simp [hy]))
      rw [List.map_cons, List.flatMap_cons, hx, hrest, UInt8.ofNat_toNat]
      rfl
  unfold ofText toLatin1
  rw [String.toByteArray_ofList, List.utf8Encode, hbytes b h]
  simp

/-- A text has bytes below 128 exactly when its characters are those that they stand for. -/
theorem ofText_eq_iff {s : String} {b : Bytes} (h : ∀ x ∈ b, x.toNat < 128) :
    ofText s = b ↔ s.toList = b.map fun x => Char.ofNat x.toNat := by
  have hchars : b.toLatin1.toList = b.map fun x => Char.ofNat x.toNat := String.toList_ofList
  rw [← hchars, String.toList_inj, ← ofText_inj, ofText_toLatin1 h]

/-! ## Texts cut at a byte -/

/-- The text from its `n`-th byte on, unless it has fewer bytes or that byte is inside a
character. -/
def textFrom? (s : String) (n : Nat) : Option String :=
  if h : (⟨n⟩ : String.Pos.Raw).IsValid s then some (s.sliceFrom (s.pos ⟨n⟩ h)).copy else none

theorem ofText_textFrom? {s t : String} {n : Nat} (h : textFrom? s n = some t) :
    ofText t = (ofText s).drop n := by
  unfold textFrom? at h
  split at h
  · rename_i hvalid
    cases h
    have hwhole :
        (s.sliceTo (s.pos ⟨n⟩ hvalid)).copy ++ (s.sliceFrom (s.pos ⟨n⟩ hvalid)).copy = s :=
      String.sliceTo_append_sliceFrom
    have hfront : (ofText (s.sliceTo (s.pos ⟨n⟩ hvalid)).copy).length = n := by
      simp [ofText]
    have hbytes := congrArg ofText hwhole
    rw [ofText_append] at hbytes
    rw [← hbytes, List.drop_left' hfront]
  · cases h

/-- A text may be cut behind bytes below 128, for they are characters of their own. -/
theorem exists_textFrom? {s : String} {n : Nat} (hn : n ≤ (ofText s).length)
    (hascii : ∀ b ∈ (ofText s).take n, b.toNat < 128) : ∃ t, textFrom? s n = some t := by
  have hfront : s.toByteArray.extract 0 n = (toLatin1 ((ofText s).take n)).toByteArray := by
    apply ByteArray.ext
    apply Array.toList_inj.mp
    have hback : ofText (toLatin1 ((ofText s).take n)) = (ofText s).take n := ofText_toLatin1 hascii
    unfold ofText at hback ⊢
    rw [hback, ByteArray.data_extract, Array.toList_extract]
    simp
  have hvalid : (⟨n⟩ : String.Pos.Raw).IsValid s := by
    rw [String.Pos.Raw.isValid_iff_isValidUTF8_extract_zero]
    constructor
    · simpa [String.Pos.Raw.le_iff, ofText] using hn
    · rw [hfront]
      exact String.isValidUTF8 _
  exact ⟨_, dif_pos hvalid⟩

end PicBoard.Bytes
