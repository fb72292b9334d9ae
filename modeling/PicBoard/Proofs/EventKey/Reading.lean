import Mathlib.Tactic
import PicBoard.Proofs.EventKey.Order
import PicBoard.Proofs.GlyphNumber.Inverse
import PicBoard.Proofs.Outcome
import PicBoard.Proofs.Text.Bytes

/-!
# Event keys read back

The numbers of a key stand one after the other with nothing between them, and the last may be left
out.  A text is nevertheless read as one key only, and as that key exactly when it is the key's
text or goes on with a zero that the key leaves out (`decode_eq_ok_iff`).  A reader that cuts the
text behind each number never cuts a character apart (`ofTextCut?_eq`).
-/

namespace PicBoard.EventKey

open GlyphNumber (fold foldText ofText_foldText textFrom?_of_decode)

/-! ## The index -/

/-- The index at the end of a key, which is zero when nothing is left. -/
def readIndex (rest : Bytes) : Except GlyphNumber.Error Int64 :=
  if rest = [] then .ok 0 else GlyphNumber.decodeAll rest

/-- An index is read from its text, and zero also from the glyph that stands for it. -/
theorem readIndex_eq_ok_iff {rest : Bytes} {index : Int64} :
    readIndex rest = .ok index ↔
      rest.map fold = indexText index ∨ index = 0 ∧ rest.map fold = Bytes.ofText "g" := by
  have hzero : GlyphNumber.encode 0 = Bytes.ofText "g" := by decide +kernel
  unfold readIndex indexText
  by_cases hrest : rest = []
  · rw [if_pos hrest, hrest]
    constructor
    · intro h
      cases h
      exact Or.inl rfl
    · rintro (h | ⟨rfl, -⟩)
      · split at h
        · rename_i hindex
          rw [hindex]
        · exact absurd h.symm (List.cons_ne_nil _ _)
      · rfl
  · rw [if_neg hrest, GlyphNumber.decodeAll_eq_ok_iff]
    by_cases hindex : index = 0
    · rw [if_pos hindex, hindex, hzero]
      simp [hrest]
    · rw [if_neg hindex]
      simp [hindex]

/-! ## Keys -/

/-- A key is read as a number, another number and an index. -/
theorem decode_eq (s : Bytes) :
    decode s = do
      let (userId, n) ← GlyphNumber.decode s
      let (createdTs, m) ← GlyphNumber.decode (s.drop n)
      let index ← readIndex ((s.drop n).drop m)
      return { userId, createdTs, index } := by
  unfold decode readIndex
  apply bind_congr
  rintro ⟨userId, n⟩
  apply bind_congr
  rintro ⟨createdTs, m⟩
  by_cases hrest : (s.drop n).drop m = []
  · simp only [if_pos hrest]
  · simp only [if_neg hrest]

theorem decode_eq_ok_iff_parts {s : Bytes} {k : EventKey} :
    decode s = .ok k ↔
      ∃ n m, GlyphNumber.decode s = .ok (k.userId, n) ∧
        GlyphNumber.decode (s.drop n) = .ok (k.createdTs, m) ∧
        readIndex ((s.drop n).drop m) = .ok k.index := by
  rw [decode_eq, bind_eq_ok_iff]
  constructor
  · rintro ⟨⟨userId, n⟩, huser, h⟩
    rcases bind_eq_ok_iff.mp h with ⟨⟨createdTs, m⟩, hcreated, h⟩
    rcases bind_eq_ok_iff.mp h with ⟨index, hindex, h⟩
    cases h
    exact ⟨n, m, huser, hcreated, hindex⟩
  · rintro ⟨n, m, huser, hcreated, hindex⟩
    refine ⟨_, huser, bind_eq_ok_iff.mpr ⟨_, hcreated, bind_eq_ok_iff.mpr ⟨_, hindex, rfl⟩⟩⟩

/-- A key is read from its two numbers and what its index is read from. -/
theorem decode_of_map_fold {s tail : Bytes} {k : EventKey}
    (htext : s.map fold =
      GlyphNumber.encode k.userId ++ (GlyphNumber.encode k.createdTs ++ tail))
    (htail : tail = indexText k.index ∨ k.index = 0 ∧ tail = Bytes.ofText "g") :
    decode s = .ok k := by
  -- where each number ends is seen once the look-alikes are gone
  have huser : GlyphNumber.decode s = .ok (k.userId, (GlyphNumber.encode k.userId).length) := by
    rw [← GlyphNumber.decode_map_fold, htext, GlyphNumber.decode_encode_append]
  have hrest : (s.drop (GlyphNumber.encode k.userId).length).map fold =
      GlyphNumber.encode k.createdTs ++ tail := by
    rw [List.map_drop, htext, List.drop_left]
  have hcreated : GlyphNumber.decode (s.drop (GlyphNumber.encode k.userId).length) =
      .ok (k.createdTs, (GlyphNumber.encode k.createdTs).length) := by
    rw [← GlyphNumber.decode_map_fold, hrest, GlyphNumber.decode_encode_append]
  apply decode_eq_ok_iff_parts.mpr
  refine ⟨_, _, huser, hcreated, ?_⟩
  rw [readIndex_eq_ok_iff, List.map_drop, hrest, List.drop_left]
  exact htail

/-- A key is read from its text, and from its text with a zero behind that the key leaves out. -/
theorem decode_eq_ok_iff {s : Bytes} {k : EventKey} :
    decode s = .ok k ↔
      s.map fold = k.encode ∨ k.index = 0 ∧ s.map fold = k.encode ++ Bytes.ofText "g" := by
  have hzero : k.index = 0 → k.encode ++ Bytes.ofText "g" =
      GlyphNumber.encode k.userId ++ (GlyphNumber.encode k.createdTs ++ Bytes.ofText "g") := by
    intro hindex
    rw [encode_eq, indexText, if_pos hindex, List.append_nil, List.append_assoc]
  constructor
  · intro h
    rcases decode_eq_ok_iff_parts.mp h with ⟨n, m, huser, hcreated, hindex⟩
    rw [GlyphNumber.map_fold_of_decode huser, GlyphNumber.map_fold_of_decode hcreated]
    rcases readIndex_eq_ok_iff.mp hindex with htail | ⟨hindex, htail⟩
    · left
      rw [htail, encode_eq]
    · right
      rw [htail, hzero hindex]
      exact ⟨hindex, rfl⟩
  · rintro (htext | ⟨hindex, htext⟩)
    · rw [encode_eq] at htext
      exact decode_of_map_fold htext (Or.inl rfl)
    · rw [hzero hindex] at htext
      exact decode_of_map_fold htext (Or.inr ⟨hindex, rfl⟩)

/-! ## Texts -/

theorem encode_ascii {k : EventKey} {b : UInt8} (h : b ∈ k.encode) : b.toNat < 128 := by
  rw [encode_eq, indexText, List.mem_append, List.mem_append] at h
  rcases h with h | h | h
  · exact GlyphNumber.encode_ascii h
  · exact GlyphNumber.encode_ascii h
  · split at h
    · cases h
    · exact GlyphNumber.encode_ascii h

theorem ofText_bytes_text (k : EventKey) : Bytes.ofText k.text = k.encode :=
  Bytes.ofText_toLatin1 fun _ => encode_ascii

theorem map_fold_encode (k : EventKey) : k.encode.map fold = k.encode := by
  have hindex : (indexText k.index).map fold = indexText k.index := by
    unfold indexText
    split
    · rfl
    · exact GlyphNumber.map_fold_encode _
  rw [encode_eq, List.map_append, List.map_append, GlyphNumber.map_fold_encode,
    GlyphNumber.map_fold_encode, hindex]

theorem ofText_text (k : EventKey) : ofText k.text = .ok k := by
  rw [ofText, ofText_bytes_text]
  exact decode_eq_ok_iff.mpr (Or.inl (map_fold_encode k))

/-- A key is read from its text, and from its text with a zero behind that the key leaves out. -/
theorem ofText_eq_ok_iff {s : String} {k : EventKey} :
    ofText s = .ok k ↔
      foldText s = k.text ∨ k.index = 0 ∧ foldText s = k.text ++ "g" := by
  rw [ofText, decode_eq_ok_iff, ← ofText_foldText, ← ofText_bytes_text, ← Bytes.ofText_append,
    Bytes.ofText_inj, Bytes.ofText_inj]

theorem text_injective : Function.Injective text := by
  intro x y h
  have hx := ofText_text x
  rw [h, ofText_text y] at hx
  exact (Except.ok.inj hx).symm

/-! ## Texts cut at bytes -/

/-- Reads a key from a text that is cut behind each number.  There is no outcome when it is cut
inside a character or behind its end. -/
def ofTextCut? (s : String) : Option (Except GlyphNumber.Error EventKey) :=
  match GlyphNumber.decode (Bytes.ofText s) with
  | .error e => some (.error e)
  | .ok (userId, n) => do
    let s ← Bytes.textFrom? s n
    match GlyphNumber.decode (Bytes.ofText s) with
    | .error e => return .error e
    | .ok (createdTs, m) =>
      let s ← Bytes.textFrom? s m
      let index := if s.isEmpty then .ok 0 else GlyphNumber.ofText s
      return index.map fun index => { userId, createdTs, index }

/-- A text is empty when it has no bytes. -/
theorem readIndex_bytes (s : String) :
    readIndex (Bytes.ofText s) = if s.isEmpty then .ok 0 else GlyphNumber.ofText s := by
  have hempty : Bytes.ofText s = [] ↔ s.isEmpty := by
    rw [← Bytes.ofText_empty, Bytes.ofText_inj, String.isEmpty_iff]
  unfold readIndex GlyphNumber.ofText
  by_cases hs : s.isEmpty
  · rw [if_pos hs, if_pos (hempty.mpr hs)]
  · rw [if_neg hs, if_neg (mt hempty.mp hs)]

/-- No character is cut apart. -/
theorem ofTextCut?_eq (s : String) : ofTextCut? s = some (ofText s) := by
  unfold ofTextCut? ofText
  rw [decode_eq]
  cases huser : GlyphNumber.decode (Bytes.ofText s) with
  | error e => rfl
  | ok read =>
    rcases read with ⟨userId, n⟩
    rcases textFrom?_of_decode huser with ⟨t, ht, htbytes⟩
    simp only [ht, htbytes, Option.bind_eq_bind, Option.bind_some, ok_bind]
    cases hcreated : GlyphNumber.decode ((Bytes.ofText s).drop n) with
    | error e => rfl
    | ok read =>
      rcases read with ⟨createdTs, m⟩
      rw [← htbytes] at hcreated
      rcases textFrom?_of_decode hcreated with ⟨u, hu, hubytes⟩
      simp only [hu, Option.bind_some, ok_bind]
      rw [htbytes] at hubytes
      rw [← hubytes, readIndex_bytes]
      cases (if u.isEmpty then .ok 0 else GlyphNumber.ofText u) <;> rfl

/-- A key is read from exactly its text and, when its index is zero, its text with a zero behind,
but for look-alikes.  So every key is read back, no two have one text, and the places where a text
is cut to read it are in the text and between its characters. -/
theorem key_texts_read_back :
    (∀ (s : String) (k : EventKey),
      ofText s = .ok k ↔
        foldText s = k.text ∨ k.index = 0 ∧ foldText s = k.text ++ "g") ∧
    (∀ k : EventKey, ofText k.text = .ok k) ∧
    Function.Injective text ∧
    ∀ s : String, ofTextCut? s = some (ofText s) :=
  ⟨fun _ _ => ofText_eq_ok_iff, ofText_text, text_injective, ofTextCut?_eq⟩

end PicBoard.EventKey
