import Mathlib.Tactic
import PicBoard.PixTree
import PicBoard.Proofs.GlyphNumber.Inverse

/-!
# Names of pics and thumbnails

A name is read as exactly the id's text, but for look-alikes, the mark if it is a thumbnail's, a
dot and an extension (`parse_eq_ok_iff`).  The text of an id ends where its first glyph says, so a
mark is never taken for a part of it, nor a part of it for the mark.
-/

namespace PicBoard

/-- What stands between the id and the dot. -/
def PixTree.mark (thumbnail : Bool) : Bytes := if thumbnail then [thumbnailMark] else []

namespace PixName

/-! ## Extensions -/

/-- One or more letters and digits. -/
def IsExtension (ext : Bytes) : Prop := ext ≠ [] ∧ ∀ b ∈ ext, isAlphanumeric b = true

instance (ext : Bytes) : Decidable (IsExtension ext) := inferInstanceAs (Decidable (_ ∧ _))

/-- A digit or a small letter. -/
def IsSmall (b : UInt8) : Prop := 48 ≤ b.toNat ∧ b.toNat ≤ 57 ∨ 97 ≤ b.toNat ∧ b.toNat ≤ 122

/-- A capital letter. -/
def IsCapital (b : UInt8) : Prop := 65 ≤ b.toNat ∧ b.toNat ≤ 90

instance (b : UInt8) : Decidable (IsCapital b) := inferInstanceAs (Decidable (_ ∧ _))

theorem isAlphanumeric_iff {b : UInt8} :
    isAlphanumeric b = true ↔ IsSmall b ∨ IsCapital b := by
  simp only [isAlphanumeric, IsSmall, IsCapital, Bool.or_eq_true, Bool.and_eq_true,
    decide_eq_true_iff]
  omega

theorem toNat_lowerByte (b : UInt8) :
    (lowerByte b).toNat = if IsCapital b then b.toNat + 32 else b.toNat := by
  have hstep : (32 : UInt8).toNat = 32 := rfl
  by_cases h : IsCapital b
  · have hsum : b.toNat + (32 : UInt8).toNat < 2 ^ 8 := by
      have hlast : b.toNat ≤ 90 := h.2
      omega
    have hlower : lowerByte b = b + 32 := if_pos h
    rw [hlower, if_pos h, UInt8.toNat_add, Nat.mod_eq_of_lt hsum, hstep]
  · have hlower : lowerByte b = b := if_neg h
    rw [hlower, if_neg h]

theorem isSmall_lowerByte {b : UInt8} (h : isAlphanumeric b = true) : IsSmall (lowerByte b) := by
  have hlower := toNat_lowerByte b
  rcases isAlphanumeric_iff.mp h with hsmall | hcapital
  · have hnot : ¬ IsCapital b := by
      unfold IsSmall IsCapital at *
      omega
    rw [if_neg hnot] at hlower
    unfold IsSmall
    rwa [hlower]
  · rw [if_pos hcapital] at hlower
    unfold IsSmall IsCapital at *
    omega

/-- A small letter for each capital one makes an extension of an extension. -/
theorem IsExtension.lower {ext : Bytes} (h : IsExtension ext) :
    IsExtension (ext.map lowerByte) := by
  constructor
  · intro hnil
    exact h.1 (List.map_eq_nil_iff.mp hnil)
  · intro b hb
    rcases List.mem_map.mp hb with ⟨c, hc, rfl⟩
    exact isAlphanumeric_iff.mpr (Or.inl (isSmall_lowerByte (h.2 c hc)))

/-- What has no capital letters is kept as it is. -/
theorem map_lowerByte_eq_iff {ext : Bytes} :
    ext.map lowerByte = ext ↔ ∀ b ∈ ext, ¬ IsCapital b := by
  have hbyte : ∀ b, lowerByte b = b ↔ ¬ IsCapital b := by
    intro b
    rw [← UInt8.toNat_inj, toNat_lowerByte]
    split
    · rename_i h
      simp [h]
    · rename_i h
      simp [h]
  constructor
  · intro h b hb
    rw [← hbyte]
    exact List.map_inj_left.mp (h.trans (List.map_id ext).symm) b hb
  · intro h
    have hsame : ∀ b ∈ ext, lowerByte b = id b := fun b hb => (hbyte b).mpr (h b hb)
    rw [List.map_congr_left hsame, List.map_id]

theorem dot_not_mem {ext : Bytes} (h : IsExtension ext) : PixTree.dot ∉ ext := by
  intro hdot
  exact absurd (h.2 _ hdot) (by decide)

/-! ## The last dot -/

theorem splitLastDot_eq_none_iff {s : Bytes} : splitLastDot s = none ↔ PixTree.dot ∉ s := by
  induction s with
  | nil => simp [splitLastDot]
  | cons b rest ih =>
    unfold splitLastDot
    cases hrest : splitLastDot rest with
    | some parts =>
      have hmem : PixTree.dot ∈ rest := by
        by_contra hnot
        rw [ih.mpr hnot] at hrest
        cases hrest
      simp [hmem]
    | none =>
      have hmem : PixTree.dot ∉ rest := ih.mp hrest
      by_cases hb : b = PixTree.dot
      · simp [hb]
      · simp [hb, hmem, Ne.symm hb]

/-- The dot that splits a string is the one after which there is no other. -/
theorem splitLastDot_eq_some_iff {s stem ext : Bytes} :
    splitLastDot s = some (stem, ext) ↔ s = stem ++ PixTree.dot :: ext ∧ PixTree.dot ∉ ext := by
  induction s generalizing stem with
  | nil => simp [splitLastDot]
  | cons b rest ih =>
    unfold splitLastDot
    cases hrest : splitLastDot rest with
    | some parts =>
      rcases parts with ⟨front, last⟩
      have hmem : PixTree.dot ∈ rest := by
        by_contra hnot
        rw [splitLastDot_eq_none_iff.mpr hnot] at hrest
        cases hrest
      constructor
      · intro h
        cases h
        rcases ih.mp hrest with ⟨rfl, hlast⟩
        exact ⟨rfl, hlast⟩
      · rintro ⟨hs, hext⟩
        cases stem with
        | nil =>
          -- there is a dot in what follows the first byte, so this is not the last dot
          rcases List.cons.inj hs with ⟨-, rfl⟩
          exact absurd hmem hext
        | cons c stem =>
          rcases List.cons.inj hs with ⟨rfl, hrest'⟩
          have hsplit := ih.mpr ⟨hrest', hext⟩
          rw [hrest] at hsplit
          cases hsplit
          rfl
    | none =>
      have hmem : PixTree.dot ∉ rest := splitLastDot_eq_none_iff.mp hrest
      constructor
      · intro h
        dsimp only at h
        split at h
        · rename_i hb
          cases h
          exact ⟨by rw [hb]; rfl, hmem⟩
        · cases h
      · rintro ⟨hs, -⟩
        cases stem with
        | nil =>
          rcases List.cons.inj hs with ⟨rfl, rfl⟩
          exact if_pos rfl
        | cons c stem =>
          rcases List.cons.inj hs with ⟨-, hrest'⟩
          rw [hrest'] at hmem
          exact absurd (List.mem_append_right _ List.mem_cons_self) hmem

/-! ## Names -/

/-- What is left behind an id: nothing, the mark, or something else, which no name has. -/
def readMark : Bytes → Except Error Bool
  | [] => .ok false
  | [b] => if b = PixTree.thumbnailMark then .ok true else .error .trailing
  | _ => .error .trailing

theorem readMark_eq_ok_iff {rest : Bytes} {thumbnail : Bool} :
    readMark rest = .ok thumbnail ↔ rest = PixTree.mark thumbnail := by
  unfold readMark PixTree.mark
  split
  · cases thumbnail <;> simp
  · rename_i b
    by_cases hb : b = PixTree.thumbnailMark
    · cases thumbnail <;> simp [hb]
    · cases thumbnail <;> simp [hb]
  · rename_i hnil hone
    cases thumbnail with
    | false => simpa using hnil
    | true => simpa using hone _

/-- A name is read from what stands before and after its last dot. -/
theorem parse_of_split {name stem ext : Bytes} (h : splitLastDot name = some (stem, ext)) :
    parse name =
      if stem = [] ∨ ext = [] then .error .missingExtension
      else if ext.all isAlphanumeric = false then .error .badExtension
      else
        match GlyphNumber.decode stem with
        | .error e => .error (.badId e)
        | .ok (picId, used) => (readMark (stem.drop used)).map fun thumbnail =>
            { picId, thumbnail, ext := ext.map lowerByte } := by
  unfold parse readMark
  simp only [h]
  split_ifs
  · rfl
  · rfl
  · cases GlyphNumber.decode stem with
    | error e => rfl
    | ok read =>
      dsimp only
      generalize stem.drop read.2 = rest
      rcases rest with _ | ⟨b, _ | ⟨c, rest⟩⟩
      · rfl
      · dsimp only
        split
        · rfl
        · rfl
      · rfl

/-- A name with a dot between a stem and an extension is read from its stem. -/
theorem parse_append_dot {stem ext : Bytes} (hext : IsExtension ext) (hstem : stem ≠ []) :
    parse (stem ++ PixTree.dot :: ext) =
      match GlyphNumber.decode stem with
      | .error e => .error (.badId e)
      | .ok (picId, used) => (readMark (stem.drop used)).map fun thumbnail =>
          { picId, thumbnail, ext := ext.map lowerByte } := by
  have hsome : ¬ (stem = [] ∨ ext = []) := by
    rintro (h | h)
    · exact hstem h
    · exact hext.1 h
  have hall : ¬ ext.all isAlphanumeric = false := by
    rw [Bool.not_eq_false]
    exact List.all_eq_true.mpr hext.2
  rw [parse_of_split (splitLastDot_eq_some_iff.mpr ⟨rfl, dot_not_mem hext⟩), if_neg hsome,
    if_neg hall]

/-- What is read as a name has a dot between a stem and an extension. -/
theorem exists_append_dot_of_parse {name : Bytes} {n : PixName} (h : parse name = .ok n) :
    ∃ stem ext, name = stem ++ PixTree.dot :: ext ∧ stem ≠ [] ∧ IsExtension ext := by
  unfold parse at h
  split at h
  · cases h
  · rename_i stem ext hsplit
    split_ifs at h with hempty hext
    rw [not_or] at hempty
    rw [Bool.not_eq_false, List.all_eq_true] at hext
    exact ⟨stem, ext, (splitLastDot_eq_some_iff.mp hsplit).1, hempty.1, hempty.2, hext⟩

/-- A name is read from exactly the id's text, but for look-alikes, the mark if it is a
thumbnail's, a dot and an extension, which is taken in small letters. -/
theorem parse_eq_ok_iff {name : Bytes} {n : PixName} :
    parse name = .ok n ↔ ∃ text ext,
      name = text ++ PixTree.mark n.thumbnail ++ PixTree.dot :: ext ∧
      text.map GlyphNumber.fold = GlyphNumber.encode n.picId ∧
      IsExtension ext ∧ n.ext = ext.map lowerByte := by
  constructor
  · intro h
    rcases exists_append_dot_of_parse h with ⟨stem, ext, rfl, hstem, hext⟩
    rw [parse_append_dot hext hstem] at h
    split at h
    · cases h
    · rename_i picId used hread
      cases hmark : readMark (stem.drop used) with
      | error e =>
        rw [hmark] at h
        cases h
      | ok thumbnail =>
        rw [hmark] at h
        cases h
        refine ⟨stem.take used, ext, ?_, (GlyphNumber.decode_eq_ok_iff.mp hread).2, hext, rfl⟩
        rw [← readMark_eq_ok_iff.mp hmark, List.take_append_drop]
  · rintro ⟨text, ext, rfl, htext, hext, hlower⟩
    have hread : GlyphNumber.decode (text ++ PixTree.mark n.thumbnail) =
        .ok (n.picId, text.length) := by
      apply GlyphNumber.decode_eq_ok_iff.mpr
      rw [List.take_left, List.length_append]
      exact ⟨Nat.le_add_right _ _, htext⟩
    have hstem : text ++ PixTree.mark n.thumbnail ≠ [] := by
      intro hnil
      rw [hnil] at hread
      cases hread
    rw [parse_append_dot hext hstem, hread]
    simp only [List.drop_left]
    rw [readMark_eq_ok_iff.mpr rfl, ← hlower]
    rfl

/-- The name of a file is read as what it was made of, its extension in small letters. -/
theorem parse_fileName (id : Int64) (thumbnail : Bool) {ext : Bytes} (h : IsExtension ext) :
    parse (PixTree.fileName id thumbnail ext) =
      .ok { picId := id, thumbnail, ext := ext.map lowerByte } :=
  parse_eq_ok_iff.mpr
    ⟨GlyphNumber.encode id, ext, rfl, GlyphNumber.map_fold_encode id, h, rfl⟩

/-- A mark and the last glyph of an id are told apart: the first name is that of a pic, the second
that of a thumbnail. -/
example :
    parse (Bytes.ofText "h0.png") =
        .ok { picId := 1, thumbnail := false, ext := Bytes.ofText "png" } ∧
      parse (Bytes.ofText "g0.PNG") =
        .ok { picId := 0, thumbnail := true, ext := Bytes.ofText "png" } := by
  decide +kernel

/-- What a name asks for has an extension of digits and small letters. -/
theorem extension_of_parse {name : Bytes} {n : PixName} (h : parse name = .ok n) :
    IsExtension n.ext ∧ ∀ b ∈ n.ext, IsSmall b := by
  rcases parse_eq_ok_iff.mp h with ⟨text, ext, -, -, hext, hlower⟩
  rw [hlower]
  refine ⟨hext.lower, ?_⟩
  intro b hb
  rcases List.mem_map.mp hb with ⟨c, hc, rfl⟩
  exact isSmall_lowerByte (hext.2 c hc)

end PixName

end PicBoard
