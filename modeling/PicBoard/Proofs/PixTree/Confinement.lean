import Mathlib.Tactic
import PicBoard.Proofs.FileTree.Write
import PicBoard.Proofs.PixTree.Names

/-!
# Files of pics stay below the root and apart

From the root to a file of a pic go names of one glyph each and the name of the file, all of them
plain, so a name that a caller makes up leads nowhere but below the root.  A file's name has a dot
and the others have none, and a name tells its id, its mark and its extension; so the names of one
file never lead to or through another (`below_prefix_iff`).
-/

namespace PicBoard

open FileTree (IsPlain names components)
open PixName (IsExtension IsSmall isAlphanumeric)

namespace GlyphNumber

theorem isSmall_of_mem_alphabet {b : UInt8} (h : b ∈ alphabet) : IsSmall b := by
  have hall : ∀ g ∈ alphabet, isAlphanumeric g = true ∧ PixName.lowerByte g = g := by
    decide +kernel
  rcases hall b h with ⟨halpha, hlower⟩
  rw [← hlower]
  exact PixName.isSmall_lowerByte halpha

end GlyphNumber

namespace PixTree

/-! ## The names below the root -/

/-- The names that lead from a root to the file that a name asks for. -/
def below (n : PixName) : List Bytes := shards n.picId ++ [fileName n.picId n.thumbnail n.ext]

theorem path_eq_foldl_join (root : Bytes) (n : PixName) :
    n.path root = (below n).foldl join root := by
  rw [below, List.foldl_append]
  rfl

theorem below_ne_nil (n : PixName) : below n ≠ [] :=
  List.append_ne_nil_of_right_ne_nil _ (List.cons_ne_nil _ _)

theorem exists_glyph_of_mem_shards {id : Int64} {c : Bytes} (h : c ∈ shards id) :
    ∃ g ∈ GlyphNumber.alphabet, c = [g] := by
  rcases List.mem_map.mp h with ⟨g, hg, rfl⟩
  exact ⟨g, GlyphNumber.mem_alphabet_of_mem_encode (List.mem_of_mem_dropLast hg), rfl⟩

/-- What stands before the dot is glyphs, for the mark is one too. -/
theorem mem_alphabet_of_mem_stem {id : Int64} {thumbnail : Bool} {b : UInt8}
    (h : b ∈ GlyphNumber.encode id ++ mark thumbnail) : b ∈ GlyphNumber.alphabet := by
  have hmark : thumbnailMark ∈ GlyphNumber.alphabet := by decide +kernel
  rcases List.mem_append.mp h with h | h
  · exact GlyphNumber.mem_alphabet_of_mem_encode h
  · cases thumbnail with
    | false => cases h
    | true =>
      rw [List.mem_singleton.mp h]
      exact hmark

theorem stem_ne_nil (id : Int64) (thumbnail : Bool) :
    GlyphNumber.encode id ++ mark thumbnail ≠ [] :=
  List.append_ne_nil_of_left_ne_nil (List.cons_ne_nil _ _) _

/-! ## Plain names -/

/-- No letter or digit is a dot, a separator or zero. -/
theorem ne_of_isAlphanumeric {b : UInt8} (h : isAlphanumeric b = true) :
    b ≠ dot ∧ b ≠ separator ∧ b ≠ 0 := by
  refine ⟨?_, ?_, ?_⟩ <;> rintro rfl <;> exact absurd h (by decide)

theorem isPlain_glyph {g : UInt8} (h : g ∈ GlyphNumber.alphabet) : IsPlain [g] := by
  have hsmall := GlyphNumber.isSmall_of_mem_alphabet h
  rcases ne_of_isAlphanumeric (PixName.isAlphanumeric_iff.mpr (Or.inl hsmall)) with
    ⟨hdot, hseparator, hzero⟩
  refine ⟨List.cons_ne_nil _ _, ?_, ?_, ?_, ?_⟩
  · intro heq
    exact hdot (List.cons.inj heq).1
  · intro heq
    cases (List.cons.inj heq).2
  · simpa using Ne.symm hseparator
  · simpa using Ne.symm hzero

theorem isPlain_fileName (id : Int64) (thumbnail : Bool) {ext : Bytes} (h : IsExtension ext) :
    IsPlain (fileName id thumbnail ext) := by
  -- with something before the dot and something behind, the name is longer than two dots
  have hlength : 3 ≤ (fileName id thumbnail ext).length := by
    have hstem := List.length_pos_of_ne_nil (stem_ne_nil id thumbnail)
    have hext := List.length_pos_of_ne_nil h.1
    have hsum : (fileName id thumbnail ext).length =
        (GlyphNumber.encode id ++ mark thumbnail).length + (ext.length + 1) :=
      List.length_append
    omega
  have hbytes : ∀ b ∈ fileName id thumbnail ext, b ≠ separator ∧ b ≠ 0 := by
    intro b hb
    have hb : b ∈ GlyphNumber.encode id ++ mark thumbnail ++ dot :: ext := hb
    rcases List.mem_append.mp hb with hstem | htail
    · have hsmall := GlyphNumber.isSmall_of_mem_alphabet (mem_alphabet_of_mem_stem hstem)
      exact (ne_of_isAlphanumeric (PixName.isAlphanumeric_iff.mpr (Or.inl hsmall))).2
    · rcases List.mem_cons.mp htail with rfl | hext
      · decide
      · exact (ne_of_isAlphanumeric (h.2 b hext)).2
  refine ⟨?_, ?_, ?_, fun hb => (hbytes _ hb).1 rfl, fun hb => (hbytes _ hb).2 rfl⟩
  all_goals
    intro heq
    rw [heq] at hlength
    exact absurd hlength (by decide)

theorem isPlain_of_mem_below {n : PixName} (h : IsExtension n.ext) :
    ∀ c ∈ below n, IsPlain c := by
  intro c hc
  rcases List.mem_append.mp hc with hshard | hfile
  · rcases exists_glyph_of_mem_shards hshard with ⟨g, hg, rfl⟩
    exact isPlain_glyph hg
  · rw [List.mem_singleton.mp hfile]
    exact isPlain_fileName _ _ h

theorem components_path (root : Bytes) {n : PixName} (h : IsExtension n.ext) :
    components (n.path root) = names root ++ below n := by
  rw [path_eq_foldl_join]
  exact FileTree.components_foldl_join root (isPlain_of_mem_below h) (below_ne_nil n)

/-! ## Telling files apart -/

/-- The name of a file tells whose it is. -/
theorem eq_of_fileName_eq {a b : PixName} (ha : IsExtension a.ext) (hb : IsExtension b.ext)
    (h : fileName a.picId a.thumbnail a.ext = fileName b.picId b.thumbnail b.ext) : a = b := by
  have hparts := PixName.splitLastDot_eq_some_iff.mpr ⟨h, PixName.dot_not_mem hb⟩
  have hown : PixName.splitLastDot (fileName a.picId a.thumbnail a.ext) =
      some (GlyphNumber.encode a.picId ++ mark a.thumbnail, a.ext) :=
    PixName.splitLastDot_eq_some_iff.mpr ⟨rfl, PixName.dot_not_mem ha⟩
  rw [hown] at hparts
  rcases Prod.mk.inj (Option.some.inj hparts) with ⟨hstem, hext⟩
  -- the id at the front of the stem ends where its first glyph says
  have hid : a.picId = b.picId := by
    have hread := GlyphNumber.decode_encode_append a.picId (mark a.thumbnail)
    have hstem' : GlyphNumber.encode a.picId ++ mark a.thumbnail =
        GlyphNumber.encode b.picId ++ mark b.thumbnail := hstem
    rw [hstem', GlyphNumber.decode_encode_append] at hread
    exact (Prod.mk.inj (Except.ok.inj hread)).1.symm
  have hmark : a.thumbnail = b.thumbnail := by
    rw [hid] at hstem
    have hrest : mark a.thumbnail = mark b.thumbnail := List.append_cancel_left hstem
    have hsame := PixName.readMark_eq_ok_iff.mpr hrest
    rw [PixName.readMark_eq_ok_iff.mpr rfl] at hsame
    exact Except.ok.inj hsame
  rcases a with ⟨id, thumbnail, ext⟩
  rcases b with ⟨id', thumbnail', ext'⟩
  simp only at hid hmark hext
  rw [hid, hmark, hext]

/-- The names of one file do not lead to or through another. -/
theorem below_prefix_iff {a b : PixName} (ha : IsExtension a.ext) (hb : IsExtension b.ext) :
    below a <+: below b ↔ a = b := by
  constructor
  · intro h
    rcases List.prefix_concat_iff.mp h with heq | hdirs
    · have hlast := (List.append_inj' heq rfl).2
      exact eq_of_fileName_eq ha hb (List.cons.inj hlast).1
    · -- the name of the file, which has a dot, would be one glyph
      have hmem : fileName a.picId a.thumbnail a.ext ∈ shards b.picId :=
        hdirs.subset (List.mem_append_right _ List.mem_cons_self)
      rcases exists_glyph_of_mem_shards hmem with ⟨g, hg, hname⟩
      have hdot : dot ∈ fileName a.picId a.thumbnail a.ext :=
        List.mem_append_right _ List.mem_cons_self
      rw [hname, List.mem_singleton] at hdot
      rw [← hdot] at hg
      exact absurd hg (by decide +kernel)
  · rintro rfl
    exact List.prefix_refl _

theorem path_eq_iff (root : Bytes) {a b : PixName} (ha : IsExtension a.ext)
    (hb : IsExtension b.ext) : a.path root = b.path root ↔ a = b := by
  constructor
  · intro h
    have hnames := congrArg components h
    rw [components_path root ha, components_path root hb] at hnames
    rw [← below_prefix_iff ha hb, List.append_cancel_left hnames]
  · rintro rfl
    rfl

/-! ## Both together -/

/-- A path that goes from a root down by single glyphs to a file whose name is glyphs, a dot and an
extension of digits and small letters, and that leads nowhere but below where the root leads. -/
structure Confined (root path : Bytes) (dirs : List Bytes) (stem ext : Bytes) : Prop where
  path_eq : path = (dirs ++ [stem ++ dot :: ext]).foldl join root
  components_eq : components path = names root ++ (dirs ++ [stem ++ dot :: ext])
  dirs_glyphs : ∀ c ∈ dirs, ∃ g ∈ GlyphNumber.alphabet, c = [g]
  stem_ne_nil : stem ≠ []
  stem_glyphs : ∀ g ∈ stem, g ∈ GlyphNumber.alphabet
  ext_ne_nil : ext ≠ []
  ext_small : ∀ b ∈ ext, IsSmall b
  plain : ∀ c ∈ dirs ++ [stem ++ dot :: ext], IsPlain c
  leads_below : ∀ (t : FileTree) (place : Components), t.locate path = .ok place →
    ∃ base, t.follow (t.start root) (names root) = .ok base ∧
      place = base ++ (dirs ++ [stem ++ dot :: ext])

/-- Whatever name is asked for, its path is confined to the root. -/
theorem confined_of_parse {name : Bytes} {n : PixName} (h : PixName.parse name = .ok n)
    (root : Bytes) :
    Confined root (n.path root) (shards n.picId) (GlyphNumber.encode n.picId ++ mark n.thumbnail)
      n.ext := by
  rcases PixName.extension_of_parse h with ⟨hext, hsmall⟩
  exact {
    path_eq := path_eq_foldl_join root n
    components_eq := components_path root hext
    dirs_glyphs := fun _ => exists_glyph_of_mem_shards
    stem_ne_nil := stem_ne_nil n.picId n.thumbnail
    stem_glyphs := fun _ => mem_alphabet_of_mem_stem
    ext_ne_nil := hext.1
    ext_small := hsmall
    plain := isPlain_of_mem_below hext
    leads_below := by
      intro t place hlocate
      rw [path_eq_foldl_join] at hlocate
      exact FileTree.locate_foldl_join (isPlain_of_mem_below hext) (below_ne_nil n) hlocate }

/-- Every name that is accepted leads from the root down by single glyphs to a file below it.  And
of any two files, with whatever ids, marks and extensions, the path of one is not that of the other
and does not lead through it, so that writing the one leaves the other as it was. -/
theorem pic_files_confined_and_apart :
    (∀ (root name : Bytes) (n : PixName), PixName.parse name = .ok n →
      ∃ dirs stem, Confined root (n.path root) dirs stem n.ext) ∧
    ∀ (root : Bytes) (a b : PixName), IsExtension a.ext → IsExtension b.ext →
      (a.path root = b.path root ↔ a = b) ∧
      (components (a.path root) <+: components (b.path root) ↔ a = b) ∧
      ∀ (t t' : FileTree) (content : Bytes), a ≠ b → t.write? (a.path root) content = some t' →
        t'.read (b.path root) = t.read (b.path root) := by
  constructor
  · intro root name n h
    exact ⟨_, _, confined_of_parse h root⟩
  · intro root a b ha hb
    refine ⟨path_eq_iff root ha hb, ?_, ?_⟩
    · rw [components_path root ha, components_path root hb, List.prefix_append_right_inj]
      exact below_prefix_iff ha hb
    · intro t t' content hne h
      rw [path_eq_foldl_join] at h ⊢
      exact FileTree.read_of_write (isPlain_of_mem_below ha) (isPlain_of_mem_below hb)
        (below_ne_nil a) (below_ne_nil b) (mt (below_prefix_iff ha hb).mp hne) h

/-- A thumbnail's name with a look-alike and capital letters, under a root that ends with a
separator; and the pic whose id ends in the glyph of the mark beside the thumbnail of another. -/
theorem thumbnail_confined_and_apart :
    let root := Bytes.ofText "/srv/pix/"
    let n : PixName := { picId := 72374, thumbnail := true, ext := Bytes.ofText "jpg" }
    let a : PixName := { picId := 1, thumbnail := false, ext := Bytes.ofText "png" }
    let b : PixName := { picId := 0, thumbnail := true, ext := Bytes.ofText "png" }
    PixName.parse (Bytes.ofText "ml5mnO.JPG") = .error .trailing ∧
      PixName.parse (Bytes.ofText "ml5mn0.JPG") = .ok n ∧
      (∃ dirs stem, Confined root (n.path root) dirs stem n.ext) ∧
      IsExtension a.ext ∧ IsExtension b.ext ∧ a ≠ b ∧
      ¬ components (a.path root) <+: components (b.path root) := by
  intro root n a b
  have hname : PixName.parse (Bytes.ofText "ml5mn0.JPG") = .ok n := by decide +kernel
  have ha : IsExtension a.ext := by decide +kernel
  have hb : IsExtension b.ext := by decide +kernel
  have hne : a ≠ b := by decide +kernel
  refine ⟨by decide +kernel, hname, pic_files_confined_and_apart.1 root _ n hname, ha, hb, hne, ?_⟩
  rw [(pic_files_confined_and_apart.2 root a b ha hb).2.1]
  exact hne

end PixTree

end PicBoard
