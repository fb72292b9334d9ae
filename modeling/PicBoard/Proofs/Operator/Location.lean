import Mathlib.Tactic
import PicBoard.Operator.Identifiers
import PicBoard.Proofs.PixTree.Confinement

/-!
# The file that an operator is shown and the file that a caller gets

An operator who asks where a pic lies is shown a file and an address.  The file has the extension
as the operator wrote it, whereas what is opened for the address has it in small letters.  So the
two are one file exactly when the extension has no capital letters; otherwise the file that is
shown is not opened for the address, nor for any other (`served_path_iff`).
-/

namespace PicBoard.Operator

open PixName (IsExtension IsCapital lowerByte)

/-- Some name under `pix/` asks for a file. -/
def Served (root file : Bytes) : Prop :=
  ∃ name n, PixName.parse name = .ok n ∧ n.path root = file

/-- What is opened has an extension in small letters, so a file whose own is not so is never
opened. -/
theorem served_path_iff (root : Bytes) (n : PixName) (h : IsExtension n.ext) :
    Served root (n.path root) ↔ ∀ b ∈ n.ext, ¬ IsCapital b := by
  constructor
  · rintro ⟨name, m, hname, hpath⟩
    rcases PixName.extension_of_parse hname with ⟨hext, hsmall⟩
    rw [← (PixTree.path_eq_iff root hext h).mp hpath]
    intro b hb hcapital
    have hb' := hsmall b hb
    unfold PixName.IsSmall PixName.IsCapital at *
    omega
  · intro hlower
    refine ⟨_, _, PixName.parse_fileName n.picId n.thumbnail h, ?_⟩
    rw [PixName.map_lowerByte_eq_iff.mpr hlower]

/-- The name in the address that an operator is shown asks for the file whose extension is in small
letters.  It is the file that the operator is shown exactly when the extension has no capital
letters, and no other name asks for that file otherwise. -/
theorem located_file_served_iff (id : Int64) (ext root : Bytes) (thumbnail : Bool)
    (h : IsExtension ext) :
    let shown := locate id ext root thumbnail
    ∃ name n, shown.url = Bytes.ofText "pix/" ++ name ∧ PixName.parse name = .ok n ∧
      n.path root = (locate id (ext.map lowerByte) root thumbnail).file ∧
      (n.path root = shown.file ↔ ∀ b ∈ ext, ¬ IsCapital b) ∧
      (Served root shown.file ↔ ∀ b ∈ ext, ¬ IsCapital b) := by
  intro shown
  let written : PixName := { picId := id, thumbnail, ext }
  let read : PixName := { picId := id, thumbnail, ext := ext.map lowerByte }
  have hsame : read.path root = written.path root ↔ ∀ b ∈ ext, ¬ IsCapital b := by
    rw [PixTree.path_eq_iff root h.lower h, ← PixName.map_lowerByte_eq_iff]
    simp [read, written]
  exact ⟨PixTree.fileName id thumbnail ext, read, rfl, PixName.parse_fileName id thumbnail h, rfl,
    hsame, served_path_iff root written h⟩

/-- The thumbnail of the pic with the longest text is shown where it is opened. -/
theorem located_thumbnail_served :
    let shown := locate (-1) (Bytes.ofText "mp4") [] true
    IsExtension (Bytes.ofText "mp4") ∧
      (∃ name n, shown.url = Bytes.ofText "pix/" ++ name ∧ PixName.parse name = .ok n ∧
        n.path [] = shown.file) ∧
      Served [] shown.file := by
  intro shown
  have hext : IsExtension (Bytes.ofText "mp4") := by decide +kernel
  have hlower : ∀ b ∈ Bytes.ofText "mp4", ¬ IsCapital b := by decide +kernel
  rcases located_file_served_iff (-1) (Bytes.ofText "mp4") [] true hext with
    ⟨name, n, hurl, hname, -, hfile, hserved⟩
  exact ⟨hext, ⟨name, n, hurl, hname, hfile.mpr hlower⟩, hserved.mpr hlower⟩

/-- With a capital extension the operator is shown a file that is not the one opened for the
address they are shown. -/
theorem capital_extension_misplaced :
    let root := Bytes.ofText "/srv/pix"
    let shown := locate 72374 (Bytes.ofText "JPG") root false
    shown.file = Bytes.ofText "/srv/pix/m/1/5/m/m15mn.JPG" ∧
      shown.url = Bytes.ofText "pix/" ++ Bytes.ofText "m15mn.JPG" ∧
      ∃ n, PixName.parse (Bytes.ofText "m15mn.JPG") = .ok n ∧
        n.path root = Bytes.ofText "/srv/pix/m/1/5/m/m15mn.jpg" ∧ n.path root ≠ shown.file := by
  intro root shown
  refine ⟨by decide +kernel, by decide +kernel,
    { picId := 72374, thumbnail := false, ext := Bytes.ofText "jpg" }, by decide +kernel,
    by decide +kernel, by decide +kernel⟩

end PicBoard.Operator
