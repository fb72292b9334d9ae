import Mathlib.Tactic
import PicBoard.Proofs.GlyphNumber.Words
import PicBoard.Proofs.PixTree.Names
import PicBoard.Proofs.Text.Blank

/-!
# How names of pics are spelled

As a text, a name is read when it is spelled as an id, the mark if it is a thumbnail's, a dot and an
extension, and it is spelled so in one way only (`names_spelled_in_one_way`).  A reader that cuts the
text at the dot and behind the id, and gathers the id in machine words, never cuts a character apart
and never leaves its words (`ofTextCut?_eq`).
-/

namespace PicBoard.PixName

/-! ## Characters and bytes -/

theorem toNat_lt_of_isAlphanum {c : Char} (h : c.isAlphanum = true) : c.toNat < 128 := by
  have hc : c.val.toNat = c.toNat := rfl
  delta Char.isAlphanum Char.isAlpha Char.isUpper Char.isLower Char.isDigit at h
  simp only [Bool.or_eq_true, Bool.and_eq_true, decide_eq_true_eq, ge_iff_le,
    UInt32.le_iff_toNat_le, hc] at h
  simp at h
  omega

theorem isAlphanumeric_iff_isAlphanum (c : Char) :
    (∀ b ∈ String.utf8EncodeChar c, isAlphanumeric b = true) ↔ c.isAlphanum = true := by
  by_cases hc : c.toNat < 128
  · have hall : ∀ k : Fin 128, isAlphanumeric (UInt8.ofNat k) = (Char.ofNat k).isAlphanum := by
      decide +kernel
    have hsame := hall ⟨c.toNat, hc⟩
    rw [Char.ofNat_toNat] at hsame
    rw [Bytes.utf8EncodeChar_of_lt hc, ← hsame]
    simp
  · constructor
    · -- any other character has a byte, and all its bytes are past the letters
      intro h
      obtain ⟨b, hb⟩ := List.exists_mem_of_ne_nil _ (String.utf8EncodeChar_ne_nil (c := c))
      have hlarge := Bytes.utf8EncodeChar_ge (not_lt.mp hc) b hb
      have hletter := isAlphanumeric_iff.mp (h b hb)
      unfold IsSmall IsCapital at hletter
      omega
    · intro h
      exact absurd (toNat_lt_of_isAlphanum h) hc

/-- An extension of letters and digits is the bytes of a text of them. -/
theorem isExtension_ofText_iff {ext : String} :
    IsExtension (Bytes.ofText ext) ↔ ext ≠ "" ∧ ∀ c ∈ ext.toList, c.isAlphanum = true := by
  unfold IsExtension
  rw [← Bytes.ofText_empty, Ne, Bytes.ofText_inj, Bytes.ofText_eq_flatMap]
  simp only [← isAlphanumeric_iff_isAlphanum, List.mem_flatMap]
  refine and_congr_right fun _ => ?_
  constructor
  · intro h c hc b hb
    exact h b ⟨c, hc, hb⟩
  · rintro h b ⟨c, hc, hb⟩
    exact h c hc b hb

theorem ofText_asciiLower (s : String) :
    Bytes.ofText (Text.asciiLower s) = (Bytes.ofText s).map lowerByte := by
  have hchar : ∀ c, String.utf8EncodeChar c.toLower = (String.utf8EncodeChar c).map lowerByte := by
    refine Bytes.utf8EncodeChar_map (by decide +kernel) ?_ ?_
    · intro c hc
      have hval : c.val.toNat = c.toNat := rfl
      unfold Char.toLower
      rw [dif_neg]
      simp only [ge_iff_le, UInt32.le_iff_toNat_le, hval]
      simp
      omega
    · intro b hb
      exact if_neg (by omega)
  rw [Bytes.ofText_eq_flatMap, Bytes.ofText_eq_flatMap, Text.asciiLower, String.toList_ofList,
    List.map_flatMap, List.flatMap_map]
  congr 1
  funext c
  exact hchar c

/-! ## Spellings -/

/-- The mark as a text. -/
def markText (thumbnail : Bool) : String := if thumbnail then "0" else ""

theorem ofText_markText (thumbnail : Bool) :
    Bytes.ofText (markText thumbnail) = PixTree.mark thumbnail := by
  cases thumbnail <;> decide +kernel

theorem ofText_dot : Bytes.ofText "." = [PixTree.dot] := by decide +kernel

/-- How a name is spelled: the id's text, but for look-alikes, then the mark if it is a thumbnail's,
a dot, and the extension, of which capital letters are taken as small ones. -/
structure Spelled (name : String) (n : PixName) (id ext : String) : Prop where
  name_eq : name = id ++ markText n.thumbnail ++ "." ++ ext
  id_fold : GlyphNumber.foldText id = GlyphNumber.text n.picId
  ext_ne_empty : ext ≠ ""
  ext_alphanumeric : ∀ c ∈ ext.toList, c.isAlphanum = true
  ext_lower : n.ext = Bytes.ofText (Text.asciiLower ext)

variable {name id id' ext ext' : String} {n n' : PixName}

theorem Spelled.ofText_eq (h : Spelled name n id ext) :
    Bytes.ofText name =
      Bytes.ofText id ++ PixTree.mark n.thumbnail ++ PixTree.dot :: Bytes.ofText ext := by
  rw [h.name_eq]
  simp only [Bytes.ofText_append, ofText_markText, ofText_dot, List.append_assoc,
    List.cons_append, List.nil_append]

/-- What is spelled as a name is read as it. -/
theorem Spelled.parse (h : Spelled name n id ext) : parse (Bytes.ofText name) = .ok n := by
  have hid : (Bytes.ofText id).map GlyphNumber.fold = GlyphNumber.encode n.picId := by
    rw [← GlyphNumber.ofText_foldText, h.id_fold, GlyphNumber.ofText_bytes_text]
  have hext : IsExtension (Bytes.ofText ext) :=
    isExtension_ofText_iff.mpr ⟨h.ext_ne_empty, h.ext_alphanumeric⟩
  exact parse_eq_ok_iff.mpr ⟨_, _, h.ofText_eq, hid, hext, h.ext_lower.trans (ofText_asciiLower ext)⟩

/-- What is read as a name is spelled as it. -/
theorem exists_spelled_of_parse (h : PixName.parse (Bytes.ofText name) = .ok n) :
    ∃ id ext, Spelled name n id ext := by
  obtain ⟨text, ext, hname, hfold, hext, hlower⟩ := parse_eq_ok_iff.mp h
  have htext : ∀ b ∈ text, b.toNat < 128 := by
    have hread : GlyphNumber.decode text = .ok (n.picId, text.length) :=
      GlyphNumber.decode_eq_ok_iff.mpr ⟨le_rfl, by rwa [List.take_length]⟩
    simpa using GlyphNumber.ascii_of_decode hread
  have hletters : ∀ b ∈ ext, b.toNat < 128 := by
    intro b hb
    have hletter := isAlphanumeric_iff.mp (hext.2 b hb)
    unfold IsSmall IsCapital at hletter
    omega
  -- all bytes are characters of their own, so the parts of the bytes are those of the text
  have hid := Bytes.ofText_toLatin1 htext
  have hsuffix := Bytes.ofText_toLatin1 hletters
  rw [← hsuffix] at hext hlower
  obtain ⟨hne, hall⟩ := isExtension_ofText_iff.mp hext
  refine ⟨text.toLatin1, Bytes.toLatin1 ext, ?_, ?_, hne, hall, ?_⟩
  · rw [← Bytes.ofText_inj, hname]
    simp only [Bytes.ofText_append, ofText_markText, ofText_dot, hid, hsuffix, List.append_assoc,
      List.cons_append, List.nil_append]
  · rw [← Bytes.ofText_inj, GlyphNumber.ofText_foldText, hid, GlyphNumber.ofText_bytes_text, hfold]
  · rw [hlower, ofText_asciiLower]

/-- A name is spelled in one way. -/
theorem Spelled.unique (h : Spelled name n id ext) (h' : Spelled name n' id' ext') :
    n = n' ∧ id = id' ∧ ext = ext' := by
  have hn : n = n' := Except.ok.inj (h.parse.symm.trans h'.parse)
  subst hn
  have hcut : ∀ {id ext : String}, Spelled name n id ext →
      splitLastDot (Bytes.ofText name) =
        some (Bytes.ofText id ++ PixTree.mark n.thumbnail, Bytes.ofText ext) := by
    intro id ext h
    have hext : IsExtension (Bytes.ofText ext) :=
      isExtension_ofText_iff.mpr ⟨h.ext_ne_empty, h.ext_alphanumeric⟩
    exact splitLastDot_eq_some_iff.mpr ⟨h.ofText_eq, dot_not_mem hext⟩
  have hparts := (hcut h).symm.trans (hcut h')
  simp only [Option.some.injEq, Prod.mk.injEq, List.append_cancel_right_eq, Bytes.ofText_inj]
    at hparts
  exact ⟨rfl, hparts⟩

/-! ## Texts cut at bytes -/

/-- Reads a name from a text that is cut at its last dot and behind the id, which is gathered in
words of 128 bits.  There is no outcome when the text is cut inside a character or behind its end,
or when a step of the gathering does not fit. -/
def ofTextCut? (name : String) : Option (Except Error PixName) :=
  match Text.splitOnce '.' name.toList.reverse with
  | none => some (.error .missingExtension)
  | some (ext, stem) =>
    let ext := String.ofList ext.reverse
    let stem := String.ofList stem.reverse
    if stem = "" ∨ ext = "" then some (.error .missingExtension)
    else if (Bytes.ofText ext).all isAlphanumeric = false then some (.error .badExtension)
    else do
      match ← GlyphNumber.decodeInWords? (Bytes.ofText stem) with
      | .error e => return .error (.badId e)
      | .ok (picId, used) =>
        let rest ← Bytes.textFrom? stem used
        return (readMark (Bytes.ofText rest)).map fun thumbnail =>
          { picId, thumbnail, ext := (Bytes.ofText ext).map lowerByte }

theorem dot_mem_ofText_iff {s : String} : PixTree.dot ∈ Bytes.ofText s ↔ '.' ∈ s.toList :=
  Bytes.mem_ofText_iff (c := '.') (by decide)

/-- Where a text is cut at its last dot, so are its bytes. -/
theorem splitLastDot_ofText {name : String} {ext stem : List Char}
    (h : Text.splitOnce '.' name.toList.reverse = some (ext, stem)) :
    splitLastDot (Bytes.ofText name) =
      some (Bytes.ofText (.ofList stem.reverse), Bytes.ofText (.ofList ext.reverse)) := by
  obtain ⟨hname, hdot⟩ := Text.splitOnce_eq_some_iff.mp h
  have hwhole : name = .ofList stem.reverse ++ "." ++ .ofList ext.reverse := by
    rw [← String.toList_inj, ← List.reverse_inj, hname]
    simp
  apply splitLastDot_eq_some_iff.mpr
  constructor
  · rw [hwhole]
    simp only [Bytes.ofText_append, ofText_dot, List.append_assoc, List.cons_append,
      List.nil_append]
  · have hnot : '.' ∉ (String.ofList ext.reverse).toList := by simpa using hdot
    exact mt dot_mem_ofText_iff.mp hnot

theorem splitLastDot_ofText_eq_none {name : String}
    (h : Text.splitOnce '.' name.toList.reverse = none) :
    splitLastDot (Bytes.ofText name) = none := by
  rw [Text.splitOnce_eq_none_iff, List.mem_reverse] at h
  exact splitLastDot_eq_none_iff.mpr (mt dot_mem_ofText_iff.mp h)

/-- No character is cut apart, and every step fits. -/
theorem ofTextCut?_eq (name : String) : ofTextCut? name = some (PixName.parse (Bytes.ofText name)) := by
  unfold ofTextCut?
  cases hsplit : Text.splitOnce '.' name.toList.reverse with
  | none =>
    rw [PixName.parse, splitLastDot_ofText_eq_none hsplit]
  | some parts =>
    obtain ⟨ext, stem⟩ := parts
    rw [parse_of_split (splitLastDot_ofText hsplit)]
    dsimp only
    generalize String.ofList ext.reverse = ext
    generalize String.ofList stem.reverse = stem
    have hempty : ∀ s : String, Bytes.ofText s = [] ↔ s = "" := by
      intro s
      rw [← Bytes.ofText_empty, Bytes.ofText_inj]
    simp only [hempty, GlyphNumber.decodeInWords?_eq]
    split_ifs
    · rfl
    · rfl
    · cases hread : GlyphNumber.decode (Bytes.ofText stem) with
      | error e => rfl
      | ok read =>
        obtain ⟨rest, hrest, hbytes⟩ := GlyphNumber.textFrom?_of_decode hread
        simp [hrest, hbytes]

/-- A text is read as a name exactly when it is spelled as the name: as the id's text, but for
look-alikes, the mark if it is a thumbnail's, a dot and the extension in letters of any case.  It is
spelled so in one way only, so that a zero at the end of an id is never taken for the mark, nor the
mark for a part of an id.  And whatever the text, with characters of any width in or behind the id,
reading it leaves no word and cuts no character apart. -/
theorem names_spelled_in_one_way :
    (∀ (name : String) (n : PixName),
      PixName.parse (Bytes.ofText name) = .ok n ↔ ∃ id ext, Spelled name n id ext) ∧
    (∀ (name : String) (n n' : PixName) (id id' ext ext' : String), Spelled name n id ext →
      Spelled name n' id' ext' → n = n' ∧ id = id' ∧ ext = ext') ∧
    ∀ name : String, ofTextCut? name = some (PixName.parse (Bytes.ofText name)) := by
  refine ⟨?_, ?_, ofTextCut?_eq⟩
  · intro name n
    constructor
    · exact exists_spelled_of_parse
    · rintro ⟨id, ext, h⟩
      exact h.parse
  · intro name n n' id id' ext ext' h h'
    exact h.unique h'

/-- The zero of an id and a zero behind an id are told apart, and a character of two bytes behind an
id is refused. -/
theorem zero_in_and_behind_id :
    let one : PixName := { picId := 1, thumbnail := false, ext := Bytes.ofText "png" }
    let zero : PixName := { picId := 0, thumbnail := true, ext := Bytes.ofText "png" }
    Spelled "h0.png" one "h0" "png" ∧ Spelled "g0.PNG" zero "g" "PNG" ∧
      (∀ n id ext, Spelled "h0.png" n id ext → n = one ∧ id = "h0" ∧ ext = "png") ∧
      (∀ n id ext, Spelled "g0.PNG" n id ext → n = zero ∧ id = "g" ∧ ext = "PNG") ∧
      ofTextCut? "gé.png" = some (.error .trailing) := by
  intro one zero
  have hone : Spelled "h0.png" one "h0" "png" :=
    ⟨by decide +kernel, by decide +kernel, by decide, List.all_eq_true.mp (by decide +kernel),
      by decide +kernel⟩
  have hzero : Spelled "g0.PNG" zero "g" "PNG" :=
    ⟨by decide +kernel, by decide +kernel, by decide, List.all_eq_true.mp (by decide +kernel),
      by decide +kernel⟩
  obtain ⟨-, hunique, hcut⟩ := names_spelled_in_one_way
  refine ⟨hone, hzero, ?_, ?_, ?_⟩
  · intro n id ext h
    exact hunique _ _ _ _ _ _ _ h hone
  · intro n id ext h
    exact hunique _ _ _ _ _ _ _ h hzero
  · rw [hcut]
    decide +kernel

end PicBoard.PixName
