/-!
# Byte strings and the texts they spell

Texts travel as UTF-8 bytes.  `Bytes.ofText` writes them, `Bytes.toText?` reads well-formed
bytes back, and `Bytes.toTextLossy` reads any bytes, writing U+FFFD for each ill-formed part.
-/

namespace PicBoard

/-- A finite string of bytes. -/
abbrev Bytes := List UInt8

namespace Bytes

/-- The UTF-8 bytes of a text. -/
def ofText (s : String) : Bytes :=
  s.toByteArray.data.toList

/-- The text that these bytes spell, when they are well-formed UTF-8. -/
def toText? (b : Bytes) : Option String :=
  String.fromUTF8? ⟨b.toArray⟩

/-- The text whose characters have these bytes as code points; on ASCII bytes it is the text
they spell. -/
def toLatin1 (b : Bytes) : String :=
  String.ofList (b.map fun x => Char.ofNat x.toNat)

/-- Every text reads back from its bytes. -/
@[simp] theorem toText?_ofText (s : String) : toText? (ofText s) = some s := by
  have h : (⟨(s.toByteArray.data.toList).toArray⟩ : ByteArray) = s.toByteArray := by simp
  unfold toText? ofText
  rw [h]
  unfold String.fromUTF8?
  simp only [s.isValidUTF8, ↓reduceDIte]
  rfl

/-- Only its own bytes spell a text. -/
theorem eq_ofText_of_toText? {b : Bytes} {s : String} (h : toText? b = some s) :
    b = ofText s := by
  unfold toText? String.fromUTF8? at h
  split at h
  · injection h with h
    subst h
    simp [ofText, String.fromUTF8]
  · exact absurd h (by simp)

@[simp] theorem ofText_append (s t : String) : ofText (s ++ t) = ofText s ++ ofText t := by
  simp [ofText, String.toByteArray_append]

@[simp] theorem ofText_empty : ofText "" = [] := rfl

/-- A text is determined by its bytes. -/
theorem ofText_inj {s t : String} : ofText s = ofText t ↔ s = t := by
  constructor
  · intro h
    have := toText?_ofText t
    rw [← h, toText?_ofText] at this
    exact Option.some.inj this
  · rintro rfl; rfl

/-! ## Reading ill-formed bytes -/

/-- A continuation byte in a given range. -/
def inRange (lo hi : UInt8) (b : UInt8) : Bool := lo ≤ b && b ≤ hi

/-- What the second byte may be after a given lead byte of three. -/
def secondOfThree (lead : UInt8) : UInt8 → Bool :=
  if lead = 0xe0 then inRange 0xa0 0xbf
  else if lead = 0xed then inRange 0x80 0x9f
  else inRange 0x80 0xbf

/-- What the second byte may be after a given lead byte of four. -/
def secondOfFour (lead : UInt8) : UInt8 → Bool :=
  if lead = 0xf0 then inRange 0x90 0xbf
  else if lead = 0xf4 then inRange 0x80 0x8f
  else inRange 0x80 0xbf

/-- The length of the well-formed sequence at the front, or `none` with the length of the
ill-formed part to replace: the longest start of some well-formed sequence, at least one byte. -/
def leadingSequence (lead : UInt8) (rest : Bytes) : Bool × Nat :=
  let tail := inRange 0x80 0xbf
  if lead < 0x80 then (true, 1)
  else if inRange 0xc2 0xdf lead then
    match rest with
    | b :: _ => if tail b then (true, 2) else (false, 1)
    | _ => (false, 1)
  else if inRange 0xe0 0xef lead then
    match rest with
    | b :: more =>
      if secondOfThree lead b then
        match more with
        | c :: _ => if tail c then (true, 3) else (false, 2)
        | _ => (false, 2)
      else (false, 1)
    | _ => (false, 1)
  else if inRange 0xf0 0xf4 lead then
    match rest with
    | b :: more =>
      if secondOfFour lead b then
        match more with
        | c :: more =>
          if tail c then
            match more with
            | d :: _ => if tail d then (true, 4) else (false, 3)
            | _ => (false, 3)
          else (false, 2)
        | _ => (false, 2)
      else (false, 1)
    | _ => (false, 1)
  else (false, 1)

/-- Copies well-formed sequences and writes U+FFFD for each ill-formed part. -/
def repair : (fuel : Nat) → Bytes → Bytes
  | 0, _ => []
  | _, [] => []
  | fuel + 1, lead :: rest =>
    let (ok, n) := leadingSequence lead rest
    let unit := if ok then (lead :: rest).take n else [0xef, 0xbf, 0xbd]
    unit ++ repair fuel ((lead :: rest).drop n)

/-- The text of any bytes, with U+FFFD for each ill-formed part. -/
def toTextLossy (b : Bytes) : String :=
  match toText? b with
  | some s => s
  | none => (toText? (repair b.length b)).getD ""

/-! ## Cutting -/

/-- The pieces between the occurrences of a byte: always at least one. -/
def pieces (sep : UInt8) : Bytes → List Bytes
  | [] => [[]]
  | b :: rest =>
    if b = sep then [] :: pieces sep rest
    else
      match pieces sep rest with
      | [] => [[b]]
      | p :: ps => (b :: p) :: ps

/-- The last `n` bytes, or all of them when there are fewer. -/
def lastBytes (n : Nat) (b : Bytes) : Bytes :=
  b.drop (b.length - n)

end Bytes

end PicBoard
