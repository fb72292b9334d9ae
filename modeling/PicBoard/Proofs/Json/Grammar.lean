import Mathlib.Tactic
import PicBoard.Proofs.Json.Scalars

/-!
# Texts of values

Which texts stand for a value, with any blanks between its parts (`Spells`).  Every such text is
read as its value (`parse_eq_some`), so nobody needs to look into the reader who knows what a
writer puts between the parts.
-/

namespace PicBoard.Json

/-! ## The grammar -/

/-- A part of a text that the reader takes in by itself. -/
inductive Part where
  | value (j : Json)
  /-- The items of an array after the first, and its end. -/
  | items (xs : List Json)
  | member (name : String) (v : Json)
  /-- The members of an object after the first, and its end. -/
  | members (ms : List (Bytes × Json))

/-- Nothing but blanks. -/
def Blank (gap : Bytes) : Prop := ∀ b ∈ gap, isBlank b = true

/-- The texts of the parts.  Strings are texts and numbers are integers here. -/
inductive Spells : Part → Bytes → Prop where
  | nullWord : Spells (.value .null) (Bytes.ofText "null")
  | trueWord : Spells (.value (.bool true)) (Bytes.ofText "true")
  | falseWord : Spells (.value (.bool false)) (Bytes.ofText "false")
  | integer (n : Int) (moderate : n.natAbs < 10 ^ maxIntegerDigits) :
      Spells (.value (ofInt n)) (Decimal.integer n)
  | text (s : String) : Spells (.value (ofText s)) (writeString (Bytes.ofText s))
  | emptyArray (gap : Bytes) (blank : Blank gap) :
      Spells (.value (.array [])) (91 :: gap ++ [93])
  | array (gap : Bytes) (blank : Blank gap) {x : Json} {xs : List Json} {t u : Bytes}
      (first : Spells (.value x) t) (others : Spells (.items xs) u) :
      Spells (.value (.array (x :: xs))) (91 :: gap ++ t ++ u)
  | itemsEnd (gap : Bytes) (blank : Blank gap) : Spells (.items []) (gap ++ [93])
  | item (before after : Bytes) (blank : Blank before) (blank' : Blank after) {x : Json}
      {xs : List Json} {t u : Bytes} (first : Spells (.value x) t)
      (others : Spells (.items xs) u) :
      Spells (.items (x :: xs)) (before ++ 44 :: after ++ t ++ u)
  | emptyObject (gap : Bytes) (blank : Blank gap) :
      Spells (.value (.object [])) (123 :: gap ++ [125])
  | object (gap : Bytes) (blank : Blank gap) {name : String} {v : Json}
      {ms : List (Bytes × Json)} {t u : Bytes} (first : Spells (.member name v) t)
      (others : Spells (.members ms) u) :
      Spells (.value (.object ((Bytes.ofText name, v) :: ms))) (123 :: gap ++ t ++ u)
  | member (name : String) (before after : Bytes) (blank : Blank before) (blank' : Blank after)
      {v : Json} {t : Bytes} (value : Spells (.value v) t) :
      Spells (.member name v)
        (writeString (Bytes.ofText name) ++ before ++ 58 :: after ++ t)
  | membersEnd (gap : Bytes) (blank : Blank gap) : Spells (.members []) (gap ++ [125])
  | nextMember (before after : Bytes) (blank : Blank before) (blank' : Blank after)
      {name : String} {v : Json} {ms : List (Bytes × Json)} {t u : Bytes}
      (first : Spells (.member name v) t) (others : Spells (.members ms) u) :
      Spells (.members ((Bytes.ofText name, v) :: ms)) (before ++ 44 :: after ++ t ++ u)

variable {p : Part} {j v : Json} {name : String} {t u gap rest : Bytes} {fuel : Nat}

/-! ## Blanks -/

theorem skipBlanks_append (h : Blank gap) (s : Bytes) : skipBlanks (gap ++ s) = skipBlanks s :=
  List.dropWhile_append_of_pos h

/-- Blanks are skipped up to the first byte that is none. -/
theorem skipBlanks_append_cons (h : Blank gap) {b : UInt8} (hb : isBlank b = false) (s : Bytes) :
    skipBlanks (gap ++ b :: s) = b :: s := by
  rw [skipBlanks_append h]
  simp [skipBlanks, hb]

/-- A blank does not continue a number. -/
theorem endsNumber_append (h : Blank gap) (hrest : EndsNumber rest) : EndsNumber (gap ++ rest) := by
  cases gap with
  | nil => exact hrest
  | cons b gap =>
    intro c hc
    cases hc
    have hblank : b = 32 ∨ b = 9 ∨ b = 10 ∨ b = 13 := by
      simpa [isBlank, or_assoc] using h b List.mem_cons_self
    rcases hblank with rfl | rfl | rfl | rfl <;> decide

/-- What follows an item or a member ends a number. -/
theorem Spells.endsNumber_items {xs : List Json} (h : Spells (.items xs) t) (rest : Bytes) :
    EndsNumber (t ++ rest) := by
  cases h with
  | itemsEnd gap blank =>
    rw [List.append_assoc]
    exact endsNumber_append blank (by simp [EndsNumber, Decimal.isDigit])
  | item before after blank blank' first others =>
    simp only [List.append_assoc]
    exact endsNumber_append blank (by simp [EndsNumber, Decimal.isDigit])

theorem Spells.endsNumber_members {ms : List (Bytes × Json)} (h : Spells (.members ms) t)
    (rest : Bytes) : EndsNumber (t ++ rest) := by
  cases h with
  | membersEnd gap blank =>
    rw [List.append_assoc]
    exact endsNumber_append blank (by simp [EndsNumber, Decimal.isDigit])
  | nextMember before after blank blank' first others =>
    simp only [List.append_assoc]
    exact endsNumber_append blank (by simp [EndsNumber, Decimal.isDigit])

/-! ## First bytes -/

/-- An integer starts with a digit or a minus sign. -/
theorem exists_integer_eq_cons (n : Int) :
    ∃ b tail, Decimal.integer n = b :: tail ∧
      ∀ c, Decimal.isDigit c = false → c ≠ 45 → b ≠ c := by
  cases n with
  | ofNat m =>
    obtain ⟨hne, hdigits⟩ := Decimal.isNumeral_digits m
    obtain ⟨b, tail, heq⟩ := List.exists_cons_of_ne_nil hne
    refine ⟨b, tail, heq, ?_⟩
    rintro c hc - rfl
    have hb := hdigits b (by simp [heq])
    rw [hc] at hb
    cases hb
  | negSucc m => exact ⟨45, _, rfl, fun c _ hc => hc.symm⟩

/-- A value starts with a byte that is no blank and does not end an array. -/
theorem Spells.exists_value_eq_cons (h : Spells (.value j) t) :
    ∃ b tail, t = b :: tail ∧ isBlank b = false ∧ b ≠ 93 := by
  cases h with
  | nullWord => exact ⟨110, _, rfl, rfl, by decide⟩
  | trueWord => exact ⟨116, _, rfl, rfl, by decide⟩
  | falseWord => exact ⟨102, _, rfl, rfl, by decide⟩
  | integer n moderate =>
    obtain ⟨b, tail, heq, hb⟩ := exists_integer_eq_cons n
    refine ⟨b, tail, heq, ?_, hb 93 rfl (by decide)⟩
    simp [isBlank, hb 32 rfl, hb 9 rfl, hb 10 rfl, hb 13 rfl]
  | text s => exact ⟨34, _, rfl, rfl, by decide⟩
  | emptyArray gap blank => exact ⟨91, _, rfl, rfl, by decide⟩
  | array gap blank first others => exact ⟨91, _, rfl, rfl, by decide⟩
  | emptyObject gap blank => exact ⟨123, _, rfl, rfl, by decide⟩
  | object gap blank first others => exact ⟨123, _, rfl, rfl, by decide⟩

/-- A member starts with the quote of its name. -/
theorem Spells.exists_member_eq_cons (h : Spells (.member name v) t) : ∃ tail, t = 34 :: tail := by
  cases h with
  | member _ before after blank blank' value => exact ⟨_, rfl⟩

/-- Blanks are skipped up to a value. -/
theorem Spells.skipBlanks_value (h : Spells (.value j) t) (hgap : Blank gap) (s : Bytes) :
    skipBlanks (gap ++ (t ++ s)) = t ++ s := by
  obtain ⟨b, tail, rfl, hvisible, -⟩ := h.exists_value_eq_cons
  exact skipBlanks_append_cons hgap hvisible (tail ++ s)

theorem Spells.skipBlanks_member (h : Spells (.member name v) t) (hgap : Blank gap) (s : Bytes) :
    skipBlanks (gap ++ (t ++ s)) = t ++ s := by
  obtain ⟨tail, rfl⟩ := h.exists_member_eq_cons
  exact skipBlanks_append_cons hgap rfl (tail ++ s)

/-! ## Reading -/

/-- What the reader of a part gives on a text that starts with the part. -/
def Part.ReadsAs (fuel : Nat) (s rest : Bytes) : Part → Prop
  | .value j => readValue fuel s = some (j, rest)
  | .items xs => readItems fuel s = some (xs, rest)
  | .member name v => readMember fuel s = some ((Bytes.ofText name, v), rest)
  | .members ms => readMembers fuel s = some (ms, rest)

@[simp] theorem afterWord?_append (word rest : Bytes) :
    afterWord? word (word ++ rest) = some rest := by
  unfold afterWord?
  rw [if_pos (List.isPrefixOf_iff_prefix.mpr (List.prefix_append word rest)), List.drop_left]

theorem readValue_integer {n : Int} (moderate : n.natAbs < 10 ^ maxIntegerDigits)
    (hrest : EndsNumber rest) :
    readValue (fuel + 1) (Decimal.integer n ++ rest) = some (ofInt n, rest) := by
  have hnumber := readNumber_integer moderate hrest
  obtain ⟨b, tail, heq, hb⟩ := exists_integer_eq_cons n
  rw [heq, List.cons_append] at hnumber ⊢
  simp [readValue, hb 34 rfl, hb 91 rfl, hb 123 rfl, hb 110 rfl, hb 116 rfl, hb 102 rfl, hnumber,
    ofInt]

section

variable {x : Json} {xs : List Json} {m : Bytes × Json} {ms : List (Bytes × Json)}
  {before after s : Bytes}

theorem readValue_emptyArray (hgap : Blank gap) :
    readValue (fuel + 1) (91 :: (gap ++ 93 :: rest)) = some (.array [], rest) := by
  simp [readValue, skipBlanks_append_cons hgap (show isBlank 93 = false from rfl)]

theorem readValue_array (hgap : Blank gap) (first : Spells (.value x) t)
    (hx : readValue fuel (t ++ s) = some (x, s)) (hxs : readItems fuel s = some (xs, rest)) :
    readValue (fuel + 1) (91 :: (gap ++ (t ++ s))) = some (.array (x :: xs), rest) := by
  have hopen := first.skipBlanks_value hgap s
  obtain ⟨b, tail, rfl, -, hb⟩ := first.exists_value_eq_cons
  rw [List.cons_append] at hx hopen
  simp [readValue, hopen, hb, hx, hxs]

theorem readItems_end (hgap : Blank gap) :
    readItems (fuel + 1) (gap ++ 93 :: rest) = some ([], rest) := by
  simp [readItems, skipBlanks_append_cons hgap (show isBlank 93 = false from rfl)]

theorem readItems_item (hbefore : Blank before) (hafter : Blank after)
    (first : Spells (.value x) t) (hx : readValue fuel (t ++ s) = some (x, s))
    (hxs : readItems fuel s = some (xs, rest)) :
    readItems (fuel + 1) (before ++ 44 :: (after ++ (t ++ s))) = some (x :: xs, rest) := by
  simp [readItems, skipBlanks_append_cons hbefore (show isBlank 44 = false from rfl),
    first.skipBlanks_value hafter, hx, hxs]

theorem readValue_emptyObject (hgap : Blank gap) :
    readValue (fuel + 1) (123 :: (gap ++ 125 :: rest)) = some (.object [], rest) := by
  simp [readValue, skipBlanks_append_cons hgap (show isBlank 125 = false from rfl)]

theorem readValue_object (hgap : Blank gap) (first : Spells (.member name v) t)
    (hm : readMember fuel (t ++ s) = some (m, s)) (hms : readMembers fuel s = some (ms, rest)) :
    readValue (fuel + 1) (123 :: (gap ++ (t ++ s))) = some (.object (m :: ms), rest) := by
  have hopen := first.skipBlanks_member hgap s
  obtain ⟨tail, rfl⟩ := first.exists_member_eq_cons
  rw [List.cons_append] at hm hopen
  simp [readValue, hopen, hm, hms]

theorem readMember_value {k : Bytes} (hk : k.length < fuel) (hbefore : Blank before)
    (hafter : Blank after) (value : Spells (.value v) t)
    (hv : readValue fuel (t ++ rest) = some (v, rest)) :
    readMember (fuel + 1) (writeString k ++ (before ++ 58 :: (after ++ (t ++ rest)))) =
      some ((k, v), rest) := by
  have hname := readContent_flatMap hk (before ++ 58 :: (after ++ (t ++ rest)))
  simp [writeString, readMember, hname,
    skipBlanks_append_cons hbefore (show isBlank 58 = false from rfl),
    value.skipBlanks_value hafter, hv]

theorem readMembers_end (hgap : Blank gap) :
    readMembers (fuel + 1) (gap ++ 125 :: rest) = some ([], rest) := by
  simp [readMembers, skipBlanks_append_cons hgap (show isBlank 125 = false from rfl)]

theorem readMembers_nextMember (hbefore : Blank before) (hafter : Blank after)
    (first : Spells (.member name v) t) (hm : readMember fuel (t ++ s) = some (m, s))
    (hms : readMembers fuel s = some (ms, rest)) :
    readMembers (fuel + 1) (before ++ 44 :: (after ++ (t ++ s))) = some (m :: ms, rest) := by
  simp [readMembers, skipBlanks_append_cons hbefore (show isBlank 44 = false from rfl),
    first.skipBlanks_member hafter, hm, hms]

end

/-- Nothing is longer than what is written of it. -/
theorem length_le_length_flatMap (s : Bytes) : s.length ≤ (s.flatMap escapeByte).length := by
  induction s with
  | nil => simp
  | cons b s ih =>
    have hpos : 0 < (escapeByte b).length := by
      unfold escapeByte
      split_ifs <;> simp
    rw [List.flatMap_cons, List.length_append, List.length_cons]
    omega

/-- A part is read off the front of a text when there are steps enough, one for every byte. -/
theorem Spells.readsAs (h : Spells p t) (hfuel : t.length ≤ fuel) (hrest : EndsNumber rest) :
    p.ReadsAs (fuel + 1) (t ++ rest) rest := by
  induction h generalizing fuel rest with
  | nullWord =>
    have htext : Bytes.ofText "null" = 110 :: Bytes.ofText "ull" := rfl
    simp [Part.ReadsAs, readValue, htext]
  | trueWord =>
    have htext : Bytes.ofText "true" = 116 :: Bytes.ofText "rue" := rfl
    simp [Part.ReadsAs, readValue, htext]
  | falseWord =>
    have htext : Bytes.ofText "false" = 102 :: Bytes.ofText "alse" := rfl
    simp [Part.ReadsAs, readValue, htext]
  | integer n moderate => exact readValue_integer moderate hrest
  | text s =>
    have hlength := length_le_length_flatMap (Bytes.ofText s)
    simp only [writeString, List.cons_append, List.length_cons, List.length_append] at hfuel
    have hcontent := readContent_flatMap (show (Bytes.ofText s).length < fuel by omega) rest
    simp [Part.ReadsAs, readValue, writeString, hcontent, ofText]
  | emptyArray gap blank => simpa [Part.ReadsAs] using readValue_emptyArray blank
  | array gap blank first others ihfirst ihothers =>
    rename_i x xs t u
    -- the bracket has taken a step, and every part in it is shorter than the whole
    simp only [List.length_cons, List.length_append] at hfuel
    obtain ⟨k, rfl⟩ : ∃ k, fuel = k + 1 := ⟨fuel - 1, by omega⟩
    have hx := ihfirst (show t.length ≤ k by omega) (others.endsNumber_items rest)
    have hxs := ihothers (show u.length ≤ k by omega) hrest
    simpa [Part.ReadsAs] using readValue_array blank first hx hxs
  | itemsEnd gap blank => simpa [Part.ReadsAs] using readItems_end blank
  | item before after blank blank' first others ihfirst ihothers =>
    rename_i x xs t u
    simp only [List.length_cons, List.length_append] at hfuel
    obtain ⟨k, rfl⟩ : ∃ k, fuel = k + 1 := ⟨fuel - 1, by omega⟩
    have hx := ihfirst (show t.length ≤ k by omega) (others.endsNumber_items rest)
    have hxs := ihothers (show u.length ≤ k by omega) hrest
    simpa [Part.ReadsAs] using readItems_item blank blank' first hx hxs
  | emptyObject gap blank => simpa [Part.ReadsAs] using readValue_emptyObject blank
  | object gap blank first others ihfirst ihothers =>
    rename_i name v ms t u
    simp only [List.length_cons, List.length_append] at hfuel
    obtain ⟨k, rfl⟩ : ∃ k, fuel = k + 1 := ⟨fuel - 1, by omega⟩
    have hm := ihfirst (show t.length ≤ k by omega) (others.endsNumber_members rest)
    have hms := ihothers (show u.length ≤ k by omega) hrest
    simpa [Part.ReadsAs] using readValue_object blank first hm hms
  | member name before after blank blank' value ih =>
    rename_i v t
    have hlength := length_le_length_flatMap (Bytes.ofText name)
    simp only [writeString, List.cons_append, List.length_cons, List.length_append] at hfuel
    obtain ⟨k, rfl⟩ : ∃ k, fuel = k + 1 := ⟨fuel - 1, by omega⟩
    have hname : (Bytes.ofText name).length < k + 1 := by omega
    have hv := ih (show t.length ≤ k by omega) hrest
    simpa [Part.ReadsAs] using readMember_value hname blank blank' value hv
  | membersEnd gap blank => simpa [Part.ReadsAs] using readMembers_end blank
  | nextMember before after blank blank' first others ihfirst ihothers =>
    rename_i name v ms t u
    simp only [List.length_cons, List.length_append] at hfuel
    obtain ⟨k, rfl⟩ : ∃ k, fuel = k + 1 := ⟨fuel - 1, by omega⟩
    have hm := ihfirst (show t.length ≤ k by omega) (others.endsNumber_members rest)
    have hms := ihothers (show u.length ≤ k by omega) hrest
    simpa [Part.ReadsAs] using readMembers_nextMember blank blank' first hm hms

/-- A text of a value is read as that value. -/
theorem Spells.parse_eq_some (h : Spells (.value j) t) : parse t = some j := by
  have hread : readValue (2 * t.length + 2) (t ++ []) = some (j, []) :=
    h.readsAs (by omega) nofun
  obtain ⟨b, tail, rfl, hvisible, -⟩ := h.exists_value_eq_cons
  have hopen : skipBlanks (b :: tail) = b :: tail := by simp [skipBlanks, hvisible]
  rw [List.append_nil] at hread
  unfold parse
  rw [hopen, hread]
  exact if_pos rfl

/-! ## Texts are texts -/

/-- Whether bytes are those of a text. -/
def IsText (b : Bytes) : Prop := ∃ s, Bytes.ofText s = b

theorem IsText.append (ht : IsText t) (hu : IsText u) : IsText (t ++ u) := by
  obtain ⟨s, rfl⟩ := ht
  obtain ⟨s', rfl⟩ := hu
  exact ⟨s ++ s', Bytes.ofText_append s s'⟩

theorem isText_of_ascii (h : ∀ b ∈ t, b.toNat < 128) : IsText t :=
  ⟨t.toLatin1, Bytes.ofText_toLatin1 h⟩

theorem isText_singleton {b : UInt8} (hb : b.toNat < 128) : IsText [b] :=
  isText_of_ascii (by simpa using hb)

theorem IsText.cons {b : UInt8} (ht : IsText t) (hb : b.toNat < 128) : IsText (b :: t) :=
  (isText_singleton hb).append ht

theorem isText_blank (h : Blank gap) : IsText gap := by
  apply isText_of_ascii
  intro b hb
  have hblank : b = 32 ∨ b = 9 ∨ b = 10 ∨ b = 13 := by simpa [isBlank, or_assoc] using h b hb
  rcases hblank with rfl | rfl | rfl | rfl <;> decide

theorem isText_integer (n : Int) : IsText (Decimal.integer n) := by
  have hdigits : ∀ m, ∀ b ∈ Decimal.digits m, b.toNat < 128 := by
    intro m b hb
    have hrange := Decimal.isDigit_iff.mp ((Decimal.isNumeral_digits m).2 b hb)
    omega
  apply isText_of_ascii
  cases n with
  | ofNat m => exact hdigits m
  | negSucc m =>
    intro b hb
    rcases List.mem_cons.mp hb with rfl | hb
    · decide
    · exact hdigits _ b hb

/-- Only bytes below 128 are escaped, and by such bytes. -/
theorem escapeByte_ascii {b : UInt8} (h : b.toNat < 128) : ∀ x ∈ escapeByte b, x.toNat < 128 := by
  have hall : ∀ k : Fin 128, (escapeByte (UInt8.ofNat k)).all (·.toNat < 128) = true := by decide
  simpa using hall ⟨b.toNat, h⟩

theorem escapeByte_of_ge {b : UInt8} (h : 128 ≤ b.toNat) : escapeByte b = [b] := by
  have hne : ∀ c : UInt8, c.toNat < 128 → b ≠ c := by
    rintro c hc rfl
    omega
  have hcontrol : ¬ b < 32 := by
    rw [UInt8.lt_iff_toNat_lt]
    exact fun hlt => absurd (hlt.trans (show (32 : UInt8).toNat < 128 by decide)) (by omega)
  simp [escapeByte, hne, hcontrol]

/-- Characters are escaped one by one. -/
theorem isText_escaped (s : String) : IsText ((Bytes.ofText s).flatMap escapeByte) := by
  rw [Bytes.ofText_eq_flatMap]
  induction s.toList with
  | nil => exact ⟨"", rfl⟩
  | cons c cs ih =>
    rw [List.flatMap_cons, List.flatMap_append]
    refine IsText.append ?_ ih
    by_cases hc : c.toNat < 128
    · have hbyte : String.utf8EncodeChar c = [UInt8.ofNat c.toNat] := by
        simpa using Bytes.utf8EncodeChar_ofNat hc
      rw [hbyte, List.flatMap_singleton]
      exact isText_of_ascii (escapeByte_ascii (by simp; omega))
    · have hsame : (String.utf8EncodeChar c).flatMap escapeByte = String.utf8EncodeChar c := by
        refine (List.flatMap_congr ?_).trans (List.flatMap_singleton' _)
        intro b hb
        exact escapeByte_of_ge (Bytes.utf8EncodeChar_ge (by omega) b hb)
      exact ⟨String.singleton c, by rw [hsame, Bytes.ofText_eq_flatMap]; simp⟩

theorem isText_writeString (s : String) : IsText (writeString (Bytes.ofText s)) := by
  have hquote : IsText [34] := isText_singleton (by decide)
  exact (hquote.append (isText_escaped s)).append hquote

/-- What spells a value is a text. -/
theorem Spells.isText (h : Spells p t) : IsText t := by
  induction h with
  | nullWord => exact ⟨_, rfl⟩
  | trueWord => exact ⟨_, rfl⟩
  | falseWord => exact ⟨_, rfl⟩
  | integer n moderate => exact isText_integer n
  | text s => exact isText_writeString s
  | emptyArray gap blank =>
    exact ((isText_blank blank).cons (by decide)).append (isText_singleton (by decide))
  | array gap blank first others ihfirst ihothers =>
    exact (((isText_blank blank).cons (by decide)).append ihfirst).append ihothers
  | itemsEnd gap blank => exact (isText_blank blank).append (isText_singleton (by decide))
  | item before after blank blank' first others ihfirst ihothers =>
    have hcomma := (isText_blank blank).append ((isText_blank blank').cons (b := 44) (by decide))
    exact (hcomma.append ihfirst).append ihothers
  | emptyObject gap blank =>
    exact ((isText_blank blank).cons (by decide)).append (isText_singleton (by decide))
  | object gap blank first others ihfirst ihothers =>
    exact (((isText_blank blank).cons (by decide)).append ihfirst).append ihothers
  | member name before after blank blank' value ih =>
    have hname := (isText_writeString name).append (isText_blank blank)
    exact (hname.append ((isText_blank blank').cons (by decide))).append ih
  | membersEnd gap blank => exact (isText_blank blank).append (isText_singleton (by decide))
  | nextMember before after blank blank' first others ihfirst ihothers =>
    have hcomma := (isText_blank blank).append ((isText_blank blank').cons (b := 44) (by decide))
    exact (hcomma.append ihfirst).append ihothers

end PicBoard.Json
