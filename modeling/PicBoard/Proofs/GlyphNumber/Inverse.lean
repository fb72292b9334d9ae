import Mathlib.Tactic
import PicBoard.Proofs.GlyphNumber.Words

/-!
# Reading glyph numbers undoes writing them

A number is read at the front of exactly those bytes that begin with its text, but for look-alikes
(`decode_eq_ok_iff`).  So a number has one text without look-alikes, and no text goes on as another
(`encode_prefix_iff`).  `Refused` lists why other bytes are refused, and `decode_eq_error_iff` says
that the list is complete and that its rules do not overlap.
-/

namespace PicBoard.GlyphNumber

/-! ## Look-alikes -/

theorem fold_glyph {v : Nat} (h : v < 32) : fold (glyph v) = glyph v :=
  (value?_eq_some_iff.mp (value?_glyph h)).2.symm

theorem fold_lengthGlyph {len : Nat} (h : len ≤ maxBody) :
    fold (lengthGlyph len) = lengthGlyph len := by
  apply fold_glyph
  simp only [maxBody] at h
  omega

@[simp] theorem value?_fold (b : UInt8) : value? (fold b) = value? b := by
  unfold value?
  rw [fold_fold]

@[simp] theorem length?_fold (b : UInt8) : length? (fold b) = length? b := by
  unfold length?
  rw [value?_fold]

/-- A look-alike is as good as the digit it looks like. -/
theorem decode_map_fold (s : Bytes) : decode (s.map fold) = decode s := by
  cases s with
  | nil => rfl
  | cons first rest =>
    have hvalues : ∀ len, ((rest.map fold).take len).mapM value? = (rest.take len).mapM value? := by
      intro len
      rw [← List.map_take, List.mapM_map]
      congr 1
      funext b
      exact value?_fold b
    rw [List.map_cons, decode, decode, length?_fold, List.length_map]
    simp only [hvalues]

/-- A look-alike in a text as the digit it looks like. -/
def foldChar (c : Char) : Char :=
  if c = 'O' ∨ c = 'o' then '0'
  else if c = 'I' ∨ c = 'i' ∨ c = 'L' ∨ c = 'l' then '1'
  else c

/-- A text with digits for their look-alikes. -/
def foldText (s : String) : String := s.map foldChar

theorem utf8EncodeChar_foldChar (c : Char) :
    String.utf8EncodeChar (foldChar c) = (String.utf8EncodeChar c).map fold := by
  refine Bytes.utf8EncodeChar_map (by decide +kernel) ?_ ?_ c
  · -- no other character is a look-alike
    intro c hc
    unfold foldChar
    split_ifs with h0 h1
    · rcases h0 with rfl | rfl <;> exact absurd hc (by decide)
    · rcases h1 with rfl | rfl | rfl | rfl <;> exact absurd hc (by decide)
    · rfl
  · -- nor is a byte of one
    intro b hb
    unfold fold
    split_ifs with h0 h1
    · rcases h0 with rfl | rfl <;> exact absurd hb (by decide)
    · rcases h1 with rfl | rfl | rfl | rfl <;> exact absurd hb (by decide)
    · rfl

/-- Look-alikes are the same in a text and in its bytes. -/
theorem ofText_foldText (s : String) :
    Bytes.ofText (foldText s) = (Bytes.ofText s).map fold := by
  rw [Bytes.ofText_eq_flatMap, Bytes.ofText_eq_flatMap, foldText, String.toList_map,
    List.map_flatMap, List.flatMap_map]
  congr 1
  funext c
  exact utf8EncodeChar_foldChar c

/-- A byte has a value when it is in the alphabet or looks like a digit of it. -/
theorem value?_eq_none_iff {b : UInt8} : value? b = none ↔ fold b ∉ alphabet :=
  List.idxOf?_eq_none_iff

/-- A length is announced by its glyph alone, for no glyph of a length has a look-alike. -/
theorem length?_eq_some_iff {b : UInt8} {len : Nat} :
    length? b = some len ↔ len ≤ maxBody ∧ b = lengthGlyph len := by
  have hdigits : ∀ k : Fin 16, glyph (16 + k) ≠ 48 ∧ glyph (16 + k) ≠ 49 := by decide +kernel
  constructor
  · intro h
    unfold length? at h
    split at h
    · rename_i v hv
      split at h
      · rename_i hrange
        cases h
        rcases value?_eq_some_iff.mp hv with ⟨hlt, hglyph⟩
        have hnot := hdigits ⟨v - 16, by omega⟩
        rw [Nat.add_sub_cancel' hrange.1, hglyph] at hnot
        -- what folding changes becomes a digit
        have hsame : fold b = b := by
          unfold fold at hnot ⊢
          split_ifs at hnot ⊢ with h0 h1
          · exact absurd rfl hnot.1
          · exact absurd rfl hnot.2
          · rfl
        refine ⟨hrange.2, ?_⟩
        rw [lengthGlyph, Nat.add_sub_cancel' hrange.1, hglyph, hsame]
      · cases h
    · cases h
  · rintro ⟨hlen, rfl⟩
    exact length?_lengthGlyph hlen

theorem length?_eq_none_iff {b : UInt8} :
    length? b = none ↔ ∀ len ≤ maxBody, b ≠ lengthGlyph len := by
  rw [Option.eq_none_iff_forall_ne_some]
  constructor
  · intro h len hlen hb
    exact h len (length?_eq_some_iff.mpr ⟨hlen, hb⟩)
  · intro h len hlength
    rcases length?_eq_some_iff.mp hlength with ⟨hlen, hb⟩
    exact h len hlen hb

/-- The glyphs that announce the lengths from 0 to 13. -/
example : (List.range (maxBody + 1)).map lengthGlyph = Bytes.ofText "ghjkmnpqrstvwx" := by
  decide +kernel

/-! ## The number of a text -/

theorem digits_add_mul (len n c : Nat) : digits len (c * 32 ^ len + n) = digits len n := by
  induction len generalizing c with
  | zero => rfl
  | succ len ih =>
    have hpow : c * 32 ^ (len + 1) + n = c * 32 * 32 ^ len + n := by
      rw [pow_succ]
      ring
    have hhead : (c * 32 * 32 ^ len + n) / 32 ^ len % 32 = n / 32 ^ len % 32 := by
      rw [Nat.add_comm, Nat.add_mul_div_right _ _ (Nat.pow_pos (by decide)),
        Nat.add_mul_mod_self_right]
    rw [digits, digits, hpow, hhead, ih]

/-- Values below 32 are the digits of the number that they denote. -/
theorem digits_ofValues {vs : List Nat} (h : ∀ v ∈ vs, v < 32) :
    digits vs.length (ofValues vs) = vs := by
  induction vs with
  | nil => rfl
  | cons v vs ih =>
    have hv : v < 32 := h v List.mem_cons_self
    have hvs : ∀ u ∈ vs, u < 32 := fun u hu => h u (List.mem_cons_of_mem _ hu)
    have hlow : ofValues vs < 32 ^ vs.length := ofValues_lt hvs
    have hhead : (v * 32 ^ vs.length + ofValues vs) / 32 ^ vs.length % 32 = v := by
      rw [Nat.add_comm, Nat.add_mul_div_right _ _ (Nat.pow_pos (by decide)),
        Nat.div_eq_of_lt hlow, Nat.zero_add, Nat.mod_eq_of_lt hv]
    rw [List.length_cons, ofValues_cons, digits, hhead, digits_add_mul, ih hvs]

/-- Values are written by their glyphs, after the glyph of their number. -/
theorem encodeNat_ofValues {vs : List Nat} (h : ∀ v ∈ vs, v < 32) (hlen : vs.length ≤ maxBody) :
    encodeNat (ofValues vs + firstOfLength vs.length) =
      lengthGlyph vs.length :: vs.map glyph := by
  have hlow : ofValues vs < 32 ^ vs.length := ofValues_lt h
  have hlength : bodyLength (ofValues vs + firstOfLength vs.length) = vs.length := by
    apply bodyLength_eq hlen (Nat.le_add_left _ _)
    intro _
    rw [firstOfLength_succ]
    omega
  rw [encodeNat, hlength, Nat.add_sub_cancel, body_eq_map, digits_ofValues h]

/-- The text of a number has no look-alikes. -/
theorem map_fold_encode (n : Int64) : (encode n).map fold = encode n := by
  rw [encode, encodeNat, List.map_cons, fold_lengthGlyph (bodyLength_le _), body_eq_map,
    List.map_map]
  congr 1
  apply List.map_congr_left
  intro v hv
  exact fold_glyph (digits_lt hv)

theorem glyph_mem_alphabet {v : Nat} (h : v < 32) : glyph v ∈ alphabet := by
  by_contra hnot
  rw [← fold_glyph h, ← value?_eq_none_iff, value?_glyph h] at hnot
  cases hnot

/-- The text of a number is made of glyphs. -/
theorem mem_alphabet_of_mem_encode {n : Int64} {b : UInt8} (h : b ∈ encode n) : b ∈ alphabet := by
  rw [encode, encodeNat, body_eq_map] at h
  rcases List.mem_cons.mp h with rfl | h
  · apply glyph_mem_alphabet
    have hlen := bodyLength_le n.toUInt64.toNat
    simp only [maxBody] at hlen
    omega
  · rcases List.mem_map.mp h with ⟨v, hv, rfl⟩
    exact glyph_mem_alphabet (digits_lt hv)

/-! ## The front of some bytes -/

/-- How bytes begin: with nothing; with a byte that announces no length; with one that announces
more than follows; or with one that the bytes of a body follow. -/
inductive Front : Bytes → Prop where
  | empty : Front []
  | unannounced (first : UInt8) (rest : Bytes) (unannounced : length? first = none) :
      Front (first :: rest)
  | short (len : Nat) (rest : Bytes) (announced : len ≤ maxBody) (short : rest.length < len) :
      Front (lengthGlyph len :: rest)
  | whole (body rest : Bytes) (announced : body.length ≤ maxBody) :
      Front (lengthGlyph body.length :: (body ++ rest))

theorem front (s : Bytes) : Front s := by
  cases s with
  | nil => exact .empty
  | cons first rest =>
    cases hlength : length? first with
    | none => exact .unannounced first rest hlength
    | some len =>
      rcases length?_eq_some_iff.mp hlength with ⟨hlen, rfl⟩
      by_cases hshort : rest.length < len
      · exact .short len rest hlen hshort
      · have hcount : (rest.take len).length = len := by
          rw [List.length_take]
          omega
        have hwhole := Front.whole (rest.take len) (rest.drop len) (by omega)
        rwa [hcount, List.take_append_drop] at hwhole

theorem decode_unannounced {first : UInt8} (rest : Bytes) (h : length? first = none) :
    decode (first :: rest) = .error .invalidLength := by
  rw [decode, h]

theorem decode_short {len : Nat} {rest : Bytes} (hlen : len ≤ maxBody)
    (hshort : rest.length < len) : decode (lengthGlyph len :: rest) = .error .truncated := by
  rw [decode]
  simp only [length?_lengthGlyph hlen, if_pos hshort]

/-- What is announced and there is read, or refused for its glyphs. -/
theorem decode_announced {body : Bytes} (rest : Bytes) (hlen : body.length ≤ maxBody) :
    decode (lengthGlyph body.length :: (body ++ rest)) =
      match body.mapM value? with
      | none => .error .invalidSymbol
      | some values =>
        let n := ofValues values + firstOfLength body.length
        if n < UInt64.size then .ok ((UInt64.ofNat n).toInt64, body.length + 1)
        else .error .overflow := by
  rw [decode]
  simp only [length?_lengthGlyph hlen, List.length_append, List.take_left]
  exact if_neg (by omega)

/-! ## What is read -/

/-- What is read as a number is its text, but for look-alikes. -/
theorem text_of_decode {s : Bytes} {n : Int64} {used : Nat} (h : decode s = .ok (n, used)) :
    used ≤ s.length ∧ (s.take used).map fold = encode n := by
  cases front s with
  | empty => cases h
  | unannounced first rest unannounced =>
    rw [decode_unannounced rest unannounced] at h
    cases h
  | short len rest announced short =>
    rw [decode_short announced short] at h
    cases h
  | whole body rest announced =>
    rw [decode_announced rest announced] at h
    split at h
    · cases h
    · rename_i values hvalues
      dsimp only at h
      split at h
      · rename_i hsize
        cases h
        rcases mapM_value?_eq_some_iff.mp hvalues with ⟨hbound, hglyphs⟩
        have hcount : values.length = body.length := by
          have hlengths := congrArg List.length hglyphs
          rwa [List.length_map, List.length_map] at hlengths
        have hword :
            (UInt64.ofNat (ofValues values + firstOfLength body.length)).toInt64.toUInt64.toNat =
              ofValues values + firstOfLength body.length := by
          rw [UInt64.toUInt64_toInt64]
          exact UInt64.toNat_ofNat_of_lt' hsize
        constructor
        · rw [List.length_cons, List.length_append]
          omega
        · rw [encode, hword, ← hcount, encodeNat_ofValues hbound (by omega), hcount,
            List.take_succ_cons, List.take_left, List.map_cons, ← hglyphs,
            fold_lengthGlyph announced]
      · cases h

/-- What is read and what is left of the bytes make them up, but for look-alikes. -/
theorem map_fold_of_decode {s : Bytes} {n : Int64} {used : Nat} (h : decode s = .ok (n, used)) :
    s.map fold = encode n ++ (s.drop used).map fold := by
  rw [← (text_of_decode h).2, ← List.map_append, List.take_append_drop]

/-- The bytes that are read as a number are characters of their own in a text. -/
theorem ascii_of_decode {s : Bytes} {n : Int64} {used : Nat} (h : decode s = .ok (n, used)) :
    ∀ b ∈ s.take used, b.toNat < 128 := by
  intro b hb
  have hfolded : (fold b).toNat < 128 := by
    apply encode_ascii (n := n)
    rw [← (text_of_decode h).2]
    exact List.mem_map_of_mem hb
  unfold fold at hfolded
  split_ifs at hfolded with h0 h1
  · rcases h0 with rfl | rfl <;> decide
  · rcases h1 with rfl | rfl | rfl | rfl <;> decide
  · exact hfolded

/-- A number is read at the front of exactly the bytes that begin with its text, but for
look-alikes. -/
theorem decode_eq_ok_iff {s : Bytes} {n : Int64} {used : Nat} :
    decode s = .ok (n, used) ↔ used ≤ s.length ∧ (s.take used).map fold = encode n := by
  constructor
  · exact text_of_decode
  · rintro ⟨hused, htext⟩
    have hfolded : s.map fold = encode n ++ (s.drop used).map fold := by
      rw [← htext, ← List.map_append, List.take_append_drop]
    have hlength : (encode n).length = used := by
      rw [← htext, List.length_map, List.length_take, Nat.min_eq_left hused]
    rw [← decode_map_fold, hfolded, decode_encode_append, hlength]

/-- Behind a number that is read a text may be cut. -/
theorem textFrom?_of_decode {s : String} {n : Int64} {used : Nat}
    (h : decode (Bytes.ofText s) = .ok (n, used)) :
    ∃ t, Bytes.textFrom? s used = some t ∧ Bytes.ofText t = (Bytes.ofText s).drop used := by
  have hused : used ≤ (Bytes.ofText s).length := (decode_eq_ok_iff.mp h).1
  rcases Bytes.exists_textFrom? hused (ascii_of_decode h) with ⟨t, ht⟩
  exact ⟨t, ht, Bytes.ofText_textFrom? ht⟩

/-- A number is read from exactly its text, but for look-alikes. -/
theorem decodeAll_eq_ok_iff {s : Bytes} {n : Int64} :
    decodeAll s = .ok n ↔ s.map fold = encode n := by
  unfold decodeAll
  constructor
  · intro h
    split at h
    · cases h
    · rename_i m used hread
      split at h
      · rename_i hall
        cases h
        have htext := (decode_eq_ok_iff.mp hread).2
        rwa [hall, List.take_length] at htext
      · cases h
  · intro htext
    have hread : decode s = .ok (n, s.length) := by
      apply decode_eq_ok_iff.mpr
      rw [List.take_length]
      exact ⟨le_rfl, htext⟩
    rw [hread]
    exact if_pos rfl

/-- No text of a number is the start of another's. -/
theorem encode_prefix_iff {m n : Int64} : encode m <+: encode n ↔ m = n := by
  constructor
  · rintro ⟨rest, hrest⟩
    have hm : decode (encode m ++ rest) = .ok (m, (encode m).length) := decode_encode_append m rest
    have hn : decode (encode n ++ []) = .ok (n, (encode n).length) := decode_encode_append n []
    rw [List.append_nil, ← hrest, hm] at hn
    exact (Prod.mk.inj (Except.ok.inj hn)).1
  · rintro rfl
    exact List.prefix_refl _

/-! ## What is refused -/

/-- Why bytes do not begin with the text of a number: they are empty; or else their first byte
announces no length; or else fewer bytes follow than it announces; or else one of these has no
value; or else they are glyphs that stand for no number of 64 bits. -/
inductive Refused : Bytes → Error → Prop where
  | noInput : Refused [] .noInput
  | invalidLength (first : UInt8) (rest : Bytes)
      (unannounced : ∀ len ≤ maxBody, first ≠ lengthGlyph len) :
      Refused (first :: rest) .invalidLength
  | truncated (len : Nat) (rest : Bytes) (announced : len ≤ maxBody)
      (short : rest.length < len) :
      Refused (lengthGlyph len :: rest) .truncated
  | invalidSymbol (body rest : Bytes) (announced : body.length ≤ maxBody)
      (b : UInt8) (mem : b ∈ body) (foreign : fold b ∉ alphabet) :
      Refused (lengthGlyph body.length :: (body ++ rest)) .invalidSymbol
  | overflow (body rest : Bytes) (announced : body.length ≤ maxBody)
      (glyphs : ∀ b ∈ body, fold b ∈ alphabet)
      (unwritten : ∀ n, encode n ≠ lengthGlyph body.length :: body.map fold) :
      Refused (lengthGlyph body.length :: (body ++ rest)) .overflow

theorem mapM_value?_eq_none_iff {s : Bytes} :
    s.mapM value? = none ↔ ∃ b ∈ s, fold b ∉ alphabet := by
  induction s with
  | nil => simp
  | cons b s ih =>
    have hhead : value? b = none ↔ fold b ∉ alphabet := value?_eq_none_iff
    rw [List.mapM_cons, List.exists_mem_cons_iff, ← hhead, ← ih]
    cases value? b with
    | none => simp
    | some v =>
      cases s.mapM value? with
      | none => simp
      | some vs => simp

/-- What is announced and there is read when it is the text of a number. -/
theorem decode_announced_eq_ok_iff {body : Bytes} (rest : Bytes) {n : Int64}
    (hlen : body.length ≤ maxBody) :
    decode (lengthGlyph body.length :: (body ++ rest)) = .ok (n, body.length + 1) ↔
      encode n = lengthGlyph body.length :: body.map fold := by
  have hcount : body.length + 1 ≤ (lengthGlyph body.length :: (body ++ rest)).length := by
    rw [List.length_cons, List.length_append]
    omega
  rw [decode_eq_ok_iff, List.take_succ_cons, List.take_left, List.map_cons, fold_lengthGlyph hlen]
  constructor
  · rintro ⟨-, htext⟩
    exact htext.symm
  · intro htext
    exact ⟨hcount, htext.symm⟩

/-- Bytes that begin with no text of a number are refused for the first reason there is. -/
theorem refused_of_decode {s : Bytes} {e : Error} (h : decode s = .error e) : Refused s e := by
  cases front s with
  | empty =>
    cases h
    exact .noInput
  | unannounced first rest unannounced =>
    rw [decode_unannounced rest unannounced] at h
    cases h
    exact .invalidLength first rest (length?_eq_none_iff.mp unannounced)
  | short len rest announced short =>
    rw [decode_short announced short] at h
    cases h
    exact .truncated len rest announced short
  | whole body rest announced =>
    have hread := decode_announced rest announced
    cases hvalues : body.mapM value? with
    | none =>
      rcases mapM_value?_eq_none_iff.mp hvalues with ⟨b, hb, hforeign⟩
      rw [hread, hvalues] at h
      cases h
      exact .invalidSymbol body rest announced b hb hforeign
    | some values =>
      have hglyphs : ∀ b ∈ body, fold b ∈ alphabet := by
        intro b hb
        by_contra hforeign
        have hnone := mapM_value?_eq_none_iff.mpr ⟨b, hb, hforeign⟩
        rw [hvalues] at hnone
        cases hnone
      have hunwritten : ∀ n, encode n ≠ lengthGlyph body.length :: body.map fold := by
        intro n htext
        have hok := (decode_announced_eq_ok_iff rest announced).mpr htext
        rw [h] at hok
        cases hok
      rw [hread, hvalues] at h
      dsimp only at h
      split at h
      · cases h
      · cases h
        exact .overflow body rest announced hglyphs hunwritten

/-- Bytes are refused for exactly one reason, unless a number is read. -/
theorem decode_eq_error_iff {s : Bytes} {e : Error} : decode s = .error e ↔ Refused s e := by
  constructor
  · exact refused_of_decode
  · intro h
    cases h with
    | noInput => rfl
    | invalidLength first rest unannounced =>
      exact decode_unannounced rest (length?_eq_none_iff.mpr unannounced)
    | truncated len rest announced short =>
      exact decode_short announced short
    | invalidSymbol body rest announced b mem foreign =>
      rw [decode_announced rest announced, mapM_value?_eq_none_iff.mpr ⟨b, mem, foreign⟩]
    | overflow body rest announced glyphs unwritten =>
      have hread := decode_announced rest announced
      cases hvalues : body.mapM value? with
      | none =>
        rcases mapM_value?_eq_none_iff.mp hvalues with ⟨b, hb, hforeign⟩
        exact absurd (glyphs b hb) hforeign
      | some values =>
        rw [hvalues] at hread
        dsimp only at hread
        split at hread
        · have htext := (decode_announced_eq_ok_iff rest announced).mp hread
          exact absurd htext (unwritten _)
        · exact hread

/-! ## Both directions -/

/-- A number is read at the front of exactly the bytes that begin with its text, but for
look-alikes; from other bytes none is, for the reason that `Refused` gives.  A number has one text
without look-alikes, no text is the start of another, and neither writing nor reading leaves the
words in which machines compute. -/
theorem decode_inverts_encode :
    (∀ (s : Bytes) (n : Int64) (used : Nat),
      decode s = .ok (n, used) ↔ used ≤ s.length ∧ (s.take used).map fold = encode n) ∧
    (∀ (n : Int64) (s : Bytes), s.map fold = s ∧ decode s = .ok (n, s.length) ↔ s = encode n) ∧
    (∀ m n : Int64, encode m <+: encode n ↔ m = n) ∧
    (∀ (n : Int64) (rest : Bytes), decode (encode n ++ rest) = .ok (n, (encode n).length)) ∧
    (∀ n : Int64, encodeInWords? n = some (encode n)) ∧
    (∀ s : Bytes, decodeInWords? s = some (decode s)) ∧
    ∀ (s : Bytes) (e : Error), decode s = .error e ↔ Refused s e := by
  refine ⟨fun _ _ _ => decode_eq_ok_iff, ?_, fun _ _ => encode_prefix_iff, decode_encode_append,
    encodeInWords?_eq, decodeInWords?_eq, fun _ _ => decode_eq_error_iff⟩
  intro n s
  constructor
  · rintro ⟨hfolded, hread⟩
    have htext := (decode_eq_ok_iff.mp hread).2
    rwa [List.take_length, hfolded] at htext
  · rintro rfl
    have hread := decode_encode_append n []
    rw [List.append_nil] at hread
    exact ⟨map_fold_encode n, hread⟩

end PicBoard.GlyphNumber
