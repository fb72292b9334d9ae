import Mathlib.Tactic
import PicBoard.Text.Base64Url

/-!
# One text for each byte string

Reading accepts exactly what writing produces: `decode_eq_ok_iff` says that a text is read as `b`
if and only if it is the text of `b`.  So padding, unused bits and symbols outside the alphabet
are refused, and no two texts are read alike.
-/

namespace PicBoard.Base64Url

/-! ## Symbols -/

/-- Every value is read back from its symbol. -/
theorem value?_symbol {n : Nat} (h : n < 64) : value? (symbol n) = some n := by
  have hall : ∀ k : Fin 64, value? (symbol k) = some k.val := by decide
  exact hall ⟨n, h⟩

/-- Only the symbol of a value is read as it. -/
theorem symbol_of_value? {b : UInt8} {n : Nat} (h : value? b = some n) :
    n < 64 ∧ symbol n = b := by
  have hall : ∀ k : Fin 256, ∀ m ∈ value? (UInt8.ofNat k),
      m < 64 ∧ symbol m = UInt8.ofNat k := by decide +kernel
  have hb := hall ⟨b.toNat, b.toNat_lt⟩
  rw [UInt8.ofNat_toNat] at hb
  exact hb n h

/-- The padding sign is no symbol. -/
theorem symbol_ne_padding {n : Nat} (h : n < 64) : symbol n ≠ padding := by
  intro he
  have hv := value?_symbol h
  rw [he] at hv
  cases hv

/-! ## Groups -/

/-- Three bytes are read back from the values of their four symbols. -/
theorem bytes_of_values (x y z : UInt8) :
    UInt8.ofNat (x.toNat / 4 * 4 + (x.toNat % 4 * 16 + y.toNat / 16) / 16) = x ∧
    UInt8.ofNat ((x.toNat % 4 * 16 + y.toNat / 16) % 16 * 16 +
      (y.toNat % 16 * 4 + z.toNat / 64) / 4) = y ∧
    UInt8.ofNat ((y.toNat % 16 * 4 + z.toNat / 64) % 4 * 64 + z.toNat % 64) = z := by
  have hx := x.toNat_lt
  have hy := y.toNat_lt
  have hz := z.toNat_lt
  refine ⟨?_, ?_, ?_⟩
  · have e : x.toNat / 4 * 4 + (x.toNat % 4 * 16 + y.toNat / 16) / 16 = x.toNat := by omega
    rw [e, UInt8.ofNat_toNat]
  · have e : (x.toNat % 4 * 16 + y.toNat / 16) % 16 * 16 +
        (y.toNat % 16 * 4 + z.toNat / 64) / 4 = y.toNat := by omega
    rw [e, UInt8.ofNat_toNat]
  · have e : (y.toNat % 16 * 4 + z.toNat / 64) % 4 * 64 + z.toNat % 64 = z.toNat := by omega
    rw [e, UInt8.ofNat_toNat]

/-- The bytes of a group, as numbers, from the values of its symbols. -/
theorem toNat_of_values {v w x y : Nat} (hv : v < 64) (hw : w < 64) (hx : x < 64) (hy : y < 64) :
    (UInt8.ofNat (v * 4 + w / 16)).toNat = v * 4 + w / 16 ∧
    (UInt8.ofNat (w % 16 * 16 + x / 4)).toNat = w % 16 * 16 + x / 4 ∧
    (UInt8.ofNat (x % 4 * 64 + y)).toNat = x % 4 * 64 + y := by
  simp only [UInt8.toNat_ofNat']
  omega

/-- A group is written with the symbols from whose values it was read. -/
theorem symbols_of_bytes {v w x y : Nat} (hv : v < 64) (hw : w < 64) (hx : x < 64)
    (hy : y < 64) (rest : Bytes) :
    encode (UInt8.ofNat (v * 4 + w / 16) :: UInt8.ofNat (w % 16 * 16 + x / 4) ::
        UInt8.ofNat (x % 4 * 64 + y) :: rest) =
      symbol v :: symbol w :: symbol x :: symbol y :: encode rest := by
  obtain ⟨h1, h2, h3⟩ := toNat_of_values hv hw hx hy
  simp only [encode, h1, h2, h3]
  have e1 : (v * 4 + w / 16) / 4 = v := by omega
  have e2 : (v * 4 + w / 16) % 4 * 16 + (w % 16 * 16 + x / 4) / 16 = w := by omega
  have e3 : (w % 16 * 16 + x / 4) % 16 * 4 + (x % 4 * 64 + y) / 64 = x := by omega
  have e4 : (x % 4 * 64 + y) % 64 = y := by omega
  rw [e1, e2, e3, e4]

/-- So are two bytes at the end, when the bits that are not used are zero. -/
theorem symbols_of_two {v w x : Nat} (hv : v < 64) (hw : w < 64) (hx : x < 64)
    (hz : x % 4 = 0) :
    encode [UInt8.ofNat (v * 4 + w / 16), UInt8.ofNat (w % 16 * 16 + x / 4)] =
      [symbol v, symbol w, symbol x] := by
  obtain ⟨h1, h2, -⟩ := toNat_of_values hv hw hx hx
  simp only [encode, h1, h2]
  have e1 : (v * 4 + w / 16) / 4 = v := by omega
  have e2 : (v * 4 + w / 16) % 4 * 16 + (w % 16 * 16 + x / 4) / 16 = w := by omega
  have e3 : (w % 16 * 16 + x / 4) % 16 * 4 = x := by omega
  rw [e1, e2, e3]

/-- So is one byte at the end. -/
theorem symbols_of_one {v w : Nat} (hv : v < 64) (hw : w < 64) (hz : w % 16 = 0) :
    encode [UInt8.ofNat (v * 4 + w / 16)] = [symbol v, symbol w] := by
  obtain ⟨h1, -⟩ := toNat_of_values hv hw hw hw
  simp only [encode, h1]
  have e1 : (v * 4 + w / 16) / 4 = v := by omega
  have e2 : (v * 4 + w / 16) % 4 * 16 = w := by omega
  rw [e1, e2]

/-! ## The tail -/

/-- Once padding has begun, a tail is read as padded. -/
theorem padded_of_scanTail {index offset p : Nat} {tail : Bytes} {vs : List Nat} {padded : Bool}
    (h : scanTail index offset (some p) tail = .ok (vs, padded)) : padded = true := by
  induction tail generalizing offset p vs with
  | nil =>
    simp only [scanTail, Except.ok.injEq, Prod.mk.injEq] at h
    exact h.2.symm
  | cons b rest ih =>
    unfold scanTail at h
    split at h
    · split at h
      · cases h
      · exact ih h
    · cases h

/-- The symbols of a tail without padding are those of the values read from it. -/
theorem eq_map_of_scanTail {index offset : Nat} {tail : Bytes} {vs : List Nat}
    (h : scanTail index offset none tail = .ok (vs, false)) :
    tail = vs.map symbol ∧ ∀ v ∈ vs, v < 64 := by
  induction tail generalizing offset vs with
  | nil =>
    simp only [scanTail, Except.ok.injEq, Prod.mk.injEq] at h
    simp [← h.1]
  | cons b rest ih =>
    unfold scanTail at h
    split at h
    · split at h
      · cases h
      · have hp := padded_of_scanTail h
        cases hp
    · simp only at h
      split at h
      · cases h
      · rename_i v hv
        cases hr : scanTail index (offset + 1) none rest with
        | error e =>
          rw [hr] at h
          cases h
        | ok r =>
          obtain ⟨ws, padded⟩ := r
          rw [hr] at h
          simp only [Except.map, Except.ok.injEq, Prod.mk.injEq] at h
          obtain ⟨rfl, rfl⟩ := h
          obtain ⟨hrest, hlt⟩ := ih hr
          obtain ⟨hv64, hsym⟩ := symbol_of_value? hv
          refine ⟨?_, ?_⟩
          · rw [List.map_cons, hsym, ← hrest]
          · intro u hu
            rcases List.mem_cons.mp hu with rfl | hu
            · exact hv64
            · exact hlt u hu

/-- The symbols of values are read as these values, without padding. -/
theorem scanTail_map (vs : List Nat) (h : ∀ v ∈ vs, v < 64) (index offset : Nat) :
    scanTail index offset none (vs.map symbol) = .ok (vs, false) := by
  induction vs generalizing offset with
  | nil => rfl
  | cons v vs ih =>
    have hv : v < 64 := h v (by simp)
    have ih' := ih (fun u hu => h u (by simp [hu])) (offset + 1)
    rw [List.map_cons, scanTail, if_neg (symbol_ne_padding hv)]
    simp only [value?_symbol hv, ih', Except.map]

/-- A tail of at most four symbols that is read as `b` is the text of `b`. -/
theorem eq_encode_of_decodeTail {index : Nat} {tail b : Bytes} (hlen : tail.length ≤ 4)
    (h : decodeTail index tail = .ok b) : tail = encode b := by
  unfold decodeTail at h
  cases hs : scanTail index 0 none tail with
  | error e =>
    rw [hs] at h
    cases h
  | ok r =>
    obtain ⟨vs, padded⟩ := r
    rw [hs] at h
    simp only at h
    split at h
    · cases h
    · rename_i hshort
      split at h
      · cases h
      · rename_i hpad
        have hf : padded = false := by simpa using hpad
        rw [hf] at hs
        obtain ⟨htail, hlt⟩ := eq_map_of_scanTail hs
        have hlen' : vs.length ≤ 4 := by
          rw [htail, List.length_map] at hlen
          exact hlen
        -- How many symbols there are decides how many bytes; one symbol alone is refused.
        match vs, h, hlt, htail, hshort, hlen' with
        | [], h, _, htail, _, _ =>
          simp only [Except.ok.injEq] at h
          rw [htail, ← h]
          rfl
        | [v], _, _, htail, hshort, _ => exact absurd ⟨by simp [htail], by simp⟩ hshort
        | [v, w], h, hlt, htail, _, _ =>
          simp only at h
          split at h
          · cases h
          · rename_i hz
            simp only [Except.ok.injEq] at h
            rw [htail, ← h, symbols_of_one (hlt v (by simp)) (hlt w (by simp)) (by omega)]
            rfl
        | [v, w, x], h, hlt, htail, _, _ =>
          simp only at h
          split at h
          · cases h
          · rename_i hz
            simp only [Except.ok.injEq] at h
            rw [htail, ← h, symbols_of_two (hlt v (by simp)) (hlt w (by simp))
              (hlt x (by simp)) (by omega)]
            rfl
        | [v, w, x, y], h, hlt, htail, _, _ =>
          simp only [Except.ok.injEq] at h
          rw [htail, ← h, symbols_of_bytes (hlt v (by simp)) (hlt w (by simp))
            (hlt x (by simp)) (hlt y (by simp))]
          rfl

/-- The text of at most three bytes is read as a tail. -/
theorem decodeTail_encode {b : Bytes} (hlen : b.length ≤ 3) (index : Nat) :
    decodeTail index (encode b) = .ok b := by
  match b, hlen with
  | [], _ => rfl
  | [x], _ =>
    have hx := x.toNat_lt
    have hscan := scanTail_map [x.toNat / 4, x.toNat % 4 * 16] (by simp; omega) index 0
    have hbyte : x.toNat / 4 * 4 + x.toNat % 4 * 16 / 16 = x.toNat := by omega
    show decodeTail index ([x.toNat / 4, x.toNat % 4 * 16].map symbol) = _
    rw [decodeTail, hscan]
    dsimp only
    rw [if_neg (by simp), if_neg (by simp), if_neg (by omega), hbyte, UInt8.ofNat_toNat]
  | [x, y], _ =>
    -- Two bytes are three with a zero at the end, as far as their symbols go.
    have hscan := scanTail_map
      [x.toNat / 4, x.toNat % 4 * 16 + y.toNat / 16, y.toNat % 16 * 4 + 0 / 64]
      (by have := x.toNat_lt; have := y.toNat_lt; simp; omega) index 0
    obtain ⟨hfirst, hsecond, -⟩ := bytes_of_values x y 0
    show decodeTail index
      ([x.toNat / 4, x.toNat % 4 * 16 + y.toNat / 16, y.toNat % 16 * 4 + 0 / 64].map symbol) = _
    rw [decodeTail, hscan]
    dsimp only
    rw [if_neg (by simp), if_neg (by simp), if_neg (by omega), hfirst]
    exact congrArg (fun t => Except.ok [x, t]) hsecond
  | [x, y, z], _ =>
    have hscan := scanTail_map
      [x.toNat / 4, x.toNat % 4 * 16 + y.toNat / 16, y.toNat % 16 * 4 + z.toNat / 64,
        z.toNat % 64]
      (by have := x.toNat_lt; have := y.toNat_lt; have := z.toNat_lt; simp; omega) index 0
    obtain ⟨hfirst, hsecond, hthird⟩ := bytes_of_values x y z
    show decodeTail index
      ([x.toNat / 4, x.toNat % 4 * 16 + y.toNat / 16, y.toNat % 16 * 4 + z.toNat / 64,
        z.toNat % 64].map symbol) = _
    rw [decodeTail, hscan]
    dsimp only
    rw [if_neg (by simp), if_neg (by simp), hfirst, hsecond, hthird]

/-! ## The whole text -/

/-- Only no bytes have the empty text. -/
theorem encode_eq_nil_iff {b : Bytes} : encode b = [] ↔ b = [] := by
  match b with
  | [] | [_] | [_, _] | _ :: _ :: _ :: _ => simp [encode]

/-- Up to four symbols are a tail. -/
theorem decodeFrom_of_short {text : Bytes} (h : text.length ≤ 4) (index : Nat) :
    decodeFrom index text = decodeTail index text := by
  match text, h with
  | [], _ => rfl
  | [_], _ => rfl
  | [_, _], _ => rfl
  | [_, _, _], _ => rfl
  | [_, _, _, _], _ => rfl

/-- What is read from the start of a group on is the bytes of that text. -/
theorem eq_encode_of_decodeFrom {index : Nat} {text b : Bytes}
    (h : decodeFrom index text = .ok b) : text = encode b := by
  -- By the recursion of the reader: a group and more, a group with a bad symbol in one of its
  -- four places, or a tail.
  induction index, text using decodeFrom.induct generalizing b with
  | case1 index s t u r e rest v w x y hr hu ht hs ih =>
    unfold decodeFrom at h
    simp only [hs, ht, hu, hr] at h
    cases hmore : decodeFrom (index + 4) (e :: rest) with
    | error err =>
      rw [hmore] at h
      cases h
    | ok more =>
      rw [hmore] at h
      simp only [Except.map, Except.ok.injEq] at h
      obtain ⟨hv, rfl⟩ := symbol_of_value? hs
      obtain ⟨hw, rfl⟩ := symbol_of_value? ht
      obtain ⟨hx, rfl⟩ := symbol_of_value? hu
      obtain ⟨hy, rfl⟩ := symbol_of_value? hr
      rw [← h, symbols_of_bytes hv hw hx hy, ← ih hmore]
  | case2 index s t u r e rest hs =>
    simp [decodeFrom, hs] at h
  | case3 index s t u r e rest ht hs =>
    obtain ⟨v, hv⟩ := Option.ne_none_iff_exists'.mp hs
    simp [decodeFrom, hv, ht] at h
  | case4 index s t u r e rest hu hs ht =>
    obtain ⟨v, hv⟩ := Option.ne_none_iff_exists'.mp hs
    obtain ⟨w, hw⟩ := Option.ne_none_iff_exists'.mp ht
    simp [decodeFrom, hv, hw, hu] at h
  | case5 index s t u r e rest hr hs ht hu =>
    obtain ⟨v, hv⟩ := Option.ne_none_iff_exists'.mp hs
    obtain ⟨w, hw⟩ := Option.ne_none_iff_exists'.mp ht
    obtain ⟨x, hx⟩ := Option.ne_none_iff_exists'.mp hu
    simp [decodeFrom, hv, hw, hx, hr] at h
  | case6 index tail hshort =>
    have hlen : tail.length ≤ 4 := by
      match tail, hshort with
      | [], _ | [_], _ | [_, _], _ | [_, _, _], _ | [_, _, _, _], _ => simp
      | a :: b :: c :: d :: e :: rest, hshort => exact absurd rfl (hshort a b c d e rest)
    rw [decodeFrom_of_short hlen] at h
    exact eq_encode_of_decodeTail hlen h

/-- The text of bytes is read as these bytes. -/
theorem decodeFrom_encode (index : Nat) (b : Bytes) : decodeFrom index (encode b) = .ok b := by
  induction b using encode.induct generalizing index with
  | case1 => rfl
  | case2 x => exact decodeTail_encode (b := [x]) (by simp) index
  | case3 x y => exact decodeTail_encode (b := [x, y]) (by simp) index
  | case4 x y z rest ih =>
    -- The last group is read as a tail, and every other as a group.
    cases hrest : encode rest with
    | nil =>
      rw [encode_eq_nil_iff.mp hrest]
      exact decodeTail_encode (b := [x, y, z]) (by simp) index
    | cons e more =>
      have hx := x.toNat_lt
      have hy := y.toNat_lt
      have hz := z.toNat_lt
      obtain ⟨hfirst, hsecond, hthird⟩ := bytes_of_values x y z
      have hmore := ih (index + 4)
      rw [hrest] at hmore
      rw [encode, hrest, decodeFrom, value?_symbol (by omega), value?_symbol (by omega),
        value?_symbol (by omega), value?_symbol (by omega)]
      simp only [hmore, Except.map, hfirst, hsecond, hthird]

/-- Every byte of a text is a symbol. -/
theorem value?_of_mem_encode {s : UInt8} {b : Bytes} (h : s ∈ encode b) :
    ∃ n, value? s = some n := by
  induction b using encode.induct with
  | case1 => cases h
  | case2 x =>
    have hx := x.toNat_lt
    simp only [encode, List.mem_cons, List.not_mem_nil, or_false] at h
    rcases h with rfl | rfl
    · exact ⟨_, value?_symbol (by omega)⟩
    · exact ⟨_, value?_symbol (by omega)⟩
  | case3 x y =>
    have hx := x.toNat_lt
    have hy := y.toNat_lt
    simp only [encode, List.mem_cons, List.not_mem_nil, or_false] at h
    rcases h with rfl | rfl | rfl
    · exact ⟨_, value?_symbol (by omega)⟩
    · exact ⟨_, value?_symbol (by omega)⟩
    · exact ⟨_, value?_symbol (by omega)⟩
  | case4 x y z rest ih =>
    have hx := x.toNat_lt
    have hy := y.toNat_lt
    have hz := z.toNat_lt
    simp only [encode, List.mem_cons] at h
    rcases h with rfl | rfl | rfl | rfl | h
    · exact ⟨_, value?_symbol (by omega)⟩
    · exact ⟨_, value?_symbol (by omega)⟩
    · exact ⟨_, value?_symbol (by omega)⟩
    · exact ⟨_, value?_symbol (by omega)⟩
    · exact ih h

/-- A text is read as `b` exactly when it is the text of `b`. -/
theorem decode_eq_ok_iff {text b : Bytes} : decode text = .ok b ↔ text = encode b := by
  constructor
  · intro h
    unfold decode at h
    split at h
    · split at h
      · cases h
      · exact eq_encode_of_decodeFrom h
    · rename_i hlast
      simp only [Except.ok.injEq] at h
      rw [List.getLast?_eq_none_iff.mp hlast, ← h]
      rfl
  · rintro rfl
    unfold decode
    split
    · -- the check of the last symbol passes, as every byte of a text is a symbol
      rename_i last hlast
      obtain ⟨n, hn⟩ := value?_of_mem_encode (List.mem_of_getLast? hlast)
      rw [if_neg (by simp [hn])]
      exact decodeFrom_encode 0 b
    · rename_i hlast
      have hfrom := decodeFrom_encode 0 b
      rw [List.getLast?_eq_none_iff.mp hlast] at hfrom
      exact hfrom

/-- The symbols are letters, digits, hyphen and underscore. -/
theorem toNat_of_value? {b : UInt8} {n : Nat} (h : value? b = some n) :
    45 ≤ b.toNat ∧ b.toNat ≤ 122 := by
  unfold value? at h
  dsimp only at h
  split_ifs at h <;> omega

/-- A byte that is no symbol stands in no text. -/
theorem not_mem_encode {s : UInt8} (h : value? s = none) (b : Bytes) : s ∉ encode b := by
  intro hs
  obtain ⟨n, hn⟩ := value?_of_mem_encode hs
  rw [h] at hn
  cases hn

end PicBoard.Base64Url
