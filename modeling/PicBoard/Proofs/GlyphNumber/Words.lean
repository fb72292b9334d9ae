import Mathlib.Tactic
import PicBoard.Proofs.GlyphNumber.RoundTrip

/-!
# Glyph numbers in machine words

A writer may keep what is left of a number in a word of 64 bits, and a reader may gather glyphs in
one of 128.  Here every step of both has a width, and a step whose result does not fit its word
gives none.  No step of either ever does (`encodeInWords?_eq`, `decodeInWords?_eq`): they give what
writing and reading give in numbers of any size.
-/

namespace PicBoard.GlyphNumber

/-! ## Words -/

/-- A number as a word of so many bits; there is none when it does not fit. -/
def word? (width n : Nat) : Option Nat :=
  if n < 2 ^ width then some n else none

/-- What is left of a word; there is none when more is taken away than there is. -/
def minus? (m n : Nat) : Option Nat :=
  if n ≤ m then some (m - n) else none

/-- A word shifted up.  There is none when a bit is lost, or when it is shifted by its width. -/
def shiftUp? (width n k : Nat) : Option Nat :=
  if k < width then word? width (n <<< k) else none

/-- A word shifted down, which loses the low bits.  There is none when it is shifted by its
width. -/
def shiftDown? (width n k : Nat) : Option Nat :=
  if k < width then some (n >>> k) else none

/-! ## Writing -/

/-- From a length on, takes the numbers of each length off a number, as long as that many are
left: the length of its text, and what is left for the glyphs after the first.  `more` is how many
lengths there are above this one. -/
def measure? : (more len rem : Nat) → Option (Nat × Nat)
  | 0, len, rem => some (len, rem)
  | more + 1, len, rem => do
    let span ← shiftUp? 64 1 (5 * len)
    if rem < span then return (len, rem)
    measure? more (← word? 64 (len + 1)) (← minus? rem span)

/-- The glyphs of the low groups of five bits, most significant first. -/
def groups? : (len rem : Nat) → Option Bytes
  | 0, _ => some []
  | len + 1, rem => do
    let top ← shiftDown? 64 rem (5 * len)
    let g ← alphabet[top &&& 31]?
    return g :: (← groups? len rem)

/-- Writes a number in words of 64 bits. -/
def encodeInWords? (n : Int64) : Option Bytes := do
  let (len, rem) ← measure? maxBody 0 n.toUInt64.toNat
  let first ← alphabet[16 + len]?
  return first :: (← groups? len rem)

/-! ## Reading -/

/-- Gathers glyphs in a word of 128 bits, five bits each. -/
def gather? : (num : Nat) → Bytes → Option (Except Error Nat)
  | num, [] => some (.ok num)
  | num, b :: rest =>
    match value? b with
    | none => some (.error .invalidSymbol)
    | some v => do gather? ((← shiftUp? 128 num 5) ||| v) rest

/-- The least number of a length, summed up in a word of 128 bits. -/
def offset? : (len : Nat) → Option Nat
  | 0 => some 0
  | len + 1 => do word? 128 ((← offset? len) + (← shiftUp? 128 1 (5 * len)))

/-- Reads the number at the front of `s` in words of 128 bits. -/
def decodeInWords? (s : Bytes) : Option (Except Error (Int64 × Nat)) :=
  match s with
  | [] => some (.error .noInput)
  | first :: rest =>
    match value? first with
    | none => some (.error .invalidLength)
    | some v => do
      if v < 16 then return .error .invalidLength
      let len ← minus? v 16
      if maxBody < len then return .error .invalidLength
      if rest.length < len then return .error .truncated
      match ← gather? 0 (rest.take len) with
      | .error e => return .error e
      | .ok num =>
        let n ← word? 128 (num + (← offset? len))
        let used ← word? 64 (len + 1)
        if n < UInt64.size then return .ok ((UInt64.ofNat n).toInt64, used)
        return .error .overflow

/-! ## Steps that fit -/

theorem word?_of_lt {width n : Nat} (h : n < 2 ^ width) : word? width n = some n := if_pos h

theorem minus?_of_le {m n : Nat} (h : n ≤ m) : minus? m n = some (m - n) := if_pos h

theorem shiftUp?_of_lt {width n k : Nat} (hk : k < width) (h : n * 2 ^ k < 2 ^ width) :
    shiftUp? width n k = some (n * 2 ^ k) := by
  rw [shiftUp?, if_pos hk, Nat.shiftLeft_eq, word?_of_lt h]

/-- The numbers of one length, five bits for each glyph. -/
theorem shiftUp?_one {width len : Nat} (h : 5 * len < width) :
    shiftUp? width 1 (5 * len) = some (32 ^ len) := by
  have hspan : 1 * 2 ^ (5 * len) = 32 ^ len := by
    rw [Nat.one_mul, Nat.pow_mul]
  have hfits : 1 * 2 ^ (5 * len) < 2 ^ width := by
    rw [Nat.one_mul]
    exact Nat.pow_lt_pow_right (by decide) h
  rw [shiftUp?_of_lt h hfits, hspan]

theorem getElem?_alphabet {v : Nat} (h : v < 32) : alphabet[v]? = some (glyph v) := by
  have hlen := alphabet_length
  rw [glyph, List.getD_eq_getElem?_getD, List.getElem?_eq_getElem (by omega), Option.getD_some]

/-! ## Writing agrees -/

theorem firstOfLength_succ (len : Nat) :
    firstOfLength (len + 1) = firstOfLength len + 32 ^ len := rfl

/-- From any length on that the number reaches, the length of its text is found. -/
theorem measure?_eq {n : Nat} (more len : Nat) (hmore : len + more = maxBody)
    (hfirst : firstOfLength len ≤ n) :
    measure? more len (n - firstOfLength len) =
      some (bodyLength n, n - firstOfLength (bodyLength n)) := by
  -- On the lengths above this one; the number keeps to the lengths from this one on.
  induction more generalizing len with
  | zero =>
    have hlen : bodyLength n = len := bodyLength_eq (by omega) hfirst (by omega)
    rw [measure?, hlen]
  | succ more ih =>
    have hbound : len < maxBody := by omega
    have hspan : shiftUp? 64 1 (5 * len) = some (32 ^ len) := by
      apply shiftUp?_one
      simp only [maxBody] at hbound
      omega
    rw [measure?, hspan]
    dsimp only [Option.bind_eq_bind, Option.bind_some]
    by_cases hlt : n - firstOfLength len < 32 ^ len
    · have hnext : n < firstOfLength (len + 1) := by
        rw [firstOfLength_succ]
        omega
      have hlen : bodyLength n = len := bodyLength_eq (by omega) hfirst fun _ => hnext
      rw [if_pos hlt, hlen]
      rfl
    · have hnext : firstOfLength (len + 1) ≤ n := by
        rw [firstOfLength_succ]
        omega
      have hword : word? 64 (len + 1) = some (len + 1) := by
        apply word?_of_lt
        simp only [maxBody] at hbound
        omega
      have hleft : minus? (n - firstOfLength len) (32 ^ len) =
          some (n - firstOfLength (len + 1)) := by
        rw [minus?_of_le (by omega), firstOfLength_succ, Nat.sub_sub]
      rw [if_neg hlt, hword, hleft]
      exact ih (len + 1) (by omega) hnext

/-- Groups of five bits are digits in base 32. -/
theorem groups?_eq {len : Nat} (hlen : len ≤ maxBody) (rem : Nat) :
    groups? len rem = some (body len rem) := by
  induction len with
  | zero => rfl
  | succ len ih =>
    have hshift : 5 * len < 64 := by
      simp only [maxBody] at hlen
      omega
    have htop : rem >>> (5 * len) &&& 31 = rem / 32 ^ len % 32 := by
      rw [Nat.shiftRight_eq_div_pow, Nat.pow_mul]
      exact Nat.and_two_pow_sub_one_eq_mod _ 5
    have hglyph : alphabet[rem / 32 ^ len % 32]? = some (glyph (rem / 32 ^ len % 32)) :=
      getElem?_alphabet (Nat.mod_lt _ (by decide))
    rw [groups?, shiftDown?, if_pos hshift]
    dsimp only [Option.bind_eq_bind, Option.bind_some]
    rw [htop, hglyph, ih (by omega)]
    rfl

/-- Writing in words of 64 bits never leaves them. -/
theorem encodeInWords?_eq (n : Int64) : encodeInWords? n = some (encode n) := by
  have hle : bodyLength n.toUInt64.toNat ≤ maxBody := bodyLength_le _
  have hmeasure := measure?_eq (n := n.toUInt64.toNat) maxBody 0 (Nat.zero_add _) (Nat.zero_le _)
  have hfirst : alphabet[16 + bodyLength n.toUInt64.toNat]? =
      some (lengthGlyph (bodyLength n.toUInt64.toNat)) := by
    apply getElem?_alphabet
    simp only [maxBody] at hle
    omega
  rw [firstOfLength, Nat.sub_zero] at hmeasure
  rw [encodeInWords?, hmeasure]
  dsimp only [Option.bind_eq_bind, Option.bind_some]
  rw [hfirst, groups?_eq hle]
  rfl

/-! ## Reading agrees -/

/-- Gathering stays within 128 bits for as many glyphs as a text can have. -/
theorem gather?_eq (rest : Bytes) {num k : Nat} (hnum : num < 32 ^ k)
    (hk : k + rest.length ≤ maxBody) :
    gather? num rest =
      some (match rest.mapM value? with
        | none => .error .invalidSymbol
        | some values => .ok (values.foldl (fun n v => 32 * n + v) num)) := by
  -- On the glyphs; `k` counts those that were gathered, so the number is below a power of 32.
  induction rest generalizing num k with
  | nil => rfl
  | cons b rest ih =>
    rw [gather?, List.mapM_cons]
    cases hvalue : value? b with
    | none => rfl
    | some v =>
      have hv : v < 32 := (value?_eq_some_iff.mp hvalue).1
      have hsucc : k + 1 + rest.length ≤ maxBody := by
        rw [List.length_cons] at hk
        omega
      have hnext : 32 * num + v < 32 ^ (k + 1) := by
        rw [pow_succ]
        omega
      have hwide : (32 : Nat) ^ (k + 1) ≤ 2 ^ 128 := by
        have hpow : (32 : Nat) ^ (k + 1) ≤ 32 ^ maxBody :=
          Nat.pow_le_pow_right (by decide) (by omega)
        have hmax : (32 : Nat) ^ maxBody ≤ 2 ^ 128 := by decide
        omega
      have hshift : shiftUp? 128 num 5 = some (num * 2 ^ 5) :=
        shiftUp?_of_lt (by decide) (by omega)
      have hor : num * 2 ^ 5 ||| v = 32 * num + v := by
        rw [Nat.mul_comm num, ← Nat.two_pow_add_eq_or_of_lt (i := 5) hv]
      dsimp only [Option.bind_eq_bind, Option.bind_some]
      rw [hshift, Option.bind_some, hor, ih hnext hsucc]
      cases rest.mapM value? with
      | none => rfl
      | some values => rfl

theorem firstOfLength_lt_pow (len : Nat) : firstOfLength len < 32 ^ len := by
  induction len with
  | zero => decide
  | succ len ih =>
    rw [firstOfLength_succ, pow_succ]
    omega

/-- The least numbers of the lengths stay within 128 bits. -/
theorem offset?_eq {len : Nat} (hlen : len ≤ maxBody) : offset? len = some (firstOfLength len) := by
  induction len with
  | zero => rfl
  | succ len ih =>
    have hspan : shiftUp? 128 1 (5 * len) = some (32 ^ len) := by
      apply shiftUp?_one
      simp only [maxBody] at hlen
      omega
    have hfits : firstOfLength (len + 1) < 2 ^ 128 := by
      have hmono : firstOfLength (len + 1) ≤ firstOfLength maxBody := firstOfLength_mono hlen
      have hmax : firstOfLength maxBody < 2 ^ 128 := by decide
      omega
    rw [offset?, ih (by omega), hspan]
    exact word?_of_lt hfits

/-- What as many glyphs as a text can have stand for fits 128 bits. -/
theorem word?_number {values : List Nat} (hvalues : ∀ v ∈ values, v < 32)
    (hlen : values.length ≤ maxBody) :
    word? 128 (ofValues values + firstOfLength values.length) =
      some (ofValues values + firstOfLength values.length) := by
  have hnumber : ofValues values < 32 ^ values.length := ofValues_lt hvalues
  have hfirst : firstOfLength values.length < 32 ^ values.length := firstOfLength_lt_pow _
  have hpow : 32 ^ values.length ≤ 32 ^ maxBody := Nat.pow_le_pow_right (by decide) hlen
  have hmax : 2 * 32 ^ maxBody ≤ 2 ^ 128 := by decide
  apply word?_of_lt
  omega

/-- Reading in words of 128 bits never leaves them. -/
theorem decodeInWords?_eq (s : Bytes) : decodeInWords? s = some (decode s) := by
  cases s with
  | nil => rfl
  | cons first rest =>
    rw [decodeInWords?, decode, length?]
    cases hvalue : value? first with
    | none => rfl
    | some v =>
      dsimp only [Option.bind_eq_bind, pure]
      by_cases hlow : v < 16
      · rw [if_pos hlow, if_neg (by omega)]
      · -- the value is the length and 16 more
        obtain ⟨len, rfl⟩ : ∃ len, v = 16 + len := ⟨v - 16, by omega⟩
        rw [if_neg hlow, minus?_of_le (Nat.le_add_right 16 len), Nat.add_sub_cancel_left,
          Option.bind_some]
        by_cases hlong : maxBody < len
        · rw [if_pos hlong, if_neg (by omega)]
        · have hlen : 16 ≤ 16 + len ∧ len ≤ maxBody := ⟨Nat.le_add_right 16 len, not_lt.mp hlong⟩
          rw [if_neg hlong, if_pos hlen]
          dsimp only
          by_cases hshort : rest.length < len
          · rw [if_pos hshort, if_pos hshort]
          · have htake : (rest.take len).length = len := by
              rw [List.length_take]
              omega
            have hzero : 0 < 32 ^ 0 := by decide
            have hgather := gather?_eq (rest.take len) hzero (by omega)
            rw [if_neg hshort, if_neg hshort, hgather, Option.bind_some]
            cases hvalues : (rest.take len).mapM value? with
            | none => rfl
            | some values =>
              rcases mapM_value?_eq_some_iff.mp hvalues with ⟨hbound, hglyphs⟩
              have hcount : values.length = len := by
                have := congrArg List.length hglyphs
                rwa [List.length_map, List.length_map, htake] at this
              have hnumber := word?_number hbound (by omega)
              have hused : word? 64 (len + 1) = some (len + 1) := by
                apply word?_of_lt
                have := hlen.2
                simp only [maxBody] at this
                omega
              rw [hcount] at hnumber
              dsimp only
              rw [offset?_eq hlen.2, Option.bind_some, ← ofValues, hnumber, Option.bind_some,
                hused, Option.bind_some]
              split
              · rfl
              · rfl

end PicBoard.GlyphNumber
