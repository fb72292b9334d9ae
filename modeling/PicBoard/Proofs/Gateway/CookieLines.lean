import Mathlib.Data.List.DropRight
import Mathlib.Tactic
import PicBoard.Gateway.Header
import PicBoard.Proofs.Text.Bytes

/-!
# Cookies in the lines that carry them

What stands between two semicolons of a line is a cookie of a name exactly when it is the name, an
equals sign and a value, with blanks around them or without (`isCookie_iff`).  Of all lines of a
request, the pieces that are no cookie of a name give no value for it (`cookies_of_sent`).
-/

namespace PicBoard.Header

/-! ## Blanks -/

theorem isBlank_iff {b : UInt8} : isBlank b = true ↔ b = 32 ∨ b = 9 := by
  simp [isBlank]

/-- A text with spaces and tabs around it, or with none. -/
def Padded (text piece : Bytes) : Prop :=
  ∃ before after, piece = before ++ text ++ after ∧ (∀ b ∈ before, isBlank b = true) ∧
    ∀ b ∈ after, isBlank b = true

theorem trim_eq (b : Bytes) : trim b = (b.dropWhile isBlank).rdropWhile isBlank := rfl

/-- Nothing but blanks is cut off. -/
theorem padded_trim (b : Bytes) : Padded (trim b) b := by
  refine ⟨b.takeWhile isBlank, (b.dropWhile isBlank).rtakeWhile isBlank, ?_, ?_, ?_⟩
  · rw [trim_eq, List.append_assoc, List.rdropWhile_append_rtakeWhile,
      List.takeWhile_append_dropWhile]
  · intro x hx
    exact List.mem_takeWhile_imp hx
  · intro x hx
    exact List.mem_rtakeWhile_imp hx

/-- Whether the first byte and the last of a text, if it has any, are no blanks. -/
def IsTight (text : Bytes) : Prop :=
  (∀ b ∈ text.head?, isBlank b = false) ∧ ∀ b ∈ text.getLast?, isBlank b = false

/-- All blanks around a text without blanks at its ends are cut off. -/
theorem trim_of_padded {text piece : Bytes} (h : Padded text piece) (htight : IsTight text) :
    trim piece = text := by
  rcases h with ⟨before, after, rfl, hbefore, hafter⟩
  have hblank : ∀ b ∈ after.reverse, isBlank b = true := by
    intro b hb
    exact hafter b (List.mem_reverse.mp hb)
  unfold trim
  rw [List.append_assoc, List.dropWhile_append_of_pos hbefore]
  cases text with
  | nil =>
    rw [List.nil_append, List.dropWhile_eq_nil_iff.mpr hafter]
    rfl
  | cons b rest =>
    -- the first byte stops the cutting in front, and the last one that at the end
    have hfirst : isBlank b = false := htight.1 b rfl
    rw [List.cons_append, List.dropWhile_cons_of_neg (by simp [hfirst]), ← List.cons_append,
      List.reverse_append, List.dropWhile_append_of_pos hblank]
    rcases List.eq_nil_or_concat (b :: rest) with hnil | ⟨front, last, hlast⟩
    · cases hnil
    · rw [hlast] at htight ⊢
      have hstop : isBlank last = false := htight.2 last (by simp)
      rw [List.concat_eq_append, List.reverse_concat, List.dropWhile_cons_of_neg (by simp [hstop]),
        ← List.reverse_concat, List.reverse_reverse]

/-- What is left after the cutting has no blanks at its ends. -/
theorem isTight_trim (b : Bytes) : IsTight (trim b) := by
  rw [trim_eq]
  constructor
  · intro x hx
    rcases List.rdropWhile_prefix isBlank (l := b.dropWhile isBlank) with ⟨cut, hcut⟩
    have hhead : (b.dropWhile isBlank).head? = some x := by
      rw [← hcut, List.head?_append, hx]
      rfl
    have hstop := List.head?_dropWhile_not isBlank b
    rw [hhead] at hstop
    simpa using hstop
  · intro x hx
    have hne : (b.dropWhile isBlank).rdropWhile isBlank ≠ [] := by
      intro hnil
      rw [hnil] at hx
      cases hx
    have hlast := List.rdropWhile_last_not isBlank _ hne
    rw [List.getLast?_eq_getLast_of_ne_nil hne] at hx
    cases hx
    simpa using hlast

/-- Cutting the blanks off leaves the one text without blanks at its ends that has blanks around
it. -/
theorem trim_eq_iff {text piece : Bytes} : trim piece = text ↔ Padded text piece ∧ IsTight text := by
  constructor
  · rintro rfl
    exact ⟨padded_trim piece, isTight_trim piece⟩
  · rintro ⟨hpadded, htight⟩
    exact trim_of_padded hpadded htight

/-! ## One cookie -/

/-- The first equals sign is the one with none before it. -/
theorem splitEquals_eq_some_iff {b k v : Bytes} :
    splitEquals b = some (k, v) ↔ b = k ++ 61 :: v ∧ 61 ∉ k := by
  induction b generalizing k with
  | nil => simp [splitEquals]
  | cons x rest ih =>
    unfold splitEquals
    by_cases hx : x = 61
    · subst hx
      cases k with
      | nil => simp
      | cons y k =>
        rw [if_pos rfl]
        constructor
        · rintro ⟨⟩
        · rintro ⟨he, hk⟩
          cases he
          exact absurd List.mem_cons_self hk
    · cases k with
      | nil => simp [hx]
      | cons y k =>
        rw [if_neg hx, Option.map_eq_some_iff]
        constructor
        · rintro ⟨⟨k', v'⟩, hrest, he⟩
          cases he
          obtain ⟨rfl, hk⟩ := ih.mp hrest
          exact ⟨rfl, by simpa using ⟨fun e => hx e.symm, hk⟩⟩
        · rintro ⟨he, hk⟩
          cases he
          exact ⟨(k, v), ih.mpr ⟨rfl, fun h => hk (List.mem_cons_of_mem _ h)⟩, rfl⟩

/-- A name that a cookie can have: without blanks and without an equals sign. -/
def IsCookieName (name : Bytes) : Prop := ∀ b ∈ name, isBlank b = false ∧ b ≠ 61

/-- A piece of a line that is a cookie of a name, with some value. -/
def IsCookie (name piece : Bytes) : Prop := ∃ value, Padded (name ++ 61 :: value) piece

variable {name piece value : Bytes}

/-- A piece is read as a cookie when it is the name, an equals sign and the value, blanks aside, and
the name has no equals sign at which it could end. -/
theorem cookieValue?_eq_some_iff_trim :
    cookieValue? name piece = some value ↔ 61 ∉ name ∧ trim piece = name ++ 61 :: value := by
  unfold cookieValue?
  constructor
  · intro h
    split at h
    · rename_i k v hsplit
      split at h
      · rename_i hk
        cases h
        rw [← hk]
        exact (splitEquals_eq_some_iff.mp hsplit).symm
      · cases h
    · cases h
  · rintro ⟨hequals, h⟩
    rw [splitEquals_eq_some_iff.mpr ⟨h, hequals⟩]
    exact if_pos rfl

/-- The value of a cookie is what follows the name and the equals sign up to the blanks at the
end. -/
theorem cookieValue?_eq_some_iff (hname : IsCookieName name) :
    cookieValue? name piece = some value ↔ trim piece = name ++ 61 :: value := by
  have hequals : 61 ∉ name := fun h => (hname 61 h).2 rfl
  rw [cookieValue?_eq_some_iff_trim]
  exact and_iff_right hequals

/-- A cookie without blanks at the end of its value is read as that value, whatever blanks there
are around it. -/
theorem cookieValue?_of_padded (hname : IsCookieName name)
    (hvalue : ∀ b ∈ value.getLast?, isBlank b = false)
    (h : Padded (name ++ 61 :: value) piece) : cookieValue? name piece = some value := by
  rw [cookieValue?_eq_some_iff hname]
  refine trim_of_padded h ⟨?_, ?_⟩
  · intro b hb
    cases name with
    | nil =>
      cases hb
      rfl
    | cons c rest =>
      cases hb
      exact (hname b List.mem_cons_self).1
  · intro b hb
    rw [List.getLast?_append_of_ne_nil _ (by simp)] at hb
    cases value with
    | nil =>
      cases hb
      rfl
    | cons c rest => exact hvalue b hb

/-- A piece is a cookie of a name exactly when it is read as one. -/
theorem isCookie_iff (hname : IsCookieName name) :
    IsCookie name piece ↔ ∃ value, cookieValue? name piece = some value := by
  constructor
  · rintro ⟨value, before, after, rfl, hbefore, hafter⟩
    -- blanks at the end of the value count as blanks behind the cookie
    refine ⟨value.rdropWhile isBlank, cookieValue?_of_padded hname ?_
      ⟨before, value.rtakeWhile isBlank ++ after, ?_, hbefore, ?_⟩⟩
    · intro b hb
      have hne : value.rdropWhile isBlank ≠ [] := by
        intro hnil
        rw [hnil] at hb
        cases hb
      have hlast := List.rdropWhile_last_not isBlank value hne
      rw [List.getLast?_eq_getLast_of_ne_nil hne] at hb
      cases hb
      simpa using hlast
    · simp only [List.append_assoc, List.cons_append]
      rw [← List.append_assoc (value.rdropWhile isBlank), List.rdropWhile_append_rtakeWhile]
    · intro b hb
      rcases List.mem_append.mp hb with hb | hb
      · exact List.mem_rtakeWhile_imp hb
      · exact hafter b hb
  · rintro ⟨value, h⟩
    refine ⟨value, ?_⟩
    rw [← (cookieValue?_eq_some_iff hname).mp h]
    exact padded_trim piece

/-! ## All lines of a request -/

/-- The pieces of all lines that carry cookies, as they stand between the semicolons. -/
def cookiePieces (headers : List Header) : List Bytes :=
  (named headers cookieHeader).flatMap fun h => h.value.splitOn 59

/-- A client sends a cookie of a name, with blanks around it, once and at any place among the
pieces of its lines, of which no other is a cookie of that name. -/
structure CookieSent (headers : List Header) (name pair : Bytes) : Prop where
  visible : ∀ h ∈ named headers cookieHeader, ∀ b ∈ h.value, isVisible b = true
  place : ∃ front piece back, cookiePieces headers = front ++ piece :: back ∧
    Padded pair piece ∧ ∀ other ∈ front ++ back, ¬ IsCookie name other

theorem mem_intercalate {pieces : List Bytes} {b : UInt8} (h : b ∈ [59].intercalate pieces) :
    b = 59 ∨ ∃ piece ∈ pieces, b ∈ piece := by
  induction pieces with
  | nil => simp [List.intercalate] at h
  | cons piece rest ih =>
    cases rest with
    | nil => exact .inr ⟨piece, List.mem_cons_self, by simpa [List.intercalate] using h⟩
    | cons second rest =>
      rw [List.intercalate_cons_cons, List.append_assoc, List.mem_append,
        List.singleton_append, List.mem_cons] at h
      rcases h with h | rfl | h
      · exact .inr ⟨piece, List.mem_cons_self, h⟩
      · exact .inl rfl
      · exact (ih h).imp_right fun ⟨other, hother, hb⟩ => ⟨other, List.mem_cons_of_mem _ hother, hb⟩

theorem mem_intercalate_of_mem {pieces : List Bytes} {b : UInt8} (hpiece : piece ∈ pieces)
    (hb : b ∈ piece) : b ∈ [59].intercalate pieces := by
  induction pieces with
  | nil => cases hpiece
  | cons first rest ih =>
    cases rest with
    | nil => simpa [List.intercalate, ← List.mem_singleton.mp hpiece] using hb
    | cons second rest =>
      rw [List.intercalate_cons_cons, List.append_assoc, List.mem_append]
      rcases List.mem_cons.mp hpiece with rfl | hrest
      · exact .inl hb
      · exact .inr (List.mem_append_right _ (ih hrest))

/-- A client that writes its lines from pieces without semicolons sends these pieces. -/
theorem cookieSent_of_lines {headers : List Header} {pair : Bytes} {lines : List (List Bytes)}
    (hlines : (named headers cookieHeader).map (·.value) = lines.map ([59].intercalate ·))
    (hplain : ∀ pieces ∈ lines, pieces ≠ [] ∧
      ∀ piece ∈ pieces, ∀ b ∈ piece, isVisible b = true ∧ b ≠ 59)
    {front back : List Bytes} (hplace : lines.flatten = front ++ piece :: back)
    (hpadded : Padded pair piece) (hothers : ∀ other ∈ front ++ back, ¬ IsCookie name other) :
    CookieSent headers name pair where
  visible := by
    intro h hh b hb
    have hvalue : h.value ∈ lines.map ([59].intercalate ·) := hlines ▸ List.mem_map_of_mem hh
    obtain ⟨pieces, hpieces, hwritten⟩ := List.mem_map.mp hvalue
    rw [← hwritten] at hb
    rcases mem_intercalate hb with rfl | ⟨piece, hpiece, hb⟩
    · decide
    · exact ((hplain pieces hpieces).2 piece hpiece b hb).1
  place := by
    refine ⟨front, piece, back, ?_, hpadded, hothers⟩
    have hsplit : ∀ pieces ∈ lines, ([59].intercalate pieces).splitOn 59 = pieces := by
      intro pieces hpieces
      obtain ⟨hne, hbytes⟩ := hplain pieces hpieces
      exact List.splitOn_intercalate (59 : UInt8)
        (fun piece hpiece h => (hbytes piece hpiece 59 h).2 rfl) hne
    calc cookiePieces headers
        = ((named headers cookieHeader).map (·.value)).flatMap (·.splitOn 59) := by
          rw [List.flatMap_map]
          rfl
      _ = lines.flatMap fun pieces => ([59].intercalate pieces).splitOn 59 := by
          rw [hlines, List.flatMap_map]
      _ = lines.flatMap id := List.flatMap_congr hsplit
      _ = front ++ piece :: back := by rw [List.flatMap_id, hplace]

/-- Visible values are texts. -/
theorem texts_of_visible {headers : List Header} {name : String}
    (hvisible : ∀ h ∈ named headers name, ∀ b ∈ h.value, isVisible b = true) :
    texts headers name = (named headers name).map (·.value) := by
  unfold texts
  rw [← List.filterMap_eq_map]
  refine List.filterMap_congr ?_
  intro h hh
  exact if_pos (List.all_eq_true.mpr (hvisible h hh))

/-- Where all lines are texts, the cookies are read piece by piece. -/
theorem cookies_eq_filterMap {headers : List Header} (name : Bytes)
    (hvisible : ∀ h ∈ named headers cookieHeader, ∀ b ∈ h.value, isVisible b = true) :
    cookies headers name = (cookiePieces headers).filterMap (cookieValue? name) := by
  unfold cookies cookiePieces
  rw [texts_of_visible hvisible, List.flatMap_map, List.filterMap_flatMap]
  simp only [Bytes.pieces_eq_splitOn]

/-- The one cookie of a name that is sent is the one that is read. -/
theorem cookies_of_sent {headers : List Header} (hname : IsCookieName name)
    (hvalue : ∀ b ∈ value.getLast?, isBlank b = false)
    (h : CookieSent headers name (name ++ 61 :: value)) : cookies headers name = [value] := by
  rcases h.place with ⟨front, piece, back, hpieces, hpadded, hothers⟩
  have hnone : ∀ other ∈ front ++ back, cookieValue? name other = none := by
    intro other hother
    by_contra hsome
    exact hothers other hother ((isCookie_iff hname).mpr (Option.ne_none_iff_exists'.mp hsome))
  have hfront : front.filterMap (cookieValue? name) = [] := by
    rw [List.filterMap_eq_nil_iff]
    exact fun other hother => hnone other (List.mem_append_left _ hother)
  have hback : back.filterMap (cookieValue? name) = [] := by
    rw [List.filterMap_eq_nil_iff]
    exact fun other hother => hnone other (List.mem_append_right _ hother)
  rw [cookies_eq_filterMap name h.visible, hpieces, List.filterMap_append, hfront,
    List.nil_append, List.filterMap_cons_some (cookieValue?_of_padded hname hvalue hpadded), hback]

end PicBoard.Header
