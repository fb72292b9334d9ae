import Mathlib.Tactic
import PicBoard.Gateway.Access
import PicBoard.Proofs.Gateway.CookieLines
import PicBoard.Proofs.Gateway.Presented
import PicBoard.Proofs.Token.Issue

/-!
# Who may read pics

A request presents the values of all cookies of the configured name and of all headers for pix
tokens.  None, or a single empty one, is judged by what anonymous callers may do; a single one by
itself; several are refused, whatever they are (`pix_access_decided`).
-/

namespace PicBoard

namespace Header

/-! ## The values of a cookie -/

/-- A piece of a line reads as a name, an equals sign and a value with nothing but blanks around
them.  The name holds no equals sign, at which it would end. -/
structure Reads (name value piece : Bytes) : Prop where
  no_equals : 61 ∉ name
  padded : Padded (name ++ 61 :: value) piece
  tight : IsTight (name ++ 61 :: value)

variable {name value piece : Bytes} {pieces values : List Bytes}

theorem cookieValue?_eq_some_iff_reads :
    cookieValue? name piece = some value ↔ Reads name value piece := by
  rw [cookieValue?_eq_some_iff_trim, trim_eq_iff]
  constructor
  · rintro ⟨hequals, hpadded, htight⟩
    exact ⟨hequals, hpadded, htight⟩
  · intro h
    exact ⟨h.no_equals, h.padded, h.tight⟩

/-- The values of a name in the pieces of lines, in order: each piece that reads as the name and a
value gives that value, and any other piece gives none. -/
inductive ValuesOf (name : Bytes) : List Bytes → List Bytes → Prop where
  | nil : ValuesOf name [] []
  | cookie {piece value : Bytes} {pieces values : List Bytes} (reads : Reads name value piece)
      (rest : ValuesOf name pieces values) : ValuesOf name (piece :: pieces) (value :: values)
  | other {piece : Bytes} {pieces values : List Bytes} (foreign : ∀ value, ¬ Reads name value piece)
      (rest : ValuesOf name pieces values) : ValuesOf name (piece :: pieces) values

/-- Pieces have exactly one list of values. -/
theorem valuesOf_iff : ValuesOf name pieces values ↔ values = pieces.filterMap (cookieValue? name) := by
  constructor
  · intro h
    induction h with
    | nil => rfl
    | cookie reads rest ih =>
      rw [List.filterMap_cons_some (cookieValue?_eq_some_iff_reads.mpr reads), ih]
    | other foreign rest ih =>
      have hnone := Option.eq_none_iff_forall_ne_some.mpr fun value h =>
        foreign value (cookieValue?_eq_some_iff_reads.mp h)
      rw [List.filterMap_cons_none hnone, ih]
  · rintro rfl
    induction pieces with
    | nil => exact .nil
    | cons piece pieces ih =>
      cases hvalue : cookieValue? name piece with
      | none =>
        rw [List.filterMap_cons_none hvalue]
        refine .other ?_ ih
        intro value hreads
        cases hvalue.symm.trans (cookieValue?_eq_some_iff_reads.mpr hreads)
      | some value =>
        rw [List.filterMap_cons_some hvalue]
        exact .cookie (cookieValue?_eq_some_iff_reads.mp hvalue) ih

end Header

namespace Gateway

variable {g : Gateway} {now : Instant} {headers : List Header} {token : Bytes}

/-! ## What a request presents -/

/-- A request presents the values of all cookies of the configured name, and after them the values
of all headers for pix tokens. -/
def Presents (g : Gateway) (headers : List Header) (values : List Bytes) : Prop :=
  ∃ cookies, Header.ValuesOf (Bytes.ofText g.pixCookie) (Header.cookiePieces headers) cookies ∧
    values = cookies ++ (Header.named headers pixTokenHeader).map (·.value)

/-- What a request presents in visible values is what the gateway finds. -/
theorem presents_iff (hvisible : ∀ h ∈ headers, ∀ b ∈ h.value, Header.isVisible b = true)
    {values : List Bytes} : g.Presents headers values ↔ values = g.pixTokens headers := by
  have hnamed : ∀ name, ∀ h ∈ Header.named headers name, ∀ b ∈ h.value,
      Header.isVisible b = true := by
    intro name h hh
    exact hvisible h (List.mem_of_mem_filter hh)
  unfold Presents pixTokens
  rw [Header.cookies_eq_filterMap _ (hnamed _), Header.texts_of_visible (hnamed _)]
  constructor
  · rintro ⟨cookies, hcookies, hvalues⟩
    rw [hvalues, Header.valuesOf_iff.mp hcookies]
  · intro hvalues
    exact ⟨_, Header.valuesOf_iff.mpr rfl, hvalues⟩

/-! ## The three ways to be judged -/

/-- Without a token, or with an empty one, a caller is anonymous. -/
theorem checkPixAccess_of_none (h : g.pixTokens headers = [] ∨ g.pixTokens headers = [[]]) :
    g.checkPixAccess now headers =
      if g.anonymous.contains .picRead then .ok () else .error (.ofToken .missingToken) := by
  have hfew : ¬ 1 < (g.pixTokens headers).length := by
    rcases h with h | h
    · simp [h]
    · simp [h]
  have hhead : (g.pixTokens headers).head? = none ∨ (g.pixTokens headers).head? = some [] := by
    rcases h with h | h
    · simp [h]
    · simp [h]
  unfold checkPixAccess
  rw [if_neg hfew, Token.validatePix_of_none hhead]
  by_cases hopen : g.anonymous.contains .picRead = true
  · rw [if_pos hopen, if_pos hopen]
  · rw [if_neg hopen, if_neg hopen]

/-- A token that is not empty is judged alone, whatever anonymous callers may do. -/
theorem checkPixAccess_of_token (h : g.pixTokens headers = [token]) (hgiven : token ≠ []) :
    g.checkPixAccess now headers =
      match Token.decodeTyped g.mac now token .pix with
      | .ok _ => .ok ()
      | .error e => .error (.ofToken e) := by
  unfold checkPixAccess
  rw [h, if_neg (by simp), List.head?_cons, Token.validatePix_of_given hgiven]
  cases Token.decodeTyped g.mac now token .pix with
  | error e => rfl
  | ok p => rfl

/-- Several values are too many. -/
theorem checkPixAccess_of_several (h : 1 < (g.pixTokens headers).length) :
    g.checkPixAccess now headers = .error (.ofToken (.malformed .tooManyTokens)) := if_pos h

/-- What is presented is nothing, one value, or too much. -/
theorem none_or_one_or_several (values : List Bytes) :
    (values = [] ∨ values = [[]]) ∨ (∃ token, values = [token] ∧ token ≠ []) ∨
      1 < values.length := by
  rcases values with - | ⟨token, - | ⟨second, rest⟩⟩
  · exact .inl (.inl rfl)
  · by_cases hgiven : token = []
    · exact .inl (.inr (by rw [hgiven]))
    · exact .inr (.inl ⟨token, rfl, hgiven⟩)
  · exact .inr (.inr (by simp))

/-- The two ways in: as an anonymous caller, or by a pix token that is accepted now. -/
theorem checkPixAccess_eq_ok_iff :
    g.checkPixAccess now headers = .ok () ↔
      ((g.pixTokens headers = [] ∨ g.pixTokens headers = [[]]) ∧
        g.anonymous.contains .picRead = true) ∨
      ∃ token p, g.pixTokens headers = [token] ∧ token ≠ [] ∧
        Token.decode g.mac now token = .ok p ∧ p.type = .pix := by
  rcases none_or_one_or_several (g.pixTokens headers) with hnone | ⟨token, hone, hgiven⟩ | hmany
  · have hnot : ¬ ∃ token p, g.pixTokens headers = [token] ∧ token ≠ [] ∧
        Token.decode g.mac now token = .ok p ∧ p.type = .pix := by
      rintro ⟨token, p, hone, hgiven, -⟩
      rcases hnone with hnone | hnone
      · cases hnone.symm.trans hone
      · cases hnone.symm.trans hone
        exact hgiven rfl
    rw [checkPixAccess_of_none hnone]
    by_cases hopen : g.anonymous.contains .picRead = true
    · rw [if_pos hopen]
      exact iff_of_true rfl (.inl ⟨hnone, hopen⟩)
    · rw [if_neg hopen]
      refine iff_of_false nofun ?_
      rintro (⟨-, hopen'⟩ | hone)
      · exact hopen hopen'
      · exact hnot hone
  · rw [checkPixAccess_of_token hone hgiven]
    constructor
    · intro hok
      split at hok
      · rename_i p hp
        exact .inr ⟨token, p, hone, hgiven, Token.decodeTyped_eq_ok_iff.mp hp⟩
      · cases hok
    · rintro (⟨hnone | hnone, -⟩ | ⟨token', p, hone', -, hp⟩)
      · cases hnone.symm.trans hone
      · cases hnone.symm.trans hone
        exact absurd rfl hgiven
      · cases hone.symm.trans hone'
        rw [Token.decodeTyped_eq_ok_iff.mpr hp]
  · rw [checkPixAccess_of_several hmany]
    constructor
    · rintro ⟨⟩
    · rintro (⟨hnone | hnone, -⟩ | ⟨token, p, hone, -⟩)
      · simp [hnone] at hmany
      · simp [hnone] at hmany
      · simp [hone] at hmany

/-- Who may read pics, by all that a request with visible header values presents.  There is one list
of values that it presents.  It lets its caller read exactly when there is none, or only the empty
one, and anonymous callers may read, or when there is a single one that is accepted now and is for
pics.  It is accepted by its signature and its two bounds, and a soft bound has no say.  Two values
or more are refused, whatever they are, and on a single one that is not empty it makes no
difference what anonymous callers may do. -/
theorem pix_access_decided (g : Gateway) (now : Instant) {headers : List Header}
    (hvisible : ∀ h ∈ headers, ∀ b ∈ h.value, Header.isVisible b = true) :
    ∃ values, (∀ others, g.Presents headers others ↔ others = values) ∧
      (g.checkPixAccess now headers = .ok () ↔
        ((values = [] ∨ values = [[]]) ∧ g.anonymous.contains .picRead = true) ∨
          ∃ token p, values = [token] ∧ token ≠ [] ∧
            Token.decode g.mac now token = .ok p ∧ p.type = .pix) ∧
      (∀ token p, Token.decode g.mac now token = .ok p ↔
        Token.authenticate g.mac token = .ok p ∧ p.HoldsAt now.time) ∧
      (1 < values.length →
        g.checkPixAccess now headers = .error (.ofToken (.malformed .tooManyTokens))) ∧
      ∀ token, values = [token] → token ≠ [] → ∀ anonymous : CapabilitySet,
        ({ g with anonymous } : Gateway).checkPixAccess now headers =
          g.checkPixAccess now headers := by
  refine ⟨g.pixTokens headers, fun others => presents_iff hvisible, checkPixAccess_eq_ok_iff, ?_,
    checkPixAccess_of_several, ?_⟩
  · intro token p
    rw [Token.decode_eq_ok_iff, Payload.checkClock_eq_ok_iff]
  · intro token hone hgiven anonymous
    have hsame : ({ g with anonymous } : Gateway).pixTokens headers = [token] := hone
    rw [checkPixAccess_of_token hone hgiven, checkPixAccess_of_token hsame hgiven]

/-- Where anyone may read, one empty cookie is no credential; with an empty header beside it there
are two values, and they are too many. -/
theorem two_empty_values_refused :
    let g : Gateway :=
      { mac := .hmac [7], windows := .standard, issuer := "pixur"
        anonymous := .ofList [.picRead], pixCookie := "pix" }
    let cookies : Header := { name := "Cookie", value := Bytes.ofText "a=1;\tpix= ; pix2=x" }
    let token : Header := { name := "Pixur-Pix-Token", value := [] }
    let now : Instant := ⟨-5, 3, by decide⟩
    (∀ h ∈ [cookies, token], ∀ b ∈ h.value, Header.isVisible b = true) ∧
      g.Presents [cookies, token] [[], []] ∧
      g.checkPixAccess now [cookies, token] = .error (.ofToken (.malformed .tooManyTokens)) ∧
      g.Presents [cookies] [[]] ∧ g.checkPixAccess now [cookies] = .ok () := by
  intro g cookies token now
  have hboth : ∀ h ∈ [cookies, token], ∀ b ∈ h.value, Header.isVisible b = true := by
    decide +kernel
  have hone : ∀ h ∈ [cookies], ∀ b ∈ h.value, Header.isVisible b = true := by decide +kernel
  have htwo : g.Presents [cookies, token] [[], []] := (presents_iff hboth).mpr (by decide +kernel)
  have hsingle : g.Presents [cookies] [[]] := (presents_iff hone).mpr (by decide +kernel)
  rcases pix_access_decided g now hboth with ⟨values, hvalues, -, -, hseveral, -⟩
  rcases pix_access_decided g now hone with ⟨single, hsingles, hdecided, -⟩
  cases (hvalues _).mp htwo
  cases (hsingles _).mp hsingle
  exact ⟨hboth, htwo, hseveral (by decide), hsingle,
    hdecided.mpr (.inl ⟨.inr rfl, by decide⟩)⟩

end Gateway

end PicBoard
