import Mathlib.Logic.Relation
import Mathlib.Tactic
import PicBoard.Proofs.Gateway.PixAccess
import PicBoard.Proofs.Gateway.PixCookie

/-!
# Pairs of other names

A pair that does not begin with the name of the pix cookie gives no pix token, wherever a client
puts it among its cookies.  It has no say in who may read pics as long as the same lines stay texts.
But a line is a text as a whole or not at all: a single byte of such a pair that is neither visible
ASCII nor a blank hides every pair beside it, and the pix cookie too
(`foreign_pairs_matter_only_by_readability`).
-/

namespace PicBoard

namespace Header

/-! ## Pairs that are added -/

/-- Whether the value of a header is a text. -/
def isText (h : Header) : Bool := h.value.all isVisible

/-- A pair of another name: without blanks around it, it does not begin with the name and an equals
sign. -/
def Foreign (name pair : Bytes) : Prop := ¬ (name ++ [61]) <+: trim pair

instance (name pair : Bytes) : Decidable (Foreign name pair) :=
  inferInstanceAs (Decidable (¬ (name ++ [61]) <+: trim pair))

/-- A piece of a line that is a text. -/
def Visible (piece : Bytes) : Prop := ∀ b ∈ piece, isVisible b = true

instance (piece : Bytes) : Decidable (Visible piece) := inferInstanceAs (Decidable (∀ _ ∈ _, _))

/-- A header whose value is written from pieces. -/
def ofPieces (line : String) (pieces : List Bytes) : Header :=
  { name := line, value := [59].intercalate pieces }

/-- A client adds one more pair of some kind, at any place in any line of its cookies. -/
inductive PairAdded (kind : Bytes → Prop) : List Header → List Header → Prop where
  | add (front back : List Header) {line : String} {first last : List Bytes} {pair : Bytes}
      (cookies : Text.asciiLower line = Text.asciiLower cookieHeader)
      (plain : ∀ piece ∈ first ++ pair :: last, 59 ∉ piece) (ofKind : kind pair) :
      PairAdded kind (front ++ ofPieces line (first ++ last) :: back)
        (front ++ ofPieces line (first ++ pair :: last) :: back)

variable {name pair : Bytes} {line : String} {kind wider : Bytes → Prop} {pieces : List Bytes}
  {before after front back : List Header} {h : Header}

theorem cookieValue?_of_foreign (h : Foreign name pair) : cookieValue? name pair = none := by
  rw [Option.eq_none_iff_forall_ne_some]
  intro value hvalue
  refine h ⟨value, ?_⟩
  rw [(cookieValue?_eq_some_iff_trim.mp hvalue).2, List.append_assoc, List.singleton_append]

/-! ## What a header carries -/

/-- The name of a header, in lower case, and what the header would give if its value is a text: the
values of a name in a line of cookies, and the value of any other header. -/
def gist (name : Bytes) (h : Header) : String × List Bytes :=
  let kind := Text.asciiLower h.name
  (kind, if kind = Text.asciiLower cookieHeader then
    (h.value.splitOn 59).filterMap (cookieValue? name) else [h.value])

/-- What the headers of a kind give together. -/
def gather (kind : String) (gists : List (String × List Bytes)) (readable : List Bool) :
    List Bytes :=
  (gists.zip readable).flatMap fun (gist, text) => if gist.1 = kind ∧ text then gist.2 else []

theorem texts_cons (h : Header) (rest : List Header) (name : String) :
    texts (h :: rest) name =
      (if Text.asciiLower h.name = Text.asciiLower name ∧ h.isText then [h.value] else []) ++
        texts rest name := by
  unfold texts named
  by_cases hname : Text.asciiLower h.name = Text.asciiLower name
  · rw [List.filter_cons_of_pos (by simpa using hname), List.filterMap_cons]
    by_cases htext : h.value.all isVisible = true
    · simp [isText, hname, htext]
    · simp [isText, htext]
  · rw [List.filter_cons_of_neg (by simpa using hname)]
    simp [hname]

/-- A header that is no text is as though it had not been sent. -/
theorem texts_of_not_text (hnot : h.isText = false) (name : String) :
    texts (front ++ h :: back) name = texts (front ++ back) name := by
  induction front with
  | nil =>
    rw [List.nil_append, List.nil_append, texts_cons, hnot]
    simp
  | cons first front ih => rw [List.cons_append, List.cons_append, texts_cons, texts_cons, ih]

/-- The cookies of a name are what the lines of cookies carry that are texts. -/
theorem cookies_eq_gather (name : Bytes) (headers : List Header) :
    cookies headers name = gather (Text.asciiLower cookieHeader) (headers.map (gist name))
      (headers.map isText) := by
  induction headers with
  | nil => rfl
  | cons h rest ih =>
    have hcons : cookies (h :: rest) name =
        (if (gist name h).1 = Text.asciiLower cookieHeader ∧ h.isText then (gist name h).2
          else []) ++ cookies rest name := by
      unfold cookies
      rw [texts_cons, List.flatMap_append]
      by_cases hline : Text.asciiLower h.name = Text.asciiLower cookieHeader ∧ h.isText = true
      · simp only [gist, hline, if_true, and_self, List.flatMap_singleton, Bytes.pieces_eq_splitOn]
      · simp only [gist, hline, if_false, List.flatMap_nil]
    rw [hcons, ih]
    rfl

/-- The texts of a name that is not that of the lines of cookies are what the headers of that name
carry that are texts. -/
theorem texts_eq_gather (name : Bytes) {other : String}
    (hother : Text.asciiLower other ≠ Text.asciiLower cookieHeader) (headers : List Header) :
    texts headers other = gather (Text.asciiLower other) (headers.map (gist name))
      (headers.map isText) := by
  induction headers with
  | nil => rfl
  | cons h rest ih =>
    have hvalue : Text.asciiLower h.name = Text.asciiLower other → [h.value] = (gist name h).2 := by
      intro hname
      unfold gist
      rw [hname]
      exact (if_neg hother).symm
    have hgist : (if Text.asciiLower h.name = Text.asciiLower other ∧ h.isText then [h.value]
        else []) = if (gist name h).1 = Text.asciiLower other ∧ h.isText then (gist name h).2
        else [] := ite_congr rfl (fun hboth => hvalue hboth.1) fun _ => rfl
    rw [texts_cons, hgist, ih]
    rfl

/-- A line that is written from pieces carries what they carry. -/
theorem gist_ofPieces (hcookies : Text.asciiLower line = Text.asciiLower cookieHeader)
    (hplain : ∀ piece ∈ pieces, 59 ∉ piece) :
    gist name (ofPieces line pieces) =
      (Text.asciiLower cookieHeader, pieces.filterMap (cookieValue? name)) := by
  unfold gist ofPieces
  simp only [hcookies, if_true]
  cases pieces with
  | nil => rfl
  | cons piece rest => rw [List.splitOn_intercalate (59 : UInt8) hplain (by simp)]

/-- A line is a text when all its pieces are. -/
theorem isText_ofPieces :
    (ofPieces line pieces).isText = true ↔ ∀ piece ∈ pieces, Visible piece := by
  rw [isText, List.all_eq_true]
  constructor
  · intro h piece hpiece b hb
    exact h b (mem_intercalate_of_mem hpiece hb)
  · intro h b hb
    rcases mem_intercalate hb with rfl | ⟨piece, hpiece, hb⟩
    · decide
    · exact h piece hpiece b hb

/-- One piece that is no text is enough for the line to be none. -/
theorem isText_ofPieces_of_not_visible (line : String) (hmem : pair ∈ pieces)
    (hpair : ¬ Visible pair) : (ofPieces line pieces).isText = false := by
  rw [← Bool.not_eq_true, isText_ofPieces]
  intro hall
  exact hpair (hall pair hmem)

/-! ## One pair more, and many -/

theorem PairAdded.mono (hkind : ∀ pair, kind pair → wider pair) (h : PairAdded kind before after) :
    PairAdded wider before after := by
  cases h with
  | add front back cookies plain ofKind => exact .add front back cookies plain (hkind _ ofKind)

/-- One more pair of another name changes nothing in what the headers carry. -/
theorem PairAdded.map_gist (h : PairAdded (Foreign name) before after) :
    after.map (gist name) = before.map (gist name) := by
  cases h with
  | @add front back line first last pair cookies plain foreign =>
    have hfewer : ∀ piece ∈ first ++ last, (59 : UInt8) ∉ piece := by
      simp only [List.forall_mem_append, List.forall_mem_cons] at plain ⊢
      exact ⟨plain.1, plain.2.2⟩
    have hline : gist name (ofPieces line (first ++ pair :: last)) =
        gist name (ofPieces line (first ++ last)) := by
      rw [gist_ofPieces cookies plain, gist_ofPieces cookies hfewer, List.filterMap_append,
        List.filterMap_append, List.filterMap_cons_none (cookieValue?_of_foreign foreign)]
    simp only [List.map_append, List.map_cons, hline]

/-- One more pair that is a text leaves the same headers texts. -/
theorem PairAdded.map_isText (h : PairAdded Visible before after) :
    after.map isText = before.map isText := by
  cases h with
  | @add front back line first last pair cookies plain visible =>
    have hline : (ofPieces line (first ++ pair :: last)).isText =
        (ofPieces line (first ++ last)).isText := by
      rw [Bool.eq_iff_iff, isText_ofPieces, isText_ofPieces]
      simp only [List.forall_mem_append, List.forall_mem_cons, visible, true_and]
    simp only [List.map_append, List.map_cons, hline]

/-- What no added pair changes is not changed however pairs are added, removed and moved. -/
theorem eq_of_eqvGen {α : Type} {f : List Header → α}
    (hstep : ∀ before after, PairAdded kind before after → f after = f before)
    (h : Relation.EqvGen (PairAdded kind) before after) : f after = f before := by
  induction h with
  | rel before after hadded => exact hstep before after hadded
  | refl headers => rfl
  | symm before after _ ih => exact ih.symm
  | trans before between after _ _ hfirst hsecond => exact hsecond.trans hfirst

end Header

namespace Gateway

variable {g : Gateway} {before after front back : List Header} {h : Header}

/-- The pix tokens of a request are decided by what its headers carry and by which of them are
texts. -/
theorem pixTokens_congr
    (hgist : after.map (Header.gist (Bytes.ofText g.pixCookie)) =
      before.map (Header.gist (Bytes.ofText g.pixCookie)))
    (htext : after.map Header.isText = before.map Header.isText) :
    g.pixTokens after = g.pixTokens before := by
  have hother : Text.asciiLower pixTokenHeader ≠ Text.asciiLower Header.cookieHeader := by
    decide +kernel
  unfold pixTokens
  rw [Header.cookies_eq_gather, Header.cookies_eq_gather,
    Header.texts_eq_gather (Bytes.ofText g.pixCookie) hother after,
    Header.texts_eq_gather (Bytes.ofText g.pixCookie) hother before, hgist, htext]

/-- A header that is no text gives no pix token. -/
theorem pixTokens_of_not_text (hnot : h.isText = false) :
    g.pixTokens (front ++ h :: back) = g.pixTokens (front ++ back) := by
  unfold pixTokens Header.cookies
  rw [Header.texts_of_not_text hnot, Header.texts_of_not_text hnot]

/-- A line of nothing but the pix cookie presents its value. -/
theorem PlainCookieName.pixTokens_of_pair (h : g.PlainCookieName) {token : Bytes}
    (htoken : ∀ b ∈ token, Header.isVisible b = true ∧ b ≠ 59)
    (hlast : ∀ b ∈ token.getLast?, Header.isBlank b = false) :
    g.pixTokens [Header.ofPieces Header.cookieHeader [Bytes.ofText g.pixCookie ++ 61 :: token]] =
      [token] := by
  let pair := Bytes.ofText g.pixCookie ++ 61 :: token
  let line := Header.ofPieces Header.cookieHeader [pair]
  have hline : (Header.named [line] Header.cookieHeader).map (·.value) =
      [[pair]].map ([59].intercalate ·) := by
    simp [Header.named, line, Header.ofPieces]
  have hplace : [[pair]].flatten = [] ++ pair :: [] := by simp
  have hpadded : Header.Padded pair pair := ⟨[], [], by simp, by simp, by simp⟩
  have hplain : ∀ pieces ∈ [[pair]], pieces ≠ [] ∧
      ∀ piece ∈ pieces, ∀ b ∈ piece, Header.isVisible b = true ∧ b ≠ 59 := by
    simp only [List.forall_mem_singleton, ne_eq, List.cons_ne_nil, not_false_eq_true, true_and]
    exact h.pair htoken
  have hsent : Header.CookieSent [line] (Bytes.ofText g.pixCookie) pair :=
    Header.cookieSent_of_lines hline hplain hplace hpadded (by simp)
  have hnone : Header.named [line] pixTokenHeader = [] := by
    have hother : Text.asciiLower Header.cookieHeader ≠ Text.asciiLower pixTokenHeader := by
      decide +kernel
    simp [Header.named, line, Header.ofPieces, hother]
  exact pixTokens_of_sent h hnone hlast hsent

theorem checkPixAccess_congr (h : g.pixTokens after = g.pixTokens before) (now : Instant) :
    g.checkPixAccess now after = g.checkPixAccess now before := by
  unfold checkPixAccess
  rw [h]

/-- Pairs of other names have no say among lines that stay texts or stay none. -/
theorem checkPixAccess_of_same_texts
    (hpairs : Relation.EqvGen (Header.PairAdded (Header.Foreign (Bytes.ofText g.pixCookie)))
      before after)
    (htext : after.map Header.isText = before.map Header.isText) (now : Instant) :
    g.checkPixAccess now after = g.checkPixAccess now before := by
  have hgist := Header.eq_of_eqvGen (fun _ _ hadded => hadded.map_gist) hpairs
  exact checkPixAccess_congr (pixTokens_congr hgist htext) now

/-- Pairs of other names have no say in who may read pics, wherever they are added to the lines of
cookies, removed or moved, if the same headers are texts as before.  They are where all these pairs
are texts themselves.  Any pair that is none makes its whole line as though it had not been sent. -/
theorem foreign_pairs_matter_only_by_readability (g : Gateway) (now : Instant) :
    (∀ before after,
      Relation.EqvGen (Header.PairAdded (Header.Foreign (Bytes.ofText g.pixCookie))) before after →
      after.map Header.isText = before.map Header.isText →
      g.checkPixAccess now after = g.checkPixAccess now before) ∧
    (∀ before after,
      Relation.EqvGen (Header.PairAdded fun pair =>
        Header.Foreign (Bytes.ofText g.pixCookie) pair ∧ Header.Visible pair) before after →
      g.checkPixAccess now after = g.checkPixAccess now before) ∧
    ∀ front back line first last pair, ¬ Header.Visible pair →
      g.checkPixAccess now (front ++ Header.ofPieces line (first ++ pair :: last) :: back) =
        g.checkPixAccess now (front ++ back) := by
  refine ⟨?_, ?_, ?_⟩
  · intro before after hpairs htext
    exact checkPixAccess_of_same_texts hpairs htext now
  · intro before after hpairs
    have hforeign := hpairs.mono fun _ _ hadded => hadded.mono fun _ hpair => hpair.1
    -- A pair that is a text cannot turn its line from a text into none, or back.
    have htext := Header.eq_of_eqvGen
      (fun _ _ hadded => (hadded.mono fun _ hpair => hpair.2).map_isText) hpairs
    exact checkPixAccess_of_same_texts hforeign htext now
  · intro front back line first last pair hpair
    have hmem : pair ∈ first ++ pair :: last := by simp
    have hnot := Header.isText_ofPieces_of_not_visible line hmem hpair
    exact checkPixAccess_congr (pixTokens_of_not_text hnot) now

/-- A pair is moved to the front of a line, and one more pair with an accented letter stands in a
line that was no text anyway.  Beside a bad pix token alone, such a pair leaves nothing to
refuse. -/
theorem moved_pairs_change_nothing :
    let g : Gateway :=
      { mac := .hmac [7], windows := .standard, issuer := "pixur"
        anonymous := .ofList [.picRead], pixCookie := "pix" }
    let now : Instant := ⟨-5, 3, by decide⟩
    let foreign := Header.Foreign (Bytes.ofText g.pixCookie)
    let visible := fun pair => foreign pair ∧ Header.Visible pair
    let accent : Bytes := [97, 61, 195, 169]
    let bad := Bytes.ofText "pix=x"
    let pix := Bytes.ofText " pix="
    let other := Bytes.ofText "pixel=pix="
    let hidden := Header.ofPieces "Cookie" [bad, accent]
    let between := [hidden, Header.ofPieces "COOKIE" [pix]]
    let before := [hidden, Header.ofPieces "COOKIE" [pix, other]]
    let moved := [hidden, Header.ofPieces "COOKIE" [other, pix]]
    let after := [Header.ofPieces "Cookie" [accent, bad, accent],
      Header.ofPieces "COOKIE" [other, pix]]
    Header.PairAdded visible between before ∧ Header.PairAdded visible between moved ∧
      Header.PairAdded foreign moved after ∧
      after.map Header.isText = moved.map Header.isText ∧ ¬ Header.Visible accent ∧
      g.checkPixAccess now before = .ok () ∧ g.checkPixAccess now after = .ok () ∧
      g.checkPixAccess now [hidden] = .ok () := by
  intro g now foreign visible accent bad pix other hidden between before moved after
  have hcookie : ∀ line ∈ ["Cookie", "COOKIE"],
      Text.asciiLower line = Text.asciiLower Header.cookieHeader := by decide +kernel
  have hvisible : visible other := by
    constructor
    · decide +kernel
    · decide +kernel
  have hbefore : Header.PairAdded visible between before :=
    @Header.PairAdded.add _ [hidden] [] "COOKIE" [pix] [] other (hcookie _ (by simp))
      (by decide +kernel) hvisible
  have hmoved : Header.PairAdded visible between moved :=
    @Header.PairAdded.add _ [hidden] [] "COOKIE" [] [pix] other (hcookie _ (by simp))
      (by decide +kernel) hvisible
  have hafter : Header.PairAdded foreign moved after :=
    @Header.PairAdded.add _ [] [Header.ofPieces "COOKIE" [other, pix]] "Cookie" [] [bad, accent]
      accent (hcookie _ (by simp)) (by decide +kernel) (by decide +kernel)
  have htext : after.map Header.isText = moved.map Header.isText := by decide +kernel
  have haccent : ¬ Header.Visible accent := by decide +kernel
  have hopen : g.checkPixAccess now before = .ok () := by
    rw [checkPixAccess_of_none (.inr (by decide +kernel))]
    rfl
  have hnone : g.checkPixAccess now [] = .ok () := by
    rw [checkPixAccess_of_none (.inl rfl)]
    rfl
  rcases foreign_pairs_matter_only_by_readability g now with ⟨htexts, hvisibles, hhidden⟩
  refine ⟨hbefore, hmoved, hafter, htext, haccent, hopen, ?_, ?_⟩
  · calc g.checkPixAccess now after
        = g.checkPixAccess now moved := htexts moved after (.rel _ _ hafter) htext
      _ = g.checkPixAccess now before :=
          hvisibles before moved (.trans _ _ _ (.symm _ _ (.rel _ _ hbefore)) (.rel _ _ hmoved))
      _ = .ok () := hopen
  · exact (hhidden [] [] "Cookie" [bad] [] accent haccent).trans hnone

/-- Bob's pix token is good for now.  With one more pair, of another name and with an accented
letter, he is refused for want of a token.  Where anyone may read who presents none, a bad token is
refused, and with that pair beside it, it is not. -/
theorem accented_pair_locks_out_and_lets_in :
    let g : Gateway :=
      { mac := .hmac [7], windows := { auth := 100, refresh := 1000 }, issuer := "pixur"
        anonymous := .empty, pixCookie := "pix" }
    let opened : Gateway := { g with anonymous := .ofList [.picRead] }
    let bob : User :=
      { userId := 8, ident := "bob", secretHash := "", capabilities := .ofList [.picRead] }
    let now : Instant := ⟨1500000000, 900000000, by decide⟩
    let Added := Header.PairAdded (Header.Foreign (Bytes.ofText g.pixCookie))
    let accent : Bytes := [97, 61, 195, 169]
    let good := Bytes.ofText "pix" ++ 61 :: (g.pixFor 1500000000 bob 42).token
    let bad := Bytes.ofText "pix=x"
    (∀ b ∈ accent, Header.isAllowed b = true) ∧
      Added [Header.ofPieces "cookie" [good]] [Header.ofPieces "cookie" [good, accent]] ∧
      g.checkPixAccess now [Header.ofPieces "cookie" [good]] = .ok () ∧
      g.checkPixAccess now [Header.ofPieces "cookie" [good, accent]] =
        .error (.ofToken .missingToken) ∧
      Added [Header.ofPieces "cookie" [bad]] [Header.ofPieces "cookie" [bad, accent]] ∧
      opened.checkPixAccess now [Header.ofPieces "cookie" [bad]] =
        .error (.ofToken (.malformed .segments)) ∧
      opened.checkPixAccess now [Header.ofPieces "cookie" [bad, accent]] = .ok () := by
  intro g opened bob now Added accent good bad
  let token := (g.pixFor 1500000000 bob 42).token
  have hplain : g.PlainCookieName := by decide +kernel
  have hsemicolon : (59 : UInt8) ∉ token := Token.not_mem_encode (by decide) (by decide)
  have hbytes : ∀ b ∈ token, Header.isVisible b = true ∧ b ≠ 59 := fun b hb =>
    ⟨Token.isVisible_of_mem_encode hb, fun h => hsemicolon (h ▸ hb)⟩
  have hlast : ∀ b ∈ token.getLast?, Header.isBlank b = false := fun b hb =>
    Token.isBlank_of_mem_encode (List.mem_of_getLast? hb)
  have hforeign : Header.Foreign (Bytes.ofText "pix") accent := by decide +kernel
  have hinvisible : ¬ Header.Visible accent := by decide +kernel
  have hplainAccent : 59 ∉ accent := by decide +kernel
  have hplainBad : 59 ∉ bad := by decide +kernel
  have hadded : ∀ pair, 59 ∉ pair →
      Added [Header.ofPieces "cookie" [pair]] [Header.ofPieces "cookie" [pair, accent]] := by
    intro pair hpair
    refine @Header.PairAdded.add _ [] [] "cookie" [pair] [] accent rfl ?_ hforeign
    simp only [List.singleton_append, List.forall_mem_cons, List.not_mem_nil, false_imp_iff,
      implies_true, and_true]
    exact ⟨hpair, hplainAccent⟩
  have hhidden : ∀ (gateway : Gateway) pair,
      gateway.pixTokens [Header.ofPieces "cookie" [pair, accent]] = [] := by
    intro gateway pair
    have hmem : accent ∈ [pair, accent] := by simp
    exact @pixTokens_of_not_text gateway [] [] _
      (Header.isText_ofPieces_of_not_visible _ hmem hinvisible)
  have hgiven : token ≠ [] := by simp [token, pixFor, IssuedTokens.sign, Token.encode]
  have hspans : Token.Spans (g.pixFor 1500000000 bob 42).payload 8 (1500000000 - 60)
      (1500000000 + 1000) :=
    IssuedTokens.spans_pixPayload (by decide) (by decide) (by decide)
  have haccepted : Token.decode g.mac now token = .ok (g.pixFor 1500000000 bob 42).payload :=
    (hspans.decode_eq_ok_iff (by decide)).mpr ⟨rfl, by decide, by decide⟩
  have hallowed : ∀ b ∈ accent, Header.isAllowed b = true := by decide +kernel
  refine ⟨hallowed, hadded good fun h => (hplain.pair hbytes 59 h).2 rfl, ?_, ?_,
    hadded bad hplainBad, ?_, ?_⟩
  · exact checkPixAccess_eq_ok_iff.mpr
      (.inr ⟨token, _, hplain.pixTokens_of_pair hbytes hlast, hgiven, haccepted, rfl⟩)
  · rw [checkPixAccess_of_none (.inl (hhidden g good))]
    rfl
  · have hbad : opened.pixTokens [Header.ofPieces "cookie" [bad]] = [Bytes.ofText "x"] := by
      decide +kernel
    rw [checkPixAccess_of_token hbad (by decide)]
    rfl
  · rw [checkPixAccess_of_none (.inl (hhidden opened bad))]
    rfl

end Gateway

end PicBoard
