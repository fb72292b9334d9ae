import Mathlib.Tactic
import PicBoard.Proofs.Gateway.CookieLines
import PicBoard.Proofs.Gateway.Grants
import PicBoard.Proofs.Gateway.Serving

/-!
# The pix cookie from login to reading

The cookie that is set at login can always be set where its name is plain.  Whatever else a client
sends with it, it lets its holder read pics from a minute before the second of the login through
the end of the refresh window, and at no other time.
-/

namespace PicBoard

namespace Token

/-! ## Bytes of tokens -/

/-- A byte that is neither a symbol of base64url nor a dot stands in no token. -/
theorem not_mem_encode {mac : Mac} {p : Payload} {b : UInt8} (h : Base64Url.value? b = none)
    (hdot : b ≠ dot) : b ∉ encode mac p := by
  have hpart : ∀ c : Bytes, b ∉ Base64Url.encode c := Base64Url.not_mem_encode h
  simp only [encode, signedPart, List.mem_append, List.mem_cons, not_or]
  exact ⟨⟨hpart _, hdot, hpart _⟩, hdot, hpart _⟩

theorem isBlank_of_mem_encode {mac : Mac} {p : Payload} {b : UInt8} (h : b ∈ encode mac p) :
    Header.isBlank b = false := by
  by_contra hblank
  rcases Header.isBlank_iff.mp (Bool.eq_true_of_not_eq_false hblank) with rfl | rfl
  · exact not_mem_encode (by decide) (by decide) h
  · exact not_mem_encode (by decide) (by decide) h

/-! ## When pics may be read -/

variable {mac : Mac} {t : Instant} {token : Bytes} {p : Payload} {userId : Int64}
  {first last : Int}

/-- A token that is presented must be a pix token that holds, whatever readers may do who present
none. -/
theorem exists_validatePix_iff (hgiven : token ≠ []) (anonymous : Bool) :
    (∃ q, validatePix mac t (some token) anonymous = .ok q) ↔
      ∃ p, decode mac t token = .ok p ∧ p.type = .pix := by
  rw [validatePix_of_given hgiven]
  constructor
  · rintro ⟨q, hq⟩
    cases hp : decodeTyped mac t token .pix with
    | error e =>
      rw [hp] at hq
      cases hq
    | ok p => exact ⟨p, decodeTyped_eq_ok_iff.mp hp⟩
  · rintro ⟨p, hp⟩
    rw [decodeTyped_eq_ok_iff.mpr hp]
    exact ⟨some p, rfl⟩

/-- A token that holds for some seconds from year 1 on is accepted exactly in them. -/
theorem Spans.decode_eq_ok_iff (h : Spans p userId first last)
    (hyear : Timestamp.minSeconds ≤ first) {q : Payload} :
    Token.decode mac t (encode mac p) = .ok q ↔
      q = p ∧ first * nanosPerSecond ≤ t.total ∧ t.total ≤ last * nanosPerSecond := by
  constructor
  · intro hq
    have hclock := Gateway.readable_of_decode hq
    rw [h.decode hclock] at hq
    unfold outcomeAt at hq
    split_ifs at hq with hearly hlate
    cases hq
    exact ⟨rfl, not_lt.mp hearly, not_lt.mp hlate⟩
  · rintro ⟨rfl, hfirst, hlast⟩
    have hpos : (0 : Int) ≤ nanosPerSecond := Int.natCast_nonneg _
    have hclock : t.Readable :=
      Timestamp.readable_of_minSeconds_le ((Int.mul_le_mul_of_nonneg_right hyear hpos).trans hfirst)
    rw [h.decode hclock]
    exact outcomeAt_of_within hfirst hlast _

end Token

/-! ## The cookie -/

/-- The pair at the front of a header that sets a cookie, which is what a client sends back. -/
def Header.leadingPair (setCookie : Bytes) : Bytes := setCookie.takeWhile (· != 59)

namespace Gateway

variable {g : Gateway} {now : Instant} {fresh : Int64} {request : TokenRequest}
  {store after : UserStore} {who : Identity}

/-- The name of the pix cookie is visible ASCII without an equals sign, a semicolon or a blank. -/
def PlainCookieName (g : Gateway) : Prop :=
  ∀ b ∈ Bytes.ofText g.pixCookie, 33 ≤ b.toNat ∧ b.toNat < 127 ∧ b ≠ 61 ∧ b ≠ 59

instance (g : Gateway) : Decidable g.PlainCookieName :=
  inferInstanceAs (Decidable (∀ _ ∈ _, _))

theorem PlainCookieName.allowed (h : g.PlainCookieName) : g.CookieNameAllowed := by
  intro b hb
  obtain ⟨hlo, hhi, -, -⟩ := h b hb
  exact Header.isAllowed_of_isVisible (Header.isVisible_iff.mpr (.inl ⟨by omega, hhi⟩))

theorem PlainCookieName.isCookieName (h : g.PlainCookieName) :
    Header.IsCookieName (Bytes.ofText g.pixCookie) := by
  intro b hb
  obtain ⟨hlo, -, hequals, -⟩ := h b hb
  refine ⟨?_, hequals⟩
  by_contra hblank
  rcases Header.isBlank_iff.mp (Bool.eq_true_of_not_eq_false hblank) with rfl | rfl
  · exact absurd hlo (by decide)
  · exact absurd hlo (by decide)

/-- The pair of a plain name and a token can stand in a line between semicolons. -/
theorem PlainCookieName.pair (h : g.PlainCookieName) {token : Bytes}
    (htoken : ∀ b ∈ token, Header.isVisible b = true ∧ b ≠ 59) :
    ∀ b ∈ Bytes.ofText g.pixCookie ++ 61 :: token, Header.isVisible b = true ∧ b ≠ 59 := by
  intro b hb
  simp only [List.mem_append, List.mem_cons] at hb
  rcases hb with hb | rfl | hb
  · obtain ⟨hlo, hhi, -, hsemicolon⟩ := h b hb
    exact ⟨Header.isVisible_iff.mpr (.inl ⟨by omega, hhi⟩), hsemicolon⟩
  · decide
  · exact htoken b hb

/-- What a client sends back is the name and the token, for neither holds a semicolon. -/
theorem leadingPair_pixCookieText (hname : g.PlainCookieName) {token : Bytes}
    (htoken : 59 ∉ token) (maxAge : Int) :
    Header.leadingPair (g.pixCookieText token maxAge) =
      Bytes.ofText g.pixCookie ++ 61 :: token := by
  have hpair : ∀ b ∈ Bytes.ofText g.pixCookie ++ 61 :: token, (b != 59) = true := by
    intro b hb
    rw [bne_iff_ne]
    rintro rfl
    simp only [List.mem_append, List.mem_cons] at hb
    rcases hb with hb | hb | hb
    · exact (hname 59 hb).2.2.2 rfl
    · exact absurd hb (by decide)
    · exact htoken hb
  have hpath : ∃ rest, Bytes.ofText "; Path=/pix/; Max-Age=" = 59 :: rest := by
    exact ⟨Bytes.ofText " Path=/pix/; Max-Age=", by decide +kernel⟩
  obtain ⟨rest, hrest⟩ := hpath
  unfold Header.leadingPair pixCookieText
  rw [hrest, List.append_assoc, List.append_assoc, List.takeWhile_append_of_pos hpair,
    List.cons_append, List.takeWhile_cons_of_neg (by simp), List.append_nil]

/-- A caller who presents one pix token may read exactly when it is accepted. -/
theorem checkPixAccess_of_singleton {headers : List Header} {t : Instant} {token : Bytes}
    (h : g.pixTokens headers = [token]) :
    g.checkPixAccess t headers = .ok () ↔
      ∃ q, Token.validatePix g.mac t (some token) (g.anonymous.contains .picRead) = .ok q := by
  unfold checkPixAccess
  rw [h]
  simp only [List.length_singleton, lt_irrefl, if_false, List.head?_cons]
  cases Token.validatePix g.mac t (some token) (g.anonymous.contains .picRead) with
  | error e => simp
  | ok q => simp

/-- The one cookie of its name that is sent is the one pix token of a request without headers for
pix tokens. -/
theorem pixTokens_of_sent {headers : List Header} {token : Bytes} (hname : g.PlainCookieName)
    (hnone : Header.named headers pixTokenHeader = [])
    (hlast : ∀ b ∈ token.getLast?, Header.isBlank b = false)
    (hsent : Header.CookieSent headers (Bytes.ofText g.pixCookie)
      (Bytes.ofText g.pixCookie ++ 61 :: token)) : g.pixTokens headers = [token] := by
  have htexts : Header.texts headers pixTokenHeader = [] := by
    unfold Header.texts
    rw [hnone, List.filterMap_nil]
  unfold pixTokens
  rw [Header.cookies_of_sent hname.isCookieName hlast hsent, htexts, List.append_nil]

/-- Where the pix cookie has a plain name, everyone who gets tokens and may read pics gets a cookie
too.  Its client sends back the pair at the front of it, at any place among other cookies, over any
number of lines, with any blanks around the semicolons.  Under the same key and the same name they
may then read pics from a minute before the second of the issue through the end of the refresh
window and at no other time, whatever callers may do who show nothing. -/
theorem pix_cookie_unlocks_for_its_lifetime (hname : g.PlainCookieName)
    (hissuer : (Bytes.ofText g.issuer).length < UInt64.size)
    (hlo : Timestamp.minSeconds ≤ now.seconds.toInt - 60)
    (hhi : now.seconds.toInt + g.windows.refresh ≤ Timestamp.maxSeconds)
    (hwho : g.identify now store request = .ok who)
    (hafter : store.rotate? who.user.userId who.family fresh = some after)
    (hread : who.user.capabilities.contains .picRead = true) :
    ∃ x setCookie, g.getRefreshToken now fresh request store = (.ok x, after) ∧
      x.cookie = some setCookie ∧
      ∀ (reader : Gateway) (headers : List Header) (t : Instant),
        reader.mac = g.mac → reader.pixCookie = g.pixCookie →
        Header.named headers pixTokenHeader = [] →
        Header.CookieSent headers (Bytes.ofText g.pixCookie) (Header.leadingPair setCookie) →
        (reader.checkPixAccess t headers = .ok () ↔
          (now.seconds.toInt - 60) * nanosPerSecond ≤ t.total ∧
            t.total ≤ (now.seconds.toInt + g.windows.refresh) * nanosPerSecond) := by
  have hclock : now.Readable := Timestamp.readable_of_minSeconds_le_seconds (by omega)
  have hwindow : ¬ Int64.maxValue.toInt < g.windows.refresh := by
    have hmax : Int64.maxValue.toInt = 2 ^ 63 - 1 := rfl
    simp only [Timestamp.minSeconds, Timestamp.maxSeconds] at hlo hhi
    omega
  let pix := g.pixFor now.seconds who.user fresh
  have hgrant := grant_eq (g := g) hclock who.user fresh
  rw [if_pos hread, if_neg hwindow, if_pos hname.allowed] at hgrant
  let setCookie := g.pixCookieText pix.token g.windows.refresh
  let x : TokenGrant :=
    { response := respond (g.tokensFor now.seconds who.user fresh), cookie := some setCookie }
  refine ⟨x, setCookie, ?_, rfl, ?_⟩
  · rw [getRefreshToken_of_rotate? hwho hafter, hgrant]
  · intro reader headers t hmac hcookie hnone hsent
    have hplain : reader.PlainCookieName := by
      unfold PlainCookieName
      rw [hcookie]
      exact hname
    have hsemicolon : (59 : UInt8) ∉ pix.token := Token.not_mem_encode (by decide) (by decide)
    have hlast : ∀ b ∈ pix.token.getLast?, Header.isBlank b = false := fun b hb =>
      Token.isBlank_of_mem_encode (List.mem_of_getLast? hb)
    rw [leadingPair_pixCookieText hname hsemicolon, ← hcookie] at hsent
    have hspans : Token.Spans pix.payload who.user.userId (now.seconds.toInt - 60)
        (now.seconds.toInt + g.windows.refresh) :=
      IssuedTokens.spans_pixPayload hlo hhi hissuer
    have hgiven : pix.token ≠ [] := by simp [pix, pixFor, IssuedTokens.sign, Token.encode]
    rw [checkPixAccess_of_singleton (pixTokens_of_sent hplain hnone hlast hsent),
      Token.exists_validatePix_iff hgiven, hmac]
    constructor
    · rintro ⟨p, hp, -⟩
      exact ((hspans.decode_eq_ok_iff hlo).mp hp).2
    · intro hwithin
      exact ⟨pix.payload, (hspans.decode_eq_ok_iff hlo).mpr ⟨rfl, hwithin⟩, rfl⟩

/-- Bob renews his family and gets a cookie for a thousand seconds.  He sends it on the second of
two lines, after a cookie whose name begins with its own, with a tab and blanks around it.  The
gateway that he sends it to lets anyone read; even so he is refused a nanosecond too late. -/
theorem pix_cookie_among_others :
    let g : Gateway :=
      { mac := .hmac [7], windows := { auth := 100, refresh := 1000 }, issuer := "pixur"
        anonymous := .empty, pixCookie := "pix" }
    let reader : Gateway := { g with anonymous := .ofList [.picRead], issuer := "other" }
    let bob : User :=
      { userId := 8, ident := "bob", secretHash := "", capabilities := .ofList [.picRead] }
    let store : UserStore :=
      { users := [{ user := bob, families := [41] }], familyLimit := 16
        familyLimit_pos := by decide }
    let now : Instant := ⟨1500000000, 900000000, by decide⟩
    let old := (g.tokensFor 1500000000 bob 41).refresh.token.toLatin1
    ∃ x setCookie, (g.getRefreshToken now 42 { refreshToken := old } store).1 = .ok x ∧
      x.cookie = some setCookie ∧
      let headers : List Header :=
        [{ name := "Cookie", value := Bytes.ofText "a=pix=1; =2" },
          { name := "COOKIE"
            value := [59].intercalate [Bytes.ofText "pix2=x",
              Bytes.ofText "\t " ++ Header.leadingPair setCookie ++ Bytes.ofText " ",
              Bytes.ofText "b"] }]
      reader.checkPixAccess ⟨1500001000, 0, by decide⟩ headers = .ok () ∧
        reader.checkPixAccess ⟨1500001000, 1, by decide⟩ headers ≠ .ok () := by
  intro g reader bob store now old
  have hspans : Token.Spans
      (IssuedTokens.refreshPayload g.windows 1500000000 bob.userId 41 g.issuer) 8
      (1500000000 - 60) (1500000000 + 1000) :=
    IssuedTokens.spans_refreshPayload (by decide) (by decide) (by decide)
  have hwho : g.identify now store { refreshToken := old } =
      .ok { user := bob, family := some 41 } :=
    identify_refreshToken (by decide) hspans (by decide) (by decide) rfl rfl
  have hafter : store.rotate? 8 (some 41) 42 = some (store.setFamilies 8 [42]) := rfl
  have hplain : g.PlainCookieName := by decide +kernel
  rcases pix_cookie_unlocks_for_its_lifetime hplain (by decide) (by decide)
    (by decide) hwho hafter (by decide) with ⟨x, setCookie, hx, hcookie, hread⟩
  refine ⟨x, setCookie, by rw [hx], hcookie, ?_⟩
  intro headers
  let pix := g.pixFor 1500000000 bob 42
  have hset : setCookie = g.pixCookieText pix.token 1000 := by
    have hgrant : g.grant now bob 42 = .ok x := by
      rw [getRefreshToken_of_rotate? hwho hafter] at hx
      exact congrArg Prod.fst hx
    have hpix : (g.tokensFor now.seconds bob 42).pix = some pix := rfl
    have htoken : Bytes.ofText pix.token.toLatin1 = pix.token := Token.ofText_toLatin1_encode _ _
    rcases granted_of_grant (by decide) hgrant with ⟨hresponse, hset⟩
    rw [hcookie, hresponse, respond, hpix, Option.map_some, Option.map_some, htoken] at hset
    exact Option.some.inj hset
  have hsemicolon : (59 : UInt8) ∉ pix.token := Token.not_mem_encode (by decide) (by decide)
  have hpair : Header.leadingPair setCookie = Bytes.ofText "pix" ++ 61 :: pix.token := by
    rw [hset]
    exact leadingPair_pixCookieText hplain hsemicolon 1000
  let sent := Bytes.ofText "\t " ++ Header.leadingPair setCookie ++ Bytes.ofText " "
  let front := [Bytes.ofText "a=pix=1", Bytes.ofText " =2", Bytes.ofText "pix2=x"]
  have hcookies : (Header.named headers Header.cookieHeader).map (·.value) =
      [[Bytes.ofText "a=pix=1", Bytes.ofText " =2"],
        [Bytes.ofText "pix2=x", sent, Bytes.ofText "b"]].map ([59].intercalate ·) := by
    have hlower : Text.asciiLower "Cookie" = "cookie" ∧ Text.asciiLower "COOKIE" = "cookie" ∧
        Text.asciiLower "cookie" = "cookie" := by decide +kernel
    have hfirst : Bytes.ofText "a=pix=1; =2" =
        [59].intercalate [Bytes.ofText "a=pix=1", Bytes.ofText " =2"] := by decide +kernel
    simp [Header.named, headers, Header.cookieHeader, hlower, hfirst, sent]
  have hnone : Header.named headers pixTokenHeader = [] := by
    have hother : Text.asciiLower "Cookie" ≠ Text.asciiLower pixTokenHeader ∧
        Text.asciiLower "COOKIE" ≠ Text.asciiLower pixTokenHeader := by decide +kernel
    simp [Header.named, headers, hother]
  have hfixed : ∀ piece ∈ Bytes.ofText "b" :: Bytes.ofText "\t " :: Bytes.ofText " " :: front,
      ∀ b ∈ piece, Header.isVisible b = true ∧ b ≠ 59 := by decide +kernel
  have hbytes : ∀ b ∈ sent, Header.isVisible b = true ∧ b ≠ 59 := by
    intro b hb
    simp only [sent, List.mem_append] at hb
    rcases hb with (hb | hb) | hb
    · exact hfixed _ (by simp) b hb
    · rw [hpair] at hb
      exact hplain.pair (fun b hb =>
        ⟨Token.isVisible_of_mem_encode hb, fun h => hsemicolon (h ▸ hb)⟩) b hb
    · exact hfixed _ (by simp) b hb
  have hplace : [[Bytes.ofText "a=pix=1", Bytes.ofText " =2"],
      [Bytes.ofText "pix2=x", sent, Bytes.ofText "b"]].flatten =
        front ++ sent :: [Bytes.ofText "b"] := by simp [front]
  have hpadded : Header.Padded (Header.leadingPair setCookie) sent :=
    ⟨_, _, rfl, by decide +kernel, by decide +kernel⟩
  have hsent : Header.CookieSent headers (Bytes.ofText "pix") (Header.leadingPair setCookie) := by
    refine Header.cookieSent_of_lines hcookies ?_ hplace hpadded ?_
    · intro pieces hpieces
      simp only [List.mem_cons, List.not_mem_nil, or_false] at hpieces
      rcases hpieces with rfl | rfl
      · refine ⟨by simp, fun piece hpiece => ?_⟩
        simp only [List.mem_cons, List.not_mem_nil, or_false] at hpiece
        rcases hpiece with rfl | rfl <;> exact hfixed _ (by simp [front])
      · refine ⟨by simp, fun piece hpiece => ?_⟩
        simp only [List.mem_cons, List.not_mem_nil, or_false] at hpiece
        rcases hpiece with rfl | rfl | rfl
        · exact hfixed _ (by simp [front])
        · exact hbytes
        · exact hfixed _ List.mem_cons_self
    · have hread : ∀ other ∈ front ++ [Bytes.ofText "b"],
          Header.cookieValue? (Bytes.ofText "pix") other = none := by decide +kernel
      intro other hother hcookie
      rcases (Header.isCookie_iff hplain.isCookieName).mp hcookie with ⟨value, hvalue⟩
      cases (hread other hother).symm.trans hvalue
  have htimes := fun t => hread reader headers t rfl rfl hnone hsent
  refine ⟨(htimes _).mpr (by decide), ?_⟩
  intro hlate
  exact absurd ((htimes _).mp hlate).2 (by decide)

end Gateway

end PicBoard
