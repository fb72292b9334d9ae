import PicBoard.Gateway.Config
import PicBoard.Proofs.Outcome
import PicBoard.Proofs.Text.Blank
import PicBoard.Proofs.Text.Decimal

/-!
# Windows that can be configured

A window is configured by a text that names its seconds, or is left at its standard.  Windows are
accepted exactly when neither is longer than the longest and that of auth tokens is not the longer
(`readWindows_eq_ok_iff`).
-/

namespace PicBoard

/-- The characters that name a number are none of them blank. -/
theorem Decimal.Names.isBlank_eq_false {cs : List Char} {n : Nat} (h : Names cs n) :
    ∀ c ∈ cs, Text.isBlank c = false := by
  rcases h with ⟨digits, hcs, -, hdigits, -⟩
  have hplain : ∀ c ∈ digits, Text.isBlank c = false := by
    intro c hc
    have hrange := toNat_of_isDigit (hdigits c hc)
    simp only [Text.isBlank, Bool.or_eq_false_iff, Bool.and_eq_false_iff, decide_eq_false_iff_not,
      beq_eq_false_iff_ne]
    omega
  intro c hc
  rcases hcs with rfl | rfl
  · exact hplain c hc
  · rcases List.mem_cons.mp hc with rfl | hc
    · rfl
    · exact hplain c hc

namespace GatewayConfig

variable {env : Environment} {name text : String} {standard n : Nat} {w : TokenWindows}

/-- A text names a number of seconds, with blanks around its characters or none. -/
def NamesSeconds (text : String) (n : Nat) : Prop :=
  ∃ before cs after, text.toList = before ++ cs ++ after ∧
    (∀ c ∈ before, Text.isBlank c = true) ∧ (∀ c ∈ after, Text.isBlank c = true) ∧
    Decimal.Names cs n

theorem names_trim_iff : Decimal.Names (Text.trim text).toList n ↔ NamesSeconds text n := by
  have htrim : (Text.trim text).toList = Text.trimChars text.toList := String.toList_ofList
  rw [htrim]
  constructor
  · intro h
    rcases Text.exists_eq_trimChars text.toList with ⟨before, after, htext, hbefore, hafter⟩
    exact ⟨before, _, after, htext, hbefore, hafter, h⟩
  · rintro ⟨before, cs, after, htext, hbefore, hafter, h⟩
    rw [htext, Text.trimChars_append hbefore hafter h.isBlank_eq_false]
    exact h

/-- A text gives a window exactly when it names the seconds of it and they are not too many. -/
theorem readWindow_eq_ok_iff :
    readWindow name text = .ok n ↔ NamesSeconds text n ∧ n ≤ TokenWindows.longest := by
  have hwindow : readWindow name text = .ok n ↔
      Decimal.readNat (Decimal.unsignedMax 64) (Bytes.ofText (Text.trim text)) = .ok n ∧
        n ≤ TokenWindows.longest := by
    unfold readWindow
    cases Decimal.readNat (Decimal.unsignedMax 64) (Bytes.ofText (Text.trim text)) with
    | error e => simp
    | ok m =>
      by_cases hlong : TokenWindows.longest < m
      · simp only [if_pos hlong, reduceCtorEq, Except.ok.injEq, false_iff]
        omega
      · simp only [if_neg hlong, Except.ok.injEq]
        omega
  rw [hwindow, Decimal.readNat_ofText_eq_ok_iff, names_trim_iff]
  -- the limit of what is read as a number is far above the longest window
  constructor
  · rintro ⟨⟨hnames, -⟩, hle⟩
    exact ⟨hnames, hle⟩
  · rintro ⟨hnames, hle⟩
    exact ⟨⟨hnames, hle.trans (by decide)⟩, hle⟩

/-- The setting of a name is a window: one that its text names, or the standard one where it is
missing. -/
def Configured (env : Environment) (name : String) (standard n : Nat) : Prop :=
  (∃ text, env name = some text ∧ NamesSeconds text n) ∨ env name = none ∧ n = standard

theorem readOr_window_eq_ok_iff (hstandard : standard ≤ TokenWindows.longest) :
    readOr env name standard (readWindow name) = .ok n ↔
      Configured env name standard n ∧ n ≤ TokenWindows.longest := by
  unfold readOr Configured
  cases env name with
  | some text => simp [readWindow_eq_ok_iff]
  | none =>
    simp only [Except.ok.injEq, reduceCtorEq, false_and, exists_false, true_and, false_or]
    omega

/-- Windows are accepted exactly when each is configured, none is too long, and that of auth tokens
is not the longer. -/
theorem readWindows_eq_ok_iff :
    readWindows env = .ok w ↔
      Configured env authWindowName TokenWindows.standard.auth w.auth ∧
        Configured env refreshWindowName TokenWindows.standard.refresh w.refresh ∧
        w.auth ≤ w.refresh ∧ w.refresh ≤ TokenWindows.longest := by
  have hstandard : TokenWindows.standard.auth ≤ TokenWindows.longest ∧
      TokenWindows.standard.refresh ≤ TokenWindows.longest := by decide
  unfold readWindows
  simp only [bind_eq_ok_iff, readOr_window_eq_ok_iff hstandard.1,
    readOr_window_eq_ok_iff hstandard.2]
  constructor
  · rintro ⟨auth, ⟨hauth, -⟩, refresh, ⟨hrefresh, hlong⟩, h⟩
    split at h
    · cases h
    · rename_i hle
      cases h
      exact ⟨hauth, hrefresh, not_lt.mp hle, hlong⟩
  · rintro ⟨hauth, hrefresh, hle, hlong⟩
    exact ⟨w.auth, ⟨hauth, hle.trans hlong⟩, w.refresh, ⟨hrefresh, hlong⟩,
      if_neg (not_lt.mpr hle)⟩

/-- An accepted configuration has windows that are accepted. -/
theorem readWindows_of_read {c : GatewayConfig} (h : read env = .ok c) :
    readWindows env = .ok c.windows := by
  simp only [read, bind_eq_ok_iff] at h
  rcases h with ⟨secret, -, windows, hwindows, flag, -, hconfig⟩
  cases hconfig
  exact hwindows

end GatewayConfig

end PicBoard
