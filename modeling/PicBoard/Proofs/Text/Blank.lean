import Mathlib.Data.List.DropRight
import PicBoard.Text.Blank

/-!
# Texts without the blanks at their ends

What is cut off is blanks (`exists_eq_trimChars`), and all the blanks that stand around characters
of another kind are cut off (`trimChars_append`).  So blanks around a text do not tell
(`trim_around`).
-/

namespace PicBoard.Text

theorem trimChars_eq (cs : List Char) :
    trimChars cs = (cs.dropWhile isBlank).rdropWhile isBlank := rfl

/-- Blanks alone are cut off. -/
theorem exists_eq_trimChars (cs : List Char) :
    ∃ before after, cs = before ++ trimChars cs ++ after ∧
      (∀ c ∈ before, isBlank c = true) ∧ ∀ c ∈ after, isBlank c = true := by
  refine ⟨cs.takeWhile isBlank, (cs.dropWhile isBlank).rtakeWhile isBlank, ?_, ?_, ?_⟩
  · rw [trimChars_eq, List.append_assoc, List.rdropWhile_append_rtakeWhile,
      List.takeWhile_append_dropWhile]
  · intro c hc
    exact List.mem_takeWhile_imp hc
  · intro c hc
    exact List.mem_rtakeWhile_imp hc

/-- Blanks around a text do not tell. -/
theorem trimChars_around {before after : List Char} (hbefore : ∀ c ∈ before, isBlank c = true)
    (hafter : ∀ c ∈ after, isBlank c = true) (cs : List Char) :
    trimChars (before ++ cs ++ after) = trimChars cs := by
  have hblank : ∀ c ∈ after.reverse, isBlank c = true := by
    intro c hc
    exact hafter c (List.mem_reverse.mp hc)
  unfold trimChars
  rw [List.append_assoc, List.dropWhile_append_of_pos hbefore, List.dropWhile_append]
  by_cases hall : (cs.dropWhile isBlank).isEmpty = true
  · rw [if_pos hall, List.isEmpty_iff.mp hall, List.dropWhile_eq_nil_iff.mpr hafter]
  · rw [if_neg hall, List.reverse_append, List.dropWhile_append_of_pos hblank]

/-- Where no other characters are blank, nothing else is cut off either. -/
theorem trimChars_append {before cs after : List Char} (hbefore : ∀ c ∈ before, isBlank c = true)
    (hafter : ∀ c ∈ after, isBlank c = true) (hcs : ∀ c ∈ cs, isBlank c = false) :
    trimChars (before ++ cs ++ after) = cs := by
  have hkept : ∀ ds : List Char, (∀ c ∈ ds, isBlank c = false) → ds.dropWhile isBlank = ds := by
    intro ds hds
    rw [List.dropWhile_eq_self_iff]
    intro hlen
    rw [hds _ (List.getElem_mem hlen)]
    exact Bool.false_ne_true
  have hreverse : ∀ c ∈ cs.reverse, isBlank c = false := by
    intro c hc
    exact hcs c (List.mem_reverse.mp hc)
  rw [trimChars_around hbefore hafter]
  unfold trimChars
  rw [hkept cs hcs, hkept cs.reverse hreverse, List.reverse_reverse]

/-- A text without blanks is left as it is. -/
theorem trim_eq_self {s : String} (h : ∀ c ∈ s.toList, isBlank c = false) : trim s = s := by
  have hkept : trimChars ([] ++ s.toList ++ []) = s.toList := trimChars_append nofun nofun h
  rw [List.nil_append, List.append_nil] at hkept
  rw [trim, hkept, String.ofList_toList]

/-- Blanks around a text are cut off with its own. -/
theorem trim_around {before after : String} (hbefore : ∀ c ∈ before.toList, isBlank c = true)
    (hafter : ∀ c ∈ after.toList, isBlank c = true) (s : String) :
    trim (before ++ s ++ after) = trim s := by
  unfold trim
  rw [String.toList_append, String.toList_append, trimChars_around hbefore hafter]

/-! ## Cutting at a separator -/

theorem splitOnce_eq_none_iff {sep : Char} {cs : List Char} :
    splitOnce sep cs = none ↔ sep ∉ cs := by
  induction cs with
  | nil => simp [splitOnce]
  | cons c cs ih =>
    unfold splitOnce
    by_cases hc : c = sep
    · simp [hc]
    · simp [hc, ih, Ne.symm hc]

/-- A text is cut at the separator before which there is no other. -/
theorem splitOnce_eq_some_iff {sep : Char} {cs before after : List Char} :
    splitOnce sep cs = some (before, after) ↔ cs = before ++ sep :: after ∧ sep ∉ before := by
  induction cs generalizing before with
  | nil => simp [splitOnce]
  | cons c cs ih =>
    unfold splitOnce
    by_cases hc : c = sep
    · cases before with
      | nil => simp [hc]
      | cons b before =>
        simp only [if_pos hc, Option.some.injEq, Prod.mk.injEq, List.cons_append, List.cons.injEq,
          List.mem_cons, not_or]
        constructor
        · rintro ⟨h, -⟩
          cases h
        · rintro ⟨⟨rfl, -⟩, hne, -⟩
          exact absurd hc.symm hne
    · rw [if_neg hc]
      cases before with
      | nil => simp [hc]
      | cons b before =>
        simp only [Option.map_eq_some_iff, Prod.mk.injEq, List.cons_append, List.cons.injEq,
          List.mem_cons, not_or, Prod.exists]
        constructor
        · rintro ⟨front, rest, hsplit, ⟨rfl, rfl⟩, rfl⟩
          obtain ⟨hcs, hnot⟩ := ih.mp hsplit
          exact ⟨⟨rfl, hcs⟩, Ne.symm hc, hnot⟩
        · rintro ⟨⟨rfl, hcs⟩, -, hnot⟩
          exact ⟨before, after, ih.mpr ⟨hcs, hnot⟩, ⟨rfl, rfl⟩, rfl⟩

end PicBoard.Text
