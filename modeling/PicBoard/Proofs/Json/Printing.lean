import Mathlib.Tactic
import PicBoard.Json.Fields
import PicBoard.Proofs.Json.Grammar

/-!
# What is written reads back

Compact text and spread text spell what they are written from, so both are read as the value that
was written (`parse_compact`, `parse_spread`).
-/

namespace PicBoard.Json

/-! ## Values that are written as they are read -/

mutual

/-- Whether a value has only texts for strings, and only integers of moderate length for
numbers. -/
def Plain : Json → Prop
  | .null => True
  | .bool _ => True
  | .number (.integer n) => n.natAbs < 10 ^ maxIntegerDigits
  | .number (.other _) => False
  | .string s => ∃ t, Bytes.ofText t = s
  | .array items => PlainItems items
  | .object members => PlainMembers members

def PlainItems : List Json → Prop
  | [] => True
  | x :: xs => Plain x ∧ PlainItems xs

def PlainMembers : List (Bytes × Json) → Prop
  | [] => True
  | (k, v) :: ms => (∃ name, Bytes.ofText name = k) ∧ Plain v ∧ PlainMembers ms

end

@[simp] theorem plain_null : Plain .null := trivial

@[simp] theorem plain_ofText (s : String) : Plain (ofText s) := ⟨s, rfl⟩

@[simp] theorem plain_ofInt64 (n : Int64) : Plain (ofInt64 n) := by
  have hlo := n.le_toInt
  have hhi := n.toInt_lt
  show n.toInt.natAbs < 10 ^ 20
  omega

@[simp] theorem plain_array_iff {items : List Json} :
    Plain (.array items) ↔ ∀ x ∈ items, Plain x := by
  have hitems : ∀ xs, PlainItems xs ↔ ∀ x ∈ xs, Plain x := by
    intro xs
    induction xs with
    | nil => simp [PlainItems]
    | cons x xs ih => simp [PlainItems, ih]
  rw [Plain, hitems]

@[simp] theorem plain_ofFields_iff {fields : List (String × Json)} :
    Plain (ofFields fields) ↔ ∀ f ∈ fields, Plain f.2 := by
  rw [ofFields, Plain]
  induction fields with
  | nil => simp [PlainMembers]
  | cons f fields ih => simp [PlainMembers, ih]

/-! ## Compact text -/

mutual

theorem Plain.spells_compact : ∀ {j : Json}, Plain j → Spells (.value j) (compact j)
  | .null, _ => .nullWord
  | .bool true, _ => .trueWord
  | .bool false, _ => .falseWord
  | .number (.integer n), h => .integer n h
  | .string _, ⟨s, rfl⟩ => .text s
  | .array [], _ => .emptyArray [] nofun
  | .array (_ :: _), ⟨hx, hxs⟩ => by
    simpa [compact] using Spells.array [] nofun hx.spells_compact (spells_compactItems hxs)
  | .object [], _ => .emptyObject [] nofun
  | .object ((_, _) :: _), ⟨⟨name, rfl⟩, hv, hms⟩ => by
    simpa [compact] using Spells.object [] nofun
      (.member name [] [] nofun nofun hv.spells_compact) (spells_compactMembers hms)

theorem spells_compactItems :
    ∀ {xs : List Json}, PlainItems xs → Spells (.items xs) (compactItems xs ++ [93])
  | [], _ => .itemsEnd [] nofun
  | _ :: _, ⟨hx, hxs⟩ => by
    simpa [compactItems] using
      Spells.item [] [] nofun nofun hx.spells_compact (spells_compactItems hxs)

theorem spells_compactMembers :
    ∀ {ms : List (Bytes × Json)}, PlainMembers ms →
      Spells (.members ms) (compactMembers ms ++ [125])
  | [], _ => .membersEnd [] nofun
  | (_, _) :: _, ⟨⟨name, rfl⟩, hv, hms⟩ => by
    simpa [compactMembers] using Spells.nextMember [] [] nofun nofun
      (.member name [] [] nofun nofun hv.spells_compact) (spells_compactMembers hms)

end

/-- Compact text is read as what was written. -/
theorem Plain.parse_compact {j : Json} (h : Plain j) : parse (compact j) = some j :=
  h.spells_compact.parse_eq_some

/-! ## Spread text -/

theorem blank_newline (depth : Nat) : Blank (newline depth) := by
  intro b hb
  rcases List.mem_cons.mp hb with rfl | hb
  · rfl
  · rw [List.eq_of_mem_replicate hb]
    rfl

mutual

theorem Plain.spells_spreadAt :
    ∀ {j : Json}, Plain j → ∀ depth, Spells (.value j) (spreadAt depth j)
  | .null, _, _ => .nullWord
  | .bool true, _, _ => .trueWord
  | .bool false, _, _ => .falseWord
  | .number (.integer n), h, _ => .integer n h
  | .string _, ⟨s, rfl⟩, _ => .text s
  | .array [], _, _ => .emptyArray [] nofun
  | .array (_ :: _), ⟨hx, hxs⟩, depth => by
    simpa [spreadAt] using Spells.array (newline (depth + 1)) (blank_newline _)
      (hx.spells_spreadAt _) (spells_spreadItems hxs (depth + 1) (blank_newline depth))
  | .object [], _, _ => .emptyObject [] nofun
  | .object ((_, _) :: _), ⟨⟨name, rfl⟩, hv, hms⟩, depth => by
    have hcolon : Blank [32] := by simp [Blank, isBlank]
    simpa [spreadAt] using Spells.object (newline (depth + 1)) (blank_newline _)
      (.member name [] [32] nofun hcolon (hv.spells_spreadAt _))
      (spells_spreadMembers hms (depth + 1) (blank_newline depth))

theorem spells_spreadItems :
    ∀ {xs : List Json}, PlainItems xs → ∀ depth {gap : Bytes}, Blank gap →
      Spells (.items xs) (spreadItems depth xs ++ gap ++ [93])
  | [], _, _, gap, hgap => .itemsEnd gap hgap
  | _ :: _, ⟨hx, hxs⟩, depth, _, hgap => by
    simpa [spreadItems] using Spells.item [] (newline depth) nofun (blank_newline _)
      (hx.spells_spreadAt _) (spells_spreadItems hxs depth hgap)

theorem spells_spreadMembers :
    ∀ {ms : List (Bytes × Json)}, PlainMembers ms → ∀ depth {gap : Bytes}, Blank gap →
      Spells (.members ms) (spreadMembers depth ms ++ gap ++ [125])
  | [], _, _, gap, hgap => .membersEnd gap hgap
  | (_, _) :: _, ⟨⟨name, rfl⟩, hv, hms⟩, depth, _, hgap => by
    have hcolon : Blank [32] := by simp [Blank, isBlank]
    simpa [spreadMembers] using Spells.nextMember [] (newline depth) nofun (blank_newline _)
      (.member name [] [32] nofun hcolon (hv.spells_spreadAt _))
      (spells_spreadMembers hms depth hgap)

end

/-- Spread text is read as what was written. -/
theorem Plain.parse_spread {j : Json} (h : Plain j) : parse (spread j) = some j :=
  (h.spells_spreadAt 0).parse_eq_some

end PicBoard.Json
