import Mathlib.Tactic
import PicBoard.Gateway.Reply
import PicBoard.Operator.Login
import PicBoard.Proofs.FileTree.Write
import PicBoard.Proofs.Json.Printing
import PicBoard.Proofs.Json.Records

/-!
# Saved tokens

A response that is written, to a file or as an answer of the gateway, is read back as it was:
fields that are left out when they are absent are read as absent, and so are those that are
written as null.
-/

namespace PicBoard

open Json

/-! ## Fields that may be left out -/

namespace PayloadView

variable {α : Type} {write : α → Json} {name : String}

@[simp] theorem lookup_unlessAbsent (name key : String) (write : α → Json) (o : Option α) :
    (unlessAbsent name write o).lookup key = if key = name then o.map write else none := by
  cases o with
  | none => simp [unlessAbsent]
  | some a =>
    by_cases h : key = name
    · simp [unlessAbsent, h]
    · simp [unlessAbsent, h, lookup_cons_of_ne]

theorem names_unlessAbsent_sublist (name : String) (write : α → Json) (o : Option α) :
    ((unlessAbsent name write o).map (·.1)).Sublist [name] := by
  cases o with
  | none => exact List.nil_sublist _
  | some a => exact List.Sublist.refl _

theorem plain_unlessAbsent (hplain : ∀ a, Plain (write a)) (name : String) (o : Option α) :
    ∀ f ∈ unlessAbsent name write o, Plain f.2 := by
  cases o with
  | none => exact nofun
  | some a => simpa [unlessAbsent] using hplain a

/-! ## Views -/

theorem toOption?_orNull (n : Option Int64) : toOption? toInt64? (orNull n) = some n := by
  cases n with
  | none => rfl
  | some n => exact toOption?_of_ne_null (toInt64?_ofInt64 n) nofun

theorem plain_orNull (n : Option Int64) : Plain (orNull n) := by
  cases n with
  | none => exact plain_null
  | some n => exact plain_ofInt64 n

theorem plain_toJson (v : PayloadView) : Plain v.toJson := by
  have hnumber := plain_unlessAbsent plain_ofInt64
  have htext := plain_unlessAbsent plain_ofText
  unfold toJson
  rw [plain_ofFields_iff]
  simp only [List.forall_mem_append, List.forall_mem_cons]
  exact ⟨⟨⟨⟨⟨plain_ofText _, plain_ofText _, plain_orNull _, plain_orNull _, nofun⟩,
    hnumber _ _⟩, hnumber _ _⟩, hnumber _ _⟩, htext _ _⟩

/-- A view reads back from what is written of it. -/
theorem ofJson?_toJson (v : PayloadView) : ofJson? v.toJson = some v := by
  have hnumber (o : Option Int64) := Slot.optional_ofMember toInt64?_ofInt64 nofun o
  have htext (o : Option String) := Slot.optional_ofMember toText?_ofText nofun o
  unfold ofJson? toJson
  rw [slots?_ofFields (by decide)]
  · simp [names, List.lookup_append, List.lookup_cons, toOption?_orNull, hnumber, htext]
  · -- the fields that are written are some of the names, in their order, so none comes twice
    have hnames : names = ["subject", "type", "not_before", "not_after"] ++ ["soft_not_after"] ++
        ["token_id"] ++ ["token_parent_id"] ++ ["issuer"] := rfl
    have hnodup : names.Nodup := by decide
    refine hnodup.sublist ?_
    rw [hnames]
    simp only [List.map_append]
    exact ((((List.Sublist.refl _).append (names_unlessAbsent_sublist _ _ _)).append
      (names_unlessAbsent_sublist _ _ _)).append (names_unlessAbsent_sublist _ _ _)).append
      (names_unlessAbsent_sublist _ _ _)

end PayloadView

/-! ## Responses -/

namespace TokenResponse

open PayloadView

theorem plain_toJson (r : TokenResponse) : Plain r.toJson := by
  unfold toJson
  rw [plain_ofFields_iff]
  simp only [List.forall_mem_append, List.forall_mem_cons]
  exact ⟨⟨⟨⟨plain_ofText _, plain_ofText _, nofun⟩, plain_unlessAbsent plain_ofText _ _⟩,
    PayloadView.plain_toJson _, PayloadView.plain_toJson _, nofun⟩,
    plain_unlessAbsent PayloadView.plain_toJson _ _⟩

/-- A response reads back from what is written of it. -/
theorem ofJson?_toJson (r : TokenResponse) : ofJson? r.toJson = some r := by
  have htext (o : Option String) := Slot.optional_ofMember toText?_ofText nofun o
  have hview (o : Option PayloadView) := Slot.optional_ofMember PayloadView.ofJson?_toJson nofun o
  unfold ofJson? toJson
  rw [slots?_ofFields (by decide)]
  · simp [names, List.lookup_append, List.lookup_cons, PayloadView.ofJson?_toJson, hview, htext]
  · -- as for a view
    have hnames : names = ["refresh_token", "auth_token"] ++ ["pix_token"] ++
        ["refresh_payload", "auth_payload"] ++ ["pix_payload"] := rfl
    have hnodup : names.Nodup := by decide
    refine hnodup.sublist ?_
    rw [hnames]
    simp only [List.map_append]
    exact (((List.Sublist.refl _).append (names_unlessAbsent_sublist _ _ _)).append
      (List.Sublist.refl _)).append (names_unlessAbsent_sublist _ _ _)

end TokenResponse

/-! ## Saving and loading -/

namespace Operator

/-- What the client keeps in a file and what the gateway sends are read as the response that was
written, whatever it holds; and what was kept is there for the next login. -/
theorem saved_tokens_reload (r : TokenResponse) :
    readTokenFile? (writeTokenFile r) = some r ∧
    (∀ cookie, readTokenFile? (Gateway.Reply.ofGrant (.ok { response := r, cookie })).body =
      some r) ∧
    ∀ (t t' : FileTree) (path : Bytes), t.write? path (writeTokenFile r) = some t' →
      (t'.read path).toOption.bind readTokenFile? = some r := by
  have hspread : readTokenFile? (writeTokenFile r) = some r := by
    unfold readTokenFile? writeTokenFile
    rw [r.plain_toJson.parse_spread]
    exact r.ofJson?_toJson
  have hcompact : readTokenFile? r.toJson.compact = some r := by
    unfold readTokenFile?
    rw [r.plain_toJson.parse_compact]
    exact r.ofJson?_toJson
  refine ⟨hspread, fun cookie => hcompact, ?_⟩
  intro t t' path hwrite
  rw [FileTree.read_of_write_self hwrite]
  exact hspread

/-- A login that brought no pix token, by a user whose name needs escapes, is found again. -/
theorem login_without_pix_token_reloads :
    let view : PayloadView :=
      { subject := "\"\u0000\\\n", type := "auth", notBefore := some (-1), notAfter := none
        softNotAfter := some 0, tokenId := none, tokenParentId := some 9, issuer := none }
    let r : TokenResponse :=
      { refreshToken := "a.b.c", authToken := "", pixToken := none, refreshPayload := view
        authPayload := view, pixPayload := some view }
    let path := Bytes.ofText "tokens.json"
    let kept : FileTree := { files := [([path], writeTokenFile r)] }
    ({ files := [] } : FileTree).write? path (writeTokenFile r) = some kept ∧
      (kept.read path).toOption.bind readTokenFile? = some r := by
  intro view r path kept
  have hwrite : ({ files := [] } : FileTree).write? path (writeTokenFile r) = some kept := rfl
  exact ⟨hwrite, (saved_tokens_reload r).2.2 _ _ _ hwrite⟩

end Operator

end PicBoard
