import Mathlib.Tactic
import PicBoard.FileTree
import PicBoard.Proofs.Outcome
import PicBoard.Proofs.Text.Bytes

/-!
# Going down a tree

A plain name leads one step down.  A path that is put together from a root and plain names has the
names of the root and then those (`components_foldl_join`), and leads from where the root leads
down by each of them (`locate_foldl_join`): never back, and never to another place.
-/

namespace PicBoard.FileTree

open PixTree (join separator)

/-! ## Names in a path -/

/-- The names that stand in a path. -/
def names (path : Bytes) : Components := (Bytes.pieces separator path).filter (· ≠ [])

/-- A name that leads one step down: there is something of it, it does not stay or lead back, and
it can be told from the names around it. -/
structure IsPlain (name : Bytes) : Prop where
  ne_nil : name ≠ []
  ne_here : name ≠ here
  ne_parent : name ≠ parent
  separator_not_mem : separator ∉ name
  zero_not_mem : (0 : UInt8) ∉ name

theorem names_append_separator (dir name : Bytes) :
    names (dir ++ separator :: name) = names dir ++ names name := by
  unfold names
  rw [Bytes.pieces_eq_splitOn, List.splitOn_append_cons_self, List.filter_append,
    ← Bytes.pieces_eq_splitOn, ← Bytes.pieces_eq_splitOn]

theorem IsPlain.names {name : Bytes} (h : IsPlain name) : names name = [name] := by
  unfold FileTree.names
  rw [Bytes.pieces_eq_splitOn, List.splitOn_eq_singleton h.separator_not_mem]
  exact List.filter_cons_of_pos (decide_eq_true h.ne_nil)

/-! ## Paths put together -/

/-- What a path is after one more name: the name alone, or behind a separator that is there or is
put there. -/
theorem join_cases (dir name : Bytes) :
    dir = [] ∧ join dir name = name ∨
      (∃ above, dir = above ++ [separator] ∧ join dir name = above ++ separator :: name) ∨
      dir ≠ [] ∧ join dir name = dir ++ separator :: name := by
  unfold join
  rcases List.eq_nil_or_concat dir with rfl | ⟨above, last, rfl⟩
  · exact Or.inl ⟨rfl, rfl⟩
  · right
    rw [List.concat_eq_append, List.getLast?_concat]
    dsimp only
    by_cases hlast : last = separator
    · left
      refine ⟨above, by rw [hlast], ?_⟩
      rw [if_pos hlast, hlast, List.append_assoc]
      rfl
    · right
      exact ⟨List.append_ne_nil_of_right_ne_nil _ (List.cons_ne_nil _ _), if_neg hlast⟩

theorem names_join (dir : Bytes) {name : Bytes} (h : IsPlain name) :
    names (join dir name) = names dir ++ [name] := by
  rcases join_cases dir name with ⟨rfl, hjoin⟩ | ⟨above, rfl, hjoin⟩ | ⟨-, hjoin⟩
  · rw [hjoin, h.names]
    rfl
  · rw [hjoin, names_append_separator, names_append_separator, h.names]
    simp [names, Bytes.pieces]
  · rw [hjoin, names_append_separator, h.names]

/-- A path begins at the root of all when what it was put together from does. -/
theorem head?_join (dir : Bytes) {name : Bytes} (h : IsPlain name) :
    (join dir name).head? = some separator ↔ dir.head? = some separator := by
  rcases join_cases dir name with ⟨rfl, hjoin⟩ | ⟨above, rfl, hjoin⟩ | ⟨hdir, hjoin⟩
  · rw [hjoin]
    constructor
    · intro hhead
      exact absurd (List.mem_of_mem_head? hhead) h.separator_not_mem
    · intro hhead
      cases hhead
  · rw [hjoin]
    cases above <;> rfl
  · rw [hjoin]
    cases dir with
    | nil => exact absurd rfl hdir
    | cons b rest => rfl

theorem getLast?_join (dir : Bytes) {name : Bytes} (h : IsPlain name) :
    (join dir name).getLast? = name.getLast? := by
  have hbehind : ∀ above : Bytes, (above ++ separator :: name).getLast? = name.getLast? := by
    intro above
    cases hlast : name.getLast? with
    | none => exact absurd (List.getLast?_eq_none_iff.mp hlast) h.ne_nil
    | some b => simp [List.getLast?_append, List.getLast?_cons, hlast]
  rcases join_cases dir name with ⟨rfl, hjoin⟩ | ⟨above, rfl, hjoin⟩ | ⟨-, hjoin⟩
  · rw [hjoin]
  · rw [hjoin, hbehind]
  · rw [hjoin, hbehind]

section

variable {cs : Components} (root : Bytes) (h : ∀ c ∈ cs, IsPlain c)
include h

theorem names_foldl_join : names (cs.foldl join root) = names root ++ cs := by
  induction cs generalizing root with
  | nil => simp
  | cons c cs ih =>
    have hrest : ∀ d ∈ cs, IsPlain d := fun d hd => h d (List.mem_cons_of_mem _ hd)
    rw [List.foldl_cons, ih (join root c) hrest, names_join root (h c List.mem_cons_self),
      List.append_assoc]
    rfl

theorem head?_foldl_join :
    (cs.foldl join root).head? = some separator ↔ root.head? = some separator := by
  induction cs generalizing root with
  | nil => rfl
  | cons c cs ih =>
    have hrest : ∀ d ∈ cs, IsPlain d := fun d hd => h d (List.mem_cons_of_mem _ hd)
    rw [List.foldl_cons, ih (join root c) hrest, head?_join root (h c List.mem_cons_self)]

/-- A path that ends in a plain name does not ask for a directory. -/
theorem getLast?_foldl_join (hcs : cs ≠ []) :
    (cs.foldl join root).getLast? ≠ some separator ∧ cs.foldl join root ≠ [] := by
  have hlast : IsPlain (cs.getLast hcs) := h _ (List.getLast_mem hcs)
  rw [← List.dropLast_concat_getLast hcs, List.foldl_append, List.foldl_cons, List.foldl_nil]
  constructor
  · rw [getLast?_join _ hlast]
    intro hsep
    exact hlast.separator_not_mem (List.mem_of_mem_getLast? hsep)
  · intro hnil
    have hnone := getLast?_join (cs.dropLast.foldl join root) hlast
    rw [hnil] at hnone
    exact hlast.ne_nil (List.getLast?_eq_none_iff.mp hnone.symm)

/-- The components of a path are those of its root and the names behind it. -/
theorem components_foldl_join (hcs : cs ≠ []) :
    components (cs.foldl join root) = names root ++ cs := by
  unfold components
  rw [if_neg (getLast?_foldl_join root h hcs).1, List.append_nil]
  exact names_foldl_join root h

end

/-! ## Following names -/

theorem follow_append (t : FileTree) (place front back : Components) :
    t.follow place (front ++ back) = t.follow place front >>= fun q => t.follow q back := by
  induction front generalizing place with
  | nil => rfl
  | cons name front ih =>
    rw [List.cons_append, follow, follow, bind_assoc]
    apply bind_congr
    intro _
    split_ifs
    · exact ih _
    · exact ih _
    · rfl
    · exact ih _

/-- A plain name is gone down by, unless the place is no directory or the name is too long. -/
theorem follow_cons_plain (t : FileTree) (place : Components) {name : Bytes} (h : IsPlain name)
    (rest : Components) :
    t.follow place (name :: rest) = (do
      t.checkDirectory place
      if longestName < name.length then .error .nameTooLong
      else t.follow (place ++ [name]) rest) := by
  rw [follow]
  simp only [if_neg h.ne_here, if_neg h.ne_parent]

/-- Plain names lead down, one after the other. -/
theorem eq_append_of_follow {t : FileTree} {place q : Components} {cs : Components}
    (h : ∀ c ∈ cs, IsPlain c) (hfollow : t.follow place cs = .ok q) : q = place ++ cs := by
  induction cs generalizing place with
  | nil =>
    cases hfollow
    exact (List.append_nil q).symm
  | cons c cs ih =>
    have hrest : ∀ d ∈ cs, IsPlain d := fun d hd => h d (List.mem_cons_of_mem _ hd)
    rw [follow_cons_plain t place (h c List.mem_cons_self), bind_eq_ok_iff] at hfollow
    rcases hfollow with ⟨-, -, hfollow⟩
    split_ifs at hfollow
    rw [ih hrest hfollow, List.append_assoc]
    rfl

/-- A path leads from where its root leads on by the names behind it. -/
theorem locate_foldl_join_eq (t : FileTree) (root : Bytes) {cs : Components}
    (h : ∀ c ∈ cs, IsPlain c) (hcs : cs ≠ []) :
    t.locate (cs.foldl join root) =
      if longestPath < (cs.foldl join root).length then .error .nameTooLong
      else t.follow (t.start root) (names root) >>= fun base => t.follow base cs := by
  have hstart : t.start (cs.foldl join root) = t.start root := by
    unfold start
    exact if_congr (head?_foldl_join root h) rfl rfl
  unfold locate
  rw [if_neg (getLast?_foldl_join root h hcs).2, hstart, components_foldl_join root h hcs,
    follow_append]

/-- Where a path leads is below where its root leads, by exactly the names behind it. -/
theorem locate_foldl_join {t : FileTree} {root : Bytes} {cs place : Components}
    (h : ∀ c ∈ cs, IsPlain c) (hcs : cs ≠ [])
    (hlocate : t.locate (cs.foldl join root) = .ok place) :
    ∃ base, t.follow (t.start root) (names root) = .ok base ∧ place = base ++ cs := by
  rw [locate_foldl_join_eq t root h hcs] at hlocate
  split_ifs at hlocate
  rcases bind_eq_ok_iff.mp hlocate with ⟨base, hbase, hfollow⟩
  exact ⟨base, hbase, eq_append_of_follow h hfollow⟩

end PicBoard.FileTree
