import Mathlib.Tactic
import PicBoard.Proofs.FileTree.Walk

/-!
# What writing a file leaves as it was

A file is written in a directory that is there and over nothing but a file, so every other place
stays the file or directory that it was (`Written.checkDirectory`).  Of two paths that are put
together from one root and plain names, of which neither leads through the other, writing the first
leaves what is read from the second as it was (`read_of_write`).
-/

namespace PicBoard.FileTree

open PixTree (join)

/-! ## Directories -/

theorem isDirectory_iff {t : FileTree} {q : Components} :
    t.isDirectory q = true ↔
      q = [] ∨ (∃ d ∈ t.directories, q <+: d) ∨ ∃ f ∈ t.files, f.1 ≠ q ∧ q <+: f.1 := by
  simp only [isDirectory, leadsTo, Bool.or_eq_true, List.any_eq_true, Bool.and_eq_true,
    decide_eq_true_iff, List.isPrefixOf_iff_prefix, or_assoc]

/-- What leads to a directory is one. -/
theorem isDirectory_of_prefix {t : FileTree} {q p : Components} (h : q <+: p)
    (hp : t.isDirectory p = true) : t.isDirectory q = true := by
  rw [isDirectory_iff] at hp ⊢
  rcases hp with rfl | ⟨d, hd, hpd⟩ | ⟨f, hf, hne, hpf⟩
  · left
    exact List.prefix_nil.mp h
  · right; left
    exact ⟨d, hd, h.trans hpd⟩
  · right; right
    refine ⟨f, hf, ?_, h.trans hpf⟩
    -- a file on the way to another place below it would be that place
    rintro rfl
    exact hne (h.eq_of_length_le hpf.length_le)

theorem checkDirectory_eq_ok_iff {t : FileTree} {q : Components} :
    t.checkDirectory q = .ok () ↔ t.file? q = none ∧ t.isDirectory q = true := by
  unfold checkDirectory
  cases hfile : t.file? q with
  | some content => simp
  | none =>
    cases hdir : t.isDirectory q with
    | true => simp
    | false => simp

/-- What leads to a place and is not that place leads to the directory of it. -/
theorem prefix_dropLast {q place : Components} (h : q <+: place) (hne : q ≠ place) :
    q <+: place.dropLast := by
  have hplace : place ≠ [] := by
    rintro rfl
    exact hne (List.prefix_nil.mp h)
  rw [← List.dropLast_concat_getLast hplace] at h hne
  rcases List.prefix_concat_iff.mp h with heq | hprefix
  · exact absurd heq hne
  · exact hprefix

/-! ## Writing at a place -/

/-- A tree and what it is after a file is written at a place: in a directory, and not over one. -/
structure Written (t t' : FileTree) (place : Components) (content : Bytes) : Prop where
  inDirectory : t.checkDirectory place.dropLast = .ok ()
  notDirectory : t.isDirectory place = false
  eq : t' = { t with files := (place, content) :: t.files.filter fun f => f.1 ≠ place }

theorem written_of_write? {t t' : FileTree} {path content : Bytes}
    (h : t.write? path content = some t') :
    ∃ place, t.locate path = .ok place ∧ Written t t' place content := by
  unfold write? at h
  rcases Option.bind_eq_some_iff.mp h with ⟨place, hplace, h⟩
  rcases Option.bind_eq_some_iff.mp h with ⟨_, hdir, h⟩
  have hlocate : t.locate path = .ok place := by
    cases hcase : t.locate path with
    | error e =>
      rw [hcase] at hplace
      cases hplace
    | ok q =>
      rw [hcase] at hplace
      cases hplace
      rfl
  have hparent : t.checkDirectory place.dropLast = .ok () := by
    cases hcase : t.checkDirectory place.dropLast with
    | error e =>
      rw [hcase] at hdir
      cases hdir
    | ok _ => rfl
  split_ifs at h with hbad
  rw [not_or, Bool.not_eq_true] at hbad
  cases h
  exact ⟨place, hlocate, hparent, hbad.1, rfl⟩

namespace Written

variable {t t' : FileTree} {place q : Components} {content : Bytes}

theorem file? (h : Written t t' place content) (hq : q ≠ place) : t'.file? q = t.file? q := by
  unfold FileTree.file?
  rw [h.eq]
  dsimp only
  rw [List.find?_cons_of_neg (by simpa using Ne.symm hq), List.find?_filter]
  congr 2
  funext f
  -- a file at `q` is none at the place that is written
  by_cases hf : f.1 = q
  · simp [hf, hq]
  · simp [hf]

theorem isDirectory (h : Written t t' place content) (hq : q ≠ place) :
    t'.isDirectory q = t.isDirectory q := by
  have hparent : t.isDirectory place.dropLast = true :=
    (checkDirectory_eq_ok_iff.mp h.inDirectory).2
  rw [Bool.eq_iff_iff]
  constructor
  · intro hdir
    rw [isDirectory_iff, h.eq] at hdir
    rcases hdir with rfl | hlisted | ⟨f, hf, hne, hqf⟩
    · exact isDirectory_iff.mpr (Or.inl rfl)
    · exact isDirectory_iff.mpr (Or.inr (Or.inl hlisted))
    · rcases List.mem_cons.mp hf with rfl | hf
      · -- the way to the new file was there before
        exact isDirectory_of_prefix (prefix_dropLast hqf hq) hparent
      · exact isDirectory_iff.mpr (Or.inr (Or.inr ⟨f, List.mem_of_mem_filter hf, hne, hqf⟩))
  · intro hdir
    rw [isDirectory_iff] at hdir
    rw [isDirectory_iff, h.eq]
    rcases hdir with rfl | hlisted | ⟨f, hf, hne, hqf⟩
    · exact Or.inl rfl
    · exact Or.inr (Or.inl hlisted)
    · right; right
      by_cases hplace : f.1 = place
      · exact ⟨(place, content), List.mem_cons_self, Ne.symm hq, hplace ▸ hqf⟩
      · refine ⟨f, List.mem_cons_of_mem _ (List.mem_filter.mpr ⟨hf, ?_⟩), hne, hqf⟩
        exact decide_eq_true hplace

/-- Every other place is the file or the directory that it was. -/
theorem checkDirectory (h : Written t t' place content) (hq : q ≠ place) :
    t'.checkDirectory q = t.checkDirectory q := by
  unfold FileTree.checkDirectory
  rw [h.file? hq, h.isDirectory hq]

/-- A place that was a directory still is one. -/
theorem checkDirectory_of_ok (h : Written t t' place content)
    (hq : t.checkDirectory q = .ok ()) : t'.checkDirectory q = .ok () := by
  have hne : q ≠ place := by
    rintro rfl
    have hdir := (checkDirectory_eq_ok_iff.mp hq).2
    rw [h.notDirectory] at hdir
    cases hdir
  rw [h.checkDirectory hne, hq]

/-- What could be followed still can be, to the same place. -/
theorem follow_of_ok (h : Written t t' place content) {p : Components} {cs : Components}
    (hfollow : t.follow p cs = .ok q) : t'.follow p cs = .ok q := by
  induction cs generalizing p with
  | nil => exact hfollow
  | cons name rest ih =>
    rw [follow, bind_eq_ok_iff] at hfollow ⊢
    rcases hfollow with ⟨_, hdir, hfollow⟩
    refine ⟨(), h.checkDirectory_of_ok hdir, ?_⟩
    split_ifs at hfollow ⊢
    · exact ih hfollow
    · exact ih hfollow
    · exact ih hfollow

/-- Plain names that do not lead through the place lead where they did, or fail as they did. -/
theorem follow_plain (h : Written t t' place content) {p : Components} {cs : Components}
    (hcs : ∀ c ∈ cs, IsPlain c) (haway : ∀ front back, cs = front ++ back → back ≠ [] →
      p ++ front ≠ place) : t'.follow p cs = t.follow p cs := by
  induction cs generalizing p with
  | nil => rfl
  | cons c cs ih =>
    have hc : IsPlain c := hcs c List.mem_cons_self
    have hrest : ∀ d ∈ cs, IsPlain d := fun d hd => hcs d (List.mem_cons_of_mem _ hd)
    have hp : p ≠ place := by
      have hstart := haway [] (c :: cs) rfl (List.cons_ne_nil _ _)
      rwa [List.append_nil] at hstart
    have hnext : t'.follow (p ++ [c]) cs = t.follow (p ++ [c]) cs := by
      apply ih hrest
      intro front back hsplit hback
      rw [List.append_assoc]
      exact haway (c :: front) back (by rw [hsplit]; rfl) hback
    rw [follow_cons_plain t' p hc, follow_cons_plain t p hc, h.checkDirectory hp, hnext]

end Written

/-! ## Reading what was written -/

/-- What was written to a path is read from it. -/
theorem read_of_write_self {t t' : FileTree} {path content : Bytes}
    (h : t.write? path content = some t') : t'.read path = .ok content := by
  obtain ⟨place, hlocate, hwritten⟩ := written_of_write? h
  have hstart : t'.start path = t.start path := by
    rw [hwritten.eq]
    rfl
  have hsame : t'.locate path = .ok place := by
    unfold locate at hlocate ⊢
    split_ifs at hlocate ⊢
    rw [hstart]
    exact hwritten.follow_of_ok hlocate
  have hfile : t'.file? place = some content := by
    unfold file?
    rw [hwritten.eq]
    simp
  unfold read
  rw [hsame, ok_bind, hfile]

/-! ## Reading another path -/

/-- Writing one path leaves what is read from another as it was, when both are put together from
one root and plain names and the names of the first do not lead to the second. -/
theorem read_of_write {t t' : FileTree} {root content : Bytes} {as bs : Components}
    (has : ∀ c ∈ as, IsPlain c) (hbs : ∀ c ∈ bs, IsPlain c) (ha : as ≠ []) (hb : bs ≠ [])
    (haway : ¬ as <+: bs) (h : t.write? (as.foldl join root) content = some t') :
    t'.read (bs.foldl join root) = t.read (bs.foldl join root) := by
  rcases written_of_write? h with ⟨place, hlocate, hwritten⟩
  rcases locate_foldl_join has ha hlocate with ⟨base, hbase, rfl⟩
  have hstart : t'.start root = t.start root := by
    rw [hwritten.eq]
    rfl
  have hsame : t'.locate (bs.foldl join root) = t.locate (bs.foldl join root) := by
    rw [locate_foldl_join_eq t' root hbs hb, locate_foldl_join_eq t root hbs hb, hstart,
      hwritten.follow_of_ok hbase, hbase, ok_bind, ok_bind]
    congr 1
    apply hwritten.follow_plain hbs
    intro front back hsplit _ hplace
    exact haway (List.append_cancel_left hplace ▸ hsplit ▸ List.prefix_append front back)
  unfold read
  rw [hsame]
  cases hq : t.locate (bs.foldl join root) with
  | error e => rfl
  | ok q =>
    rcases locate_foldl_join hbs hb hq with ⟨base', hbase', rfl⟩
    rw [hbase] at hbase'
    cases hbase'
    have hne : base ++ bs ≠ base ++ as := by
      intro heq
      exact haway (List.append_cancel_left heq ▸ List.prefix_refl bs)
    rw [ok_bind, ok_bind, hwritten.file? hne, hwritten.isDirectory hne]

end PicBoard.FileTree
