import Mathlib
import CodeAtlas.Proofs.Text.Pieces
import CodeAtlas.Repository.Ingest

/-! What the name that stands for a commit tells of the files. The bytes that are hashed have a mark behind each path
and none behind a content. So where a file ends is not told, and two different repositories have the same bytes just
if up to some file they agree and there one of them takes for the end of the content what is the beginning of the next
file in the other one. -/
namespace CodeAtlas

/-- Whether no name in a tree holds the character zero; files cannot have such names. -/
def FileTree.Nameable (tree : FileTree) : Prop := ∀ e ∈ tree, ∀ name ∈ e.path, Text.IsField name

namespace Repository

/-- A source file as it comes out of a tree. -/
structure Source.Proper (s : Source) : Prop where
  isField : Text.IsField s.path
  language : Language.ofPath? s.path = some s.language

section Proper

variable {s t : Source}

theorem Source.Proper.language_eq (hs : s.Proper) (ht : t.Proper) (hpath : s.path = t.path) :
    s.language = t.language := by
  have hlanguage := hs.language
  rw [hpath, ht.language] at hlanguage
  exact (Option.some.inj hlanguage).symm

/-- A source file is known by its path and its content. -/
theorem Source.Proper.eq (hs : s.Proper) (ht : t.Proper) (hpath : s.path = t.path) (hcontent : s.content = t.content) :
    s = t := by
  have hlanguage := hs.language_eq ht hpath
  cases s
  cases t
  simp_all

end Proper

theorem isField_joined {path : List String} (h : ∀ name ∈ path, Text.IsField name) :
    Text.IsField ("/".intercalate path) := by
  induction path with
  | nil => exact List.not_mem_nil
  | cons name path ih =>
    obtain ⟨hname, hpath⟩ := List.forall_mem_cons.mp h
    cases path with
    | nil => simpa using hname
    | cons next path =>
      rw [String.intercalate_cons_cons, Text.isField_append, Text.isField_append]
      exact ⟨⟨hname, by decide⟩, ih hpath⟩

theorem proper_of_mem_sources {tree : FileTree} (h : tree.Nameable) {s : Source} (hs : s ∈ sources tree) :
    s.Proper := by
  obtain ⟨e, he, hsource⟩ := List.mem_filterMap.mp hs
  have hnames := h e (List.mem_mergeSort.mp he)
  simp only [sourceOf?, Option.bind_eq_bind, Option.bind_eq_some_iff] at hsource
  obtain ⟨bytes, _, hsource⟩ := hsource
  split at hsource
  · cases hsource
  · obtain ⟨language, hlanguage, content, _, hsource⟩ := by
      simpa only [Option.bind_eq_some_iff] using hsource
    split at hsource
    · cases hsource
    · cases hsource
      exact ⟨isField_joined hnames, hlanguage⟩

/-- The text whose bytes stand for the files. -/
def written (xs : List Source) : List Char := xs.flatMap fun s => s.path.toList ++ '\x00' :: s.content.toList

theorem written_cons (s : Source) (xs : List Source) :
    written (s :: xs) = s.path.toList ++ '\x00' :: (s.content.toList ++ written xs) := by
  rw [written, List.flatMap_cons, List.append_assoc, List.cons_append]
  rfl

theorem written_append (xs ys : List Source) : written (xs ++ ys) = written xs ++ written ys := List.flatMap_append

theorem contentBytes_eq (xs : List Source) : contentBytes xs = (String.ofList (written xs)).toUTF8.toList := by
  induction xs with
  | nil => exact (Text.toList_eq_data "".toUTF8).symm
  | cons s xs ih =>
    have htext : String.ofList (written (s :: xs)) = s.path ++ "\x00" ++ (s.content ++ String.ofList (written xs)) :=
      String.toList_inj.mp (by simp [written_cons])
    rw [htext, Text.toList_toUTF8_marked, Text.toList_toUTF8_append, ← ih]
    simp only [contentBytes, List.flatMap_cons, List.append_assoc, List.cons_append]

theorem contentBytes_inj {xs ys : List Source} : contentBytes xs = contentBytes ys ↔ written xs = written ys := by
  rw [contentBytes_eq, contentBytes_eq, Text.toList_toUTF8_inj, String.ofList_inj]

/-- Whether the second list of files reads the text of the first one in another way: up to some file they agree, and
there the second one takes a part of what comes next for the end of the content. -/
def RunsOn (xs ys : List Source) : Prop :=
  ∃ (front : List Source) (path language content excess : String) (behind behind' : List Source),
    xs = front ++ ⟨path, language, content⟩ :: behind ∧ ys = front ++ ⟨path, language, content ++ excess⟩ :: behind' ∧
      excess ≠ "" ∧ written behind = excess.toList ++ written behind'

section Readings

variable {xs ys : List Source}

theorem RunsOn.cons (h : RunsOn xs ys) (s : Source) : RunsOn (s :: xs) (s :: ys) := by
  obtain ⟨front, path, language, content, excess, behind, behind', rfl, rfl, hexcess, hbehind⟩ := h
  exact ⟨s :: front, path, language, content, excess, behind, behind', rfl, rfl, hexcess, hbehind⟩

theorem RunsOn.written_eq (h : RunsOn xs ys) : written xs = written ys := by
  obtain ⟨front, path, language, content, excess, behind, behind', rfl, rfl, _, hbehind⟩ := h
  simp only [written_append, written_cons, hbehind, String.toList_append, List.append_assoc]

/-- A file that agrees with another one up to where its content ends. -/
theorem eq_or_runsOn {s t : Source} (hs : s.Proper) (ht : t.Proper) (hpath : s.path = t.path) {excess : List Char}
    (hcontent : t.content.toList = s.content.toList ++ excess) (hbehind : written xs = excess ++ written ys) :
    s = t ∧ written xs = written ys ∨ RunsOn (s :: xs) (t :: ys) := by
  cases excess with
  | nil =>
    rw [List.append_nil, String.toList_inj] at hcontent
    exact .inl ⟨hs.eq ht hpath hcontent.symm, hbehind⟩
  | cons c excess =>
    have hlonger : t.content = s.content ++ String.ofList (c :: excess) :=
      String.toList_inj.mp (by simpa using hcontent)
    refine .inr ⟨[], s.path, s.language, s.content, String.ofList (c :: excess), xs, ys, rfl, ?_, ?_,
      by simpa using hbehind⟩
    · rw [hpath, hs.language_eq ht hpath, ← hlonger]
      rfl
    · simp

/-- Files that have the same text are the same, or the content of one of them runs on in one of the readings. -/
theorem cases_of_written_eq (hxs : ∀ s ∈ xs, s.Proper) (hys : ∀ s ∈ ys, s.Proper) (h : written xs = written ys) :
    xs = ys ∨ RunsOn xs ys ∨ RunsOn ys xs := by
  induction xs generalizing ys with
  | nil =>
    cases ys with
    | nil => exact .inl rfl
    | cons t ys =>
      rw [written_cons] at h
      exact absurd (congrArg List.length h) (by simp [written])
  | cons s xs ih =>
    cases ys with
    | nil =>
      rw [written_cons] at h
      exact absurd (congrArg List.length h) (by simp [written])
    | cons t ys =>
      obtain ⟨hs, hxs⟩ := List.forall_mem_cons.mp hxs
      obtain ⟨ht, hys⟩ := List.forall_mem_cons.mp hys
      have hsame (heq : s = t) (hrest : written xs = written ys) :
          s :: xs = t :: ys ∨ RunsOn (s :: xs) (t :: ys) ∨ RunsOn (t :: ys) (s :: xs) := by
        rw [heq]
        exact (ih hxs hys hrest).imp (congrArg _) (Or.imp (·.cons t) (·.cons t))
      rw [written_cons, written_cons, Text.marked_inj hs.isField ht.isField, String.toList_inj] at h
      obtain ⟨hpath, hrest⟩ := h
      -- one of the two contents begins with the other one
      rcases List.append_eq_append_iff.mp hrest with ⟨excess, hcontent, hbehind⟩ | ⟨excess, hcontent, hbehind⟩
      · rcases eq_or_runsOn hs ht hpath hcontent hbehind with ⟨heq, hrest⟩ | hruns
        · exact hsame heq hrest
        · exact .inr (.inl hruns)
      · rcases eq_or_runsOn ht hs hpath.symm hcontent hbehind with ⟨heq, hrest⟩ | hruns
        · exact hsame heq.symm hrest.symm
        · exact .inr (.inr hruns)

/-- What runs on in one reading of files whose contents do not hold the mark is the beginning of a path: what is left
of that path is the path that stands at its place in the other reading. -/
theorem RunsOn.exists_cut_path (h : RunsOn xs ys) (hxs : ∀ s ∈ xs, s.Proper) (hys : ∀ s ∈ ys, s.Proper)
    (hplain : ∀ s ∈ ys, Text.IsField s.content) :
    ∃ (k : Nat) (s t : Source),
      xs[k]? = some s ∧ ys[k]? = some t ∧ t.path.toList <:+ s.path.toList ∧ s.path ≠ t.path := by
  obtain ⟨front, path, language, content, excess, behind, behind', rfl, rfl, hexcess, hbehind⟩ := h
  have hfield : '\x00' ∉ excess.toList := by
    have hcontent := hplain _ (List.mem_append_right _ (List.mem_cons_self ..))
    exact (Text.isField_append.mp hcontent).2
  cases behind with
  | nil =>
    have hempty := (List.append_eq_nil_iff.mp hbehind.symm).1
    exact absurd (String.toList_eq_nil_iff.mp hempty) hexcess
  | cons s behind =>
    have hs : s.Proper := hxs s (by simp)
    rw [written_cons] at hbehind
    cases behind' with
    | nil =>
      have hzero : '\x00' ∈ excess.toList ++ written [] := hbehind ▸ by simp
      exact absurd hzero (by simpa [written] using hfield)
    | cons t behind' =>
      have ht : t.Proper := hys t (by simp)
      have hpath : s.path.toList = excess.toList ++ t.path.toList := by
        rw [written_cons, ← List.append_assoc] at hbehind
        have hboth : '\x00' ∉ excess.toList ++ t.path.toList := by
          rw [List.mem_append, not_or]
          exact ⟨hfield, ht.isField⟩
        exact ((Text.marked_inj hs.isField hboth).mp hbehind).1
      refine ⟨front.length + 1, s, t, by simp, by simp, ⟨excess.toList, hpath.symm⟩, fun heq => ?_⟩
      rw [heq, List.self_eq_append_left] at hpath
      exact hexcess (String.toList_eq_nil_iff.mp hpath)

end Readings

theorem sources_of_sorted {tree : FileTree} (h : tree.Pairwise fun a b => !decide (b.path < a.path)) :
    sources tree = tree.filterMap sourceOf? := by
  rw [sources, List.mergeSort_of_pairwise h]

/-- A repository of two files. -/
def libTree : FileTree := [⟨["a.md"], some "Cart\n".toUTF8⟩, ⟨["lib.md"], some "Shop\n".toUTF8⟩]

/-- The same with the beginning of the second name at the end of the first content. -/
def bTree : FileTree := [⟨["a.md"], some "Cart\nli".toUTF8⟩, ⟨["b.md"], some "Shop\n".toUTF8⟩]

/-- The same under another name. -/
def cTree : FileTree := [⟨["a.md"], some "Cart\nli".toUTF8⟩, ⟨["c.md"], some "Shop\n".toUTF8⟩]

section Samples

theorem sources_libTree : sources libTree = [⟨"a.md", "markdown", "Cart\n"⟩, ⟨"lib.md", "markdown", "Shop\n"⟩] := by
  rw [sources_of_sorted (by decide)]
  cbv

theorem sources_bTree : sources bTree = [⟨"a.md", "markdown", "Cart\nli"⟩, ⟨"b.md", "markdown", "Shop\n"⟩] := by
  rw [sources_of_sorted (by decide)]
  cbv

theorem sources_cTree : sources cTree = [⟨"a.md", "markdown", "Cart\nli"⟩, ⟨"c.md", "markdown", "Shop\n"⟩] := by
  rw [sources_of_sorted (by decide)]
  cbv

theorem nameable_bTree : bTree.Nameable := by simp [FileTree.Nameable, bTree, Text.IsField]

theorem nameable_cTree : cTree.Nameable := by simp [FileTree.Nameable, cTree, Text.IsField]

end Samples

/-- Two trees with different files have the same bytes just if some content runs on in one of them. This is not so
when no content holds the character zero and of two different paths at one place in the two trees neither is the end
of the other. -/
theorem contents_told_apart {tree tree' : FileTree} (h : tree.Nameable) (h' : tree'.Nameable)
    (hne : sources tree ≠ sources tree') :
    (contentBytes (sources tree) = contentBytes (sources tree') ↔
        RunsOn (sources tree) (sources tree') ∨ RunsOn (sources tree') (sources tree)) ∧
      ((∀ s ∈ sources tree ++ sources tree', Text.IsField s.content) →
        (∀ (k : Nat) (s t : Source), (sources tree)[k]? = some s → (sources tree')[k]? = some t →
          s.path.toList <:+ t.path.toList ∨ t.path.toList <:+ s.path.toList → s.path = t.path) →
        contentBytes (sources tree) ≠ contentBytes (sources tree')) := by
  have hproper : ∀ s ∈ sources tree, s.Proper := fun s => proper_of_mem_sources h
  have hproper' : ∀ s ∈ sources tree', s.Proper := fun s => proper_of_mem_sources h'
  have hshared : contentBytes (sources tree) = contentBytes (sources tree') ↔
      RunsOn (sources tree) (sources tree') ∨ RunsOn (sources tree') (sources tree) := by
    rw [contentBytes_inj]
    refine ⟨fun heq => (cases_of_written_eq hproper hproper' heq).resolve_left hne, ?_⟩
    rintro (hruns | hruns)
    · exact hruns.written_eq
    · exact hruns.written_eq.symm
  refine ⟨hshared, fun hplain hpaths heq => ?_⟩
  rcases hshared.mp heq with hruns | hruns
  · obtain ⟨k, s, t, hs, ht, hsuffix, hdiffer⟩ :=
      hruns.exists_cut_path hproper hproper' fun s hs => hplain s (List.mem_append_right _ hs)
    exact hdiffer (hpaths k s t hs ht (.inr hsuffix))
  · obtain ⟨k, t, s, ht, hs, hsuffix, hdiffer⟩ :=
      hruns.exists_cut_path hproper' hproper fun s hs => hplain s (List.mem_append_left _ hs)
    exact hdiffer (hpaths k s t hs ht (.inl hsuffix)).symm

theorem contents_told_apart_named :
    bTree.Nameable ∧ cTree.Nameable ∧ sources bTree ≠ sources cTree ∧
      (contentBytes (sources bTree) = contentBytes (sources cTree) ↔
        RunsOn (sources bTree) (sources cTree) ∨ RunsOn (sources cTree) (sources bTree)) ∧
      contentBytes (sources bTree) ≠ contentBytes (sources cTree) := by
  have hne : sources bTree ≠ sources cTree := by
    rw [sources_bTree, sources_cTree]
    simp
  have htold := contents_told_apart nameable_bTree nameable_cTree hne
  refine ⟨nameable_bTree, nameable_cTree, hne, htold.1, htold.2 ?_ ?_⟩
  · rw [sources_bTree, sources_cTree]
    simp [Text.IsField]
  · rw [sources_bTree, sources_cTree]
    rintro (_ | _ | k) s t hs ht hsuffix
    · simp_all
    · obtain rfl := Option.some.inj hs
      obtain rfl := Option.some.inj ht
      exact absurd hsuffix (by decide)
    · cases hs

/-- Two repositories with different paths and different contents, both without a commit, have one name for it. -/
theorem commit_shared :
    sources libTree = [⟨"a.md", "markdown", "Cart\n"⟩, ⟨"lib.md", "markdown", "Shop\n"⟩] ∧
      sources bTree = [⟨"a.md", "markdown", "Cart\nli"⟩, ⟨"b.md", "markdown", "Shop\n"⟩] ∧
      contentBytes (sources libTree) = contentBytes (sources bTree) ∧
      ∀ maxLines, (ofTree libTree maxLines).commit = (ofTree bTree maxLines).commit := by
  have hbytes : contentBytes (sources libTree) = contentBytes (sources bTree) := by
    rw [sources_libTree, sources_bTree, contentBytes_inj]
    decide
  refine ⟨sources_libTree, sources_bTree, hbytes, fun maxLines => ?_⟩
  have hhead : headCommit? libTree = none := rfl
  have hhead' : headCommit? bTree = none := rfl
  simp only [ofTree, hhead, hhead', Option.getD_none, contentName, hbytes]

end Repository
end CodeAtlas
