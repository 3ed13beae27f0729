import CodeAtlas.FileTree
import CodeAtlas.Proofs.Chunk.Windows

/-! Where paths lead, and what changes there. A path that can be followed leads where its parts lead, one after the
other. Writing a file changes the files of the one place it leads to, and making a directory adds directories on the way
and nothing else. -/
namespace CodeAtlas

namespace FileTree

/-- The place that a path leads to, seen from a directory, if it can be followed. -/
def placeOf (start : List String) (path : String) : List String :=
  (Text.splitWhere (· == '/') path).foldl lead (origin start path)

/-- The files that are listed at a place. -/
def filesAt (tree : FileTree) (place : List String) : FileTree :=
  tree.filter fun e => e.path == place && e.bytes.isSome

/-- The directories that are listed at a place. -/
def directoriesAt (tree : FileTree) (place : List String) : FileTree :=
  tree.filter fun e => e.path == place && e.bytes.isNone

/-- Whether two trees have the same files and the same directories, except at some places. -/
structure ChangesOnly (files directories : List String → Prop) (before after : FileTree) : Prop where
  files : ∀ place, ¬ files place → after.filesAt place = before.filesAt place
  directories : ∀ place, ¬ directories place → after.directoriesAt place = before.directoriesAt place

namespace ChangesOnly

variable {files files' directories directories' : List String → Prop} {before between after : FileTree}

theorem refl (tree : FileTree) : ChangesOnly files directories tree tree := ⟨fun _ _ => rfl, fun _ _ => rfl⟩

theorem trans (h : ChangesOnly files directories before between) (h' : ChangesOnly files directories between after) :
    ChangesOnly files directories before after :=
  ⟨fun place hplace => (h'.files place hplace).trans (h.files place hplace),
    fun place hplace => (h'.directories place hplace).trans (h.directories place hplace)⟩

theorem mono (h : ChangesOnly files directories before after) (hfiles : ∀ place, files place → files' place)
    (hdirectories : ∀ place, directories place → directories' place) :
    ChangesOnly files' directories' before after :=
  ⟨fun place hplace => h.files place (mt (hfiles place) hplace),
    fun place hplace => h.directories place (mt (hdirectories place) hplace)⟩

/-- What is dropped lies where something may change. -/
theorem filter (keep : Entry → Bool) (hdropped : ∀ e ∈ before, keep e = false → files e.path ∧ directories e.path) :
    ChangesOnly files directories before (before.filter keep) := by
  have hkept (place : List String) (test : Entry → Bool) (hplace : ¬ (files place ∧ directories place)) :
      (before.filter keep).filter (fun e => e.path == place && test e) =
        before.filter fun e => e.path == place && test e := by
    rw [List.filter_filter]
    refine List.filter_congr fun e he => ?_
    by_cases hpath : e.path = place
    · cases hkeep : keep e with
      | true => simp
      | false => exact absurd (hpath ▸ hdropped e he hkeep) hplace
    · simp [hpath]
  exact ⟨fun place hplace => hkept place _ fun h => hplace h.1, fun place hplace => hkept place _ fun h => hplace h.2⟩

/-- What is added lies where something may change. -/
theorem append (added : FileTree) (hfiles : ∀ e ∈ added, e.bytes.isSome = true → files e.path)
    (hdirectories : ∀ e ∈ added, e.bytes.isNone = true → directories e.path) :
    ChangesOnly files directories before (before ++ added) := by
  have hkept (place : List String) (test : Entry → Bool) (hnone : ∀ e ∈ added, test e = true → e.path ≠ place) :
      (before ++ added).filter (fun e => e.path == place && test e) =
        before.filter fun e => e.path == place && test e := by
    rw [List.filter_append, List.append_right_eq_self, List.filter_eq_nil_iff]
    intro e he htest
    obtain ⟨hpath, htest⟩ := Bool.and_eq_true_iff.mp htest
    exact hnone e he htest (beq_iff_eq.mp hpath)
  exact ⟨fun place hplace => hkept place _ fun e he htest hpath => hplace (hpath ▸ hfiles e he htest),
    fun place hplace => hkept place _ fun e he htest hpath => hplace (hpath ▸ hdirectories e he htest)⟩

/-- A file is put where anything may change. -/
theorem put_at {place : List String} (bytes : ByteArray) (hfile : files place) (hdirectory : directories place) :
    ChangesOnly files directories before (before.put place bytes) := by
  have hdropped : ChangesOnly files directories before (before.filter (·.path != place)) :=
    .filter _ fun e _ he => by
      obtain rfl : e.path = place := by simpa using he
      exact ⟨hfile, hdirectory⟩
  exact hdropped.trans (.append [⟨place, some bytes⟩] (by simpa using hfile) (by simp))

/-- A file is put where there is no directory. -/
theorem put {place : List String} (bytes : ByteArray) (hfile : files place)
    (hfree : before.directoriesAt place = []) : ChangesOnly files directories before (before.put place bytes) := by
  have hput : ChangesOnly files (· = place) before (before.put place bytes) := put_at bytes hfile rfl
  refine ⟨hput.files, fun place' _ => ?_⟩
  by_cases hsame : place' = place
  · rw [hsame, hfree, directoriesAt, List.filter_eq_nil_iff]
    intro e he htest
    obtain ⟨hpath, hnone⟩ := Bool.and_eq_true_iff.mp htest
    rcases List.mem_append.mp he with hkept | hnew
    · exact bne_iff_ne.mp (List.mem_filter.mp hkept).2 (beq_iff_eq.mp hpath)
    · cases List.mem_singleton.mp hnew
      cases hnone
  · exact hput.directories place' hsame

end ChangesOnly

section Paths

variable {tree tree' : FileTree} {start place : List String} {path : String} {parts : List String}

theorem eq_append_of_below? {rest : List String} (h : below? place start = some rest) : start = place ++ rest := by
  induction place generalizing start with
  | nil => exact Option.some.inj h
  | cons a place ih =>
    cases start with
    | nil => cases h
    | cons b start =>
      rw [below?] at h
      split at h
      · rw [ih h, ‹a = b›, List.cons_append]
      · cases h

theorem eq_lead_of_step? {part : String} (h : tree.step? start part = some place) : place = lead start part := by
  unfold step? at h
  split at h
  · exact (Option.some.inj h).symm
  · cases h

theorem foldlM_step?_eq (h : parts.foldlM (tree.step? · ·) start = some place) : place = parts.foldl lead start := by
  induction parts using List.reverseRecOn generalizing place with
  | nil => exact (Option.some.inj h).symm
  | append_singleton parts part ih =>
    rw [List.foldlM_append] at h
    obtain ⟨before, hbefore, hlast⟩ := Option.bind_eq_some_iff.mp h
    obtain ⟨after, hafter, hend⟩ := Option.bind_eq_some_iff.mp hlast
    rw [List.foldl_append, ← ih hbefore, ← Option.some.inj hend]
    exact eq_lead_of_step? hafter

theorem eq_placeOf_of_resolve? (h : tree.resolve? start path = some place) : place = placeOf start path :=
  foldlM_step?_eq h

/-- A file that is written is put at the place of the path. -/
theorem changesOnly_write? {bytes : ByteArray} (h : tree.write? start path bytes = some tree') :
    ChangesOnly (· = placeOf start path) (fun _ => False) tree tree' := by
  obtain ⟨place, hplace, hput⟩ := Option.bind_eq_some_iff.mp h
  obtain rfl := eq_placeOf_of_resolve? hplace
  obtain ⟨hfree, hput⟩ := Option.ite_none_left_eq_some.mp hput
  cases hput
  refine .put bytes rfl (List.filter_eq_nil_iff.mpr fun e he htest => hfree ?_)
  unfold isDirectory
  rw [Bool.or_eq_true, List.any_eq_true]
  exact .inr ⟨e, he, htest⟩

theorem isFile_put {bytes : ByteArray} {place' : List String} :
    (tree.put place bytes).isFile place' = true ↔ place' = place ∨ tree.isFile place' = true := by
  simp only [isFile, FileTree.put, List.any_append, List.any_filter, List.any_cons, List.any_nil, Bool.or_false,
    Option.isSome_some, Bool.and_true, Bool.or_eq_true, List.any_eq_true, Bool.and_eq_true, beq_iff_eq, bne_iff_ne]
  by_cases hsame : place' = place
  · simp [hsame]
  · have hplace : place ≠ place' := Ne.symm hsame
    simp only [hsame, hplace, or_false, false_or]
    refine exists_congr fun e => and_congr_right fun _ => and_iff_right_of_imp fun h => ?_
    rw [h.1]
    exact hsame

/-- A file that is written is there, and so are the files that were there before. -/
theorem isFile_write? {bytes : ByteArray} (h : tree.write? start path bytes = some tree') :
    tree'.isFile place = true ↔ place = placeOf start path ∨ tree.isFile place = true := by
  obtain ⟨there, hthere, hput⟩ := Option.bind_eq_some_iff.mp h
  obtain rfl := eq_placeOf_of_resolve? hthere
  obtain ⟨-, hput⟩ := Option.ite_none_left_eq_some.mp hput
  cases hput
  exact isFile_put

/-- The places on the way are those that the parts lead to up to some point. -/
theorem mem_trail_iff : place ∈ trail start path ↔
    ∃ front, front <+: Text.splitWhere (· == '/') path ∧ place = front.foldl lead (origin start path) := by
  have hall (parts : List String) (o : List String) :
      let seen := parts.foldl (fun seen part => seen ++ [lead (seen.getLast?.getD []) part]) [o]
      seen.getLast? = some (parts.foldl lead o) ∧
        ∀ place, place ∈ seen ↔ ∃ front, front <+: parts ∧ place = front.foldl lead o := by
    induction parts using List.reverseRecOn with
    | nil => simp
    | append_singleton parts part ih =>
      obtain ⟨hlast, hmem⟩ := ih
      simp only [List.foldl_append, List.foldl_cons, List.foldl_nil, hlast, Option.getD_some,
        List.mem_append, hmem, List.mem_singleton, List.prefix_concat_iff]
      refine ⟨by simp, fun place => ?_⟩
      constructor
      · rintro (⟨front, hfront, rfl⟩ | rfl)
        · exact ⟨front, .inr hfront, rfl⟩
        · exact ⟨parts ++ [part], .inl rfl, by simp⟩
      · rintro ⟨front, rfl | hfront, rfl⟩
        · exact .inr (by simp)
        · exact .inl ⟨front, hfront, rfl⟩
  exact (hall _ _).2 place

theorem foldlM_enter? (h : parts.foldlM enter? (tree, start) = some (tree', place)) :
    place = parts.foldl lead start ∧
      ChangesOnly (fun _ => False) (fun d => ∃ front, front <+: parts ∧ d = front.foldl lead start) tree tree' := by
  induction parts using List.reverseRecOn generalizing tree' place with
  | nil =>
    cases h
    exact ⟨rfl, .refl tree⟩
  | append_singleton parts part ih =>
    rw [List.foldlM_append] at h
    obtain ⟨⟨between, here⟩, hbefore, hlast⟩ := Option.bind_eq_some_iff.mp h
    obtain ⟨after, hafter, hend⟩ := Option.bind_eq_some_iff.mp hlast
    cases hend
    obtain ⟨rfl, hchanges⟩ := ih hbefore
    obtain ⟨there, hstep, henter⟩ := Option.bind_eq_some_iff.mp hafter
    obtain rfl := eq_lead_of_step? hstep
    have hway : ChangesOnly (fun _ => False) (fun d => ∃ front, front <+: parts ++ [part] ∧ d = front.foldl lead start)
        tree between :=
      hchanges.mono (fun _ => id) fun d ⟨front, hfront, hd⟩ =>
        ⟨front, hfront.trans (List.prefix_append parts [part]), hd⟩
    have hplace : lead (parts.foldl lead start) part = (parts ++ [part]).foldl lead start := by simp
    split at henter
    · cases henter
      exact ⟨hplace, hway⟩
    · split at henter
      · cases henter
      · cases henter
        exact ⟨hplace, hway.trans (.append _ (by simp) (by simpa using ⟨_, List.prefix_rfl, hplace⟩))⟩

/-- A directory that is made, and those on the way to it. -/
theorem changesOnly_makeDirectory? (h : tree.makeDirectory? start path = some (tree', place)) :
    place = placeOf start path ∧ ChangesOnly (fun _ => False) (· ∈ trail start path) tree tree' := by
  obtain ⟨hplace, hchanges⟩ := foldlM_enter? h
  exact ⟨hplace, hchanges.mono (fun _ => id) fun _ => mem_trail_iff.mpr⟩

theorem placeOf_mem_trail (start : List String) (path : String) : placeOf start path ∈ trail start path :=
  mem_trail_iff.mpr ⟨_, List.prefix_rfl, rfl⟩

end Paths

end FileTree
end CodeAtlas
