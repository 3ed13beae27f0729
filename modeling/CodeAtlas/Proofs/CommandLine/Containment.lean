import CodeAtlas.Proofs.CommandLine.Paths
import CodeAtlas.Proofs.Survey.Storing

/-! What a survey changes among the files. Each step of a command is confined to some places, however it ends, and steps
that follow each other are confined to the places of them all. A survey is confined to the document of its project and
to the store of checkpoints. -/
namespace CodeAtlas.CommandLine

open FileTree

/-- The tree that a step leaves behind, however it ends. -/
def treeLeft {α : Type} (a : Step α) (w : Work) : FileTree :=
  match a.run w with
  | .ok _ w' => w'.tree
  | .error _ w' => w'.tree

section Confined

variable {α β : Type} {files files' directories directories' : List String → Prop} {a : Step α}
  {p p' : α → FileTree → Prop} {q : β → FileTree → Prop}

/-- Whether a step, however it ends, changes files and directories only at some places, and whether its value and the
tree it leaves behind satisfy `p` when it comes to an end. -/
structure Confined (files directories : List String → Prop) (p : α → FileTree → Prop) (a : Step α) : Prop where
  ends : ∀ w value w', a.run w = .ok value w' → ChangesOnly files directories w.tree w'.tree ∧ p value w'.tree
  halts : ∀ w halt w', a.run w = .error halt w' → ChangesOnly files directories w.tree w'.tree

namespace Confined

theorem changesOnly (h : Confined files directories p a) (w : Work) :
    ChangesOnly files directories w.tree (treeLeft a w) := by
  unfold treeLeft
  split
  · exact (h.ends w _ _ ‹_›).1
  · exact h.halts w _ _ ‹_›

theorem mono (h : Confined files directories p a) (hfiles : ∀ place, files place → files' place)
    (hdirectories : ∀ place, directories place → directories' place) : Confined files' directories' p a where
  ends w value w' hrun := ⟨(h.ends w value w' hrun).1.mono hfiles hdirectories, (h.ends w value w' hrun).2⟩
  halts w halt w' hrun := (h.halts w halt w' hrun).mono hfiles hdirectories

theorem imp (h : Confined files directories p a) (hp : ∀ value tree, p value tree → p' value tree) :
    Confined files directories p' a where
  ends w value w' hrun := ⟨(h.ends w value w' hrun).1, hp value w'.tree (h.ends w value w' hrun).2⟩
  halts := h.halts

theorem strengthen (h : Confined files directories p a)
    (hp : ∀ w value w', a.run w = .ok value w' → p' value w'.tree) : Confined files directories p' a where
  ends w value w' hrun := ⟨(h.ends w value w' hrun).1, hp w value w' hrun⟩
  halts := h.halts

theorem pure {value : α} (h : ∀ tree, p value tree) : Confined files directories p (Pure.pure value) where
  ends w _ _ hrun := by
    cases hrun
    exact ⟨.refl _, h _⟩
  halts _ _ _ hrun := nomatch hrun

theorem halt (h : Halt) : Confined files directories p (throw h) where
  ends _ _ _ hrun := nomatch hrun
  halts w _ _ hrun := by
    cases hrun
    exact .refl _

/-- A step that breaks off after changes at these places, or goes on after such changes as a step that is confined. -/
theorem of_begins (h : ∀ w,
      (∃ halt w', a.run w = .error halt w' ∧ ChangesOnly files directories w.tree w'.tree) ∨
      ∃ rest w', a.run w = rest.run w' ∧ ChangesOnly files directories w.tree w'.tree ∧
        Confined files directories p rest) : Confined files directories p a where
  ends w value w'' hrun := by
    rcases h w with ⟨halt, w', hhalt, -⟩ | ⟨rest, w', hrest, hchanges, hconfined⟩
    · cases hrun.symm.trans hhalt
    · obtain ⟨hchanges', hvalue⟩ := hconfined.ends w' value w'' (hrest.symm.trans hrun)
      exact ⟨hchanges.trans hchanges', hvalue⟩
  halts w halt' w'' hrun := by
    rcases h w with ⟨halt, w', hhalt, hchanges⟩ | ⟨rest, w', hrest, hchanges, hconfined⟩
    · cases hrun.symm.trans hhalt
      exact hchanges
    · exact hchanges.trans (hconfined.halts w' halt' w'' (hrest.symm.trans hrun))

theorem bind (h : Confined files directories p a) {f : α → Step β}
    (hf : ∀ value tree, p value tree → Confined files directories q (f value)) :
    Confined files directories q (a >>= f) := by
  refine of_begins fun w => ?_
  rw [EStateM.run_bind]
  cases hfirst : a.run w with
  | ok first between =>
    obtain ⟨hchanges, hvalue⟩ := h.ends w first between hfirst
    exact .inr ⟨f first, between, rfl, hchanges, hf first _ hvalue⟩
  | error halt between => exact .inl ⟨halt, between, rfl, h.halts w halt between hfirst⟩

theorem orFail {value : Option α} {message : String} (h : ∀ x, value = some x → ∀ tree, p x tree) :
    Confined files directories p (orFail value message) := by
  cases value with
  | none => exact halt _
  | some x => exact pure (h x rfl)

/-- A step that looks at the work before it goes on. -/
theorem reading {f : Work → Step α} (h : ∀ w, Confined files directories p (f w)) :
    Confined files directories p (get >>= f) :=
  of_begins fun w => .inr ⟨f w, w, rfl, .refl _, h w⟩

theorem modify {f : Work → Work} (h : ∀ w, ChangesOnly files directories w.tree (f w).tree) :
    Confined files directories (fun _ _ => True) (modify f : Step Unit) where
  ends w _ _ hrun := by
    cases hrun
    exact ⟨h w, True.intro⟩
  halts _ _ _ hrun := nomatch hrun

/-- A step that makes another tree of the tree there is, if it can, and goes on. -/
theorem replacing (g : FileTree → Option β) (tree : β → FileTree) (next : β → Step α) (halt : Halt)
    (hrun : ∀ w, a.run w =
      (g w.tree).elim (.error halt w) fun made => (next made).run { w with tree := tree made })
    (hg : ∀ before made, g before = some made →
      ChangesOnly files directories before (tree made) ∧ Confined files directories p (next made)) :
    Confined files directories p a := by
  refine of_begins fun w => ?_
  rw [hrun]
  cases hmade : g w.tree with
  | none => exact .inl ⟨halt, w, rfl, .refl _⟩
  | some made =>
    obtain ⟨hchanges, hnext⟩ := hg _ _ hmade
    exact .inr ⟨next made, _, rfl, hchanges, hnext⟩

theorem forM {xs : List α} {f : α → Step Unit} (h : ∀ x ∈ xs, Confined files directories (fun _ _ => True) (f x)) :
    Confined files directories (fun _ _ => True) (xs.forM f) := by
  induction xs with
  | nil => exact pure fun _ => True.intro
  | cons x xs ih => exact (h x (.head xs)).bind fun _ _ _ => ih fun y hy => h y (.tail x hy)

end Confined
end Confined

section Steps

variable {files directories : List String → Prop} {x : Surroundings}

theorem confined_say (line : String) : Confined files directories (fun _ _ => True) (say line) :=
  .modify fun _ => .refl _

theorem confined_report (asJson : Bool) (s : Survey) :
    Confined files directories (fun _ _ => True) (report asJson s) := by
  unfold report
  split
  · exact confined_say _
  · exact .forM fun line _ => confined_say line

theorem confined_checkProject (project : String) :
    Confined files directories (fun _ _ => isProjectId project = true) (checkProject project) := by
  unfold checkProject
  cases h : isProjectId project with
  | true => exact .pure fun _ => rfl
  | false => exact .halt _

theorem confined_projectOf (project : Option String) (place : List String) :
    Confined files directories (fun id _ => project.or place.getLast? = some id) (projectOf project place) := by
  cases project with
  | some project => exact .pure fun _ => rfl
  | none => exact .orFail fun _ h _ => h

theorem confined_findModels (s : Settings) : Confined files directories (fun _ _ => True) (findModels x s) :=
  (Confined.orFail fun _ _ _ => True.intro).bind fun _ _ _ => .pure fun _ => True.intro

theorem confined_happen {α : Type} (a : Activity Desk α) (d : Desk) :
    Confined files directories (fun r _ => ∃ t, a.run 0 d = .finished r.1 t r.2) (happen a d) := by
  unfold happen
  split
  · exact .pure fun _ => ⟨_, ‹_›⟩
  · exact .halt _
  · exact .halt _

theorem confined_openCheckpoints (path : String) :
    Confined files (· ∈ trail x.directory path) (fun r _ => r.1 = placeOf x.directory path)
      (openCheckpoints x path) := by
  refine .replacing (·.makeDirectory? x.directory path) Prod.fst
    (fun made => return (made.2, checkpointFiles (made.1.within made.2)))
    (.error ("Failed to open checkpoints at " ++ path)) ?_ ?_
  · intro w
    simp only [openCheckpoints, EStateM.run_bind, EStateM.run_get]
    cases w.tree.makeDirectory? x.directory path <;> rfl
  · intro before made hmade
    obtain ⟨hplace, hchanges⟩ := changesOnly_makeDirectory? hmade
    exact ⟨hchanges.mono (fun _ => False.elim) fun _ => id, .pure fun _ => hplace⟩

/-- What a store of checkpoints does is confined to its place. -/
theorem confined_storeCheckpoints (place : List String) (before after : Store.CheckpointFiles) :
    Confined (place <+: ·) (place <+: ·) (fun _ _ => True) (storeCheckpoints place before after) := by
  have hput (fresh : List (List String × String)) (tree : FileTree) :
      ChangesOnly (place <+: ·) (place <+: ·) tree
        (fresh.foldl (fun tree file => tree.put (place ++ file.1) file.2.toUTF8) tree) := by
    induction fresh generalizing tree with
    | nil => exact .refl tree
    | cons file fresh ih =>
      exact .trans (.put_at _ (List.prefix_append place file.1) (List.prefix_append place file.1)) (ih _)
  refine .modify fun w => .trans (.filter _ fun e _ hgone => ?_) (hput _ _)
  simp only [Bool.not_eq_false', Option.any_eq_true] at hgone
  obtain ⟨rest, hbelow, -⟩ := hgone
  rw [eq_append_of_below? hbelow]
  exact ⟨List.prefix_append place rest, List.prefix_append place rest⟩

theorem confined_writeText (path text : String) :
    Confined (· = placeOf x.directory path) directories (fun _ _ => True) (writeText x path text) := by
  refine .replacing (·.write? x.directory path text.toUTF8) id (fun _ => return ())
    (.error ("Failed to write " ++ path)) ?_ ?_
  · intro w
    simp only [writeText, EStateM.run_bind, EStateM.run_get]
    cases w.tree.write? x.directory path text.toUTF8 <;> rfl
  · intro before made hmade
    exact ⟨(changesOnly_write? hmade).mono (fun _ => id) fun _ => False.elim, .pure fun _ => True.intro⟩

end Steps

section Documents

variable {α β : Type} {x : Surroundings} {w w' : Work} {value : α} {place : List String}

theorem run_bind_eq_ok {a : Step α} {f : α → Step β} {value : β} : (a >>= f).run w = .ok value w' ↔
    ∃ first between, a.run w = .ok first between ∧ (f first).run between = .ok value w' := by
  rw [EStateM.run_bind]
  cases a.run w <;> simp

theorem run_orFail_eq_ok {found : Option α} {message : String} :
    (orFail found message).run w = .ok value w' ↔ found = some value ∧ w' = w := by
  cases found with
  | none => exact iff_of_false (fun h => nomatch h) fun h => nomatch h.1
  | some a =>
    constructor
    · intro h
      cases h
      exact ⟨rfl, rfl⟩
    · rintro ⟨⟨⟩, rfl⟩
      rfl

/-- A text that is written is a file, beside those that were there. -/
theorem isFile_of_writeText {path text : String} (h : (writeText x path text).run w = .ok () w') :
    w'.tree.isFile place = true ↔ place = placeOf x.directory path ∨ w.tree.isFile place = true := by
  obtain ⟨_, _, hget, h⟩ := run_bind_eq_ok.mp h
  cases hget
  obtain ⟨tree, _, hwritten, hend⟩ := run_bind_eq_ok.mp h
  obtain ⟨hwritten, rfl⟩ := run_orFail_eq_ok.mp hwritten
  cases hend
  exact isFile_write? hwritten

theorem isFile_of_forM {sections : List Document.Section} {path : Document.Section → String}
    (h : (sections.forM fun s => writeText x (path s) s.content).run w = .ok () w') :
    w'.tree.isFile place = true ↔
      (∃ s ∈ sections, place = placeOf x.directory (path s)) ∨ w.tree.isFile place = true := by
  induction sections generalizing w with
  | nil =>
    cases h
    simp
  | cons s sections ih =>
    obtain ⟨_, between, hfirst, hrest⟩ := run_bind_eq_ok.mp h
    rw [ih hrest, isFile_of_writeText hfirst]
    simp only [List.mem_cons, exists_eq_or_imp]
    rw [or_assoc, or_left_comm]

/-- A document that is written has all its sections. -/
theorem isFile_of_writeDocument {out project : String} {sections : List Document.Section}
    {record : Option Store.Snapshots.Record} (h : (writeDocument x out project sections record).run w = .ok () w')
    {s : Document.Section} (hs : s ∈ sections) :
    w'.tree.isFile (placeOf x.directory (sectionPath out project s.name)) = true := by
  obtain ⟨_, _, _, h⟩ := run_bind_eq_ok.mp h
  obtain ⟨_, _, _, h⟩ := run_bind_eq_ok.mp h
  obtain ⟨_, _, _, h⟩ := run_bind_eq_ok.mp h
  obtain ⟨_, between, hsections, hrecord⟩ := run_bind_eq_ok.mp h
  have hwritten := (isFile_of_forM hsections).mpr (.inl ⟨s, hs, rfl⟩)
  cases record with
  | none =>
    cases hrecord
    exact hwritten
  | some r => exact (isFile_of_writeText hrecord).mpr (.inr hwritten)


/-- The document of a project is confined to its files and to the directories on the way to its sections, and all its
sections are there when it is written. -/
theorem confined_writeDocument (out project : String) (sections : List Document.Section)
    (record : Option Store.Snapshots.Record) :
    Confined (· ∈ documentFiles x.directory out project (sections.map (·.name)))
      (· ∈ trail x.directory (sectionDirectory out project))
      (fun _ tree => ∀ s ∈ sections, tree.isFile (placeOf x.directory (sectionPath out project s.name)) = true)
      (writeDocument x out project sections record) := by
  refine .strengthen (p := fun _ _ => True) ?_ fun w _ w' hrun s hs => isFile_of_writeDocument hrun hs
  refine .replacing (·.makeDirectory? x.directory (sectionDirectory out project)) Prod.fst (fun _ => do
      sections.forM fun s => writeText x (sectionPath out project s.name) s.content
      record.elim (return ()) fun r => writeText x (recordPath out project) r.encode.pretty)
    (.error ("Failed to create " ++ sectionDirectory out project)) ?_ ?_
  · intro w
    simp only [writeDocument, EStateM.run_bind, EStateM.run_get]
    cases w.tree.makeDirectory? x.directory (sectionDirectory out project) <;> cases record <;> rfl
  · intro before made hmade
    obtain ⟨-, hchanges⟩ := changesOnly_makeDirectory? hmade
    refine ⟨hchanges.mono (fun _ => False.elim) fun _ => id, .bind (.forM fun s hs => ?_) fun _ _ _ => ?_⟩
    · refine (confined_writeText _ _).mono ?_ fun _ => id
      rintro _ rfl
      exact .inr ⟨s.name, List.mem_map_of_mem hs, rfl⟩
    · cases record with
      | some r => exact (confined_writeText _ _).mono (fun _ h => .inl h) fun _ => id
      | none => exact .pure fun _ => True.intro

end Documents

section Survey

variable {x : Surroundings} {s : Settings} {path out checkpoints : String} {project : Option String}
  {sections : List String} {asJson : Bool}

/-- Whether a survey of a path goes under an identifier: the one that was given, or else the name of the place. -/
def SurveyedAs (x : Surroundings) (path : String) (project : Option String) (identifier : String) : Prop :=
  project.or (placeOf x.directory path).getLast? = some identifier ∧ isProjectId identifier = true

/-- The names of the sections that are asked for: those that were given, or else those of the settings. -/
def sectionNames (s : Settings) (sections : List String) : List String :=
  if sections.isEmpty then s.analysis.sections else sections

/-- A survey is confined to the document of its project and to the store of checkpoints, and all sections that were
asked for are there when it ends without an error. -/
theorem confined_survey : Confined
    (fun file => (∃ identifier, SurveyedAs x path project identifier ∧
      file ∈ documentFiles x.directory out identifier (sectionNames s sections)) ∨
      placeOf x.directory checkpoints <+: file)
    (fun directory => (∃ identifier, SurveyedAs x path project identifier ∧
      directory ∈ trail x.directory (sectionDirectory out identifier)) ∨
      directory ∈ trail x.directory checkpoints ∨ placeOf x.directory checkpoints <+: directory)
    (fun _ tree => ∃ identifier, SurveyedAs x path project identifier ∧ ∀ name ∈ sectionNames s sections,
      tree.isFile (placeOf x.directory (sectionPath out identifier name)) = true)
    (survey x s path project sections out checkpoints asJson) := by
  unfold survey
  refine .reading fun w => ?_
  refine .bind (p := fun place _ => place = placeOf x.directory path) (.orFail fun place hplace _ => ?_) ?_
  · exact eq_placeOf_of_resolve? (Option.filter_eq_some_iff.mp hplace).1
  rintro _ _ rfl
  refine (confined_projectOf project _).bind fun identifier _ hidentifier => ?_
  refine (confined_checkProject identifier).bind fun _ _ hok => ?_
  have hsurveyed : SurveyedAs x path project identifier := ⟨hidentifier, hok⟩
  refine (confined_findModels _).bind fun models _ _ => ?_
  refine ((confined_openCheckpoints checkpoints).mono (fun _ h => h) fun _ h => .inr (.inl h)).bind ?_
  rintro ⟨_, files⟩ _ rfl
  refine .reading fun w' => ?_
  refine (confined_happen _ _).bind ?_
  rintro ⟨result, desk⟩ _ ⟨t, hrun⟩
  refine ((confined_storeCheckpoints _ _ _).mono (fun _ => .inr) fun _ h => .inr (.inr h)).bind fun _ _ _ => ?_
  refine (confined_report asJson result).bind fun _ _ _ => ?_
  cases hsuccess : result.success with
  | false => exact .bind (p := fun _ _ => False) (.halt _) fun _ _ => False.elim
  | true =>
    -- A survey that has succeeded has the sections that were asked for, so no other name becomes a file.
    have hnames : result.sections.map (·.name) = sectionNames s sections := by
      rw [Surveyor.complete_of_run _ hrun hsuccess, sectionNames]
      simp only [surveyorOf]
      split <;> rfl
    rw [← hnames]
    refine .imp (.mono (confined_writeDocument out identifier result.sections _) ?_ ?_) ?_
    · exact fun file hfile => .inl ⟨identifier, hsurveyed, hfile⟩
    · exact fun directory hdirectory => .inl ⟨identifier, hsurveyed, hdirectory⟩
    · exact fun _ tree hall => ⟨identifier, hsurveyed, List.forall_mem_map.mpr hall⟩

/-- A survey, however it ends, changes no files but those of the document of its project and those of the store of
checkpoints, and no directories but those on the way to them; and when it ends without an error, all sections that were
asked for are there. As long as no name of a section leads elsewhere, the document is the record in the output directory
and files directly inside the directory of the project; and what two projects create there is apart, unless the one is
named like the record of the other. -/
theorem survey_contained (x : Surroundings) (s : Settings) (path : String) (project : Option String)
    (sections : List String) (out checkpoints : String) (asJson : Bool) :
    (∀ w, ChangesOnly
      (fun file => (∃ identifier, SurveyedAs x path project identifier ∧
        file ∈ documentFiles x.directory out identifier (sectionNames s sections)) ∨
        placeOf x.directory checkpoints <+: file)
      (fun directory => (∃ identifier, SurveyedAs x path project identifier ∧
        directory ∈ trail x.directory (sectionDirectory out identifier)) ∨
        directory ∈ trail x.directory checkpoints ∨ placeOf x.directory checkpoints <+: directory)
      w.tree (treeLeft (survey x s path project sections out checkpoints asJson) w)) ∧
    (∀ w w', (survey x s path project sections out checkpoints asJson).run w = .ok () w' →
      ∃ identifier, SurveyedAs x path project identifier ∧ ∀ name ∈ sectionNames s sections,
        w'.tree.isFile (placeOf x.directory (sectionPath out identifier name)) = true) ∧
    (∀ identifier names, isProjectId identifier = true → (∀ name ∈ names, '/' ∉ name.toList) →
      (∀ file ∈ documentFiles x.directory out identifier names,
        file = placeOf x.directory out ++ [identifier ++ ".json"] ∨
          ∃ name ∈ names, file = placeOf x.directory out ++ [identifier, name ++ ".md"]) ∧
      ∀ directory ∈ trail x.directory (sectionDirectory out identifier),
        directory ∈ trail x.directory out ∨ directory = placeOf x.directory out ++ [identifier]) ∧
    ∀ identifier other names others, isProjectId identifier = true → isProjectId other = true → identifier ≠ other →
      (∀ name ∈ names, '/' ∉ name.toList) → (∀ name ∈ others, '/' ∉ name.toList) →
      (Disjoint (documentPlaces x.directory out identifier names) (documentPlaces x.directory out other others) ↔
        identifier ≠ other ++ ".json" ∧ other ≠ identifier ++ ".json") := by
  refine ⟨confined_survey.changesOnly, fun w w' hrun => (confined_survey.ends w () w' hrun).2,
    fun identifier names hok hnames => ⟨fun file hfile => ?_, fun _ => ?_⟩, ?_⟩
  · rcases hfile with rfl | ⟨name, hname, rfl⟩
    · exact .inl (placeOf_recordPath hok)
    · exact .inr ⟨name, hname, placeOf_sectionPath hok (hnames name hname)⟩
  · exact mem_trail_sectionDirectory hok
  · exact fun _ _ _ _ hok hother hne hnames hothers => disjoint_documentPlaces_iff hok hother hne hnames hothers

/-- Surroundings in which nobody answers. -/
def quiet : Surroundings := ⟨[], fun _ => none, fun _ => return none, 0, "survey"⟩

/-- Settings with a key and nothing else of their own. -/
def keyed : Settings := { models := { apiKey := some "key" } }

/-- A file that a survey reads stays as it is, and the documents of two shops are apart. -/
theorem survey_contained_shops :
    (treeLeft (survey quiet keyed "repo" none ["features"] "out" "checkpoints" false)
      ⟨[⟨["repo", "a.txt"], some "x".toUTF8⟩], ""⟩).filesAt ["repo", "a.txt"] =
        [⟨["repo", "a.txt"], some "x".toUTF8⟩] ∧
      Disjoint (documentPlaces [] "out" "shop" ["features"]) (documentPlaces [] "out" "shop.web" ["features"]) := by
  obtain ⟨hchanges, -, hfiles, hdisjoint⟩ :=
    survey_contained quiet keyed "repo" none ["features"] "out" "checkpoints" false
  refine ⟨(hchanges _).files _ ?_, (hdisjoint "shop" "shop.web" _ _ ?_ ?_ ?_ ?_ ?_).mpr ?_⟩
  · have hout : placeOf quiet.directory "out" = ["out"] := by decide +kernel
    have hstore : placeOf quiet.directory "checkpoints" = ["checkpoints"] := by decide +kernel
    rintro (⟨identifier, ⟨-, hok⟩, hfile⟩ | hstored)
    · rcases (hfiles identifier _ hok (by decide)).1 _ hfile with h | ⟨name, -, h⟩ <;> simp [hout] at h
    · simp [hstore] at hstored
  all_goals decide

/-- The name of a section leads out of the output of its project, and one project is named like the record of another
one. -/
theorem document_escapes :
    isProjectId "shop" = true ∧ isProjectId "shop.json" = true ∧
      (treeLeft (writeDocument quiet "out" "shop" [.standIn "../leak" "Leak" "no writer" 0] none) ⟨[], ""⟩).isFile
        ["out", "leak.md"] = true ∧
      ["out", "leak.md"] ≠ placeOf [] (recordPath "out" "shop") ∧
      ¬ placeOf [] (sectionDirectory "out" "shop") <+: ["out", "leak.md"] ∧
      ¬ Disjoint (documentPlaces [] "out" "shop" ["features"]) (documentPlaces [] "out" "shop.json" ["features"]) := by
  refine ⟨by decide, by decide, by decide +kernel, by decide +kernel, by decide +kernel, ?_⟩
  rw [disjoint_documentPlaces_iff (by decide) (by decide) (by decide) (by decide) (by decide)]
  decide

end Survey

end CodeAtlas.CommandLine
