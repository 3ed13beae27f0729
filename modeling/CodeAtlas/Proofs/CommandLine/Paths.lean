import Mathlib
import CodeAtlas.CommandLine.Run
import CodeAtlas.Proofs.FileTree.Places

/-! Where the document of a project lies. A path that leads on from another one leads on from the place of the other
one, and an identifier of a project is one component of a path; so the record of a project and the directory of its
sections lie directly in the output directory. What two projects create there is apart, unless the one is named like the
record of the other. -/
namespace CodeAtlas.CommandLine

open FileTree

section Joined

variable {start place : List String} {path next : String}

theorem startsWith_slash_append (h : path ≠ "") (rest : String) :
    (path ++ rest).startsWith "/" = path.startsWith "/" := by
  rw [Bool.eq_iff_iff, String.startsWith_string_iff, String.startsWith_string_iff, String.toList_append]
  obtain ⟨c, cs, hpath⟩ := List.exists_cons_of_ne_nil (mt String.toList_eq_nil_iff.mp h)
  simp [hpath, List.cons_prefix_cons]

theorem splitWhere_append_slash (path next : String) :
    Text.splitWhere (· == '/') (path ++ "/" ++ next) =
      Text.splitWhere (· == '/') path ++ Text.splitWhere (· == '/') next := by
  have hslash : (path ++ "/" ++ next).toList = path.toList ++ '/' :: next.toList := by simp
  have hcut := Text.splitChars_append_sep (p := (· == '/')) (beq_self_eq_true '/') path.toList next.toList
  rw [Text.splitWhere, hslash, hcut, List.map_append, Text.splitWhere, Text.splitWhere]

theorem origin_of_relative (start : List String) (h : next.startsWith "/" = false) : origin start next = start := by
  simp [origin, h]

theorem origin_joined (h : next.startsWith "/" = false) : origin start (joined path next) = origin start path := by
  simp only [origin, joined, h, Bool.false_eq_true, if_false]
  by_cases hempty : path = ""
  · simp [hempty, h]
  · split
    · rw [startsWith_slash_append hempty]
    · rw [String.append_assoc, startsWith_slash_append hempty]

/-- The parts of a path that leads on: those of the path, but for an empty one at its end, and the new ones. -/
theorem splitWhere_joined (start : List String) (path : String) (h : next.startsWith "/" = false) :
    ∃ front, Text.splitWhere (· == '/') (joined path next) = front ++ Text.splitWhere (· == '/') next ∧
      front <+: Text.splitWhere (· == '/') path ∧ front.foldl lead (origin start path) = placeOf start path := by
  have hnil : Text.splitWhere (· == '/') "" = [""] := by decide
  simp only [joined, h, Bool.false_eq_true, if_false]
  by_cases hempty : path = ""
  · exact ⟨[], by simp [hempty], List.nil_prefix, by simp [hempty, placeOf, hnil, lead]⟩
  · by_cases hslash : path.endsWith "/"
    · obtain ⟨before, rfl⟩ : ∃ before, before ++ "/" = path := by
        rw [String.endsWith_eq_endsWith_toSlice, String.Slice.endsWith_string_iff] at hslash
        obtain ⟨before, hbefore⟩ := hslash
        exact ⟨String.ofList before, String.toList_inj.mp (by simpa using hbefore)⟩
      have hpath := splitWhere_append_slash before ""
      rw [String.append_empty, hnil] at hpath
      refine ⟨Text.splitWhere (· == '/') before, ?_, by simp [hpath], by simp [placeOf, hpath, lead]⟩
      rw [if_pos (by simp [hslash]), splitWhere_append_slash]
    · refine ⟨Text.splitWhere (· == '/') path, ?_, List.prefix_rfl, rfl⟩
      rw [if_neg (by simp [hempty, hslash]), splitWhere_append_slash]

/-- A path that leads on leads on from the place of the path. -/
theorem placeOf_joined (start : List String) (path next : String) :
    placeOf start (joined path next) = placeOf (placeOf start path) next := by
  cases h : next.startsWith "/" with
  | true => simp [joined, placeOf, origin, h]
  | false =>
    obtain ⟨front, hjoined, -, hfront⟩ := splitWhere_joined start path h
    calc placeOf start (joined path next)
      _ = (Text.splitWhere (· == '/') next).foldl lead (front.foldl lead (origin start path)) := by
        rw [placeOf, hjoined, origin_joined h, List.foldl_append]
      _ = placeOf (placeOf start path) next := by rw [hfront, placeOf.eq_def _ next, origin_of_relative _ h]

/-- The places on the way of a path that leads on. -/
theorem mem_trail_joined (h : place ∈ trail start (joined path next)) :
    place ∈ trail start path ∨ place ∈ trail (placeOf start path) next := by
  cases hnext : next.startsWith "/" with
  | true =>
    refine .inr ?_
    simpa [joined, trail, origin, hnext] using h
  | false =>
    obtain ⟨front, hjoined, hway, hfront⟩ := splitWhere_joined start path hnext
    obtain ⟨parts, hparts, hplace⟩ := mem_trail_iff.mp h
    rw [hjoined] at hparts
    rw [origin_joined hnext] at hplace
    rcases List.prefix_or_prefix_of_prefix hparts (List.prefix_append front _) with hbefore | ⟨more, rfl⟩
    · exact .inl (mem_trail_iff.mpr ⟨parts, hbefore.trans hway, hplace⟩)
    · refine .inr (mem_trail_iff.mpr ⟨more, (List.prefix_append_right_inj front).mp hparts, ?_⟩)
      rw [hplace, List.foldl_append, hfront, origin_of_relative _ hnext]

end Joined

section Names

variable {start : List String} {name project : String}

/-- Whether a text is one component of a path that leads one step down. -/
structure IsName (name : String) : Prop where
  plain : '/' ∉ name.toList
  proper : ∃ c ∈ name.toList, c ≠ '.'

theorem IsName.append (h : '/' ∉ name.toList) {ending : String} (hending : IsName ending) :
    IsName (name ++ ending) where
  plain := by simpa using ⟨h, hending.plain⟩
  proper := by
    obtain ⟨c, hc, hdot⟩ := hending.proper
    exact ⟨c, by simp [hc], hdot⟩

theorem isName_of_isProjectId (h : isProjectId project = true) : IsName project := by
  simp only [isProjectId, Bool.and_eq_true, Bool.not_eq_true', List.all_eq_false, List.all_eq_true] at h
  obtain ⟨⟨-, hdots⟩, hplain⟩ := h
  refine ⟨fun hslash => ?_, by simpa using hdots⟩
  have := hplain '/' hslash
  revert this
  decide

theorem IsName.splitWhere (h : IsName name) : Text.splitWhere (· == '/') name = [name] := by
  have hpiece : ∀ c ∈ name.toList, (c == '/') = false := fun c hc => by
    rw [beq_eq_false_iff_ne]
    rintro rfl
    exact h.plain hc
  rw [Text.splitWhere, Text.splitChars_of_none hpiece]
  simp

theorem IsName.lead (h : IsName name) (place : List String) : FileTree.lead place name = place ++ [name] := by
  obtain ⟨c, hc, hdot⟩ := h.proper
  have hempty : name ≠ "" := by
    rintro rfl
    simp at hc
  have hhere : name ≠ "." := by
    rintro rfl
    simp_all
  have hup : name ≠ ".." := by
    rintro rfl
    simp_all
  simp [FileTree.lead, hempty, hhere, hup]

theorem IsName.origin (h : IsName name) (start : List String) : FileTree.origin start name = start := by
  refine origin_of_relative start ?_
  rw [Bool.eq_false_iff, Ne, String.startsWith_string_iff]
  intro hslash
  exact h.plain (hslash.subset (by simp))

theorem IsName.placeOf (h : IsName name) (start : List String) : FileTree.placeOf start name = start ++ [name] := by
  simp [FileTree.placeOf, h.splitWhere, h.origin, h.lead]

theorem IsName.mem_trail (h : IsName name) {place : List String} :
    place ∈ trail start name ↔ place = start ∨ place = start ++ [name] := by
  simp [trail, h.splitWhere, h.origin, h.lead]

end Names

section Documents

variable {start place : List String} {out project other name : String} {names others : List String}

/-- The files that the document of a project is written to. -/
def documentFiles (start : List String) (out project : String) (names : List String) : Set (List String) :=
  insert (placeOf start (recordPath out project))
    {file | ∃ name ∈ names, file = placeOf start (sectionPath out project name)}

/-- All that the document of a project creates in the output directory: its files, and the directory of its
sections. -/
def documentPlaces (start : List String) (out project : String) (names : List String) : Set (List String) :=
  insert (placeOf start (sectionDirectory out project)) (documentFiles start out project names)

theorem isName_json : IsName ".json" := ⟨by decide, 'j', by decide, by decide⟩

theorem isName_md : IsName ".md" := ⟨by decide, 'm', by decide, by decide⟩

theorem placeOf_recordPath (h : isProjectId project = true) :
    placeOf start (recordPath out project) = placeOf start out ++ [project ++ ".json"] := by
  rw [recordPath, placeOf_joined]
  exact (IsName.append (isName_of_isProjectId h).plain isName_json).placeOf _

theorem placeOf_sectionDirectory (h : isProjectId project = true) :
    placeOf start (sectionDirectory out project) = placeOf start out ++ [project] := by
  rw [sectionDirectory, placeOf_joined, (isName_of_isProjectId h).placeOf]

theorem placeOf_sectionPath (h : isProjectId project = true) (hname : '/' ∉ name.toList) :
    placeOf start (sectionPath out project name) = placeOf start out ++ [project, name ++ ".md"] := by
  rw [sectionPath, placeOf_joined, placeOf_sectionDirectory h, (IsName.append hname isName_md).placeOf,
    List.append_assoc, List.singleton_append]

theorem mem_trail_sectionDirectory (h : isProjectId project = true)
    (hplace : place ∈ trail start (sectionDirectory out project)) :
    place ∈ trail start out ∨ place = placeOf start out ++ [project] := by
  rcases mem_trail_joined hplace with hplace | hplace
  · exact .inl hplace
  · rcases (isName_of_isProjectId h).mem_trail.mp hplace with rfl | rfl
    · exact .inl (placeOf_mem_trail start out)
    · exact .inr rfl

/-- With plain names all that the document of a project creates lies in the output directory under three kinds of
names. -/
theorem mem_documentPlaces (h : isProjectId project = true) (hnames : ∀ name ∈ names, '/' ∉ name.toList) :
    place ∈ documentPlaces start out project names ↔ place = placeOf start out ++ [project] ∨
      place = placeOf start out ++ [project ++ ".json"] ∨
      ∃ name ∈ names, place = placeOf start out ++ [project, name ++ ".md"] := by
  simp only [documentPlaces, documentFiles, Set.mem_insert_iff, Set.mem_ofPred_eq, placeOf_sectionDirectory h,
    placeOf_recordPath h]
  refine or_congr_right (or_congr_right (exists_congr fun name => and_congr_right fun hname => ?_))
  rw [placeOf_sectionPath h (hnames name hname)]

/-- Two projects get into each other's way only if the one is named like the record of the other. -/
theorem disjoint_documentPlaces_iff (hproject : isProjectId project = true) (hother : isProjectId other = true)
    (hne : project ≠ other) (hnames : ∀ name ∈ names, '/' ∉ name.toList)
    (hothers : ∀ name ∈ others, '/' ∉ name.toList) :
    Disjoint (documentPlaces start out project names) (documentPlaces start out other others) ↔
      project ≠ other ++ ".json" ∧ other ≠ project ++ ".json" := by
  simp only [Set.disjoint_left, mem_documentPlaces hproject hnames, mem_documentPlaces hother hothers]
  constructor
  · intro h
    refine ⟨?_, ?_⟩
    · rintro rfl
      exact h (.inl rfl) (.inr (.inl rfl))
    · rintro rfl
      exact h (.inr (.inl rfl)) (.inl rfl)
  · rintro ⟨hrecord, hrecord'⟩ place hplace hplace'
    rcases hplace with rfl | rfl | ⟨name, -, rfl⟩ <;> rcases hplace' with hsame | hsame | ⟨name', -, hsame⟩ <;>
      simp only [List.append_cancel_left_eq, List.cons.injEq, and_true, reduceCtorEq, and_false, String.append_left_inj]
        at hsame
    · exact hne hsame
    · exact hrecord hsame
    · exact hrecord' hsame.symm
    · exact hne hsame
    · exact hne hsame.1

end Documents

end CodeAtlas.CommandLine
