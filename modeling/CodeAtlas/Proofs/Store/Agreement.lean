import CodeAtlas.Proofs.Store.History
import CodeAtlas.Proofs.Store.Sound
import Mathlib

/-! A keeper that keeps its checkpoints in files says what a keeper in memory says, whatever they are asked for, as
long as the hash tells the identifiers apart, files give back what was written and no two records are made at the same
time. The files are those of the checkpoints in memory, one for each. -/
namespace CodeAtlas
namespace Store

open Checkpoints (Record)

/-- Whether a record can be had back from its file: the text is read as the document that was written, the result's
keys are sorted as in any document that was read, and the time lies in the calendar. -/
structure Checkpoints.Record.Legible (r : Record) : Prop where
  text : Json.parse? r.encode.pretty = some r.encode
  sorted : r.result.canonical = r.result
  inCalendar : r.createdAt.InCalendar

/-- Checkpoints with identifiers among some, that can be had back from files and were made one after the other. -/
structure Checkpoints.Orderly (ids : Set String) (c : Checkpoints) : Prop where
  named : ∀ r ∈ c, r.project ∈ ids ∧ r.fingerprint ∈ ids ∧ r.commit ∈ ids
  legible : ∀ r ∈ c, r.Legible
  keys : c.Pairwise fun a b => a.sameKey b = false
  times : c.Pairwise (·.createdAt < ·.createdAt)

namespace Checkpoints

variable {ids : Set String} {c : Checkpoints} {r : Record}

theorem Record.Writable.legible (h : r.Writable) : r.Legible where
  text := Json.parse?_pretty h.exact_encode (Nat.le_refl 127)
  sorted := h.sorted
  inCalendar := h.inCalendar

theorem Record.Legible.recordOf?_text (h : r.Legible) : CheckpointFiles.recordOf? r.encode.pretty = some r := by
  rw [CheckpointFiles.recordOf?, h.text, Option.bind_some, Record.decode?_encode h.sorted h.inCalendar]

theorem Orderly.sublist {d : Checkpoints} (h : c.Orderly ids) (hd : d.Sublist c) : d.Orderly ids where
  named r hr := h.named r (hd.subset hr)
  legible r hr := h.legible r (hd.subset hr)
  keys := h.keys.sublist hd
  times := h.times.sublist hd

theorem put_sublist : (c.put r).Sublist (c ++ [r]) := by
  unfold put
  split
  · exact List.sublist_append_left c [r]
  · exact List.Sublist.refl _

theorem Orderly.put (h : c.Orderly ids) (hr : r.project ∈ ids ∧ r.fingerprint ∈ ids ∧ r.commit ∈ ids)
    (hlegible : r.Legible) (hlast : ∀ b ∈ c, b.createdAt < r.createdAt) : (c.put r).Orderly ids := by
  by_cases hkey : c.any r.sameKey = true
  · rw [put_of_any hkey]
    exact h
  · have hnew : ∀ b ∈ c, b.sameKey r = false := by
      intro b hb
      rw [Bool.eq_false_iff]
      intro hsame
      obtain ⟨hproject, hfingerprint, hcommit⟩ := sameKey_iff.mp hsame
      exact hkey (List.any_eq_true.mpr ⟨b, hb, sameKey_iff.mpr ⟨hproject.symm, hfingerprint.symm, hcommit.symm⟩⟩)
    rw [put_of_not_any hkey]
    exact {
      named := List.forall_mem_append.mpr ⟨h.named, by simpa using hr⟩
      legible := List.forall_mem_append.mpr ⟨h.legible, by simpa using hlegible⟩
      keys := List.pairwise_append.mpr ⟨h.keys, List.pairwise_singleton _ r, by simpa using hnew⟩
      times := List.pairwise_append.mpr ⟨h.times, List.pairwise_singleton _ r, by simpa using hlast⟩ }

end Checkpoints

namespace CheckpointFiles

/-- The name of a record's file. -/
def fileName (commit : String) : String := component commit ++ ".json"

/-- The file of a record. -/
def fileOf (r : Record) : List String × String := (recordPlace r.project r.fingerprint r.commit, r.encode.pretty)

/-- The files of some checkpoints. -/
def holding (c : Checkpoints) : CheckpointFiles := ⟨c.map fileOf⟩

variable {ids : Set String} {c : Checkpoints} {project fingerprint : String}

/-- No path as short as that of a chunk is a file or lies below one. -/
theorem isBlocked_holding {path : List String} (h : path.length < 3) : (holding c).isBlocked path = false := by
  simp only [isBlocked, holding, List.any_map, List.any_eq_false, Function.comp_apply, fileOf]
  intro r _ hprefix
  have hle := (List.isPrefixOf_iff_prefix.mp hprefix).length_le
  simp only [recordPlace, List.length_cons, List.length_nil] at hle
  omega

/-- Below a place lie the records whose paths it starts. -/
theorem below_holding {path : List String} {p : Record → Bool} (hlen : path.length < 3)
    (hp : ∀ r ∈ c, path.isPrefixOf (recordPlace r.project r.fingerprint r.commit) = p r) :
    (holding c).below path = (c.filter p).map fun r =>
      ((recordPlace r.project r.fingerprint r.commit).drop path.length, r.encode.pretty) := by
  induction c with
  | nil => rfl
  | cons r c ih =>
    have hrest := ih fun b hb => hp b (List.mem_cons_of_mem r hb)
    simp only [below, holding] at hrest ⊢
    rw [List.map_cons, List.filterMap_cons, hrest, List.filter_cons]
    simp only [fileOf, hp r (by simp)]
    cases p r with
    | true => simp [recordPlace, hlen]
    | false => simp

/-- Entries with different names are all kept. -/
theorem foldl_addEntry_of_nodup {l seen : List (String × Option String)} (h : ((seen ++ l).map Prod.fst).Nodup) :
    l.foldl addEntry seen = seen ++ l := by
  induction l generalizing seen with
  | nil => simp
  | cons e l ih =>
    have hnew : seen.any (·.1 == e.1) = false := by
      rw [List.any_eq_false]
      intro d hd hname
      rw [List.map_append, List.nodup_append] at h
      exact h.2.2 d.1 (List.mem_map_of_mem hd) e.1 (by simp) (beq_iff_eq.mp hname)
    have hadd : addEntry seen e = seen ++ [e] := by
      unfold addEntry
      rw [hnew]
      rfl
    rw [List.foldl_cons, hadd, ih (by simpa using h), List.append_assoc, List.singleton_append]

/-- Each name is kept once. -/
theorem nodup_foldl_addEntry {l seen : List (String × Option String)} (h : (seen.map Prod.fst).Nodup) :
    ((l.foldl addEntry seen).map Prod.fst).Nodup := by
  induction l generalizing seen with
  | nil => exact h
  | cons e l ih =>
    refine ih ?_
    unfold addEntry
    split
    · exact h
    · next hnew =>
      rw [List.map_append, List.nodup_append]
      refine ⟨h, List.nodup_singleton e.1, fun a ha b hb hab => hnew ?_⟩
      obtain ⟨d, hd, rfl⟩ := List.mem_map.mp ha
      obtain rfl := List.mem_singleton.mp hb
      exact List.any_eq_true.mpr ⟨d, hd, beq_iff_eq.mpr hab⟩

/-- Records are had back from their files. -/
theorem foldlM_addRecord_of_legible {records : List Record} (h : ∀ r ∈ records, r.Legible) (acc : List Record) :
    (records.map fun r => (fileName r.commit, some r.encode.pretty)).foldlM addRecord acc =
      .ok (acc ++ records) := by
  induction records generalizing acc with
  | nil => simp [pure, Except.pure]
  | cons r records ih =>
    have hread := (h r (by simp)).recordOf?_text
    have hadd : addRecord acc (fileName r.commit, some r.encode.pretty) = .ok (acc ++ [r]) := by
      simp [addRecord, hread]
    have hrest := ih (fun b hb => h b (List.mem_cons_of_mem r hb)) (acc ++ [r])
    rw [List.map_cons, List.foldlM_cons, hadd]
    exact hrest.trans (by rw [List.append_assoc, List.singleton_append])

/-- Of records made one after the other the last one is the newest. -/
theorem newest?_eq_getLast? {records : List Record} (h : records.Pairwise (·.createdAt < ·.createdAt)) :
    newest? records = records.getLast? := by
  induction records using List.reverseRecOn with
  | nil => rfl
  | append_singleton records r ih =>
    rw [List.pairwise_append] at h
    obtain ⟨hrecords, -, hlast⟩ := h
    rw [newest?_append, ih hrecords, List.getLast?_concat]
    split
    · next b hb =>
      have hlt := hlast b (List.mem_of_getLast? hb) r (by simp)
      rw [if_neg (Int.not_lt.mpr (Int.le_of_lt hlt))]
    · rfl

/-- Counting the records of some directories adds up how many each of them has. -/
theorem foldlM_lengths {s : CheckpointFiles} {place : List String} {dirs : List (String × Option String)}
    (size : String → Nat) (h : ∀ e ∈ dirs, ∃ records, s.recordsAt (place ++ [e.1]) = .ok records ∧
      records.length = size e.1) (total : Nat) :
    dirs.foldlM (fun total (name, _) => do return total + (← s.recordsAt (place ++ [name])).length) total =
      .ok (total + (dirs.map fun e => size e.1).sum) := by
  induction dirs generalizing total with
  | nil => rfl
  | cons e dirs ih =>
    obtain ⟨name, t⟩ := e
    obtain ⟨records, hrecords, hsize⟩ := h (name, t) (by simp)
    have hrest := ih (fun d hd => h d (List.mem_cons_of_mem _ hd)) (total + size name)
    rw [List.map_cons, List.sum_cons, ← Nat.add_assoc, ← hrest, ← hsize, List.foldlM_cons]
    simp only [hrecords]
    rfl

section Names

variable (hids : ids.InjOn component)

include hids

theorem chunkPlace_isPrefixOf_recordPlace {r : Record} (h : project ∈ ids ∧ fingerprint ∈ ids)
    (hr : r.project ∈ ids ∧ r.fingerprint ∈ ids) :
    (chunkPlace project fingerprint).isPrefixOf (recordPlace r.project r.fingerprint r.commit) =
      r.isAbout project fingerprint := by
  rw [Bool.eq_iff_iff]
  simp only [chunkPlace, recordPlace, List.isPrefixOf, Record.isAbout, Bool.and_eq_true, beq_iff_eq, and_true,
    hids.eq_iff h.1 hr.1, hids.eq_iff h.2 hr.2]
  exact and_congr eq_comm eq_comm

theorem projectPlace_isPrefixOf_recordPlace {r : Record} (h : project ∈ ids) (hr : r.project ∈ ids) :
    (projectPlace project).isPrefixOf (recordPlace r.project r.fingerprint r.commit) = (r.project == project) := by
  rw [Bool.eq_iff_iff]
  simp only [projectPlace, recordPlace, List.isPrefixOf, Bool.and_eq_true, beq_iff_eq, and_true, hids.eq_iff h hr]
  exact eq_comm

/-- Two records about a chunk lie in files of different names. -/
theorem nodup_fileNames (h : c.Orderly ids) :
    ((c.about project fingerprint).map fun r => fileName r.commit).Nodup := by
  have habout : (c.about project fingerprint).Orderly ids := h.sublist List.filter_sublist
  rw [List.Nodup, List.pairwise_map]
  refine List.Pairwise.imp_of_mem (fun {a b} ha hb hkey hname => ?_) habout.keys
  rw [fileName, fileName, String.append_left_inj] at hname
  have hcommit := hids (habout.named a ha).2.2 (habout.named b hb).2.2 hname
  have hsame : a.sameKey b = true := by
    have hab := (List.mem_filter.mp ha).2
    have hbb := (List.mem_filter.mp hb).2
    simp only [Record.isAbout, Bool.and_eq_true, beq_iff_eq] at hab hbb
    exact Checkpoints.sameKey_iff.mpr ⟨hbb.1.trans hab.1.symm, hbb.2.trans hab.2.symm, hcommit.symm⟩
  rw [hkey] at hsame
  cases hsame

/-- At the place of a chunk the records about it are found, in order. -/
theorem recordsAt_holding (h : c.Orderly ids) (hchunk : project ∈ ids ∧ fingerprint ∈ ids) :
    (holding c).recordsAt (chunkPlace project fingerprint) = .ok (c.about project fingerprint) := by
  have hlen : (chunkPlace project fingerprint).length < 3 := by simp [chunkPlace]
  have hbelow := below_holding (c := c) hlen
    fun r hr => chunkPlace_isPrefixOf_recordPlace hids hchunk ⟨(h.named r hr).1, (h.named r hr).2.1⟩
  have hentries : (holding c).entries (chunkPlace project fingerprint) =
      (c.about project fingerprint).map fun r => (fileName r.commit, some r.encode.pretty) := by
    rw [entries_eq, hbelow, List.map_map]
    refine foldl_addEntry_of_nodup ?_
    rw [List.nil_append, List.map_map]
    exact nodup_fileNames hids h
  have hnames : ((c.about project fingerprint).map fun r => (fileName r.commit, some r.encode.pretty)).filter
      (isRecordName ·.1) = (c.about project fingerprint).map fun r => (fileName r.commit, some r.encode.pretty) := by
    refine List.filter_eq_self.mpr fun e he => ?_
    obtain ⟨r, -, rfl⟩ := List.mem_map.mp he
    exact isRecordName_component r.commit
  rw [recordsAt_eq, isBlocked_holding (by simp [chunkPlace]), hentries, hnames]
  exact foldlM_addRecord_of_legible (fun r hr => h.legible r (List.mem_filter.mp hr).1) []

theorem get?_holding (h : c.Orderly ids) (hchunk : project ∈ ids ∧ fingerprint ∈ ids) :
    (holding c).get? project fingerprint = .ok (c.get? project fingerprint) := by
  have htimes : (c.about project fingerprint).Pairwise (·.createdAt < ·.createdAt) :=
    h.times.sublist List.filter_sublist
  have hagain : (c.about project fingerprint).filter (·.isAbout project fingerprint) = c.about project fingerprint := by
    simp [Checkpoints.about, List.filter_filter]
  rw [get?_of_recordsAt (recordsAt_holding hids h hchunk), hagain, newest?_eq_getLast? htimes]
  rfl

theorem isTaken_holding {r : Record} (h : c.Orderly ids)
    (hr : r.project ∈ ids ∧ r.fingerprint ∈ ids ∧ r.commit ∈ ids) : (holding c).isTaken r = c.any r.sameKey := by
  have hbelow : (holding c).below (recordPlace r.project r.fingerprint r.commit) = [] := by
    simp [below, holding, fileOf, recordPlace]
  have hfile : (holding c).isFile (recordPlace r.project r.fingerprint r.commit) = c.any r.sameKey := by
    rw [Bool.eq_iff_iff, isFile, holding, List.any_map, List.any_eq_true, List.any_eq_true]
    refine exists_congr fun b => and_congr_right fun hb => ?_
    obtain ⟨hbp, hbf, hbc⟩ := h.named b hb
    simp [fileOf, recordPlace, Checkpoints.sameKey_iff, hids.eq_iff hbp hr.1, hids.eq_iff hbf hr.2.1,
      hids.eq_iff hbc hr.2.2]
  rw [isTaken, hbelow, hfile]
  simp

theorem put_holding {r : Record} (h : c.Orderly ids)
    (hr : r.project ∈ ids ∧ r.fingerprint ∈ ids ∧ r.commit ∈ ids) : (holding c).put r = .ok (holding (c.put r)) := by
  rw [put_eq, isBlocked_holding (by simp [chunkPlace]), isTaken_holding hids h hr, Checkpoints.put]
  split
  · next hblocked => cases hblocked
  · split
    · rfl
    · simp [holding, fileOf]

/-- The directory of a chunk holds as many records as there are of the project with the fingerprint's name. -/
theorem length_about (h : c.Orderly ids) (hf : fingerprint ∈ ids) :
    (c.about project fingerprint).length =
      ((c.filter (·.project == project)).map (component ·.fingerprint)).count (component fingerprint) := by
  rw [List.count_eq_countP, List.countP_map, List.countP_filter, List.countP_eq_length_filter]
  refine congrArg List.length (List.filter_congr fun r hr => ?_)
  rw [Bool.eq_iff_iff]
  simp [Record.isAbout, hids.eq_iff (h.named r hr).2.1 hf, and_comm]

/-- The entries of a project are the directories of its chunks, each once and named for the fingerprint. -/
theorem entries_projectPlace (h : c.Orderly ids) (hp : project ∈ ids) :
    let names := (c.filter (·.project == project)).map (component ·.fingerprint)
    (∀ e ∈ (holding c).entries (projectPlace project), e.2 = none ∧ e.1 ∈ names) ∧
      (((holding c).entries (projectPlace project)).map Prod.fst).Perm names.dedup := by
  intro names
  have hlen : (projectPlace project).length < 3 := by simp [projectPlace]
  have hbelow := below_holding (c := c) hlen
    fun r hr => projectPlace_isPrefixOf_recordPlace hids hp (h.named r hr).1
  have hentries : (holding c).entries (projectPlace project) =
      (names.map fun name => (name, none)).foldl addEntry [] := by
    rw [entries_eq, hbelow, List.map_map, List.map_map]
    rfl
  have hmem : ∀ e ∈ (holding c).entries (projectPlace project), e.2 = none ∧ e.1 ∈ names := by
    intro e he
    rw [hentries] at he
    rcases mem_of_mem_entries he with he | he
    · cases he
    · obtain ⟨name, hname, rfl⟩ := List.mem_map.mp he
      exact ⟨rfl, hname⟩
  refine ⟨hmem, (List.perm_ext_iff_of_nodup ?_ names.nodup_dedup).mpr fun name => ?_⟩
  · rw [hentries]
    exact nodup_foldl_addEntry List.nodup_nil
  · rw [List.mem_dedup, List.mem_map]
    constructor
    · rintro ⟨e, he, rfl⟩
      exact (hmem e he).2
    · intro hname
      rw [hentries]
      exact exists_mem_entries [] (.inr (List.mem_map_of_mem (f := fun name => (name, none)) hname))

theorem count_holding (h : c.Orderly ids) (hp : project ∈ ids) :
    (holding c).count project = .ok (c.count project) := by
  obtain ⟨hmem, hperm⟩ := entries_projectPlace hids h hp
  set names := (c.filter (·.project == project)).map (component ·.fingerprint)
  set dirs := (holding c).entries (projectPlace project)
  have hdirs : dirs.filter (·.2.isNone) = dirs :=
    List.filter_eq_self.mpr fun e he => by rw [(hmem e he).1]; rfl
  have hrecords : ∀ e ∈ dirs, ∃ records,
      (holding c).recordsAt (projectPlace project ++ [e.1]) = .ok records ∧ records.length = names.count e.1 := by
    intro e he
    obtain ⟨r, hr, hname⟩ := List.mem_map.mp (hmem e he).2
    have hf := (h.named r (List.mem_filter.mp hr).1).2.1
    rw [← hname]
    exact ⟨c.about project r.fingerprint, recordsAt_holding hids h ⟨hp, hf⟩, length_about hids h hf⟩
  have hsum : (dirs.map fun e => names.count e.1).sum = c.count project := calc
    (dirs.map fun e => names.count e.1).sum = ((dirs.map Prod.fst).map names.count).sum := by
      rw [List.map_map]
      rfl
    _ = (names.dedup.map names.count).sum := (hperm.map names.count).sum_eq
    _ = names.length := List.sum_map_count_dedup_eq_length names
    _ = c.count project := by
      rw [List.length_map, Checkpoints.count, List.countP_eq_length_filter]
  rw [count, isBlocked_holding (by simp [projectPlace])]
  refine (congrArg (List.foldlM _ 0) hdirs).trans ((foldlM_lengths names.count hrecords 0).trans ?_)
  rw [hsum, Nat.zero_add]

theorem invalidate_holding (h : c.Orderly ids) (hp : project ∈ ids) :
    (holding c).invalidate project = .ok (c.count project, holding (c.invalidate project)) := by
  have hkept : (⟨(holding c).files.filter fun file => !(projectPlace project).isPrefixOf file.1⟩ :
      CheckpointFiles) = holding (c.invalidate project) := by
    unfold holding Checkpoints.invalidate
    rw [List.filter_map]
    refine congrArg (fun d => CheckpointFiles.mk (d.map fileOf)) (List.filter_congr fun r hr => ?_)
    have hprefix := projectPlace_isPrefixOf_recordPlace hids hp (h.named r hr).1
    simp only [Function.comp_apply, fileOf, hprefix]
    rfl
  unfold invalidate
  rw [count_holding hids h hp, ← hkept]
  rfl

end Names

end CheckpointFiles

namespace Keeper

/-- The identifiers in a request. -/
def Request.ids : Request → List String
  | put r => [r.project, r.fingerprint, r.commit]
  | get project fingerprint => [project, fingerprint]
  | count project => [project]
  | invalidate project => [project]

/-- The identifiers in some requests. -/
def idsIn (requests : List Request) : Set String := {id | ∃ q ∈ requests, id ∈ q.ids}

/-- The records that are put in some requests. -/
def puts (requests : List Request) : List Record :=
  requests.filterMap fun q => match q with
    | .put r => some r
    | _ => none

open CheckpointFiles (component holding)

variable {ids : Set String} {requests : List Request}

/-- A keeper in memory meets every request. -/
theorem exists_ok_of_mem_answers_memory (c : Checkpoints) {a : Except Failure Answer}
    (h : a ∈ (memory c).answers requests) : ∃ answer, a = .ok answer := by
  induction requests generalizing c with
  | nil => cases h
  | cons q requests ih =>
    cases q with
    | put r =>
      rcases List.mem_cons.mp h with rfl | h
      · exact ⟨_, rfl⟩
      · exact ih (c.put r) h
    | get | count =>
      rcases List.mem_cons.mp h with rfl | h
      · exact ⟨_, rfl⟩
      · exact ih c h
    | invalidate project =>
      rcases List.mem_cons.mp h with rfl | h
      · exact ⟨_, rfl⟩
      · exact ih (c.invalidate project) h

/-- From files that hold the checkpoints in memory on, both keepers say the same. -/
theorem answers_holding (hids : ids.InjOn component) {c : Checkpoints} (h : c.Orderly ids)
    (hnamed : ∀ q ∈ requests, ∀ id ∈ q.ids, id ∈ ids) (hlegible : ∀ r ∈ puts requests, r.Legible)
    (htimes : (c ++ puts requests).Pairwise (·.createdAt < ·.createdAt)) :
    (files (holding c)).answers requests = (memory c).answers requests := by
  induction requests generalizing c with
  | nil => rfl
  | cons q requests ih =>
    obtain ⟨hq, hrest⟩ := List.forall_mem_cons.mp hnamed
    cases q with
    | put r =>
      have hr : r.project ∈ ids ∧ r.fingerprint ∈ ids ∧ r.commit ∈ ids := by simpa [Request.ids] using hq
      obtain ⟨hreadable, hlegible⟩ := List.forall_mem_cons.mp (show ∀ b ∈ r :: puts requests, _ from hlegible)
      have hall : (c ++ r :: puts requests).Pairwise (·.createdAt < ·.createdAt) := htimes
      have hput : (c.put r).Sublist (c ++ [r]) := Checkpoints.put_sublist
      have hnext : (c.put r).Orderly ids :=
        h.put hr hreadable fun b hb => (List.pairwise_append.mp hall).2.2 b hb r (by simp)
      have hlater : (c.put r ++ puts requests).Pairwise (·.createdAt < ·.createdAt) :=
        hall.sublist (by simpa using hput.append_right (puts requests))
      have hanswers := ih hnext hrest hlegible hlater
      simp only [answers, perform, put, CheckpointFiles.put_holding hids h hr, Except.map, hanswers]
    | get project fingerprint =>
      have hchunk : project ∈ ids ∧ fingerprint ∈ ids := by simpa [Request.ids] using hq
      have hanswers := ih h hrest hlegible htimes
      simp only [answers, perform, get?, CheckpointFiles.get?_holding hids h hchunk, hanswers]
    | count project =>
      have hp : project ∈ ids := by simpa [Request.ids] using hq
      have hanswers := ih h hrest hlegible htimes
      simp only [answers, perform, count, CheckpointFiles.count_holding hids h hp, hanswers]
    | invalidate project =>
      have hp : project ∈ ids := by simpa [Request.ids] using hq
      have hkept : (c.invalidate project).Sublist c := List.filter_sublist
      have hanswers := ih (h.sublist hkept) hrest hlegible (htimes.sublist (hkept.append_right (puts requests)))
      simp only [answers, perform, invalidate, CheckpointFiles.invalidate_holding hids h hp, Except.map, hanswers]

/-- A keeper in files says to any requests what a keeper in memory says, and it fails at none of them, when the hash
tells the identifiers in them apart, the records that are put can be had back from their files, and each is made later
than the one before. -/
theorem files_answer_as_memory (hids : (idsIn requests).InjOn component)
    (hlegible : ∀ r ∈ puts requests, r.Legible)
    (htimes : (puts requests).Pairwise (·.createdAt < ·.createdAt)) :
    (files {}).answers requests = (memory []).answers requests ∧
      ∀ a ∈ (files {}).answers requests, ∃ answer, a = .ok answer := by
  have hempty : Checkpoints.Orderly (idsIn requests) [] :=
    ⟨by simp, by simp, List.Pairwise.nil, List.Pairwise.nil⟩
  have hsame : (files {}).answers requests = (memory []).answers requests :=
    answers_holding hids hempty (fun q hq id hid => ⟨q, hq, hid⟩) hlegible htimes
  refine ⟨hsame, fun a ha => ?_⟩
  rw [hsame] at ha
  exact exists_ok_of_mem_answers_memory [] ha

/-- A record of a project about its chunk `f`. -/
def sampleRecord (project commit result : String) (time : Instant) : Record where
  project := project
  commit := commit
  fingerprint := "f"
  file := "a.py"
  result := .str result
  createdAt := time

/-- Two commits of a chunk, the first of them put again, another project, and the first project dropped. -/
def sampleRequests : List Request :=
  [.put (sampleRecord "p" "c1" "old" 0), .put (sampleRecord "p" "c2" "new" 1), .put (sampleRecord "p" "c1" "late" 2),
    .get "p" "f", .put (sampleRecord "q" "c1" "other" 3), .count "p", .invalidate "p", .get "p" "f", .count "q"]

theorem files_answer_as_memory_sample :
    (idsIn sampleRequests).InjOn component ∧ (∀ r ∈ puts sampleRequests, r.Legible) ∧
      (puts sampleRequests).Pairwise (·.createdAt < ·.createdAt) ∧
      (files {}).answers sampleRequests = [.ok .kept, .ok .kept, .ok .kept, .ok (.found (some (.str "new"))),
        .ok .kept, .ok (.number 2), .ok (.number 2), .ok (.found none), .ok (.number 1)] := by
  have hp : (component "p").toList.head? = some '7' := (Hash.head?_hashBytes _).trans (by decide +kernel)
  have hq : (component "q").toList.head? = some 'f' := (Hash.head?_hashBytes _).trans (by decide +kernel)
  have hf : (component "f").toList.head? = some '9' := (Hash.head?_hashBytes _).trans (by decide +kernel)
  have hc : (component "c1").toList.head? = some '2' := (Hash.head?_hashBytes _).trans (by decide +kernel)
  have hc' : (component "c2").toList.head? = some '8' := (Hash.head?_hashBytes _).trans (by decide +kernel)
  have hnames : (["p", "q", "f", "c1", "c2"].map component).Nodup := by
    apply List.Nodup.of_map (·.toList.head?)
    simp [hp, hq, hf, hc, hc']
  have hmem : ∀ q ∈ sampleRequests, ∀ id ∈ q.ids, id ∈ ["p", "q", "f", "c1", "c2"] := by decide
  have hids : (idsIn sampleRequests).InjOn component := by
    rintro a ⟨qa, hqa, ha⟩ b ⟨qb, hqb, hb⟩ hab
    exact List.inj_on_of_nodup_map hnames (hmem qa hqa a ha) (hmem qb hqb b hb) hab
  have htime : ∀ time ∈ ([0, 1, 2, 3] : List Instant), time.InCalendar := by
    unfold Instant.InCalendar
    decide +kernel
  have hlegible : ∀ r ∈ puts sampleRequests, r.Legible := by
    have hsample : ∀ project commit result, ∀ time ∈ ([0, 1, 2, 3] : List Instant),
        (sampleRecord project commit result time).Legible := fun project commit result time hmem =>
      Record.Writable.legible ⟨.str _ _, rfl, htime time hmem⟩
    simp only [puts, sampleRequests, List.filterMap_cons, List.filterMap_nil, List.forall_mem_cons]
    simp [hsample]
  have htimes : (puts sampleRequests).Pairwise (·.createdAt < ·.createdAt) := by
    simp [puts, sampleRequests, sampleRecord]
  exact ⟨hids, hlegible, htimes, (files_answer_as_memory hids hlegible htimes).1⟩

end Keeper
end Store
end CodeAtlas
