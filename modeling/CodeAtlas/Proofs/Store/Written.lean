import Mathlib
import CodeAtlas.Proofs.Calendar.Text
import CodeAtlas.Proofs.Json.Canonical
import CodeAtlas.Proofs.Store.About
import CodeAtlas.Proofs.Text.Pieces

/-! Records that are written to a file are found when their chunk is looked up: the text of a record is read back,
its name marks it as a record, and among the records about the chunk the newest one is given. -/
namespace CodeAtlas

namespace Hash

theorem length_compress (b : Block) : b.compress.length = 8 := by
  simp [Block.compress]

theorem length_digest (bytes : List UInt8) : (digest bytes).length = 32 := by
  simp [digest, List.length_flatMap, length_compress]

theorem length_hashText (s : String) : (hashText s).toList.length = 64 := by
  have hlen := length_digest s.toUTF8.toList
  unfold hashText hashBytes hexText
  generalize digest s.toUTF8.toList = bytes at hlen
  simp [List.length_flatMap, hlen]

end Hash

namespace Store

open Checkpoints (Record)

namespace Checkpoints.Record

/-- Whether a record is read back from its text: its result is sorted and written without loss, and its time lies
in the calendar. -/
structure Writable (r : Record) : Prop where
  exact : Json.Exact 126 r.result
  sorted : r.result.canonical = r.result
  inCalendar : r.createdAt.InCalendar

/-- A record is decoded from its document. -/
theorem decode?_encode {r : Record} (hsorted : r.result.canonical = r.result) (hcalendar : r.createdAt.InCalendar) :
    decode? r.encode = some r := by
  have htime := Instant.read?_text hcalendar
  refine Json.decode_obj (by simp) fun fields hraw => ?_
  simp [Json.Record.need, hraw, Json.lookup_field, Json.text?, htime, hsorted]

theorem Writable.exact_encode {r : Record} (h : r.Writable) : Json.Exact 127 r.encode := by
  refine .obj ?_
  simpa using ⟨.str _ _, .str _ _, .str _ _, .str _ _, h.exact, .str _ _⟩

/-- A record is read back from its text. -/
theorem Writable.read?_text {r : Record} (h : r.Writable) :
    (Json.parse? r.encode.pretty).bind decode? = some r := by
  rw [Json.parse?_pretty h.exact_encode (Nat.le_refl 127), Option.bind_some, decode?_encode h.sorted h.inCalendar]

end Checkpoints.Record

namespace CheckpointFiles

theorem isRecordName_component (id : String) : isRecordName (component id ++ ".json") = true := by
  have hstem : Text.beforeEnd? (component id ++ ".json") ".json" = some (component id) := by
    unfold Text.beforeEnd?
    rw [String.toList_append, List.reverse_append, Text.dropStart?_append]
    simp
  have hne : component id ≠ "" := by
    intro h
    have := Hash.length_hashText id
    rw [show Hash.hashText id = "" from h] at this
    cases this
  unfold isRecordName
  rw [hstem]
  simpa using hne

/-- The name of what lies below a place, with the text of a file. -/
def entryOf : List String × String → String × Option String
  | ([name], text) => (name, some text)
  | (name :: _, _) => (name, none)
  | ([], _) => ("", none)

/-- Keep the first of several entries with one name. -/
def addEntry (seen : List (String × Option String)) (e : String × Option String) : List (String × Option String) :=
  if seen.any (·.1 == e.1) then seen else seen ++ [e]

theorem entries_eq (s : CheckpointFiles) (path : List String) :
    s.entries path = ((s.below path).map entryOf).foldl addEntry [] := by
  refine congrArg (List.foldl addEntry []) (List.map_congr_left ?_)
  rintro ⟨p, text⟩ _
  rcases p with _ | ⟨name, _ | ⟨next, more⟩⟩ <;> rfl

theorem mem_of_mem_entries {l seen : List (String × Option String)} {e : String × Option String}
    (h : e ∈ l.foldl addEntry seen) : e ∈ seen ∨ e ∈ l := by
  induction l generalizing seen with
  | nil => exact .inl h
  | cons d l ih =>
    rcases ih h with hseen | hl
    · unfold addEntry at hseen
      split at hseen
      · exact .inl hseen
      · rcases List.mem_append.mp hseen with hseen | hd
        · exact .inl hseen
        · exact .inr (by simp [List.mem_singleton.mp hd])
    · exact .inr (List.mem_cons_of_mem d hl)

variable {s : CheckpointFiles} {path : List String} {name text : String}

theorem mem_below {rest : List String} :
    (rest, text) ∈ s.below path ↔ rest ≠ [] ∧ (path ++ rest, text) ∈ s.files := by
  unfold below
  rw [List.mem_filterMap]
  constructor
  · rintro ⟨⟨p, t⟩, hmem, hp⟩
    rw [Option.ite_none_right_eq_some, Option.some.injEq, Prod.mk.injEq] at hp
    obtain ⟨hcond, hrest, rfl⟩ := hp
    simp only [Bool.and_eq_true, List.isPrefixOf_iff_prefix, decide_eq_true_eq] at hcond
    obtain ⟨⟨more, rfl⟩, hlen⟩ := hcond
    rw [List.drop_left] at hrest
    subst hrest
    refine ⟨?_, hmem⟩
    rintro rfl
    simp at hlen
  · rintro ⟨hne, hmem⟩
    refine ⟨(path ++ rest, text), hmem, ?_⟩
    have hlen : 0 < rest.length := List.length_pos_iff.mpr hne
    simp [hlen]

/-- When the place of a name is free, no entry has the name. -/
theorem not_mem_entries (hfile : s.isFile (path ++ [name]) = false) (hbelow : s.below (path ++ [name]) = []) :
    (s.entries path).any (·.1 == name) = false := by
  rw [List.any_eq_false]
  intro e he hname
  rw [beq_iff_eq] at hname
  rw [entries_eq] at he
  rcases mem_of_mem_entries he with hnone | hmem
  · cases hnone
  · obtain ⟨⟨rest, t⟩, hrest, rfl⟩ := List.mem_map.mp hmem
    obtain ⟨hne, hfull⟩ := mem_below.mp hrest
    match rest, hne with
    | [n], _ =>
      obtain rfl : n = name := hname
      have hthere : s.isFile (path ++ [n]) = true := List.any_eq_true.mpr ⟨_, hfull, by simp⟩
      rw [hfile] at hthere
      cases hthere
    | n :: m :: more, _ =>
      obtain rfl : n = name := hname
      have hthere : (m :: more, t) ∈ s.below (path ++ [n]) := mem_below.mpr ⟨by simp, by simpa using hfull⟩
      rw [hbelow] at hthere
      cases hthere

/-- A file at a free place is one more entry. -/
theorem entries_append (hfile : s.isFile (path ++ [name]) = false) (hbelow : s.below (path ++ [name]) = []) :
    CheckpointFiles.entries ⟨s.files ++ [(path ++ [name], text)]⟩ path = s.entries path ++ [(name, some text)] := by
  have hmore : CheckpointFiles.below ⟨s.files ++ [(path ++ [name], text)]⟩ path = s.below path ++ [([name], text)] := by
    simp [below]
  have hnew : addEntry (s.entries path) (name, some text) = s.entries path ++ [(name, some text)] := by
    unfold addEntry
    rw [not_mem_entries hfile hbelow]
    rfl
  rw [entries_eq, hmore, List.map_append, List.foldl_append, ← entries_eq]
  exact hnew

theorem isBlocked_append :
    CheckpointFiles.isBlocked ⟨s.files ++ [(path ++ [name], text)]⟩ path = s.isBlocked path := by
  have hlong : (path ++ [name]).isPrefixOf path = false := by
    rw [Bool.eq_false_iff, Ne, List.isPrefixOf_iff_prefix]
    intro h
    have hlen := h.length_le
    rw [List.length_append, List.length_singleton] at hlen
    omega
  simp only [isBlocked, List.any_append, List.any_cons, List.any_nil, hlong, Bool.or_false]

/-- The record that a text holds. -/
def recordOf? (text : String) : Option Record := (Json.parse? text).bind Record.decode?

/-- Add the record of an entry, if it is one; a directory with the name of a record fails. -/
def addRecord (records : List Record) (e : String × Option String) : Except Failure (List Record) :=
  match e.2 with
  | none => .error .files
  | some text => .ok (records ++ (recordOf? text).toList)

theorem recordsAt_eq (s : CheckpointFiles) (path : List String) : s.recordsAt path =
    if s.isBlocked path then .error .files
    else ((s.entries path).filter (isRecordName ·.1)).foldlM addRecord [] := rfl

/-- A record that was written to a free place is found there, behind those that were there. -/
theorem recordsAt_append {r : Record} {records : List Record} (hname : isRecordName name = true)
    (hfile : s.isFile (path ++ [name]) = false) (hbelow : s.below (path ++ [name]) = [])
    (hread : recordOf? text = some r) (h : s.recordsAt path = .ok records) :
    CheckpointFiles.recordsAt ⟨s.files ++ [(path ++ [name], text)]⟩ path = .ok (records ++ [r]) := by
  rw [recordsAt_eq] at h ⊢
  rw [isBlocked_append]
  split at h
  · cases h
  · next hopen =>
    rw [if_neg hopen, entries_append hfile hbelow, List.filter_append, List.foldlM_append, h]
    simp [hname, addRecord, hread]
    rfl

theorem newest?_append (records : List Record) (r : Record) :
    newest? (records ++ [r]) = match newest? records with
      | some b => if r.createdAt < b.createdAt then some b else some r
      | none => some r := by
  unfold newest?
  rw [List.foldl_append]
  rfl

theorem mem_of_newest? {records : List Record} {r : Record} (h : newest? records = some r) : r ∈ records := by
  induction records using List.reverseRecOn with
  | nil => cases h
  | append_singleton records last ih =>
    rw [newest?_append] at h
    split at h
    · next b hb =>
      split at h
      · cases h
        exact List.mem_append_left _ (ih hb)
      · cases h
        simp
    · cases h
      simp

theorem newest?_eq_none {records : List Record} : newest? records = none ↔ records = [] := by
  induction records using List.reverseRecOn with
  | nil => simp [newest?]
  | append_singleton records last _ =>
    rw [newest?_append]
    split
    · split <;> simp
    · simp

/-- No record is newer than the newest one. -/
theorem le_of_newest? {records : List Record} {r : Record} (h : newest? records = some r) :
    ∀ b ∈ records, b.createdAt ≤ r.createdAt := by
  induction records using List.reverseRecOn generalizing r with
  | nil => simp
  | append_singleton records last ih =>
    rw [newest?_append] at h
    intro b hb
    rw [List.mem_append, List.mem_singleton] at hb
    cases hbest : newest? records with
    | none =>
      rw [hbest] at h
      cases h
      rw [newest?_eq_none.mp hbest] at hb
      rcases hb with hb | rfl
      · cases hb
      · exact Int.le_refl _
    | some best =>
      rw [hbest] at h
      have hle := ih hbest
      simp only at h
      split at h
      · next hlt =>
        cases h
        rcases hb with hb | rfl
        · exact hle b hb
        · exact Int.le_of_lt hlt
      · next hge =>
        cases h
        rcases hb with hb | rfl
        · exact Int.le_trans (hle b hb) (Int.not_lt.mp hge)
        · exact Int.le_refl _

end CheckpointFiles
end Store
end CodeAtlas
