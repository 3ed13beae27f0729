import CodeAtlas.Proofs.Store.Keeper

/-! Keepers all of whose records about a chunk can be used. Such a keeper gives only usable results, and when it
gives none it accepts the next record. -/
namespace CodeAtlas
namespace Store

open Checkpoints (Record)

namespace CheckpointFiles

variable {s : CheckpointFiles} {path : List String} {name : String}

/-- Every name is among the entries that are kept. -/
theorem exists_mem_entries {l : List (String × Option String)} (seen : List (String × Option String))
    {e : String × Option String} (h : e ∈ seen ∨ e ∈ l) : ∃ d ∈ l.foldl addEntry seen, d.1 = e.1 := by
  induction l generalizing seen e with
  | nil =>
    rcases h with h | h
    · exact ⟨e, h, rfl⟩
    · cases h
  | cons d l ih =>
    rw [List.foldl_cons]
    have hd : ∃ b ∈ addEntry seen d, b.1 = d.1 := by
      unfold addEntry
      split
      · next hany =>
        obtain ⟨b, hb, hname⟩ := List.any_eq_true.mp hany
        exact ⟨b, hb, beq_iff_eq.mp hname⟩
      · exact ⟨d, by simp, rfl⟩
    have hseen : ∀ b ∈ seen, b ∈ addEntry seen d := by
      intro b hb
      unfold addEntry
      split
      · exact hb
      · exact List.mem_append_left _ hb
    rcases h with h | h
    · exact ih _ (.inl (hseen e h))
    · rcases List.mem_cons.mp h with rfl | h
      · obtain ⟨b, hb, hname⟩ := hd
        obtain ⟨c, hc, hcb⟩ := ih _ (.inl hb)
        exact ⟨c, hc, hcb.trans hname⟩
      · exact ih _ (.inr h)

/-- An entry with a text is a file. -/
theorem mem_files_of_mem_entries {text : String} (h : (name, some text) ∈ s.entries path) :
    (path ++ [name], text) ∈ s.files := by
  rw [entries_eq] at h
  rcases mem_of_mem_entries h with h | h
  · cases h
  · obtain ⟨⟨rest, t⟩, hrest, hentry⟩ := List.mem_map.mp h
    obtain ⟨hne, hfile⟩ := mem_below.mp hrest
    match rest, hne with
    | [n], _ =>
      cases hentry
      exact hfile
    | n :: m :: more, _ => cases hentry

/-- What lies below a place has its first name among the entries of the place. -/
theorem exists_entry_of_mem_files (rest : List String) {text : String}
    (h : (path ++ name :: rest, text) ∈ s.files) : ∃ t, (name, t) ∈ s.entries path := by
  have hbelow : (name :: rest, text) ∈ s.below path := mem_below.mpr ⟨by simp, h⟩
  have hmem : entryOf (name :: rest, text) ∈ (s.below path).map entryOf := List.mem_map_of_mem hbelow
  obtain ⟨⟨n, t⟩, hd, hname⟩ := exists_mem_entries [] (.inr hmem)
  have hfirst : (entryOf (name :: rest, text)).1 = name := by
    cases rest <;> rfl
  obtain rfl : n = name := hname.trans hfirst
  exact ⟨t, by rw [entries_eq]; exact hd⟩

/-- What lies at the place of a record is an entry of the chunk's place. -/
theorem exists_entry_of_isTaken {r : Record} (h : s.isTaken r = true) :
    ∃ t, (component r.commit ++ ".json", t) ∈ s.entries (chunkPlace r.project r.fingerprint) := by
  unfold isTaken at h
  rcases Bool.or_eq_true_iff.mp h with h | h
  · obtain ⟨⟨p, text⟩, hp, hplace⟩ := List.any_eq_true.mp h
    obtain rfl : p = recordPlace r.project r.fingerprint r.commit := beq_iff_eq.mp hplace
    exact exists_entry_of_mem_files [] hp
  · cases hb : s.below (recordPlace r.project r.fingerprint r.commit) with
    | nil => simp [hb] at h
    | cons x more =>
      have hx : (x.1, x.2) ∈ s.below (recordPlace r.project r.fingerprint r.commit) := by simp [hb]
      exact exists_entry_of_mem_files x.1 (by simpa [recordPlace, chunkPlace] using (mem_below.mp hx).2)

theorem foldlM_addRecord {es : List (String × Option String)} {acc records : List Record}
    (h : es.foldlM addRecord acc = .ok records) :
    ∃ texts : List String, es.map Prod.snd = texts.map some ∧ records = acc ++ texts.filterMap recordOf? := by
  induction es generalizing acc with
  | nil =>
    cases h
    exact ⟨[], rfl, by simp⟩
  | cons e es ih =>
    obtain ⟨name, t⟩ := e
    cases t with
    | none => cases h
    | some text =>
      have hrest : es.foldlM addRecord (acc ++ (recordOf? text).toList) = .ok records := h
      obtain ⟨texts, hes, rfl⟩ := ih hrest
      refine ⟨text :: texts, by simp [hes], ?_⟩
      cases hread : recordOf? text <;> simp [hread]

/-- The records at a place come from the files there whose names mark them as records, and there is no directory with
such a name. -/
theorem recordsAt_spec {records : List Record} (h : s.recordsAt path = .ok records) :
    ∃ texts : List String, ((s.entries path).filter (isRecordName ·.1)).map Prod.snd = texts.map some ∧
      records = texts.filterMap recordOf? := by
  rw [recordsAt_eq] at h
  split at h
  · cases h
  · simpa using foldlM_addRecord h

theorem exists_file_of_mem_recordsAt {records : List Record} {r : Record} (h : s.recordsAt path = .ok records)
    (hr : r ∈ records) : ∃ name text, (path ++ [name], text) ∈ s.files ∧ recordOf? text = some r := by
  obtain ⟨texts, htexts, rfl⟩ := recordsAt_spec h
  obtain ⟨text, htext, hread⟩ := List.mem_filterMap.mp hr
  have hmem : some text ∈ ((s.entries path).filter (isRecordName ·.1)).map Prod.snd :=
    htexts ▸ List.mem_map_of_mem htext
  obtain ⟨⟨name, t⟩, hentry, rfl⟩ := List.mem_map.mp hmem
  exact ⟨name, text, mem_files_of_mem_entries (List.mem_filter.mp hentry).1, hread⟩

theorem exists_text_of_recordsAt {records : List Record} {t : Option String} (h : s.recordsAt path = .ok records)
    (hname : isRecordName name = true) (hentry : (name, t) ∈ s.entries path) :
    ∃ text, t = some text ∧ ∀ r, recordOf? text = some r → r ∈ records := by
  obtain ⟨texts, htexts, rfl⟩ := recordsAt_spec h
  have hmem : t ∈ texts.map some := by
    rw [← htexts]
    exact List.mem_map.mpr ⟨(name, t), List.mem_filter.mpr ⟨hentry, hname⟩, rfl⟩
  obtain ⟨text, htext, rfl⟩ := List.mem_map.mp hmem
  exact ⟨text, rfl, fun r hread => List.mem_filterMap.mpr ⟨text, htext, hread⟩⟩

end CheckpointFiles

namespace Keeper

open CheckpointFiles (chunkPlace recordPlace recordOf?)

/-- Whether all that a keeper has about a chunk can be used: the results of all records about it satisfy `p`, and
what is in the file for a commit is a record about it. -/
def Sound (p : Json → Prop) (project fingerprint commit : String) : Keeper → Prop
  | memory c => ∀ r ∈ c, r.isAbout project fingerprint = true → p r.result
  | files s =>
    (∀ text, (recordPlace project fingerprint commit, text) ∈ s.files →
      ∃ r, recordOf? text = some r ∧ r.isAbout project fingerprint = true) ∧
    ∀ name text r, (chunkPlace project fingerprint ++ [name], text) ∈ s.files → recordOf? text = some r →
      r.isAbout project fingerprint = true → p r.result

variable {p : Json → Prop} {project fingerprint commit : String} {k : Keeper}

theorem sound_memory_nil : (memory []).Sound p project fingerprint commit := by
  simp [Sound]

theorem sound_files_nil : (files {}).Sound p project fingerprint commit := by
  simp [Sound]

/-- Keeping a record that can be used leaves a keeper sound about its own chunk and about every chunk that has another
place. -/
theorem Sound.put {r : Record} {k' : Keeper} (h : k.Sound p project fingerprint commit) (hr : r.Writable)
    (hp : p r.result) (hplaces : r.isAbout project fingerprint = true ∨
      CheckpointFiles.HaveOwnPlaces r.project r.fingerprint project fingerprint)
    (hput : k.put r = .ok k') : k'.Sound p project fingerprint commit := by
  cases k with
  | memory c =>
    cases hput
    intro b hb habout
    unfold Checkpoints.put at hb
    split at hb
    · exact h b hb habout
    · rcases List.mem_append.mp hb with hb | hb
      · exact h b hb habout
      · rw [List.mem_singleton.mp hb]
        exact hp
  | files s =>
    cases hs : s.put r with
    | error e =>
      rw [Keeper.put, hs] at hput
      cases hput
    | ok s' =>
      rw [Keeper.put, hs] at hput
      cases hput
      rw [CheckpointFiles.put_eq] at hs
      split at hs
      · cases hs
      · split at hs
        · cases hs
          exact h
        · cases hs
          refine ⟨fun text htext => ?_, fun name text b htext hread habout => ?_⟩
          · rcases List.mem_append.mp htext with htext | htext
            · exact h.1 text htext
            · obtain ⟨hplace, rfl⟩ := Prod.mk.inj (List.mem_singleton.mp htext)
              simp only [recordPlace, List.cons.injEq] at hplace
              have habout := hplaces.resolve_right fun hown =>
                hown.elim (fun hne => hne hplace.1.symm) fun hne => hne hplace.2.1.symm
              exact ⟨r, hr.read?_text, habout⟩
          · rcases List.mem_append.mp htext with htext | htext
            · exact h.2 name text b htext hread habout
            · obtain ⟨-, rfl⟩ := Prod.mk.inj (List.mem_singleton.mp htext)
              obtain rfl : r = b := Option.some.inj (hr.read?_text.symm.trans hread)
              exact hp

/-- A keeper that was only ever asked to keep records that can be used is sound. -/
theorem sound_of_puts {rs : List Record} {k' : Keeper} (h : k.Sound p project fingerprint commit)
    (hrs : ∀ r ∈ rs, r.Writable ∧ p r.result ∧ (r.isAbout project fingerprint = true ∨
      CheckpointFiles.HaveOwnPlaces r.project r.fingerprint project fingerprint))
    (hputs : rs.foldlM Keeper.put k = .ok k') : k'.Sound p project fingerprint commit := by
  induction rs generalizing k with
  | nil =>
    cases hputs
    exact h
  | cons r rs ih =>
    obtain ⟨⟨hr, hp, hplaces⟩, hrest⟩ := List.forall_mem_cons.mp hrs
    rw [List.foldlM_cons] at hputs
    cases hput : k.put r with
    | error e =>
      rw [hput] at hputs
      cases hputs
    | ok k₁ =>
      rw [hput] at hputs
      exact ih (h.put hr hp hplaces hput) hrest hputs

theorem Sound.about (h : k.Sound p project fingerprint commit) :
    (k.about project fingerprint).Sound p project fingerprint commit := by
  cases k with
  | memory c => exact fun r hr => h r (List.mem_filter.mp hr).1
  | files s =>
    exact ⟨fun text htext => h.1 text (List.mem_filter.mp htext).1,
      fun name text r htext => h.2 name text r (List.mem_filter.mp htext).1⟩

/-- What a sound keeper gives can be used. -/
theorem Sound.of_get? {value : Json} (h : k.Sound p project fingerprint commit)
    (hget : k.get? project fingerprint = .ok (some value)) : p value := by
  cases k with
  | memory c =>
    simp only [get?, Checkpoints.get?, Except.ok.injEq, Option.map_eq_some_iff] at hget
    obtain ⟨r, hr, rfl⟩ := hget
    obtain ⟨hmem, habout⟩ := List.mem_filter.mp (List.mem_of_getLast? hr)
    exact h r hmem habout
  | files s =>
    obtain ⟨records, hrecords⟩ := CheckpointFiles.exists_recordsAt hget
    rw [get?, CheckpointFiles.get?_of_recordsAt hrecords, Except.ok.injEq, Option.map_eq_some_iff] at hget
    obtain ⟨r, hr, rfl⟩ := hget
    obtain ⟨hmem, habout⟩ := List.mem_filter.mp (CheckpointFiles.mem_of_newest? hr)
    obtain ⟨name, text, hfile, hread⟩ := CheckpointFiles.exists_file_of_mem_recordsAt hrecords hmem
    exact h.2 name text r hfile hread habout

/-- A sound keeper that gives nothing about a chunk accepts a record about it. -/
theorem Sound.accepts {r : Record} (h : k.Sound p r.project r.fingerprint r.commit)
    (hget : k.get? r.project r.fingerprint = .ok none) : k.Accepts r := by
  cases k with
  | memory c =>
    simp only [get?, Checkpoints.get?, Except.ok.injEq, Option.map_eq_none_iff, List.getLast?_eq_none_iff,
      List.filter_eq_nil_iff] at hget
    refine List.any_eq_false.mpr fun b hb hkey => ?_
    simp only [Record.sameKey, Bool.and_eq_true] at hkey
    exact hget b hb hkey.1
  | files s =>
    obtain ⟨records, hrecords⟩ := CheckpointFiles.exists_recordsAt hget
    rw [get?, CheckpointFiles.get?_of_recordsAt hrecords, Except.ok.injEq, Option.map_eq_none_iff,
      CheckpointFiles.newest?_eq_none, List.filter_eq_nil_iff] at hget
    refine ⟨?_, fun records' hrecords' b hb habout => ?_⟩
    · rw [Bool.eq_false_iff]
      intro htaken
      obtain ⟨t, hentry⟩ := CheckpointFiles.exists_entry_of_isTaken htaken
      obtain ⟨text, rfl, hall⟩ := CheckpointFiles.exists_text_of_recordsAt hrecords
        (CheckpointFiles.isRecordName_component r.commit) hentry
      obtain ⟨b, hread, habout⟩ := h.1 text (CheckpointFiles.mem_files_of_mem_entries hentry)
      exact hget b (hall b hread) habout
    · rw [hrecords] at hrecords'
      cases hrecords'
      exact absurd habout (hget b hb)

end Keeper
end Store
end CodeAtlas
