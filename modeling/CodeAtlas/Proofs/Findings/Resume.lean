import CodeAtlas.Proofs.Activity.Pool
import CodeAtlas.Proofs.Findings.Reading
import CodeAtlas.Proofs.Store.Sound

/-! Analyses that are done again. Once all chunks of a program have been read without a mishap, another analysis
finds them all among the checkpoints: it asks no model, and it finds the same, in the order of the chunks. -/
namespace CodeAtlas
namespace Analyst

open Activity (Keeps Part Proceeds Prompt Steady)
open Store (Keeper)
open Store.CheckpointFiles (HaveOwnPlaces component)

variable {σ : Type}

section Tally

theorem findings_foldl_add (t : Tally) (rs : List Reading) :
    (rs.foldl Tally.add t).findings.narratives = t.findings.narratives ++ rs.map (·.findings.narrative) ∧
    (rs.foldl Tally.add t).findings.rules = t.findings.rules ++ rs.flatMap (·.findings.rules) ∧
    (rs.foldl Tally.add t).findings.risks = t.findings.risks ++ rs.flatMap (·.findings.risks) ∧
    (rs.foldl Tally.add t).findings.checkpointHits = t.findings.checkpointHits + rs.countP (·.fromCheckpoint) := by
  induction rs generalizing t with
  | nil => simp
  | cons r rs ih =>
    obtain ⟨hnarratives, hrules, hrisks, hhits⟩ := ih (t.add r)
    rw [List.foldl_cons, hnarratives, hrules, hrisks, hhits]
    refine ⟨by simp [Tally.add, Findings.push], by simp [Tally.add, Findings.push],
      by simp [Tally.add, Findings.push], ?_⟩
    rw [List.countP_cons]
    simp only [Tally.add, Findings.push]
    omega

theorem completed_foldl_add (t : Tally) (rs : List Reading) :
    (rs.foldl Tally.add t).completed = t.completed + rs.length := by
  induction rs generalizing t with
  | nil => rfl
  | cons r rs ih =>
    rw [List.foldl_cons, ih, List.length_cons]
    simp only [Tally.add]
    omega

theorem gather_collector (progress : Progress σ) (total : Nat) (t : Moment) (i : Nat) (rs : List Reading)
    (tally : Tally) (s : σ) : ((collector progress total).gather t i rs tally s).1 = rs.foldl Tally.add tally := by
  induction rs generalizing i tally s with
  | nil => rfl
  | cons r rs ih => exact ih (i + 1) _ _

end Tally

/-- What is recalled about a chunk. -/
def recalled? (k : Keeper) (project : String) (c : Chunk) : Option ChunkFindings :=
  match k.get? project c.fingerprint with
  | .ok value => value.bind ChunkFindings.decode?
  | .error _ => none

/-- Whether a result of a checkpoint can be decoded. -/
def Decodes (value : Json) : Prop := ∃ findings, ChunkFindings.decode? value = some findings

section Comes

variable {project commit : String} {c : Chunk} {before after : Keeper} {r : Reading}

/-- What was read of a chunk is recalled afterwards, when all checkpoints about it can be decoded. -/
theorem Comes.recalled?_eq (h : Comes project commit c before after r)
    (hsound : before.Sound Decodes project c.fingerprint commit) :
    Analyst.recalled? after project c = some r.findings := by
  unfold Analyst.recalled?
  cases h with
  | recalled hget hdecode hsame =>
    rw [hsame, hget]
    exact hdecode
  | @renewed value findings now hget hdecode hfits hnow hput =>
    -- all that is kept can be decoded, so nothing was there, and nothing can be in the way of the new checkpoint
    have hnone : value = none := by
      cases value with
      | none => rfl
      | some v =>
        obtain ⟨f, hf⟩ := hsound.of_get? hget
        rw [Option.bind_some, hf] at hdecode
        cases hdecode
    subst hnone
    have haccepts : before.Accepts (checkpointOf project commit c findings now) := hsound.accepts hget
    have hkept : after.get? project c.fingerprint = .ok (some findings.encode.canonical) :=
      Keeper.get?_put_of_accepts (writable_checkpointOf hfits hnow project commit c) haccepts hget hput
    rw [hkept]
    exact ChunkFindings.decode?_encode hfits

end Comes

theorem filterMap_range_getElem? {α β : Type} (l : List α) (f : α → Option β) :
    (List.range l.length).filterMap (fun i => l[i]?.bind f) = l.filterMap f := by
  induction l with
  | nil => rfl
  | cons x l ih =>
    rw [List.length_cons, List.range_succ_eq_map, List.filterMap_cons, List.filterMap_map]
    simp [ih, List.filterMap_cons]

/-- Readings of all chunks, in any order, are what is recalled of the chunks. -/
theorem perm_recalled {k : Keeper} {project : String} {chunks : List Chunk} {order : List (Nat × Reading)}
    (hperm : (order.map Prod.fst).Perm (List.range chunks.length))
    (h : ∀ x ∈ order, ∀ c, chunks[x.1]? = some c → recalled? k project c = some x.2.findings) :
    (order.map (·.2.findings)).Perm (chunks.filterMap (recalled? k project)) := by
  have hone : ∀ x ∈ order, (chunks[x.1]?.bind (recalled? k project)) = some x.2.findings := by
    intro x hx
    have hlt : x.1 < chunks.length := List.mem_range.mp (hperm.mem_iff.mp (List.mem_map_of_mem hx))
    rw [List.getElem?_eq_getElem hlt]
    exact h x hx _ (List.getElem?_eq_getElem hlt)
  have horder : order.map (·.2.findings) =
      (order.map Prod.fst).filterMap fun i => chunks[i]?.bind (recalled? k project) := by
    rw [List.filterMap_map]
    exact (List.filterMap_eq_map_iff_forall_eq_some.mpr hone).symm
  rw [horder, ← filterMap_range_getElem? chunks]
  exact hperm.filterMap _

section First

variable {a : Analyst σ} {store : Part σ Keeper} {journal : Part σ Journal} {project commit : String}
  {chunks : List Chunk} {s s' : σ}

/-- What those who read the other chunks of a list do to the state, for whoever reads the chunk at a place. -/
def OthersAt (store : Part σ Keeper) (journal : Part σ Journal) (project : String) (chunks : List Chunk) (i : Nat)
    (s s' : σ) : Prop :=
  ∀ c, chunks[i]? = some c → Others store journal project c.fingerprint s s'

theorem steady_othersAt (i : Nat) : Steady (OthersAt store journal project chunks i) where
  refl s c _ := (steady_others store journal project c.fingerprint).refl s
  trans s₁ s₂ s₃ h h' c hc := (steady_others store journal project c.fingerprint).trans s₁ s₂ s₃ (h c hc) (h' c hc)

theorem othersAt_eq {i : Nat} {c : Chunk} (hc : chunks[i]? = some c) :
    OthersAt store journal project chunks i = Others store journal project c.fingerprint := by
  funext s s'
  refine propext ⟨fun h => h c hc, fun h d hd => ?_⟩
  rw [hc] at hd
  cases hd
  exact h

/-- What a reading of the chunk at a place of a list ends in, when it began in the state `s`. -/
def ReadAt (store : Part σ Keeper) (journal : Part σ Journal) (project commit : String) (chunks : List Chunk) (s : σ)
    (i : Nat) (r : Reading) (s' : σ) : Prop :=
  ∀ c, chunks[i]? = some c → (journal.get s').length ≤ (journal.get s).length →
    Comes project commit c ((store.get s).about project c.fingerprint) ((store.get s').about project c.fingerprint) r

/-- The collector of readings touches no chunk. -/
theorem gathers_collector (h : a.KeepsApart store journal) (total : Nat) :
    Activity.Gathers (OthersAt store journal project chunks) (collector a.progress total) Tally.add where
  spares _ _ _ _ _ _ _ _ := others_of_shelf (h.progress _ _)
  adds _ _ _ _ _ := rfl

/-- When all chunks of a list with places of their own have been read without a mishap, in whatever order, each
reading comes from what was kept about its chunk. -/
theorem exists_order_of_readAll (h : a.KeepsApart store journal)
    (hplaces : ∀ (i j : Nat) (c d : Chunk), i ≠ j → chunks[i]? = some c → chunks[j]? = some d →
      HaveOwnPlaces project c.fingerprint project d.fingerprint) {t t' : Moment} {tally : Tally}
    (hrun : (a.readAll project commit chunks none).run t s = .finished tally t' s')
    (hquiet : journal.get s' = journal.get s) :
    ∃ order : List (Nat × Reading), (order.map Prod.fst).Perm (List.range chunks.length) ∧
      (∀ x ∈ order, ∀ c, chunks[x.1]? = some c → Comes project commit c
        ((store.get s).about project c.fingerprint) ((store.get s').about project c.fingerprint) x.2) ∧
      tally = (order.map Prod.snd).foldl Tally.add {} := by
  have hmembers : ∀ (i : Nat) act, (chunks.map (a.read project commit))[i]? = some act →
      act.Proceeds (OthersAt store journal project chunks i)
        (Activity.Spares (OthersAt store journal project chunks) i)
        (ReadAt store journal project commit chunks s i) s := by
    intro i act hact
    rw [List.getElem?_map] at hact
    obtain ⟨c, hc, rfl⟩ := Option.map_eq_some_iff.mp hact
    have hguar : ∀ s s', (∀ fingerprint, HaveOwnPlaces project c.fingerprint project fingerprint →
        Others store journal project fingerprint s s') →
        Activity.Spares (OthersAt store journal project chunks) i s s' :=
      fun _ _ hs j hj d hd => hs d.fingerprint (hplaces i j c d (Ne.symm hj) hc hd)
    have hproceeds := read_proceeds hguar h commit s
    rw [othersAt_eq hc]
    refine hproceeds.mono fun r s' ⟨_, hcomes⟩ d hd => ?_
    rw [hc] at hd
    cases hd
    exact hcomes
  have hcapacity : 0 < max 1 a.capacity := Nat.lt_of_lt_of_le Nat.zero_lt_one (Nat.le_max_left 1 a.capacity)
  have hpool : (Activity.pool (max 1 a.capacity) none (collector a.progress chunks.length)
      (chunks.map (a.read project commit)) {}).run t s = .finished tally t' s' := hrun
  obtain ⟨order, hperm, hpost, hresult⟩ := Activity.exists_order_of_pool steady_othersAt
    (gathers_collector h chunks.length) hcapacity hmembers hpool
  rw [List.length_map] at hperm
  exact ⟨order, hperm, fun x hx c hc => hpost x hx c hc (Nat.le_of_eq (congrArg List.length hquiet)), hresult⟩

end First

section Again

variable {a : Analyst σ} {store : Part σ Keeper} {journal : Part σ Journal} {project : String} {chunks : List Chunk}
  {k : Keeper}

/-- The readings of chunks that are recalled. -/
def recallAll (k : Keeper) (project : String) (chunks : List Chunk) : List Reading :=
  (chunks.filterMap (recalled? k project)).map (⟨·, true⟩)

theorem length_recallAll (hall : ∀ c ∈ chunks, ∃ findings, recalled? k project c = some findings) :
    (recallAll k project chunks).length = chunks.length := by
  rw [recallAll, List.length_map, List.length_filterMap_eq_countP, List.countP_eq_length]
  intro c hc
  obtain ⟨findings, hfindings⟩ := hall c hc
  rw [hfindings]
  rfl

theorem countP_recallAll (k : Keeper) (project : String) (chunks : List Chunk) :
    (recallAll k project chunks).countP (·.fromCheckpoint) = (recallAll k project chunks).length := by
  rw [List.countP_eq_length]
  intro r hr
  obtain ⟨findings, _, rfl⟩ := List.mem_map.mp hr
  rfl

theorem read_of_recalled? (h : a.KeepsApart store journal) (completion : Models.CompletionService σ)
    {c : Chunk} {findings : ChunkFindings} (hrecalled : recalled? k project c = some findings) (commit : String)
    (t : Moment) {s : σ} (hs : store.get s = k) :
    Prompt t ((a.withCompletion completion).read project commit c) s ⟨findings, true⟩ s := by
  subst hs
  unfold recalled? at hrecalled
  split at hrecalled
  · next hget =>
    obtain ⟨value, rfl, hdecode⟩ := Option.bind_eq_some_iff.mp hrecalled
    exact read_recalled (a := a.withCompletion completion) h.checkpoints h.store_lawful hget hdecode commit t
  · cases hrecalled

/-- Telling of readings that were recalled leaves checkpoints and journal alone. -/
theorem shelf_gather (h : a.KeepsApart store journal) (total : Nat) (t : Moment) (i : Nat) (rs : List Reading)
    (tally : Tally) (s : σ) :
    shelf store journal ((collector a.progress total).gather t i rs tally s).2 = shelf store journal s := by
  induction rs generalizing i tally s with
  | nil => rfl
  | cons r rs ih => exact (ih (i + 1) _ _).trans (h.progress _ _)

/-- When all chunks are recalled, reading them all gives what is recalled, and no model is asked. -/
theorem run_readAll_recalled (h : a.KeepsApart store journal)
    (hall : ∀ c ∈ chunks, ∃ findings, recalled? k project c = some findings)
    (completion : Models.CompletionService σ) (commit : String) (deadline : Option Moment) (t : Moment) {s : σ}
    (hs : store.get s = k) :
    ((a.withCompletion completion).readAll project commit chunks deadline).run t s =
      .finished ((recallAll k project chunks).foldl Tally.add {}) t
        ((collector a.progress chunks.length).gather t 0 (recallAll k project chunks) {} s).2 := by
  have hmembers : List.Forall₂ (fun act (r : Reading) => ∀ s, store.get s = k → Prompt t act s r s)
      (chunks.map ((a.withCompletion completion).read project commit)) (recallAll k project chunks) := by
    unfold recallAll
    clear hs
    induction chunks with
    | nil => exact .nil
    | cons c chunks ih =>
      obtain ⟨hfirst, hrest⟩ := List.forall_mem_cons.mp hall
      obtain ⟨findings, hfindings⟩ := hfirst
      rw [List.filterMap_cons, hfindings]
      exact .cons (fun s hs => read_of_recalled? h completion hfindings commit t hs) (ih hrest)
  have hcapacity : 0 < max 1 a.capacity := Nat.lt_of_lt_of_le Nat.zero_lt_one (Nat.le_max_left 1 a.capacity)
  have hinv : ∀ i (r : Reading) t s (tally : Tally), store.get s = k →
      store.get ((collector a.progress chunks.length).collect i r t s tally).2 = k :=
    fun _ _ _ s _ hs => (congrArg Prod.fst (h.progress _ s)).trans hs
  have hgathered := gather_collector a.progress chunks.length t 0 (recallAll k project chunks) {} s
  rw [← hgathered]
  exact Activity.run_pool_prompts hcapacity (Activity.prompts_gather hinv hmembers 0 {} hs)

end Again

/-- An analysis reads the chunks that can be analysed, and stores their vectors when all were read. -/
theorem analyze_eq (a : Analyst σ) (project commit : String) (chunks : List Chunk) (deadline : Option Moment) :
    a.analyze project commit chunks deadline =
      (a.readAll project commit (chunks.filter (·.isAnalyzable)) deadline).andThen fun tally =>
        if tally.completed = (chunks.filter (·.isAnalyzable)).length then
          (a.storeVectors project (chunks.filter (·.isAnalyzable))).andThen fun _ => .done tally.findings
        else .done tally.findings := by
  refine congrArg (Activity.andThen _) (funext fun tally => ?_)
  split <;> rfl

theorem storeVectors_withCompletion (a : Analyst σ) (completion : Models.CompletionService σ) (project : String)
    (chunks : List Chunk) :
    (a.withCompletion completion).storeVectors project chunks = a.storeVectors project chunks := by
  have hembed : (a.withCompletion completion).models.embedTexts (chunks.map embeddedText) =
      a.models.embedTexts (chunks.map embeddedText) := Models.embedBatches_withCompletion _ _ _ _
  unfold storeVectors
  rw [hembed]
  rfl

theorem KeepsApart.storeVectors {a : Analyst σ} {store : Part σ Keeper} {journal : Part σ Journal}
    (h : a.KeepsApart store journal) (project : String) (chunks : List Chunk) :
    (a.storeVectors project chunks).Keeps (shelf store journal) := by
  unfold Analyst.storeVectors
  split
  · trivial
  · next service hservice =>
    split
    · trivial
    · refine Keeps.andThen (h.models.embedTexts _) fun result => ?_
      cases result with
      | error e => trivial
      | ok vectors => exact Keeps.andThen (h.vectors service hservice _ _) fun _ => trivial

/-- When all chunks that can be analysed are recalled, an analysis gives what is recalled, and only the vectors are
left to store. -/
theorem run_analyze_recalled {a : Analyst σ} {store : Part σ Keeper} {journal : Part σ Journal} {project : String}
    {chunks : List Chunk} {k : Keeper} (h : a.KeepsApart store journal)
    (hall : ∀ c ∈ chunks.filter (·.isAnalyzable), ∃ findings, recalled? k project c = some findings)
    (commit : String) (deadline : Option Moment) (t : Moment) {s : σ} (hs : store.get s = k) :
    ∃ s', shelf store journal s' = shelf store journal s ∧ ∀ completion : Models.CompletionService σ,
      ((a.withCompletion completion).analyze project commit chunks deadline).run t s =
        ((a.storeVectors project (chunks.filter (·.isAnalyzable))).andThen fun _ =>
          .done ((recallAll k project (chunks.filter (·.isAnalyzable))).foldl Tally.add {}).findings).run t s' := by
  refine ⟨_, shelf_gather h (chunks.filter (·.isAnalyzable)).length t 0
    (recallAll k project (chunks.filter (·.isAnalyzable))) {} s, fun completion => ?_⟩
  have hread := run_readAll_recalled h hall completion commit deadline t hs
  have hcompleted : ((recallAll k project (chunks.filter (·.isAnalyzable))).foldl Tally.add {}).completed =
      (chunks.filter (·.isAnalyzable)).length := by
    rw [completed_foldl_add, length_recallAll hall]
    exact Nat.zero_add _
  rw [analyze_eq, Activity.run_andThen_of_run hread, if_pos hcompleted, storeVectors_withCompletion]

/-- Chunks with fingerprints of their own have places of their own. -/
theorem haveOwnPlaces_of_nodup {chunks : List Chunk} (hdistinct : (chunks.map (·.fingerprint)).Nodup)
    (hhash : ∀ c ∈ chunks, ∀ d ∈ chunks, component c.fingerprint = component d.fingerprint →
      c.fingerprint = d.fingerprint) (project : String) (i j : Nat) (c d : Chunk) (hij : i ≠ j)
    (hc : chunks[i]? = some c) (hd : chunks[j]? = some d) :
    HaveOwnPlaces project c.fingerprint project d.fingerprint := by
  refine .inr fun hsame => hij ?_
  have heq := hhash c (List.mem_of_getElem? hc) d (List.mem_of_getElem? hd) hsame
  have hi : (chunks.map (·.fingerprint))[i]? = some c.fingerprint := by simp [hc]
  have hj : (chunks.map (·.fingerprint))[j]? = some c.fingerprint := by simp [hd, heq]
  have hlt : i < (chunks.map (·.fingerprint)).length := (List.getElem?_eq_some_iff.mp hi).1
  exact (List.getElem?_inj hlt hdistinct).mp (hi.trans hj.symm)

/-- Readings add up to the same findings in whatever order they come. -/
theorem perm_findings {rs rs' : List Reading} (h : (rs.map (·.findings)).Perm (rs'.map (·.findings))) :
    (rs.foldl Tally.add {}).findings.narratives.Perm (rs'.foldl Tally.add {}).findings.narratives ∧
    (rs.foldl Tally.add {}).findings.rules.Perm (rs'.foldl Tally.add {}).findings.rules ∧
    (rs.foldl Tally.add {}).findings.risks.Perm (rs'.foldl Tally.add {}).findings.risks := by
  obtain ⟨hnarratives, hrules, hrisks, -⟩ := findings_foldl_add {} rs
  obtain ⟨hnarratives', hrules', hrisks', -⟩ := findings_foldl_add {} rs'
  rw [hnarratives, hrules, hrisks, hnarratives', hrules', hrisks']
  refine ⟨?_, ?_, ?_⟩
  · simpa [Function.comp_def] using h.map ChunkFindings.narrative
  · simpa [List.flatMap_map] using h.flatMap_right ChunkFindings.rules
  · simpa [List.flatMap_map] using h.flatMap_right ChunkFindings.risks

section Bench

/-- A chunk of one line. -/
def knownChunk : Chunk := ⟨"cart.py", "python", 1, 1, "total = 0\n", none⟩

/-- What was found in it before. -/
def knownFindings : ChunkFindings := ⟨{ file := "cart.py", purpose := "Counts" }, [], []⟩

/-- The checkpoint about it. -/
def knownCheckpoint : Store.Checkpoints.Record := checkpointOf "p" "c0" knownChunk knownFindings 0

theorem component_fingerprint_ne : component sampleChunk.fingerprint ≠ component knownChunk.fingerprint := by
  have hsample : (component sampleChunk.fingerprint).toList.head? = some '1' := (Hash.head?_hashBytes _).trans (by decide +kernel)
  have hknown : (component knownChunk.fingerprint).toList.head? = some '6' := (Hash.head?_hashBytes _).trans (by decide +kernel)
  intro h
  rw [h, hknown] at hsample
  exact absurd hsample (by decide)

theorem fingerprint_ne : sampleChunk.fingerprint ≠ knownChunk.fingerprint :=
  fun h => component_fingerprint_ne (congrArg component h)

theorem decode?_knownCheckpoint : ChunkFindings.decode? knownCheckpoint.result = some knownFindings := by
  have hfits : knownFindings.Fits := {
    narrative := by simp [knownFindings, Findings.Narrative.Fits]
    rules := by simp [knownFindings]
    risks := by simp [knownFindings] }
  exact ChunkFindings.decode?_encode hfits

/-- The first reading of two chunks of which one is known. -/
theorem run_analyze_known :
    ((onShelf (answering sampleAnswer)).analyze "p" "c1" [sampleChunk, knownChunk] none).run 0
        (.memory [knownCheckpoint], []) =
      .finished (Tally.add (Tally.add {} ⟨sampleFindings, false⟩) ⟨knownFindings, true⟩).findings 0
        (.memory [knownCheckpoint, checkpointOf "p" "c1" sampleChunk sampleFindings 0], []) := by
  have hput : (Keeper.memory [knownCheckpoint]).put (checkpointOf "p" "c1" sampleChunk sampleFindings 0) =
      .ok (.memory [knownCheckpoint, checkpointOf "p" "c1" sampleChunk sampleFindings 0]) := by
    simp [Keeper.put, Store.Checkpoints.put, Store.Checkpoints.Record.sameKey, Store.Checkpoints.Record.isAbout,
      knownCheckpoint, checkpointOf]
  have hnone : (Keeper.memory [knownCheckpoint]).get? "p" sampleChunk.fingerprint = .ok none := by
    simp [Keeper.get?, Store.Checkpoints.get?, Store.Checkpoints.Record.isAbout, knownCheckpoint, checkpointOf,
      fingerprint_ne.symm]
  have hsome : (Keeper.memory [knownCheckpoint, checkpointOf "p" "c1" sampleChunk sampleFindings 0]).get? "p"
      knownChunk.fingerprint = .ok (some knownCheckpoint.result) := by
    simp [Keeper.get?, Store.Checkpoints.get?, Store.Checkpoints.Record.isAbout, knownCheckpoint, checkpointOf,
      fingerprint_ne]
  have hlawful := (keepsApart_onShelf sampleAnswer).store_lawful
  have hfirst := prompt_read_renewed (a := onShelf (answering sampleAnswer)) (s := (.memory [knownCheckpoint], []))
    rfl hlawful hnone rfl (prompt_readAnew read?_sampleAnswer hput 0)
  have hsecond := read_recalled (a := onShelf (answering sampleAnswer))
    (s := (.memory [knownCheckpoint, checkpointOf "p" "c1" sampleChunk sampleFindings 0], [])) rfl hlawful hsome
    decode?_knownCheckpoint "c1" 0
  have hread : ((onShelf (answering sampleAnswer)).readAll "p" "c1" [sampleChunk, knownChunk] none).run 0
      (.memory [knownCheckpoint], []) =
      .finished (Tally.add (Tally.add {} ⟨sampleFindings, false⟩) ⟨knownFindings, true⟩) 0
        (.memory [knownCheckpoint, checkpointOf "p" "c1" sampleChunk sampleFindings 0], []) :=
    Activity.run_pool_prompts Nat.one_pos (.cons hfirst (.cons hsecond (.nil _ _ _)))
  have hfilter : [sampleChunk, knownChunk].filter (·.isAnalyzable) = [sampleChunk, knownChunk] := by
    decide
  rw [analyze_eq, hfilter, Activity.run_andThen_of_run hread]
  rfl

end Bench

section Resume

variable {a : Analyst σ} {store : Part σ Keeper} {journal : Part σ Journal} {project commit : String}
  {chunks : List Chunk} {s s' : σ}

/-- An analysis without a deadline that ends without a mishap, by what is recalled of its chunks afterwards. -/
theorem recalled_of_analyze (h : a.KeepsApart store journal) (hdistinct : (chunks.map (·.fingerprint)).Nodup)
    (hhash : ∀ c ∈ chunks, ∀ d ∈ chunks, component c.fingerprint = component d.fingerprint →
      c.fingerprint = d.fingerprint)
    (hsound : ∀ c ∈ chunks, (store.get s).Sound Decodes project c.fingerprint commit) {t t' : Moment} {tally : Tally}
    (hrun : (a.readAll project commit chunks none).run t s = .finished tally t' s')
    (hquiet : journal.get s' = journal.get s) :
    ∃ rs : List Reading, tally = rs.foldl Tally.add {} ∧
      (rs.map (·.findings)).Perm (chunks.filterMap (recalled? (store.get s') project)) ∧
      ∀ c ∈ chunks, ∃ findings, recalled? (store.get s') project c = some findings := by
  obtain ⟨order, hperm, hcomes, rfl⟩ :=
    exists_order_of_readAll h (haveOwnPlaces_of_nodup hdistinct hhash project) hrun hquiet
  -- what a reading left in the part about its chunk is what the whole keeper gives in the end
  have hrecalled : ∀ x ∈ order, ∀ c, chunks[x.1]? = some c →
      recalled? (store.get s') project c = some x.2.findings := by
    intro x hx c hc
    have hthere := (hcomes x hx c hc).recalled?_eq (hsound c (List.mem_of_getElem? hc)).about
    unfold recalled? at hthere ⊢
    rwa [Keeper.get?_about] at hthere
  refine ⟨order.map Prod.snd, rfl, by simpa [Function.comp_def] using perm_recalled hperm hrecalled, fun c hc => ?_⟩
  obtain ⟨i, hi⟩ := List.mem_iff_getElem?.mp hc
  have hlt : i ∈ List.range chunks.length := List.mem_range.mpr (List.getElem?_eq_some_iff.mp hi).1
  obtain ⟨x, hx, rfl⟩ := List.mem_map.mp (hperm.mem_iff.mpr hlt)
  exact ⟨x.2.findings, hrecalled x hx c hi⟩

/-- An analysis of a program whose chunks were all read before, without a mishap and with checkpoints that can be
decoded, asks no model: whoever completes conversations, it finds what was found before, all of it among the
checkpoints, and has only the vectors left to store. -/
theorem analyze_again (h : a.KeepsApart store journal) (hdistinct : (chunks.map (·.fingerprint)).Nodup)
    (hhash : ∀ c ∈ chunks, ∀ d ∈ chunks, component c.fingerprint = component d.fingerprint →
      c.fingerprint = d.fingerprint)
    (hsound : ∀ c ∈ chunks, (store.get s).Sound Decodes project c.fingerprint commit) {t t' : Moment}
    {first : Findings} (hrun : (a.analyze project commit chunks none).run t s = .finished first t' s')
    (hquiet : journal.get s' = journal.get s) :
    ∃ again : Findings, again.narratives.Perm first.narratives ∧ again.rules.Perm first.rules ∧
      again.risks.Perm first.risks ∧ again.checkpointHits = (chunks.filter (·.isAnalyzable)).length ∧
      ∀ (commit' : String) (deadline : Option Moment) (later : Moment) (s₂ : σ), store.get s₂ = store.get s' →
        ∃ s₃, shelf store journal s₃ = shelf store journal s₂ ∧
          ∀ completion : Models.CompletionService σ,
            ((a.withCompletion completion).analyze project commit' chunks deadline).run later s₂ =
              ((a.storeVectors project (chunks.filter (·.isAnalyzable))).andThen fun _ =>
                .done again).run later s₃ := by
  rw [analyze_eq] at hrun
  obtain ⟨tally, t₁, s₁, hread, hrest⟩ := Activity.exists_run_of_andThen hrun
  have hafter : shelf store journal s' = shelf store journal s₁ ∧ first = tally.findings := by
    split at hrest
    · obtain ⟨_, t₂, s₂, hstored, hdone⟩ := Activity.exists_run_of_andThen hrest
      cases hdone
      exact ⟨(h.storeVectors _ _).of_run hstored, rfl⟩
    · cases hrest
      exact ⟨rfl, rfl⟩
  obtain ⟨hshelf, rfl⟩ := hafter
  obtain ⟨hstore, hjournal⟩ := Prod.mk.inj hshelf
  have hsub : ∀ c ∈ chunks.filter (·.isAnalyzable), c ∈ chunks := fun c hc => (List.mem_filter.mp hc).1
  have hdistinct' : ((chunks.filter (·.isAnalyzable)).map (·.fingerprint)).Nodup :=
    hdistinct.sublist (List.filter_sublist.map _)
  obtain ⟨rs, rfl, hperm, hall⟩ := recalled_of_analyze h hdistinct' (fun c hc d hd => hhash c (hsub c hc) d (hsub d hd))
    (fun c hc => hsound c (hsub c hc)) hread (hjournal.symm.trans hquiet)
  have hfindings : ((recallAll (store.get s₁) project (chunks.filter (·.isAnalyzable))).map (·.findings)).Perm
      (rs.map (·.findings)) := by
    simpa [recallAll, Function.comp_def] using hperm.symm
  obtain ⟨hnarratives, hrules, hrisks⟩ := perm_findings hfindings
  refine ⟨_, hnarratives, hrules, hrisks, ?_, fun commit' deadline later s₂ hs₂ =>
    run_analyze_recalled h hall commit' deadline later (hs₂.trans hstore)⟩
  rw [(findings_foldl_add _ _).2.2.2, countP_recallAll, length_recallAll hall]
  exact Nat.zero_add _

/-- An analysis of two chunks, one of which was read at an earlier commit, and another one of the next commit. -/
theorem analyze_again_sample :
    ∃ first s', ((onShelf (answering sampleAnswer)).analyze "p" "c1" [sampleChunk, knownChunk] none).run 0
        (.memory [knownCheckpoint], []) = .finished first 0 s' ∧ first.checkpointHits = 1 ∧
      ∃ again s'', ((onShelf refusing).analyze "p" "c2" [sampleChunk, knownChunk] none).run 0 s' =
          .finished again 0 s'' ∧
        again.narratives.Perm first.narratives ∧ again.checkpointHits = 2 := by
  have hdistinct : ([sampleChunk, knownChunk].map (·.fingerprint)).Nodup := by simp [fingerprint_ne]
  have hplaces : ∀ c ∈ [sampleChunk, knownChunk], ∀ d ∈ [sampleChunk, knownChunk],
      component c.fingerprint = component d.fingerprint → c.fingerprint = d.fingerprint := by
    simp [component_fingerprint_ne, component_fingerprint_ne.symm]
  have hsound : ∀ c ∈ [sampleChunk, knownChunk],
      (Shelf.store.get (.memory [knownCheckpoint], [])).Sound Decodes "p" c.fingerprint "c1" := by
    intro c _ r hr _
    rw [List.mem_singleton.mp hr]
    exact ⟨_, decode?_knownCheckpoint⟩
  obtain ⟨again, hnarratives, -, -, hhits, hlater⟩ := analyze_again (keepsApart_onShelf sampleAnswer) hdistinct
    hplaces hsound run_analyze_known rfl
  obtain ⟨s₃, -, hagain⟩ := hlater "c2" none 0 _ rfl
  exact ⟨_, _, run_analyze_known, rfl, again, s₃, hagain refusing, hnarratives, hhits⟩

end Resume

end Analyst
end CodeAtlas
