import CodeAtlas.Proofs.Activity.Diary
import CodeAtlas.Proofs.Findings.Frame

/-! Analyses that are watched. On each chunk it is noted when its reading begins, what the checkpoints answer, and when
the analysis takes the reading in and what it tells of that. The notes account for the findings: they are made up of what
was taken in, in that order, and every reading was taken in that could come to its end in time. Watching changes nothing,
so that what the notes tell holds of every analysis. -/
namespace CodeAtlas

open Activity (Diary Keeps Lasting Leads Leaves Mirrors Outcome Pairs TurnsOut Yields)
open Activity.Diary (own)

variable {σ : Type}

/-- Whoever listens, with everything written down that is told. -/
def Progress.overheard (p : Progress σ) : Progress (σ × List Progress.Event) where
  listener := some fun e s => ((p.notify e s.1, s.2 ++ [e]), none)

namespace Analyst

/-- What is noted on a chunk. -/
inductive Event where
  | began
  | answered (answer : Except Store.Failure (Option Json))
  | taken (reading : Reading) (told : List Progress.Event)

/-- A note on a chunk, under its place. -/
abbrev Note := Diary.Note Event

section Watch

variable (a : Analyst σ) (project commit : String)

/-- The rest of the reading of a chunk, once the checkpoints have answered. -/
def readOn (c : Chunk) : Except Store.Failure (Option Json) → Activity σ Reading
  | .ok value =>
    match value.bind ChunkFindings.decode? with
    | some findings => .done ⟨findings, true⟩
    | none => a.readAnew project commit c
  | .error e => (a.warn c (.lookupFailed e)).andThen fun _ => a.readAnew project commit c

theorem read_eq_readOn (c : Chunk) : a.read project commit c =
    (a.checkpoints.get? project c.fingerprint).andThen (a.readOn project commit c) := by
  refine congrArg (Activity.andThen _) (funext fun answer => ?_)
  cases answer <;> rfl

/-- Read the chunk at a place, and note when that begins and what the checkpoints answer. -/
def watch (i : Nat) (c : Chunk) : Activity (Diary σ Event) Reading :=
  (Diary.note i .began).andThen fun _ => (Diary.lift (a.checkpoints.get? project c.fingerprint)).andThen fun answer =>
    (Diary.note i (.answered answer)).andThen fun _ => Diary.lift (a.readOn project commit c answer)

/-- Takes in readings as the collector of an analysis does, and notes each of them and what is told of it. -/
def watchedCollector (progress : Progress σ) (total : Nat) : Activity.Collector (Diary σ Event) Reading Tally where
  collect i reading t d tally :=
    let (tally, state, told) := (collector progress.overheard total).collect i reading t (d.state, []) tally
    (tally, ⟨state, d.notes ++ [⟨i, t, .taken reading told⟩]⟩)

/-- Read chunks that are watched, up to a moment if one is given. -/
def watchedReadAll (chunks : List Chunk) (deadline : Option Moment) : Activity (Diary σ Event) Tally :=
  Activity.pool (max 1 a.capacity) (deadline.map Duration.roundUp) (watchedCollector a.progress chunks.length)
    (chunks.mapIdx (a.watch project commit)) {}

/-- An analysis whose chunks are watched. -/
def watchedAnalyze (chunks : List Chunk) (deadline : Option Moment) : Activity (Diary σ Event) Findings := do
  let chunks := chunks.filter (·.isAnalyzable)
  let tally ← a.watchedReadAll project commit chunks deadline
  if tally.completed = chunks.length then Diary.lift (a.storeVectors project chunks)
  return tally.findings

theorem mirrors_watch (i : Nat) (c : Chunk) :
    Mirrors Diary.state Eq (a.watch project commit i c) (a.read project commit c) := by
  rw [read_eq_readOn]
  refine .silent (fun _ _ => rfl) fun _ _ => (Diary.mirrors_lift _).andThen ?_
  rintro answer _ rfl
  exact .silent (fun _ _ => rfl) fun _ _ => Diary.mirrors_lift _

/-- A watched analysis does what the analysis does. -/
theorem mirrors_watchedAnalyze (chunks : List Chunk) (deadline : Option Moment) :
    Mirrors Diary.state Eq (a.watchedAnalyze project commit chunks deadline)
      (a.analyze project commit chunks deadline) := by
  have hmembers : Pairs (fun _ => Mirrors Diary.state Eq)
      ((chunks.filter (·.isAnalyzable)).mapIdx (a.watch project commit))
      ((chunks.filter (·.isAnalyzable)).map (a.read project commit)) := by
    refine ⟨by simp, fun i w r hw hr => ?_⟩
    rw [List.getElem?_mapIdx] at hw
    rw [List.getElem?_map] at hr
    obtain ⟨c, hc, rfl⟩ := Option.map_eq_some_iff.mp hw
    obtain ⟨c', hc', rfl⟩ := Option.map_eq_some_iff.mp hr
    cases hc.symm.trans hc'
    exact a.mirrors_watch project commit i c
  have hcollect : Activity.Collector.Mirrors Diary.state (fun _ => Eq) Eq
      (watchedCollector a.progress (chunks.filter (·.isAnalyzable)).length)
      (collector a.progress (chunks.filter (·.isAnalyzable)).length) := by
    rintro i reading _ t d tally _ rfl rfl
    exact ⟨rfl, rfl⟩
  have hpool : Mirrors Diary.state Eq (a.watchedReadAll project commit (chunks.filter (·.isAnalyzable)) deadline)
      (a.readAll project commit (chunks.filter (·.isAnalyzable)) deadline) :=
    Activity.mirrors_poolFrom hcollect (hmembers.map fun _ _ _ => .queued) rfl
  refine hpool.andThen ?_
  rintro tally _ rfl
  dsimp only
  split
  · exact (Diary.mirrors_lift _).andThen fun _ _ _ => .done rfl
  · exact .done rfl

end Watch

section Notes

/-- What was taken in, going by the notes, and what was told of it. -/
def takings (notes : List Note) : List (Reading × List Progress.Event) :=
  notes.filterMap fun note =>
    match note.text with
    | .taken reading told => some (reading, told)
    | _ => none

/-- The readings that were taken in, going by the notes. -/
def readings (notes : List Note) : List Reading := (takings notes).map Prod.fst

/-- Whether the reading of a chunk has begun, going by the notes. -/
def HasBegun (notes : List Note) (i : Nat) : Prop := ∃ t, ⟨i, t, .began⟩ ∈ notes

/-- Whether the reading of a chunk was taken in, going by the notes. -/
def IsTaken (notes : List Note) (i : Nat) : Prop := ∃ t reading told, ⟨i, t, .taken reading told⟩ ∈ notes

/-- Whether the reading of a chunk is under way, going by the notes. -/
def UnderWay (notes : List Note) (i : Nat) : Prop := HasBegun notes i ∧ ¬ IsTaken notes i

/-- What readings make up: the findings of each, and how many come from checkpoints. -/
def madeOf (rs : List Reading) : Findings :=
  { (rs.map (·.findings)).foldl Findings.push {} with checkpointHits := rs.countP (·.fromCheckpoint) }

theorem takings_concat (notes : List Note) (i : Nat) (t : Moment) (reading : Reading) (told : List Progress.Event) :
    takings (notes ++ [⟨i, t, .taken reading told⟩]) = takings notes ++ [(reading, told)] := by
  simp [takings]

theorem foldl_add_concat (rs : List Reading) (r : Reading) :
    (rs ++ [r]).foldl Tally.add {} = (rs.foldl Tally.add {}).add r := by
  rw [List.foldl_append]
  rfl

theorem foldl_add_eq (rs : List Reading) : rs.foldl Tally.add {} = ⟨madeOf rs, rs.length⟩ := by
  induction rs using List.reverseRecOn with
  | nil => rfl
  | append_singleton rest r ih =>
    rw [foldl_add_concat, ih]
    simp [Tally.add, madeOf, Findings.push, List.countP_append, List.countP_singleton]

theorem degradedChunks_madeOf (rs : List Reading) :
    (madeOf rs).degradedChunks = rs.countP (·.findings.isDegraded) := by
  induction rs using List.reverseRecOn with
  | nil => rfl
  | append_singleton rest r ih =>
    rw [List.countP_append, List.countP_singleton, ← ih]
    simp [madeOf, Findings.push]

end Notes

section Course

/-- What a checkpoint's answer holds of a chunk, if it can be decoded. -/
def served? : Except Store.Failure (Option Json) → Option ChunkFindings
  | .ok value => value.bind ChunkFindings.decode?
  | .error _ => none

/-- Whether a reading comes from a checkpoint just when the checkpoints have served it. -/
def Stems (answer : Except Store.Failure (Option Json)) (r : Reading) : Prop :=
  match served? answer with
  | some findings => r = ⟨findings, true⟩
  | none => r.fromCheckpoint = false

theorem yields_readAnew (a : Analyst σ) (project commit : String) (c : Chunk) :
    (a.readAnew project commit c).Yields (·.fromCheckpoint = false) := by
  refine (Activity.yields_true _).andThen fun answer _ => ?_
  cases understood c answer with
  | error m => exact (Activity.yields_true _).andThen fun _ _ => rfl
  | ok findings =>
    refine (Activity.yields_true _).andThen fun now _ => (Activity.yields_true _).andThen fun kept _ => ?_
    cases kept with
    | ok _ => exact rfl
    | error e => exact (Activity.yields_true _).andThen fun _ _ => rfl

theorem yields_readOn (a : Analyst σ) (project commit : String) (c : Chunk)
    (answer : Except Store.Failure (Option Json)) : (a.readOn project commit c answer).Yields (Stems answer) := by
  have hanew (hnone : served? answer = none) : (a.readAnew project commit c).Yields (Stems answer) :=
    (a.yields_readAnew project commit c).mono fun r hr => by rwa [Stems, hnone]
  cases answer with
  | error e => exact (Activity.yields_true _).andThen fun _ _ => hanew rfl
  | ok value =>
    cases hserved : value.bind ChunkFindings.decode? with
    | some findings =>
      simp only [readOn, hserved]
      show Stems (.ok value) ⟨findings, true⟩
      rw [Stems, served?, hserved]
    | none =>
      simp only [readOn, hserved]
      exact hanew hserved

variable (a : Analyst σ) (project commit : String) (chunks : List Chunk) (i : Nat)

/-- What has been noted on a chunk while its reading waits. -/
inductive Rests : Moment → Option Moment → List Note → Prop
  | asking {c : Chunk} {begun t : Moment} {u : Option Moment} {n : Activity σ Reading} : chunks[i]? = some c →
      Leads (· = begun) (a.read project commit c) (.wait u n) t → Rests t u [⟨i, begun, .began⟩]
  | reading {c : Chunk} {begun asked t : Moment} {u : Option Moment} {n : Activity σ Reading}
      {answer : Except Store.Failure (Option Json)} : chunks[i]? = some c →
      Leads (· = begun) (a.read project commit c) (.wait u n) t →
      Rests t u [⟨i, begun, .began⟩, ⟨i, asked, .answered answer⟩]

/-- What has been noted on a chunk when its reading ends. -/
inductive Ends : Except String Reading → Moment → List Note → Prop
  | read {c : Chunk} {begun asked stop : Moment} {answer : Except Store.Failure (Option Json)} {reading : Reading} :
      chunks[i]? = some c → Leads (· = begun) (a.read project commit c) (.done reading) stop → Stems answer reading →
      Ends (.ok reading) stop [⟨i, begun, .began⟩, ⟨i, asked, .answered answer⟩]
  | crashed {c : Chunk} {begun stop : Moment} {m : String} {o : List Note} : chunks[i]? = some c →
      Leads (· = begun) (a.read project commit c) (.crash m) stop → Ends (.error m) stop o

/-- What has been noted on a chunk when its reading is taken in. -/
inductive Taken : Except String Reading → Moment → List Note → Prop
  | intro {c : Chunk} {begun asked stop : Moment} {answer : Except Store.Failure (Option Json)} {reading : Reading}
      (told : List Progress.Event) : chunks[i]? = some c →
      Leads (· = begun) (a.read project commit c) (.done reading) stop → Stems answer reading →
      Taken (.ok reading) stop
        [⟨i, begun, .began⟩, ⟨i, asked, .answered answer⟩, ⟨i, stop, .taken reading told⟩]

variable {chunks i}

/-- What has been noted on a chunk tells how far its reading has come. -/
theorem abides_watch {c : Chunk} (hc : chunks[i]? = some c) (t : Moment) :
    (a.watch project commit i c).Abides i (a.Rests project commit chunks i) (a.Ends project commit chunks i) t [] := by
  -- while the checkpoints are asked, the whole reading is what is left of that, and then the rest
  have hasking : Lasting fun (b : Activity σ (Except Store.Failure (Option Json))) t' =>
      Leads (· = t) (a.read project commit c) (b.andThen (a.readOn project commit c)) t' :=
    ⟨fun h s => .act s h, fun h => .wait h⟩
  have hreading (answer : Except Store.Failure (Option Json)) : Lasting fun (b : Activity σ Reading) t' =>
      Leads (· = t) (a.read project commit c) b t' ∧ b.Yields (Stems answer) :=
    ⟨fun h s => ⟨.act s h.1, h.2 _ s⟩, fun h => ⟨.wait h.1, h.2⟩⟩
  have hstart : Leads (· = t) (a.read project commit c)
      ((a.checkpoints.get? project c.fingerprint).andThen (a.readOn project commit c)) t := by
    rw [← read_eq_readOn]
    exact .start rfl
  refine .note_andThen ?_
  have hlookUp : (Diary.lift (a.checkpoints.get? project c.fingerprint)).Abides i
      (a.Rests project commit chunks i)
      (fun r t' (o : List Note) => match r with
        | .ok answer => o = [⟨i, t, .began⟩] ∧
            Leads (· = t) (a.read project commit c) (a.readOn project commit c answer) t'
        | .error m => Leads (· = t) (a.read project commit c) (.crash m) t') t [⟨i, t, .began⟩] :=
    .lift hasking hstart (fun _ _ _ hleads => .asking hc hleads) (fun _ _ hleads => ⟨rfl, hleads⟩)
      fun _ _ hleads => hleads
  refine hlookUp.andThen ?_ fun m t' o' hleads => .crashed hc hleads
  rintro answer t' _ ⟨rfl, hleads⟩
  refine .note_andThen ?_
  exact .lift (hreading answer) ⟨hleads, a.yields_readOn project commit c answer⟩
    (fun _ _ _ h => .reading hc h.1) (fun _ _ h => .read hc h.1 h.2) fun _ _ h => .crashed hc h.1

theorem takesIn_watchedCollector (total : Nat) :
    (watchedCollector a.progress total).TakesIn (a.Ends project commit chunks) (a.Taken project commit chunks)
      fun tally x => tally.add x.2 := by
  refine fun i reading t d tally => ⟨rfl, .inr ⟨_, rfl⟩, fun hends => ?_⟩
  show a.Taken project commit chunks i (.ok reading) t (own i (d.notes ++ [⟨i, t, .taken reading _⟩]))
  rw [Diary.own_concat_self]
  generalize own i d.notes = o at hends ⊢
  cases hends with
  | read hc hleads hstems => exact .intro _ hc hleads hstems

end Course

section Pool

variable (a : Analyst σ) (project commit : String) (chunks : List Chunk)

/-- Who has begun in the pool of a watched analysis, and who is busy in it, going by what each has noted. -/
abbrev Begun (o : List Note) : Prop := ∃ i t, ⟨i, t, .began⟩ ∈ o

abbrev Busy (o : List Note) : Prop := Begun o ∧ ¬ ∃ i t reading told, ⟨i, t, .taken reading told⟩ ∈ o

theorem begun_own_iff {notes : List Note} {i : Nat} : Begun (own i notes) ↔ HasBegun notes i := by
  simp [Begun, HasBegun, own]

theorem busy_own_iff {notes : List Note} {i : Nat} : Busy (own i notes) ↔ UnderWay notes i := by
  simp [Busy, Begun, UnderWay, HasBegun, IsTaken, own]

/-- What is noted on chunks tells who has begun and who is busy: whoever waits is. -/
theorem telling :
    Activity.Telling Busy Begun (a.Rests project commit chunks) (a.Taken project commit chunks) where
  busy_nil := by simp [Busy, Begun]
  begun_of_busy _ h := h.1
  waits := by
    intro i t u o hrests hidle
    cases hrests with
    | asking => exact absurd (by simp [Busy, Begun]) hidle
    | reading => exact absurd (by simp [Busy, Begun]) hidle
  ended := by
    intro i r t o htaken
    cases htaken with
    | intro => exact ⟨by simp [Busy], by simp [Begun]⟩

/-- How what was taken in is added up, and what was told of it: of each reading the one event that counts it, from one
on. -/
structure InStep (total : Nat) (told : List (Reading × List Progress.Event)) (tally : Tally) : Prop where
  adds : tally = (told.map Prod.fst).foldl Tally.add {}
  inTurn : ∀ k x, told[k]? = some x → x.2 = [Tally.event { completed := k + 1 } total]

/-- One more reading is taken in. -/
theorem InStep.take {total : Nat} {told : List (Reading × List Progress.Event)} {tally : Tally}
    (h : InStep total told tally) (r : Reading) :
    InStep total (told ++ [(r, [(tally.add r).event total])]) (tally.add r) := by
  have hcompleted : (tally.add r).completed = told.length + 1 := by
    rw [Tally.add, h.adds, foldl_add_eq, List.length_map]
  refine ⟨?_, fun k x hx => ?_⟩
  · rw [List.map_append, List.map_singleton, foldl_add_concat, h.adds]
  · rcases Nat.lt_trichotomy k told.length with hlt | rfl | hgt
    · rw [List.getElem?_append_left hlt] at hx
      exact h.inTurn k x hx
    · rw [List.getElem?_concat_length, Option.some.injEq] at hx
      rw [← hx, Tally.event, Tally.event, hcompleted]
    · rw [List.getElem?_eq_none (by simpa using hgt)] at hx
      cases hx

/-- What a pool of readings leaves of its notes: all that was taken in is added up, and was told of in turn. -/
theorem leaves_watchedReadAll (deadline : Option Moment) :
    (a.watchedReadAll project commit chunks deadline).Leaves (fun d => takings d.notes) [] fun value told =>
      ∃ tally, InStep chunks.length told tally ∧ ∀ result, value = some result → result = tally := by
  have hnote (i : Nat) {text : Event} (htext : ∀ reading told, text ≠ .taken reading told) :
      (Diary.note i text : Activity (Diary σ Event) Unit).Keeps fun d => takings d.notes := by
    refine fun t d => ⟨?_, trivial⟩
    cases text with
    | began => simp [takings]
    | answered answer => simp [takings]
    | taken reading told => exact absurd rfl (htext reading told)
  refine Activity.leaves_pool _ _ (fun i reading t d tally hinStep => ?_) (fun member hmember => ?_) ⟨rfl, by simp⟩
  · have htaken := hinStep.take reading
    rwa [← takings_concat d.notes i t] at htaken
  · obtain ⟨i, hi, rfl⟩ := List.mem_mapIdx.mp hmember
    exact (hnote i (by simp)).andThen fun _ => (Diary.keeps_lift takings _).andThen fun answer =>
      (hnote i (by simp)).andThen fun _ => Diary.keeps_lift takings _

/-- How a pool of readings comes out. -/
theorem settles_watchedReadAll (deadline : Option Moment) (start : Moment) (state : σ) :
    Activity.Settles (a.Rests project commit chunks) (a.Ends project commit chunks) (a.Taken project commit chunks)
        (max 1 a.capacity) (deadline.map Duration.roundUp) (fun tally x => tally.add x.2) chunks.length {} start
        ((a.watchedReadAll project commit chunks deadline).run start ⟨state, []⟩) ∧
      ∃ stop, Activity.InTime (deadline.map Duration.roundUp) start stop ∧
        Diary.UpTo Busy Begun (max 1 a.capacity) chunks.length start stop
          ((a.watchedReadAll project commit chunks deadline).run start ⟨state, []⟩).state.notes := by
  have hcapacity : 0 < max 1 a.capacity := Nat.lt_of_lt_of_le Nat.zero_lt_one (Nat.le_max_left 1 a.capacity)
  have hmembers : ∀ (i : Nat) member, (chunks.mapIdx (a.watch project commit))[i]? = some member → ∀ t', start ≤ t' →
      member.Abides i (a.Rests project commit chunks i) (a.Ends project commit chunks i) t' [] := by
    intro i member hmember t' _
    rw [List.getElem?_mapIdx] at hmember
    obtain ⟨c, hc, rfl⟩ := Option.map_eq_some_iff.mp hmember
    exact a.abides_watch project commit hc t'
  have hpool := Activity.settles_pool (deadline.map Duration.roundUp) hcapacity (a.telling project commit chunks)
    (a.takesIn_watchedCollector project commit chunks.length) {} start state hmembers
  rwa [List.length_mapIdx] at hpool

end Pool

section FinishUp

variable (a : Analyst σ) (project commit : String) (chunks : List Chunk)

/-- What is left of a watched analysis once the readings are over. -/
def finishUp (tally : Tally) : Activity (Diary σ Event) Findings :=
  if tally.completed = chunks.length then
    (Diary.lift (a.storeVectors project chunks)).andThen fun _ => .done tally.findings
  else .done tally.findings

theorem watchedAnalyze_eq (deadline : Option Moment) : a.watchedAnalyze project commit chunks deadline =
    (a.watchedReadAll project commit (chunks.filter (·.isAnalyzable)) deadline).andThen
      (a.finishUp project (chunks.filter (·.isAnalyzable))) := by
  refine congrArg (Activity.andThen _) (funext fun tally => ?_)
  unfold finishUp
  split <;> rfl

theorem keeps_finishUp (tally : Tally) : (a.finishUp project chunks tally).Keeps Diary.notes := by
  unfold finishUp
  split
  · exact (Diary.keeps_lift id _).andThen fun _ => trivial
  · trivial

theorem yields_finishUp (tally : Tally) : (a.finishUp project chunks tally).Yields (· = tally.findings) := by
  unfold finishUp
  split
  · exact (Activity.yields_true _).andThen fun _ _ => rfl
  · exact rfl

theorem turnsOut_finishUp {t : Moment} (h : (a.storeVectors project chunks).Concludes t) (tally : Tally) :
    (a.finishUp project chunks tally).TurnsOut False (fun r _ => ∃ x, r = .ok x ∧ True) t := by
  unfold finishUp
  split
  · exact (Diary.turnsOut_lift h.turnsOut).andThen (fun _ _ _ _ => ⟨_, rfl, trivial⟩) fun _ _ _ ⟨_, herror⟩ => nomatch herror
  · exact ⟨_, rfl, trivial⟩

/-- The notes of an analysis are those of its readings, and only when these are over does it come to findings. -/
theorem run_watchedAnalyze (deadline : Option Moment) (start : Moment) (state : σ) :
    ((a.watchedAnalyze project commit chunks deadline).run start ⟨state, []⟩).state.notes =
        ((a.watchedReadAll project commit (chunks.filter (·.isAnalyzable)) deadline).run start
          ⟨state, []⟩).state.notes ∧
      ∀ findings, ((a.watchedAnalyze project commit chunks deadline).run start ⟨state, []⟩).value? = some findings →
        ∃ tally stop d, (a.watchedReadAll project commit (chunks.filter (·.isAnalyzable)) deadline).run start
          ⟨state, []⟩ = .finished tally stop d ∧ findings = tally.findings := by
  rw [watchedAnalyze_eq]
  cases hrun : (a.watchedReadAll project commit (chunks.filter (·.isAnalyzable)) deadline).run start
    (⟨state, []⟩ : Diary σ Event) with
  | crashed m t d =>
    rw [Activity.run_andThen_of_crash hrun]
    exact ⟨rfl, nofun⟩
  | stuck t d =>
    rw [Activity.run_andThen_of_stuck hrun]
    exact ⟨rfl, nofun⟩
  | finished tally t d =>
    rw [Activity.run_andThen_of_run hrun]
    have hleaves : (a.finishUp project (chunks.filter (·.isAnalyzable)) tally).Leaves Diary.notes d.notes
        fun value now => now = d.notes ∧ ∀ findings, value = some findings → findings = tally.findings :=
      .of_keeps (a.keeps_finishUp project _ tally) (a.yields_finishUp project _ tally).turnsOut
    obtain ⟨hkept, hvalue⟩ := hleaves t d rfl
    exact ⟨hkept, fun findings hfindings => ⟨tally, t, d, rfl, hvalue findings hfindings⟩⟩

end FinishUp

/-- What is noted on the chunk at a place. Its reading begins once at most, is taken in once at most, and comes from a
checkpoint just when the checkpoints have served it. It takes the way that it takes alone from the moment at which it
begins: when it was not taken in, it never ends, or not before the timer for the deadline goes off, which timers do on
whole milliseconds. -/
structure Timely (a : Analyst σ) (project commit : String) (deadline : Option Moment) (notes : List Note) (i : Nat)
    (c : Chunk) : Prop where
  once : own i notes = [] ∨ (∃ begun, own i notes = [⟨i, begun, .began⟩]) ∨
    (∃ begun asked answer, own i notes = [⟨i, begun, .began⟩, ⟨i, asked, .answered answer⟩]) ∨
    ∃ begun asked answer stop reading told, Stems answer reading ∧
      own i notes = [⟨i, begun, .began⟩, ⟨i, asked, .answered answer⟩, ⟨i, stop, .taken reading told⟩]
  goesOn : ∀ begun, ⟨i, begun, .began⟩ ∈ notes → ∀ stalls post,
    (a.read project commit c).TurnsOut stalls post begun →
      (∃ stop reading told, ⟨i, stop, .taken reading told⟩ ∈ notes ∧ post (.ok reading) stop) ∨ stalls ∨
        ∃ d r stop, deadline = some d ∧ Duration.roundUp d < stop ∧ post r stop

/-- Whether no more readings can be under way, going by the notes: who has not begun is kept from it by as many as there
may be. -/
def Full (a : Analyst σ) (count : Nat) (notes : List Note) : Prop :=
  ∀ i, i < count → HasBegun notes i ∨
    ∃ l : Finset Nat, max 1 a.capacity ≤ l.card ∧ ∀ j ∈ l, UnderWay notes j

/-- How notes account for the findings of an analysis that has begun at `start`. -/
structure AccountsFor (a : Analyst σ) (project commit : String) (chunks : List Chunk) (deadline : Option Moment)
    (start : Moment) (notes : List Note) (findings : Findings) : Prop where
  /-- They are made up of what was taken in, in that order. -/
  madeUp : findings = madeOf (readings notes)
  degraded : findings.degradedChunks = (readings notes).countP fun r =>
    decide (r.findings.narrative.level = .low ∧ r.findings.rules = [] ∧ r.findings.risks = [])
  timely : ∀ (i : Nat) c, chunks[i]? = some c → a.Timely project commit deadline notes i c
  noOther : ∀ i, chunks.length ≤ i → own i notes = []
  all : deadline = none → ∀ i, i < chunks.length → IsTaken notes i
  full : (∀ d, deadline = some d → start ≤ Duration.roundUp d) → a.Full chunks.length notes

/-- What comes of a watched analysis of chunks that has begun at `start`. -/
structure Accounts (a : Analyst σ) (project commit : String) (chunks : List Chunk) (deadline : Option Moment)
    (start : Moment) (outcome : Outcome (Diary σ Event) Findings) : Prop where
  returned : ∀ findings, outcome.value? = some findings →
    a.AccountsFor project commit chunks deadline start outcome.state.notes findings
  /-- Of each reading that was taken in there was told once, and they were counted from one on. -/
  told : ∀ (k : Nat) reading told, (takings outcome.state.notes)[k]? = some (reading, told) →
    told = [Tally.event { completed := k + 1 } chunks.length]
  inOrder : (Diary.moments start outcome.state.notes).Pairwise (· ≤ ·)
  inTime : ∀ i t reading told, ⟨i, t, .taken reading told⟩ ∈ outcome.state.notes → ∀ d, deadline = some d →
    t ≤ max start (Duration.roundUp d)
  /-- At no time are more readings under way than there may be. -/
  most : ∀ notes, notes <+: outcome.state.notes →
    ∀ l : Finset Nat, (∀ i ∈ l, UnderWay notes i) → l.card ≤ max 1 a.capacity
  /-- Whenever time passes no more readings can be under way. -/
  least : ∀ notes note, notes ++ [note] <+: outcome.state.notes → (∀ v ∈ Diary.moments start notes, v < note.moment) →
    a.Full chunks.length notes

section Accounts

variable {a : Analyst σ} {project commit : String} {chunks : List Chunk} {deadline : Option Moment} {start : Moment}
  {notes : List Note} {i : Nat} {c : Chunk}

theorem full_of_full (h : Diary.Full Busy Begun (max 1 a.capacity) chunks.length notes) :
    a.Full chunks.length notes := by
  intro i hi
  rcases h with hall | ⟨l, hcard, hl⟩
  · exact .inl (begun_own_iff.mp (hall i hi))
  · exact .inr ⟨l, hcard, fun j hj => busy_own_iff.mp (hl j hj).2⟩

/-- What is noted on a chunk is how its reading goes on. -/
theorem timely_of_found [Nonempty σ] {y : Option Reading} (hc : chunks[i]? = some c)
    (h : Activity.Found (a.Rests project commit chunks i) (a.Taken project commit chunks i)
      (deadline.map Duration.roundUp) (own i notes) y) : a.Timely project commit deadline notes i c := by
  have hmem : ∀ t x, ⟨i, t, x⟩ ∈ notes ↔ ⟨i, t, x⟩ ∈ own i notes := fun _ _ => Diary.mem_own.symm
  -- a reading that still waits goes on past the deadline
  have hwaits : ∀ {begun t : Moment} {u : Option Moment} {n : Activity σ Reading} {c' : Chunk}, chunks[i]? = some c' →
      Leads (· = begun) (a.read project commit c') (.wait u n) t →
      (∀ v, u = some v → ∃ l, deadline.map Duration.roundUp = some l ∧ l < v) → ∀ stalls post,
        (a.read project commit c).TurnsOut stalls post begun →
          stalls ∨ ∃ d r stop, deadline = some d ∧ Duration.roundUp d < stop ∧ post r stop := by
    intro begun t u n c' hc' hleads hlate stalls post hturns
    cases hc.symm.trans hc'
    refine (hleads.late fun _ hb => hb ▸ hturns).imp_right ?_
    rintro ⟨v, r, stop, rfl, hle, hpost⟩
    obtain ⟨l, hl, hlt⟩ := hlate v rfl
    obtain ⟨d, hd, rfl⟩ := Option.map_eq_some_iff.mp hl
    exact ⟨d, r, stop, hd, Nat.lt_of_lt_of_le hlt hle, hpost⟩
  generalize hown : own i notes = o at h
  cases h with
  | @ended reading stop _ htaken =>
    cases htaken with
    | @intro c' begun asked _ answer _ told hc' hleads hstems =>
      cases hc.symm.trans hc'
      refine ⟨.inr (.inr (.inr ⟨begun, asked, answer, stop, reading, told, hstems, hown⟩)),
        fun begun' hbegun stalls post hturns => .inl ⟨stop, reading, told, by simp [hmem, hown], ?_⟩⟩
      have hsame : begun' = begun := by simpa [hmem, hown] using hbegun
      exact (Lasting.turnsOut stalls post).of_leads hleads fun _ hb => by rwa [hb, ← hsame]
  | waits hlate hrests =>
    cases hrests with
    | @asking c' begun _ _ _ hc' hleads =>
      refine ⟨.inr (.inl ⟨begun, hown⟩), fun begun' hbegun stalls post hturns => .inr ?_⟩
      have hsame : begun' = begun := by simpa [hmem, hown] using hbegun
      exact hwaits hc' hleads hlate stalls post (hsame ▸ hturns)
    | @reading c' begun asked _ _ _ answer hc' hleads =>
      refine ⟨.inr (.inr (.inl ⟨begun, asked, answer, hown⟩)), fun begun' hbegun stalls post hturns => .inr ?_⟩
      have hsame : begun' = begun := by simpa [hmem, hown] using hbegun
      exact hwaits hc' hleads hlate stalls post (hsame ▸ hturns)
  | kept => exact ⟨.inl hown, fun begun hbegun => by simp [hmem, hown] at hbegun⟩

/-- A reading that a pool has not left waiting was taken in. -/
theorem isTaken_of_found {reading : Reading}
    (h : Activity.Found (a.Rests project commit chunks i) (a.Taken project commit chunks i)
      (deadline.map Duration.roundUp) (own i notes) (some reading)) : IsTaken notes i := by
  generalize hown : own i notes = o at h
  cases h with
  | @ended _ stop _ htaken =>
    cases htaken with
    | @intro _ _ _ _ _ _ told _ _ _ => exact ⟨stop, reading, told, Diary.mem_own.mp (by simp [hown])⟩

/-- How a pool that was stopped accounts for what was read. -/
theorem accountsFor_of_halted [Nonempty σ] {slots : Activity.Slots (Diary σ Event) Reading}
    {ended : List (Nat × Reading)} {ticket : Nat} {t : Moment} (hcount : slots.length = chunks.length)
    (h : Activity.Halted (a.Rests project commit chunks) (a.Ends project commit chunks) (a.Taken project commit chunks)
      (max 1 a.capacity) (deadline.map Duration.roundUp) start slots ended ticket t notes)
    (hover : deadline.map Duration.roundUp = none → ∀ slot ∈ slots, slot = .finished) :
    a.AccountsFor project commit chunks deadline start notes (madeOf (readings notes)) where
  madeUp := rfl
  degraded := by
    rw [degradedChunks_madeOf]
    refine List.countP_congr fun r _ => ?_
    simp [ChunkFindings.isDegraded, and_assoc]
  timely i c hc := by
    have hlt : i < slots.length := hcount ▸ (List.getElem?_eq_some_iff.mp hc).1
    obtain ⟨y, hfound, -⟩ := h.exists_found hlt
    exact timely_of_found hc hfound
  noOther i hi := h.fresh i fun slot hslot => by
    rw [List.getElem?_eq_none (hcount ▸ hi)] at hslot
    cases hslot
  all hnone i hi := by
    obtain ⟨y, hfound, hleft⟩ := h.exists_found (hcount ▸ hi)
    have hlt : i < slots.length := hcount ▸ hi
    cases y with
    | some reading => exact isTaken_of_found hfound
    | none =>
      refine absurd ?_ (hleft rfl)
      rw [List.getElem?_eq_getElem hlt, hover (by rw [hnone]; rfl) _ (List.getElem_mem hlt)]
  full hstart := by
    refine full_of_full (hcount ▸ h.full (a.telling project commit chunks) fun l hl => ?_)
    obtain ⟨d, hd, rfl⟩ := Option.map_eq_some_iff.mp hl
    exact hstart d hd

/-- What comes of an analysis whose chunks are watched. -/
theorem accounts_watchedAnalyze (a : Analyst σ) (project commit : String) (chunks : List Chunk)
    (deadline : Option Moment) (start : Moment) (state : σ) :
    a.Accounts project commit (chunks.filter (·.isAnalyzable)) deadline start
      ((a.watchedAnalyze project commit chunks deadline).run start ⟨state, []⟩) := by
  have : Nonempty σ := ⟨state⟩
  obtain ⟨hsettles, stop, hintime, hupTo⟩ :=
    a.settles_watchedReadAll project commit (chunks.filter (·.isAnalyzable)) deadline start state
  obtain ⟨tally, hinStep, hvalue⟩ :=
    a.leaves_watchedReadAll project commit (chunks.filter (·.isAnalyzable)) deadline start ⟨state, []⟩ rfl
  obtain ⟨hnotes, hreturned⟩ := a.run_watchedAnalyze project commit chunks deadline start state
  dsimp only at hinStep
  rw [← hnotes] at hupTo hinStep
  refine ⟨fun findings hfindings => ?_, fun k reading told hk => hinStep.inTurn k _ hk, hupTo.inOrder,
    fun i t reading told hmem d hd => ?_, fun notes hprefix l hl => ?_, fun notes note hprefix hpassed => ?_⟩
  · obtain ⟨tally', stop', d, hrun, rfl⟩ := hreturned findings hfindings
    rw [hrun] at hsettles hvalue hnotes
    obtain ⟨slots, ended, ticket, t, hcount, hhalted, -, hover⟩ := hsettles
    have hsum : tally'.findings = madeOf (readings d.notes) := by
      rw [hvalue tally' rfl, hinStep.adds, foldl_add_eq, hnotes]
      rfl
    rw [hsum, hnotes]
    exact accountsFor_of_halted hcount hhalted hover
  · have hle : t ≤ stop := hupTo.upTo t (List.mem_cons_of_mem _ (List.mem_map_of_mem hmem))
    exact Nat.le_trans hle (hintime _ (by rw [hd]; rfl))
  · exact hupTo.most notes hprefix l fun i hi => busy_own_iff.mpr (hl i hi)
  · exact full_of_full (hupTo.least notes note hprefix hpassed)

/-- An analysis ends when no reading crashes, the vectors are stored, and every reading ends unless there is a
deadline. -/
theorem exists_run_watchedAnalyze
    (hreads : ∀ c ∈ chunks.filter (·.isAnalyzable), ∀ t,
      (a.read project commit c).TurnsOut (deadline ≠ none) (fun r _ => ∃ x, r = .ok x) t)
    (hstores : ∀ t, (a.storeVectors project (chunks.filter (·.isAnalyzable))).Concludes t) (start : Moment)
    (state : σ) : ∃ findings stop d,
      (a.watchedAnalyze project commit chunks deadline).run start ⟨state, []⟩ = .finished findings stop d := by
  obtain ⟨hsettles, -⟩ := a.settles_watchedReadAll project commit (chunks.filter (·.isAnalyzable)) deadline start state
  rw [watchedAnalyze_eq]
  cases hrun : (a.watchedReadAll project commit (chunks.filter (·.isAnalyzable)) deadline).run start
    (⟨state, []⟩ : Diary σ Event) with
  | finished tally t d =>
    rw [Activity.run_andThen_of_run hrun]
    have hturns := a.turnsOut_finishUp project (chunks.filter (·.isAnalyzable)) (hstores t) tally
    obtain ⟨findings, stop, d', hfinished, -⟩ := hturns.exists_run (p := fun _ _ => True) d
    exact ⟨findings, stop, d', hfinished⟩
  | crashed m t d =>
    rw [hrun] at hsettles
    obtain ⟨i, hends⟩ := hsettles
    cases hends with
    | crashed hc hleads =>
      obtain ⟨x, hx⟩ := (Lasting.turnsOut _ _).of_leads hleads fun t' _ => hreads _ (List.mem_of_getElem? hc) t'
      cases hx
  | stuck t d =>
    rw [hrun] at hsettles
    obtain ⟨slots, ended, ticket, t', -, hhalted, hlimit, slot, hslot, hactive⟩ := hsettles
    obtain ⟨i, hi⟩ := List.mem_iff_getElem?.mp hslot
    obtain ⟨t₀, u, hlate, hrests⟩ := hhalted.exists_rests hi hactive
    -- there is no deadline, so the reading waits for ever
    have hnever : u = none := Option.eq_none_iff_forall_ne_some.mpr fun v hv => by
      obtain ⟨l, hl, -⟩ := hlate v hv
      rw [hlimit] at hl
      cases hl
    subst hnever
    have hstalls : ∀ {c : Chunk} {begun : Moment} {n : Activity σ Reading},
        (chunks.filter (·.isAnalyzable))[i]? = some c →
          ¬ Leads (· = begun) (a.read project commit c) (.wait none n) t₀ := fun hc hleads =>
      (Lasting.turnsOut _ _).of_leads hleads (fun t'' _ => hreads _ (List.mem_of_getElem? hc) t'')
        (Option.map_eq_none_iff.mp hlimit)
    generalize own i d.notes = o at hrests
    cases hrests with
    | asking hc hleads => exact absurd hleads (hstalls hc)
    | reading hc hleads => exact absurd hleads (hstalls hc)

end Accounts

/-- What can be relied on in an analysis of chunks that begins at a moment in a state. -/
structure Reliable (a : Analyst σ) (project commit : String) (chunks : List Chunk) (deadline : Option Moment)
    (start : Moment) (state : σ) : Prop where
  accounts : a.Accounts project commit (chunks.filter (·.isAnalyzable)) deadline start
    ((a.watchedAnalyze project commit chunks deadline).run start ⟨state, []⟩)
  /-- Nothing comes out differently when the chunks are watched. -/
  unwatched : (a.analyze project commit chunks deadline).run start state =
    ((a.watchedAnalyze project commit chunks deadline).run start ⟨state, []⟩).mapState Diary.state
  /-- It ends when no reading crashes, the vectors are stored, and every reading ends unless there is a deadline. -/
  returns : (∀ c ∈ chunks.filter (·.isAnalyzable), ∀ t,
      (a.read project commit c).TurnsOut (deadline ≠ none) (fun r _ => ∃ x, r = .ok x) t) →
    (∀ t, (a.storeVectors project (chunks.filter (·.isAnalyzable))).Concludes t) →
    ∃ findings stop state', (a.analyze project commit chunks deadline).run start state = .finished findings stop state'
  /-- It is the same without the chunks that cannot be analysed. -/
  others : a.analyze project commit (chunks.filter (·.isAnalyzable)) deadline = a.analyze project commit chunks deadline
  /-- Nobody is asked about these: it is the same when others answer who do as before on all chunks but these. -/
  unasked : ∀ checkpoints completion,
    a.AnswersAlike project (chunks.filter (·.isAnalyzable)) checkpoints completion →
      (a.servedBy checkpoints completion).analyze project commit chunks deadline =
        a.analyze project commit chunks deadline

/-- Analyses account for what was read. -/
theorem analyze_reliable (a : Analyst σ) (project commit : String) (chunks : List Chunk) (deadline : Option Moment)
    (start : Moment) (state : σ) : a.Reliable project commit chunks deadline start state := by
  have hunwatched : (a.analyze project commit chunks deadline).run start state =
      ((a.watchedAnalyze project commit chunks deadline).run start ⟨state, []⟩).mapState Diary.state :=
    ((a.mirrors_watchedAnalyze project commit chunks deadline).run start ⟨state, []⟩).eq_mapState fun _ _ => id
  refine ⟨a.accounts_watchedAnalyze project commit chunks deadline start state, hunwatched, fun hreads hstores => ?_, ?_,
    fun _ _ halike => halike.analyze_eq commit deadline⟩
  · obtain ⟨findings, stop, d, hrun⟩ := exists_run_watchedAnalyze hreads hstores start state
    rw [hunwatched, hrun]
    exact ⟨findings, stop, d.state, rfl⟩
  · unfold analyze
    simp only [List.filter_filter, Bool.and_self]

end Analyst
end CodeAtlas
