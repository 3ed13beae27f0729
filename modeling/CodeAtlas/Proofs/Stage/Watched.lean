import CodeAtlas.Proofs.Activity.Series
import CodeAtlas.Proofs.Activity.Diary
import CodeAtlas.Proofs.Stage.Alike

/-! Groups whose stages are watched. Each stage notes when its work begins, and when it ends and with what. The notes
tell what is reported on each stage, that its work goes on as it does alone, and how many stages are at work at a time:
never more than the group has capacity for, and fewer only when all have begun. Watching changes nothing, so that what
the notes tell holds of every group. -/
namespace CodeAtlas

open Activity (Diary Lasting Leads Mirrors Pairs TurnsOut)
open Activity.Diary (own)

variable {σ α : Type}

namespace Stage

/-- What is noted on a stage. -/
inductive Event (α : Type) where
  | began
  | ended (result : Result α)

/-- A note on a stage, under its place. -/
abbrev Note (α : Type) := Diary.Note (Event α)

/-- Do the work of a stage, and note when it begins, and when it ends and with what. -/
def watch (i : Nat) (work : Activity σ (Except Failure α)) : Activity (Diary σ (Event α)) (Except Failure α) :=
  (Diary.note i .began).andThen fun _ => (Diary.lift work).catchCrash.andThen fun result =>
    (Diary.note i (.ended result)).andThen fun _ => conclude result

/-- A stage that is watched. -/
def watched (i : Nat) (s : Stage σ α) : Stage (Diary σ (Event α)) α := ⟨s.name, watch i s.work⟩

/-- Whether a stage has begun, going by the notes. -/
def HasBegun (notes : List (Note α)) (i : Nat) : Prop := ∃ t, ⟨i, t, .began⟩ ∈ notes

/-- Whether a stage has ended, going by the notes. -/
def HasEnded (notes : List (Note α)) (i : Nat) : Prop := ∃ t result, ⟨i, t, .ended result⟩ ∈ notes

/-- Whether a stage is at work, going by the notes. -/
def AtWork (notes : List (Note α)) (i : Nat) : Prop := HasBegun notes i ∧ ¬ HasEnded notes i

/-- A watched stage does what the stage does. -/
theorem mirrors_watch (i : Nat) (work : Activity σ (Except Failure α)) :
    Mirrors Diary.state Eq (watch i work).catchCrash work.catchCrash := by
  refine .silent (fun _ _ => rfl) fun _ _ => ?_
  dsimp only
  induction work with
  | done x => exact .silent (fun _ _ => rfl) fun _ _ => .done rfl
  | crash m => exact .silent (fun _ _ => rfl) fun _ _ => .done rfl
  | act c n ih => exact .act (fun _ _ => rfl) fun t d => ih t d.state
  | wait u n ih => exact .wait ih

/-- What a stage has noted that waits. Before its work begins and after it has ended it waits only for its turn. -/
inductive Rests (i : Nat) (s : Stage σ α) : Moment → Option Moment → List (Note α) → Prop
  | before {t : Moment} : Rests i s t (some t) []
  | during {begun t : Moment} {u : Option Moment} {n : Activity σ (Except Failure α)} :
      Leads (· = begun) s.work (.wait u n) t → Rests i s t u [⟨i, begun, .began⟩]
  | after {begun t : Moment} {result : Result α} :
      Leads (· = begun) s.work (conclude result) t →
      Rests i s t (some t) [⟨i, begun, .began⟩, ⟨i, t, .ended result⟩]

/-- What a stage hands over is what it has noted. -/
inductive Ends (i : Nat) (s : Stage σ α) : Except String (Report α × Moment) → Moment → List (Note α) → Prop
  | intro {begun stop : Moment} {result : Result α} : Leads (· = begun) s.work (conclude result) stop →
      Ends i s (.ok (⟨s.name, stop - begun, endingOf result⟩, stop)) stop
        [⟨i, begun, .began⟩, ⟨i, stop, .ended result⟩]

/-- How the work of a stage ends that is watched. -/
def EndsWatched (i : Nat) (s : Stage σ α) (begun : Moment) (r : Except String (Result α)) (t : Moment)
    (o : List (Note α)) : Prop :=
  ∃ result, r = .ok result ∧ Leads (· = begun) s.work (conclude result) t ∧
    o = [⟨i, begun, .began⟩, ⟨i, t, .ended result⟩]

theorem abides_watch (i : Nat) (s : Stage σ α) (t : Moment) :
    (watch i s.work).catchCrash.Abides i (Rests i s) (s.EndsWatched i t) t [] := by
  refine .catchCrash (.note_andThen ?_)
  have hwork : (Diary.lift s.work).catchCrash.Abides i (Rests i s)
      (fun r t' (o : List (Note α)) => ∃ result, r = .ok result ∧ Leads (· = t) s.work (conclude result) t' ∧
        o = [⟨i, t, .began⟩]) t [⟨i, t, .began⟩] :=
    .catchCrash (.lift (Lasting.leads (· = t) s.work) (.start rfl) (fun _ _ _ hleads => .during hleads)
      (fun _ x hleads => ⟨.ok x, rfl, hleads, rfl⟩) fun _ m hleads => ⟨.error m, rfl, hleads, rfl⟩)
  refine hwork.andThen ?_ ?_
  · rintro result stop _ ⟨_, ⟨⟩, hleads, rfl⟩
    refine .note_andThen ?_
    cases result with
    | ok x => exact ⟨.ok x, rfl, hleads, rfl⟩
    | error m => exact ⟨.error m, rfl, hleads, rfl⟩
  · rintro m _ _ ⟨_, ⟨⟩, -⟩

/-- What has been noted on a stage tells how far it has come. -/
theorem abides_runNoting (i : Nat) (s : Stage σ α) (t : Moment) :
    (s.watched i).runNoting.Abides i (Rests i s) (Ends i s) t [] := by
  have hrun : (s.watched i).run.Abides i (Rests i s)
      (fun r stop o => ∃ result, r = .ok ⟨s.name, stop - t, endingOf result⟩ ∧
        Leads (· = t) s.work (conclude result) stop ∧ o = [⟨i, t, .began⟩, ⟨i, stop, .ended result⟩]) t [] := by
    refine .now_andThen (.giveWay_andThen .before ((abides_watch i s t).andThen ?_ ?_))
    · rintro result stop _ ⟨_, ⟨⟩, hleads, rfl⟩
      exact .giveWay_andThen (.after hleads) (.now_andThen ⟨result, rfl, hleads, rfl⟩)
    · rintro m _ _ ⟨_, ⟨⟩, -⟩
  refine hrun.andThen ?_ ?_
  · rintro _ stop _ ⟨result, ⟨⟩, hleads, rfl⟩
    exact .now_andThen (.intro hleads)
  · rintro m _ _ ⟨_, ⟨⟩, -⟩

/-- Work that has concluded has turned out as it does. -/
theorem post_of_leads {stalls : Prop} {post : Result α → Moment → Prop} {begun t : Moment} {result : Result α}
    {work : Activity σ (Except Failure α)} (h : Leads (· = begun) work (conclude result) t)
    (hturns : work.TurnsOut stalls post begun) : post result t := by
  have hend : (conclude result : Activity σ _).TurnsOut stalls post t :=
    (Lasting.turnsOut stalls post).of_leads h fun _ hbegun => hbegun ▸ hturns
  cases result with
  | ok x => exact hend
  | error m => exact hend

end Stage

namespace StageGroup

/-- Whether a group can be run: one that has stages must not be given a greater capacity than there is. -/
def HasRoom (g : StageGroup σ α) : Prop := g.stages = [] ∨ ∀ c, g.capacity = some c → c ≤ maxCapacity

/-- The moment at which the timer for a group's timeout goes off. -/
def limit? (g : StageGroup σ α) (start : Moment) : Option Moment :=
  g.timeout.map fun d => Duration.roundUp (start + d)

/-- A group whose stages are watched, each under its place. -/
def watched (g : StageGroup σ α) : StageGroup (Diary σ (Stage.Event α)) α :=
  ⟨g.name, g.stages.mapIdx Stage.watched, g.capacity, g.timeout⟩

/-- What is noted on a stage of a group that has begun at `start`. Its work begins and ends once at most, and takes the
way that it takes alone from the moment at which it begins: when it has not come to its end, it never does, or not
before the time is up. -/
structure Timely (g : StageGroup σ α) (start : Moment) (notes : List (Stage.Note α)) (i : Nat) (s : Stage σ α) :
    Prop where
  once : own i notes = [] ∨ (∃ begun, own i notes = [⟨i, begun, .began⟩]) ∨
    ∃ begun stop result, own i notes = [⟨i, begun, .began⟩, ⟨i, stop, .ended result⟩]
  goesOn : ∀ begun, ⟨i, begun, .began⟩ ∈ notes → ∀ stalls post, s.work.TurnsOut stalls post begun →
    (∃ stop result, ⟨i, stop, .ended result⟩ ∈ notes ∧ post result stop) ∨ stalls ∨
      ∃ l result stop, g.limit? start = some l ∧ l < stop ∧ post result stop

/-- What is reported on a stage of a group that has begun at `start`, going by the notes: what the stage has ended with,
if that was before the time was up, or else that the time was up. Nothing is said of a stage that ends at that very
moment. -/
structure Told (g : StageGroup σ α) (start : Moment) (notes : List (Stage.Note α)) (i : Nat) (s : Stage σ α)
    (report : Stage.Report α) : Prop where
  inTime : ∀ stop result, ⟨i, stop, .ended result⟩ ∈ notes → (∀ l, g.limit? start = some l → stop < l) →
    ∃ begun, ⟨i, begun, .began⟩ ∈ notes ∧ report = ⟨s.name, stop - begun, Stage.endingOf result⟩
  late : ∀ l, g.limit? start = some l → (∀ stop result, ⟨i, stop, .ended result⟩ ∈ notes → l < stop) →
    report = g.skip s
  unlimited : g.timeout = none → Stage.HasEnded notes i

/-- Whether no more stages of a group can be at work, going by the notes: who has not begun is kept from it by as many
as the group has capacity for. -/
def Full (g : StageGroup σ α) (notes : List (Stage.Note α)) : Prop :=
  ∀ i, i < g.stages.length → Stage.HasBegun notes i ∨
    ∃ c, g.capacity = some c ∧ ∃ l : Finset Nat, max 1 c ≤ l.card ∧ ∀ j ∈ l, Stage.AtWork notes j

/-- What comes of a watched group that has begun at `start`. -/
structure Accounts (g : StageGroup σ α) (start : Moment)
    (outcome : Activity.Outcome (Diary σ (Stage.Event α)) (List (Stage.Report α))) : Prop where
  /-- It ends, unless there is no timeout and a stage is at work for ever. -/
  comesOut : (∃ reports stop d, outcome = .finished reports stop d) ∨
    g.timeout = none ∧ (∃ stop d, outcome = .stuck stop d) ∧
      ∃ i, i < g.stages.length ∧ Stage.AtWork outcome.state.notes i
  /-- There is one report for each stage, in order and under its name. -/
  names : ∀ reports stop d, outcome = .finished reports stop d →
    reports.map Stage.Report.name = g.stages.map Stage.name
  told : ∀ reports stop d, outcome = .finished reports stop d → ∀ (i : Nat) s report, g.stages[i]? = some s →
    reports[i]? = some report → g.Told start d.notes i s report
  timely : ∀ (i : Nat) s, g.stages[i]? = some s → g.Timely start outcome.state.notes i s
  inOrder : (Diary.moments start outcome.state.notes).Pairwise (· ≤ ·)
  /-- At no time are more stages at work than the group has capacity for. -/
  most : ∀ c, g.capacity = some c → ∀ notes, notes <+: outcome.state.notes →
    ∀ l : Finset Nat, (∀ i ∈ l, Stage.AtWork notes i) → l.card ≤ max 1 c
  /-- Whenever time passes no more stages can be at work. -/
  least : ∀ notes note, notes ++ [note] <+: outcome.state.notes → (∀ v ∈ Diary.moments start notes, v < note.moment) →
    g.Full notes
  full : g.Full outcome.state.notes

section Accounts

variable {g : StageGroup σ α} {start : Moment} {notes : List (Stage.Note α)} {i : Nat} {s : Stage σ α}
  {ended : Option (Stage.Report α × Moment)}

theorem le_limit? {l : Moment} (h : g.limit? start = some l) : start ≤ l := by
  obtain ⟨d, -, rfl⟩ := Option.map_eq_some_iff.mp h
  exact Nat.le_trans (Nat.le_add_right start d) (Duration.le_roundUp (start + d))

theorem name_reportOf (h : Activity.Found (Stage.Rests i s) (Stage.Ends i s) (g.limit? start) (own i notes) ended) :
    (g.watched.reportOf (g.limit? start) (s.watched i) ended).name = s.name := by
  generalize own i notes = o at h
  cases h with
  | ended hends =>
    cases hends
    unfold reportOf
    dsimp only
    split <;> rfl
  | waits => rfl
  | kept => rfl

/-- What a stage has noted is how its work goes on. -/
theorem timely_of_found [Nonempty σ]
    (h : Activity.Found (Stage.Rests i s) (Stage.Ends i s) (g.limit? start) (own i notes) ended) :
    g.Timely start notes i s := by
  have hmem : ∀ t x, ⟨i, t, x⟩ ∈ notes ↔ ⟨i, t, x⟩ ∈ own i notes := fun _ _ => Diary.mem_own.symm
  -- the work has concluded, whether or not this has been reported on
  have hconcluded : ∀ {begun stop result}, own i notes = [⟨i, begun, .began⟩, ⟨i, stop, .ended result⟩] →
      Leads (· = begun) s.work (Stage.conclude result) stop → g.Timely start notes i s := by
    intro begun stop result hown hleads
    refine ⟨.inr (.inr ⟨begun, stop, result, hown⟩), fun begun' hbegun stalls post hturns => ?_⟩
    have hsame : begun' = begun := by simpa [hmem, hown] using hbegun
    subst hsame
    exact .inl ⟨stop, result, by simp [hmem, hown], Stage.post_of_leads hleads hturns⟩
  have hfresh : own i notes = [] → g.Timely start notes i s := fun hown =>
    ⟨.inl hown, fun begun hbegun => by simp [hmem, hown] at hbegun⟩
  generalize hown : own i notes = o at h
  cases h with
  | ended hends =>
    cases hends with
    | intro hleads => exact hconcluded hown hleads
  | waits hlate hrests =>
    cases hrests with
    | before => exact hfresh hown
    | @during begun t u n hleads =>
      refine ⟨.inr (.inl ⟨begun, hown⟩), fun begun' hbegun stalls post hturns => .inr ?_⟩
      have hsame : begun' = begun := by simpa [hmem, hown] using hbegun
      subst hsame
      refine (hleads.late fun _ hb => hb ▸ hturns).imp_right ?_
      rintro ⟨v, result, stop, hv, hle, hpost⟩
      obtain ⟨l, hl, hlt⟩ := hlate v hv
      exact ⟨l, result, stop, hl, Nat.lt_of_lt_of_le hlt hle, hpost⟩
    | after hleads => exact hconcluded hown hleads
  | kept => exact hfresh hown

/-- What a stage has noted decides what is reported on it. -/
theorem told_of_found (h : Activity.Found (Stage.Rests i s) (Stage.Ends i s) (g.limit? start) (own i notes) ended)
    (hlimit : ended = none → g.limit? start ≠ none) :
    g.Told start notes i s (g.watched.reportOf (g.limit? start) (s.watched i) ended) := by
  have hmem : ∀ t x, ⟨i, t, x⟩ ∈ notes ↔ ⟨i, t, x⟩ ∈ own i notes := fun _ _ => Diary.mem_own.symm
  generalize own i notes = o at h hmem
  have htimeout : g.timeout = none → ended ≠ none := fun hnone hy => hlimit hy (by rw [limit?, hnone]; rfl)
  cases h with
  | @ended _ stop _ hends =>
    cases hends with
    | @intro begun _ result =>
      refine ⟨fun stop' result' hended hbefore => ?_, fun l hl hafter => ?_, fun _ => ⟨stop, result, ?_⟩⟩
      · have hsame : stop' = stop ∧ result' = result := by simpa [hmem] using hended
        obtain ⟨rfl, rfl⟩ := hsame
        refine ⟨begun, by simp [hmem], ?_⟩
        have hnot : ¬ (g.limit? start).any (· ≤ stop') = true := by
          cases hl : g.limit? start with
          | none => simp
          | some l => simpa using hbefore l hl
        exact if_neg hnot
      · have hlt : l < stop := hafter stop result (by simp [hmem])
        exact if_pos (by simpa [hl] using Nat.le_of_lt hlt)
      · simp [hmem]
  | @waits t u _ hlate hrests =>
    refine ⟨fun stop result hended hbefore => ?_, fun _ _ _ => rfl, fun hnone => absurd rfl (htimeout hnone)⟩
    rw [hmem] at hended
    cases hrests with
    | before => cases hended
    | during => simp at hended
    | @after _ _ result' =>
      -- who has ended waits only for its turn, and this comes before the time is up
      have hsame : stop = t ∧ result = result' := by simpa using hended
      obtain ⟨l, hl, hlt⟩ := hlate stop (hsame.1 ▸ rfl)
      exact absurd hlt (Nat.lt_asymm (hbefore l hl))
  | kept =>
    refine ⟨fun stop result hended => ?_, fun _ _ _ => rfl, fun hnone => absurd rfl (htimeout hnone)⟩
    cases (hmem _ _).mp hended

/-- Who has begun in the pool of a watched group, and who is busy in it, going by what each has noted. -/
abbrev Begun (o : List (Stage.Note α)) : Prop := ∃ i t, ⟨i, t, .began⟩ ∈ o

abbrev Busy (o : List (Stage.Note α)) : Prop := Begun o ∧ ¬ ∃ i t result, ⟨i, t, .ended result⟩ ∈ o

theorem begun_own_iff : Begun (own i notes) ↔ Stage.HasBegun notes i := by
  simp [Begun, Stage.HasBegun, own]

theorem busy_own_iff : Busy (own i notes) ↔ Stage.AtWork notes i := by
  simp [Busy, Begun, Stage.AtWork, Stage.HasBegun, Stage.HasEnded, own]

/-- What the stage at a place of a group has noted that waits. -/
def RestsAt (g : StageGroup σ α) (i : Nat) (t : Moment) (u : Option Moment) (o : List (Stage.Note α)) : Prop :=
  ∃ s, g.stages[i]? = some s ∧ s.Rests i t u o

/-- What the stage at a place of a group hands over is what it has noted. -/
def EndsAt (g : StageGroup σ α) (i : Nat) (r : Except String (Stage.Report α × Moment)) (t : Moment)
    (o : List (Stage.Note α)) : Prop :=
  ∃ s, g.stages[i]? = some s ∧ s.Ends i r t o

/-- What stages note tells who has begun and who is busy. -/
theorem telling (g : StageGroup σ α) : Activity.Telling Busy Begun g.RestsAt g.EndsAt where
  busy_nil := by simp [Busy, Begun]
  begun_of_busy _ h := h.1
  waits := by
    rintro i t u o ⟨s, -, hrests⟩ hidle
    cases hrests with
    | before => rfl
    | during => exact absurd ⟨⟨_, _, List.mem_singleton_self _⟩, by simp⟩ hidle
    | after => rfl
  ended := by
    rintro i r t o ⟨s, -, hends⟩
    cases hends with
    | intro => exact ⟨by simp [Busy], by simp [Begun]⟩

theorem found_of_foundAt (hs : g.stages[i]? = some s)
    (h : Activity.Found (g.RestsAt i) (g.EndsAt i) (g.limit? start) (own i notes) ended) :
    Activity.Found (Stage.Rests i s) (Stage.Ends i s) (g.limit? start) (own i notes) ended := by
  generalize own i notes = o at h ⊢
  cases h with
  | ended hends =>
    obtain ⟨s', hs', hends⟩ := hends
    cases hs.symm.trans hs'
    exact .ended hends
  | waits hlate hrests =>
    obtain ⟨s', hs', hrests⟩ := hrests
    cases hs.symm.trans hs'
    exact .waits hlate hrests
  | kept => exact .kept

/-- The members of the pool that runs a watched group. -/
theorem abides_member {a : Activity (Diary σ (Stage.Event α)) (Stage.Report α × Moment)}
    (ha : (g.watched.stages.map Stage.runNoting)[i]? = some a) (t : Moment) :
    a.Abides i (g.RestsAt i) (g.EndsAt i) t [] := by
  rw [List.getElem?_map, watched, List.getElem?_mapIdx] at ha
  obtain ⟨_, hwatched, rfl⟩ := Option.map_eq_some_iff.mp ha
  obtain ⟨s, hs, rfl⟩ := Option.map_eq_some_iff.mp hwatched
  exact (Stage.abides_runNoting i s t).mono (fun _ _ _ hrests => ⟨s, hs, hrests⟩) fun _ _ _ hends => ⟨s, hs, hends⟩

/-- Each report is on the stage in its place. -/
theorem exists_of_getElem?_reports {limit : Option Moment} {ended : List (Option (Stage.Report α × Moment))}
    {report : Stage.Report α}
    (h : ((g.watched.stages.zip ended).map fun p => g.watched.reportOf limit p.1 p.2)[i]? = some report) :
    ∃ s y, g.stages[i]? = some s ∧ ended[i]? = some y ∧ report = g.watched.reportOf limit (s.watched i) y := by
  rw [List.getElem?_map] at h
  obtain ⟨⟨x, y⟩, hpair, rfl⟩ := Option.map_eq_some_iff.mp h
  obtain ⟨hx, hy⟩ := List.getElem?_zip_eq_some.mp hpair
  rw [watched, List.getElem?_mapIdx] at hx
  obtain ⟨s, hs, rfl⟩ := Option.map_eq_some_iff.mp hx
  exact ⟨s, y, hs, hy, rfl⟩

/-- How many stages a group runs at a time. -/
abbrev width (g : StageGroup σ α) : Nat := (g.capacity.map (max 1)).getD g.stages.length

/-- Who has not begun is kept from it by others, and so there is a capacity. -/
theorem full_of_full (h : Diary.Full Busy Begun g.width g.stages.length notes) : g.Full notes := by
  intro i hi
  rcases h with hall | ⟨l, hcard, hl⟩
  · exact .inl (begun_own_iff.mp (hall i hi))
  · have hbusy : ∀ j ∈ l, Stage.AtWork notes j := fun j hj => busy_own_iff.mp (hl j hj).2
    cases hc : g.capacity with
    | some c =>
      rw [width, hc] at hcard
      exact .inr ⟨c, rfl, l, hcard, hbusy⟩
    | none =>
      rw [width, hc] at hcard
      have hsub : l ⊆ Finset.range g.stages.length := fun j hj => Finset.mem_range.mpr (hl j hj).1
      have heq : l = Finset.range g.stages.length :=
        Finset.eq_of_subset_of_card_le hsub (by rwa [Finset.card_range])
      exact .inl (hbusy i (heq ▸ Finset.mem_range.mpr hi)).1

/-- What becomes of a watched group when its pool comes out. -/
theorem accounts_of_comes [Nonempty σ]
    {pool : Activity (Diary σ (Stage.Event α)) (List (Option (Stage.Report α × Moment)))}
    {d : Diary σ (Stage.Event α)}
    (hcomes : Activity.Comes Busy Begun g.RestsAt g.EndsAt g.width (g.limit? start) g.stages.length
      (pool.run start d))
    (horderly : Diary.Orderly Busy Begun g.width g.stages.length start (pool.run start d).state.notes) :
    g.Accounts start ((pool.andThen fun ended => .done ((g.watched.stages.zip ended).map fun p =>
      g.watched.reportOf (g.limit? start) p.1 p.2)).run start d) := by
  have hmost : ∀ c, g.capacity = some c → ∀ notes, notes <+: (pool.run start d).state.notes →
      ∀ l : Finset Nat, (∀ i ∈ l, Stage.AtWork notes i) → l.card ≤ max 1 c := fun c hc notes hprefix l hl => by
    have hle := horderly.most notes hprefix l fun i hi => busy_own_iff.mpr (hl i hi)
    rwa [width, hc] at hle
  have hleast : ∀ notes note, notes ++ [note] <+: (pool.run start d).state.notes →
      (∀ v ∈ Diary.moments start notes, v < note.moment) → g.Full notes := fun notes note hprefix hall =>
    full_of_full (horderly.least notes note hprefix hall)
  have hinOrder := horderly.inOrder
  cases hrun : pool.run start d with
  | crashed m t d' =>
    rw [hrun] at hcomes
    obtain ⟨i, s, -, ⟨⟩⟩ := hcomes
  | stuck t d' =>
    rw [hrun] at hcomes hmost hleast hinOrder
    obtain ⟨hfull, hlimit, hfound, i, t₀, hi, s, hs, hrests⟩ := hcomes
    rw [Activity.run_andThen_of_stuck hrun]
    refine ⟨.inr ⟨Option.map_eq_none_iff.mp hlimit, ⟨t, d', rfl⟩, i, hi, ?_⟩, nofun, nofun, fun j s' hs' => ?_,
      hinOrder, hmost, hleast, full_of_full hfull⟩
    · refine busy_own_iff.mp ?_
      show Busy (own i d'.notes)
      generalize own i d'.notes = o at hrests ⊢
      cases hrests with
      | during => simp [Busy, Begun]
    · obtain ⟨y, hy⟩ := hfound j (List.getElem?_eq_some_iff.mp hs').1
      exact timely_of_found (found_of_foundAt hs' hy)
  | finished ended t d' =>
    rw [hrun] at hcomes hmost hleast hinOrder
    obtain ⟨hfull, hlength, hfound⟩ := hcomes
    rw [Activity.run_andThen_of_run hrun]
    refine ⟨.inl ⟨_, _, _, rfl⟩, ?_, ?_, fun i s hs => ?_, hinOrder, hmost, hleast, full_of_full hfull⟩
    · rintro reports stop d ⟨⟩
      refine List.ext_getElem (by simp [hlength, watched]) fun i hi hi' => ?_
      rw [List.length_map] at hi hi'
      obtain ⟨s, y, hs, hy, hreport⟩ := exists_of_getElem?_reports (List.getElem?_eq_getElem hi)
      obtain ⟨_, rfl⟩ := List.getElem?_eq_some_iff.mp hs
      rw [List.getElem_map Stage.Report.name, hreport, List.getElem_map]
      exact name_reportOf (found_of_foundAt hs (hfound i y hy).1)
    · rintro reports stop d ⟨⟩ i s report hs hreport
      obtain ⟨s', y, hs', hy, rfl⟩ := exists_of_getElem?_reports hreport
      cases hs.symm.trans hs'
      obtain ⟨hat, hnone⟩ := hfound i y hy
      exact told_of_found (found_of_foundAt hs hat) hnone
    · have hi : i < ended.length := hlength ▸ (List.getElem?_eq_some_iff.mp hs).1
      obtain ⟨hat, -⟩ := hfound i _ (List.getElem?_eq_getElem hi)
      exact timely_of_found (found_of_foundAt hs hat)

/-- A group without stages has nothing to account for. -/
theorem accounts_of_nil (hnil : g.stages = []) (state : σ) :
    g.Accounts start (.finished [] start (⟨state, []⟩ : Diary σ (Stage.Event α))) := by
  refine ⟨.inl ⟨_, _, _, rfl⟩, ?_, ?_, fun i s hs => ?_, List.pairwise_singleton _ start,
    fun c _ notes hprefix l hl => ?_, fun notes note hprefix => ?_, fun i hi => ?_⟩
  · rintro reports stop d ⟨⟩
    rw [hnil]
    rfl
  · rintro reports stop d ⟨⟩ i s report hs
    rw [hnil] at hs
    cases hs
  · rw [hnil] at hs
    cases hs
  · have hempty : notes = [] := List.prefix_nil.mp hprefix
    subst hempty
    rcases l.eq_empty_or_nonempty with rfl | ⟨i, hi⟩
    · exact Nat.zero_le _
    · obtain ⟨⟨t, ht⟩, -⟩ := hl i hi
      cases ht
  · have hempty := List.prefix_nil.mp hprefix
    simp at hempty
  · rw [hnil] at hi
    exact absurd hi (Nat.not_lt_zero i)

/-- What comes of a group whose stages are watched. -/
theorem accounts_run (h : g.HasRoom) (start : Moment) (state : σ) :
    g.Accounts start (g.watched.run.run start ⟨state, []⟩) := by
  have : Nonempty σ := ⟨state⟩
  unfold run
  split
  · next hempty => exact accounts_of_nil (by simpa [watched] using hempty) state
  · next hstages =>
    have hsome : g.stages ≠ [] := by simpa [watched] using hstages
    split
    · next hover =>
      cases hc : g.capacity with
      | none =>
        rw [watched, hc] at hover
        cases hover
      | some c =>
        rw [watched, hc] at hover
        exact absurd (h.resolve_left hsome c hc) (by simpa using hover)
    · have hlength : (g.watched.stages.map Stage.runNoting).length = g.stages.length := by simp [watched]
      obtain ⟨hcomes, horderly⟩ := Activity.comes_together (g.limit? start) (capacity_pos hsome) g.telling start state
        (fun _ hl => le_limit? hl) fun i a ha t _ => abides_member ha t
      rw [hlength] at hcomes horderly
      have hwidth : (g.watched.capacity.map (max 1)).getD g.watched.stages.length = g.width := by
        simp [watched, width]
      rw [hwidth]
      exact accounts_of_comes hcomes horderly

end Accounts

/-- What can be relied on in a group that begins at a moment in a state. -/
structure Reliable (g : StageGroup σ α) (start : Moment) (state : σ) : Prop where
  accounts : g.Accounts start (g.watched.run.run start ⟨state, []⟩)
  /-- Nothing comes out differently when the stages are watched. -/
  unwatched : g.run.run start state = (g.watched.run.run start ⟨state, []⟩).mapState Diary.state
  /-- It ends when the work of all its stages does. -/
  ends : (∀ s ∈ g.stages, s.work.Ceases) →
    ∃ reports stop state', g.run.run start state = .finished reports stop state'
  /-- What is reported on a stage does not depend on what the others end with. -/
  independent : ∀ (i : Nat) g', AlikeBut i g g' → ∀ reports stop state',
    g.run.run start state = .finished reports stop state' →
      ∃ reports', g'.run.run start state = .finished reports' stop state' ∧ reports'[i]? = reports[i]?

/-- A group comes out as it does when its stages are watched. -/
theorem run_eq_mapState_watched (g : StageGroup σ α) (start : Moment) (state : σ) :
    g.run.run start state = (g.watched.run.run start ⟨state, []⟩).mapState Diary.state := by
  have hstages : Pairs (fun _ s s' => s'.name = s.name ∧ Mirrors Diary.state Eq s.work.catchCrash s'.work.catchCrash)
      g.watched.stages g.stages := by
    refine ⟨List.length_mapIdx, fun i s s' hs hs' => ?_⟩
    rw [watched, List.getElem?_mapIdx, hs'] at hs
    cases hs
    exact ⟨rfl, Stage.mirrors_watch i s'.work⟩
  have hmirrors : Mirrors Diary.state (Pairs fun _ => Stage.Report.Alike Eq) g.watched.run g.run :=
    mirrors_run rfl rfl rfl hstages
  refine (hmirrors.run start ⟨state, []⟩).eq_mapState fun reports reports' hreports => ?_
  simpa using hreports.map_eq (f := id) (g := id) fun _ _ _ halike => halike.eq fun _ _ hxy => hxy

/-- A group comes to an end when the work of all its stages does. -/
theorem exists_run_of_ceases {g : StageGroup σ α} (h : g.HasRoom) (hceases : ∀ s ∈ g.stages, s.work.Ceases)
    (start : Moment) (state : σ) : ∃ reports stop state', g.run.run start state = .finished reports stop state' := by
  rcases h with hnil | hcapacity
  · unfold run
    rw [hnil]
    exact ⟨[], start, state, rfl⟩
  · have : Nonempty σ := ⟨state⟩
    have hworks : ∀ (i : Nat) s, g.stages[i]? = some s → ∀ t, start ≤ t → (t = start ∨ g.Crowded) →
        s.work.TurnsOut False (fun _ _ => True) t :=
      fun i s hs t _ _ => hceases s (List.mem_of_getElem? hs) t
    have hturns := turnsOut_run hcapacity hworks
    obtain ⟨reports, stop, state', hrun, -⟩ :=
      (hturns.mono (fun ⟨_, _, hfalse⟩ => hfalse) fun _ _ _ hr => hr).exists_run state
    exact ⟨reports, stop, state', hrun⟩

/-- A group can be relied on when it has room. -/
theorem reliable_of_hasRoom (g : StageGroup σ α) (h : g.HasRoom) (start : Moment) (state : σ) :
    g.Reliable start state where
  accounts := accounts_run h start state
  unwatched := run_eq_mapState_watched g start state
  ends hceases := exists_run_of_ceases h hceases start state
  independent _ _ hg' _ _ _ hrun := hg'.getElem?_reports hrun

/-- Stages one of which is completed, one fails, one crashes and one never ends, one at a time. -/
def mixed : StageGroup Unit Nat where
  name := "mixed"
  stages := [
    ⟨"sum", (Activity.sleep (.ofMillis 5)).andThen fun _ => .done (.ok 3)⟩,
    ⟨"refusal", .done (.error (.refused "refusal" "not today"))⟩,
    ⟨"crash", .crash "out of range"⟩,
    ⟨"hang", .stall (.done (.ok 0))⟩]
  capacity := some 1
  timeout := some (.ofMillis 20)

theorem mixed_reliable : mixed.HasRoom ∧ mixed.Reliable 0 () :=
  have hroom : mixed.HasRoom := .inr fun c hc => by
    cases hc
    decide
  ⟨hroom, reliable_of_hasRoom mixed hroom 0 ()⟩

/-- A group without room crashes, whatever its stages do. -/
theorem run_of_not_hasRoom {g : StageGroup σ α} (h : ¬ g.HasRoom) (start : Moment) (state : σ) :
    g.run.run start state = .crashed capacityMessage start state := by
  unfold HasRoom at h
  push Not at h
  obtain ⟨hstages, c, hc, hover⟩ := h
  have hsome : ¬ g.stages.isEmpty = true := fun hempty => hstages (List.isEmpty_iff.mp hempty)
  have hany : g.capacity.any (maxCapacity < ·) = true := by simpa [hc] using hover
  rw [run, if_neg hsome, if_pos hany]
  rfl

/-- One stage that is completed at once, in a group with a greater capacity than there is. -/
def wide : StageGroup Unit Nat where
  name := "wide"
  stages := [⟨"sum", .done (.ok 3)⟩]
  capacity := some (maxCapacity + 1)

theorem wide_crashes : wide.run.run 0 () = .crashed capacityMessage 0 () := rfl

end StageGroup
end CodeAtlas
