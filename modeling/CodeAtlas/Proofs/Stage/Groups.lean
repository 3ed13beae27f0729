import CodeAtlas.Proofs.Activity.Alone
import CodeAtlas.Proofs.Activity.Stops
import CodeAtlas.Stage.Basic

/-! What is reported on stages. Every stage of a group is reported on, in order and under its name: either with what
its work has come to before the limit, or as skipped, and then its work takes too long or it had to wait for others.
Nothing that the work of a stage does makes the group crash, and the group changes nothing that all works leave alone. -/
namespace CodeAtlas

open Activity (Lasting TurnsOut)

variable {σ α : Type}

namespace Stage

variable {stalls : Prop} {post : Except String (Except Failure α) → Moment → Prop} {t : Moment}

/-- What the work of a stage comes to is reported, a crash too. -/
theorem turnsOut_perform (name : String) {work : Activity σ (Except Failure α)} (h : work.TurnsOut stalls post t) :
    (perform name work).TurnsOut stalls
      (fun r stop => ∃ result, post result stop ∧ r = .ok ⟨name, stop - t, endingOf result⟩) t := by
  have hcaught : work.catchCrash.TurnsOut stalls (fun r stop => ∃ result, post result stop ∧ r = .ok result) t :=
    TurnsOut.catchCrash (h.mono id fun result stop _ hpost => ⟨result, hpost, rfl⟩)
  refine TurnsOut.now_andThen (TurnsOut.giveWay_andThen (hcaught.andThen ?_ ?_))
  · rintro _ stop - ⟨result, hpost, ⟨⟩⟩
    exact TurnsOut.giveWay_andThen (TurnsOut.now_andThen ⟨_, hpost, rfl⟩)
  · rintro m stop - ⟨result, _, ⟨⟩⟩

theorem turnsOut_runNoting {s : Stage σ α} (h : s.work.TurnsOut stalls post t) :
    s.runNoting.TurnsOut stalls
      (fun r stop => ∃ result, post result stop ∧ r = .ok (⟨s.name, stop - t, endingOf result⟩, stop)) t := by
  refine (turnsOut_perform s.name h).andThen ?_ ?_
  · rintro _ stop - ⟨result, hpost, ⟨⟩⟩
    exact TurnsOut.now_andThen ⟨result, hpost, rfl⟩
  · rintro m stop - ⟨result, _, ⟨⟩⟩

end Stage

namespace StageGroup

/-- Whether stages of a group may have to wait for others. -/
def Crowded (g : StageGroup σ α) : Prop := ∃ c, g.capacity = some c ∧ max 1 c < g.stages.length

/-- What is reported on a stage whose work turns out as `post` says: what it has come to in time, or that there was no
time for it. -/
inductive Tells (g : StageGroup σ α) (limit : Option Moment) (s : Stage σ α) (stalls : Prop)
    (post : Except String (Except Stage.Failure α) → Moment → Prop) : Stage.Report α → Prop
  | inTime {result : Except String (Except Stage.Failure α)} {stop : Moment} {duration : Duration} :
      post result stop → (∀ l, limit = some l → stop < l) →
      Tells g limit s stalls post ⟨s.name, duration, Stage.endingOf result⟩
  | late {result : Except String (Except Stage.Failure α)} {stop l : Moment} :
      limit = some l → post result stop → l ≤ stop → Tells g limit s stalls post (g.skip s)
  | endless {l : Moment} : limit = some l → stalls → Tells g limit s stalls post (g.skip s)
  | kept {l : Moment} : limit = some l → g.Crowded → Tells g limit s stalls post (g.skip s)

theorem Tells.name_eq {g : StageGroup σ α} {limit : Option Moment} {s : Stage σ α} {stalls : Prop}
    {post : Except String (Except Stage.Failure α) → Moment → Prop} {report : Stage.Report α}
    (h : g.Tells limit s stalls post report) : report.name = s.name := by
  cases h <;> rfl

/-- What a stage brings is what its work has ended with. -/
theorem Tells.post_of_output? {g : StageGroup σ α} {limit : Option Moment} {s : Stage σ α} {stalls : Prop}
    {post : Except String (Except Stage.Failure α) → Moment → Prop} {report : Stage.Report α}
    (h : g.Tells limit s stalls post report) {x : α} (hout : report.output? = some x) :
    ∃ stop, post (.ok (.ok x)) stop := by
  cases h with
  | @inTime result stop _ hpost _ =>
    match result with
    | .ok (.ok y) =>
      cases hout
      exact ⟨stop, hpost⟩
    | .ok (.error e) => cases hout
    | .error m => cases hout
  | late => cases hout
  | endless => cases hout
  | kept => cases hout

/-- Nobody waits for others when there is room for all. -/
theorem crowded_of_lt {g : StageGroup σ α} (h : (g.capacity.map (max 1)).getD g.stages.length < g.stages.length) :
    g.Crowded := by
  cases hcapacity : g.capacity with
  | none =>
    rw [hcapacity] at h
    exact absurd h (Nat.lt_irrefl g.stages.length)
  | some c =>
    rw [hcapacity] at h
    exact ⟨c, hcapacity, h⟩

/-- A group that has stages can run at least one of them at a time. -/
theorem capacity_pos {g : StageGroup σ α} (h : g.stages ≠ []) :
    0 < (g.capacity.map (max 1)).getD g.stages.length := by
  cases g.capacity with
  | none => exact List.length_pos_iff.mpr h
  | some c => exact Nat.lt_of_lt_of_le Nat.zero_lt_one (Nat.le_max_left 1 c)

section Reports

variable [Nonempty σ] {g : StageGroup σ α} {t : Moment} {stalls : Nat → Prop}
  {post : Nat → Except String (Except Stage.Failure α) → Moment → Prop}

/-- What a member of the pool that runs a group's stages lasts in. -/
abbrev Noting (stalls : Nat → Prop) (post : Nat → Except String (Except Stage.Failure α) → Moment → Prop)
    (stages : List (Stage σ α)) (i : Nat) : Activity σ (Stage.Report α × Moment) → Moment → Prop :=
  TurnsOut (stalls i) fun r stop => ∃ s result duration, stages[i]? = some s ∧ post i result stop ∧
    r = .ok (⟨s.name, duration, Stage.endingOf result⟩, stop)

/-- What becomes of a stage's work decides what is reported on it. -/
theorem tells_of_fate {limit : Option Moment} {i : Nat} {s : Stage σ α} (hi : g.stages[i]? = some s) {stop : Moment}
    {ended : Option (Stage.Report α × Moment)}
    (h : Activity.Fate (Noting stalls post g.stages i) g.Crowded limit stop ended) :
    g.Tells limit s (stalls i) (post i) (g.reportOf limit s ended) := by
  have hsame : ∀ {s'}, g.stages[i]? = some s' → s' = s := fun hi' => Option.some.inj (hi'.symm.trans hi)
  cases h with
  | ended _ hdone =>
    obtain ⟨s', result, duration, hi', hpost, heq⟩ := hdone
    cases heq
    cases hsame hi'
    unfold reportOf
    dsimp only
    split
    · next hlate =>
      cases limit with
      | none => cases hlate
      | some l => exact .late rfl hpost (by simpa using hlate)
    · next hlate =>
      refine .inTime hpost fun l hl => ?_
      subst hl
      simpa using hlate
  | @cut l t₀ u a hl hlate _ hwait =>
    cases u with
    | none => exact .endless hl hwait
    | some v =>
      have hrest : a.TurnsOut (stalls i) _ (max t₀ v) := hwait
      rcases hrest.exists_outcome with hstalls | ⟨r, stop', hle, s', result, duration, hi', hpost, -⟩
      · exact .endless hl hstalls
      · cases hsame hi'
        have hv : l ≤ max t₀ v := Nat.le_trans (Nat.le_of_lt (hlate v rfl)) (Nat.le_max_right t₀ v)
        exact .late hl hpost (Nat.le_trans hv hle)
  | kept hl hcrowded => exact .kept hl hcrowded

omit [Nonempty σ] in
/-- The work of a stage lasts in what is noted of it. -/
theorem noting_runNoting {i : Nat} {s : Stage σ α} (hi : g.stages[i]? = some s) {begun : Moment}
    (h : s.work.TurnsOut (stalls i) (post i) begun) : Noting stalls post g.stages i s.runNoting begun := by
  refine (Stage.turnsOut_runNoting h).mono id ?_
  rintro r stop - ⟨result, hpost, rfl⟩
  exact ⟨s, result, stop - begun, hi, hpost, rfl⟩

/-- Each report tells of the stage in its place. -/
theorem tells_of_fates {limit : Option Moment} {stop : Moment} {ended : List (Option (Stage.Report α × Moment))}
    (hlength : ended.length = g.stages.length)
    (h : ∀ (i : Nat) y, ended[i]? = some y → Activity.Fate (Noting stalls post g.stages i) g.Crowded limit stop y)
    {i : Nat} {s : Stage σ α} {report : Stage.Report α} (hs : g.stages[i]? = some s)
    (hreport : ((g.stages.zip ended).map fun (s, y) => g.reportOf limit s y)[i]? = some report) :
    g.Tells limit s (stalls i) (post i) report := by
  have hlt : i < ended.length := by
    rw [hlength]
    exact (List.getElem?_eq_some_iff.mp hs).1
  have hi := List.getElem?_eq_getElem hlt
  have hpair : (g.stages.zip ended)[i]? = some (s, ended[i]) := List.getElem?_zip_eq_some.mpr ⟨hs, hi⟩
  rw [List.getElem?_map, hpair, Option.map_some, Option.some.injEq] at hreport
  rw [← hreport]
  exact tells_of_fate hs (h i _ hi)

/-- How a group of stages turns out. It never crashes, and waits for ever only without a time limit, when the work of
a stage does. -/
theorem turnsOut_run (hcapacity : ∀ c, g.capacity = some c → c ≤ maxCapacity)
    (h : ∀ (i : Nat) s, g.stages[i]? = some s → ∀ t', t ≤ t' → (t' = t ∨ g.Crowded) →
      s.work.TurnsOut (stalls i) (post i) t') :
    g.run.TurnsOut (g.timeout = none ∧ ∃ i, stalls i)
      (fun r _ => ∃ reports, r = .ok reports ∧ reports.length = g.stages.length ∧
        ∀ (i : Nat) s report, g.stages[i]? = some s → reports[i]? = some report →
          g.Tells (g.timeout.map fun d => Duration.roundUp (t + d)) s (stalls i) (post i) report) t := by
  unfold run
  split
  · next hempty =>
    have hnil := List.isEmpty_iff.mp hempty
    refine ⟨[], rfl, by simp [hnil], fun i s report hi => ?_⟩
    rw [hnil] at hi
    cases hi
  · next hstages =>
    split
    · next hover =>
      cases hc : g.capacity with
      | none =>
        rw [hc] at hover
        cases hover
      | some c =>
        rw [hc] at hover
        exact absurd (hcapacity c hc) (by simpa using hover)
    · refine TurnsOut.now_andThen ?_
      have hroom := capacity_pos fun hnil => hstages (List.isEmpty_iff.mpr hnil)
      have hlasting : ∀ i, Lasting (Noting stalls post g.stages i) := fun i => .turnsOut _ _
      have hmembers : ∀ (i : Nat) a, (g.stages.map Stage.runNoting)[i]? = some a → ∀ t', t ≤ t' →
          (t' = t ∨ (g.capacity.map (max 1)).getD g.stages.length < (g.stages.map Stage.runNoting).length ∧
            Activity.InTime (g.timeout.map fun d => Duration.roundUp (t + d)) t t') →
          Noting stalls post g.stages i a t' := by
        intro i a ha t' ht' hstart
        rw [List.getElem?_map] at ha
        obtain ⟨s, hs, rfl⟩ := Option.map_eq_some_iff.mp ha
        rw [List.length_map] at hstart
        exact noting_runNoting hs (h i s hs t' ht' (hstart.imp_right fun hlate => crowded_of_lt hlate.1))
      refine ((Activity.turnsOut_together hroom hlasting hmembers).mono ?_ fun _ _ _ hr => hr).andThen ?_ ?_
      · rintro ⟨hnone, i, a, t', hstall⟩
        exact ⟨Option.map_eq_none_iff.mp hnone, i, hstall⟩
      · rintro ended stop - ⟨-, hended, hfates⟩
        rw [List.length_map] at hended hfates
        refine ⟨_, rfl, by simp [hended], fun i s report hs hreport => ?_⟩
        exact tells_of_fates hended (fun i y hy => (hfates i y hy).imp_crowded crowded_of_lt) hs hreport
      · rintro m stop - ⟨-, i, hcrash⟩
        obtain ⟨_, _, _, _, _, ⟨⟩⟩ := hcrash

end Reports

end StageGroup

section Kept

open Activity (Keeps)

variable {ρ : Type} {view : σ → ρ}

theorem Stage.keeps_perform (name : String) {work : Activity σ (Except Stage.Failure α)} (h : work.Keeps view) :
    (Stage.perform name work).Keeps view :=
  Keeps.now_andThen fun _ => Keeps.giveWay.andThen fun _ => h.catchCrash.andThen fun _ =>
    Keeps.giveWay.andThen fun _ => Keeps.now_andThen fun _ => trivial

theorem Stage.keeps_runNoting {s : Stage σ α} (h : s.work.Keeps view) : s.runNoting.Keeps view :=
  (keeps_perform s.name h).andThen fun _ => Keeps.now_andThen fun _ => trivial

/-- A group of stages changes nothing that their works leave alone. -/
theorem StageGroup.keeps_run {g : StageGroup σ α} (h : ∀ s ∈ g.stages, s.work.Keeps view) : g.run.Keeps view := by
  unfold run
  split
  · trivial
  · split
    · trivial
    · refine Keeps.now_andThen fun _ => Keeps.andThen (Keeps.together _ _ ?_) fun _ => trivial
      intro a ha
      obtain ⟨s, hs, rfl⟩ := List.mem_map.mp ha
      exact Stage.keeps_runNoting (h s hs)

end Kept

end CodeAtlas
