import CodeAtlas.Proofs.Activity.Mirrors
import CodeAtlas.Proofs.Stage.Groups

/-! Groups whose stages do alike. What is reported on a stage does not depend on what the others end with, be it a
value, an error or a crash: only the time that they take and what they do to the state can matter to it. -/
namespace CodeAtlas

open Activity (Mirrors Pairs)

variable {σ τ α β : Type}

namespace Stage

/-- What the work of a stage ends with: a value, an error or the message of a crash. -/
abbrev Result (α : Type) := Except String (Except Failure α)

/-- End with a result. -/
def conclude : Result α → Activity σ (Except Failure α)
  | .ok x => .done x
  | .error m => .crash m

/-- Whether two pieces of work take the same way, whatever they end with. -/
def SameCourse (work work' : Activity σ (Except Failure α)) : Prop :=
  Mirrors id (fun _ _ => True) work.catchCrash work'.catchCrash

/-- Work that has been done may end with one result or another. -/
theorem sameCourse_conclude (work : Activity σ β) (f f' : β → Result α) :
    SameCourse (work.andThen fun x => conclude (f x)) (work.andThen fun x => conclude (f' x)) := by
  have hend : ∀ r : Result α, (conclude r : Activity σ _).catchCrash = .done r := fun r => by cases r <;> rfl
  unfold SameCourse
  induction work with
  | done x =>
    show Mirrors id _ (conclude (f x)).catchCrash (conclude (f' x)).catchCrash
    rw [hend, hend]
    exact .done trivial
  | crash m => exact .done trivial
  | act c n ih => exact .act (fun _ _ => rfl) ih
  | wait u n ih => exact .wait ih

/-- How reports are alike on stages that end with results that `same` relates. -/
inductive Report.Alike (same : Result α → Result α → Prop) : Report α → Report α → Prop
  | ended (name : String) (duration : Duration) {x y : Result α} : same x y →
      Report.Alike same ⟨name, duration, endingOf x⟩ ⟨name, duration, endingOf y⟩
  | skipped (r : Report α) : Report.Alike same r r

theorem Report.Alike.eq {same : Result α → Result α → Prop} (hsame : ∀ x y, same x y → x = y) {r r' : Report α}
    (h : r.Alike same r') : r = r' := by
  cases h with
  | ended name duration hxy => rw [hsame _ _ hxy]
  | skipped r => rfl

section Mirrors

variable {view : σ → τ} {same : Result α → Result α → Prop}

theorem mirrors_perform (name : String) {work : Activity σ (Except Failure α)} {work' : Activity τ (Except Failure α)}
    (h : Mirrors view same work.catchCrash work'.catchCrash) :
    Mirrors view (Report.Alike same) (perform name work) (perform name work') := by
  refine Mirrors.now.andThen ?_
  rintro start _ rfl
  refine Mirrors.giveWay.andThen fun _ _ _ => h.andThen fun x y hxy => Mirrors.giveWay.andThen fun _ _ _ => ?_
  refine Mirrors.now.andThen ?_
  rintro stop _ rfl
  exact .done (.ended name _ hxy)

theorem mirrors_runNoting {s : Stage σ α} {s' : Stage τ α} (hname : s'.name = s.name)
    (h : Mirrors view same s.work.catchCrash s'.work.catchCrash) :
    Mirrors view (fun r r' => Report.Alike same r.1 r'.1 ∧ r.2 = r'.2) s.runNoting s'.runNoting := by
  have hrun : Mirrors view (Report.Alike same) s.run s'.run := by
    unfold run
    rw [hname]
    exact mirrors_perform s.name h
  refine hrun.andThen fun x y hxy => Mirrors.now.andThen ?_
  rintro stop _ rfl
  exact .done ⟨hxy, rfl⟩

end Mirrors

end Stage

namespace StageGroup

section Mirrors

variable {view : σ → τ} {same : Nat → Stage.Result α → Stage.Result α → Prop}
  {g : StageGroup σ α} {g' : StageGroup τ α}

theorem alike_reportOf {s : Stage σ α} {s' : Stage τ α} {R : Stage.Result α → Stage.Result α → Prop}
    (hgroup : g'.name = g.name) (hname : s'.name = s.name)
    (limit : Option Moment) {ended ended' : Option (Stage.Report α × Moment)}
    (h : Option.Rel (fun r r' => Stage.Report.Alike R r.1 r'.1 ∧ r.2 = r'.2) ended ended') :
    Stage.Report.Alike R (g.reportOf limit s ended) (g'.reportOf limit s' ended') := by
  have hskip : Stage.Report.Alike R (g.skip s) (g'.skip s') := by
    unfold skip
    rw [hgroup, hname]
    exact .skipped _
  cases h with
  | none => exact hskip
  | @some r r' hr =>
    obtain ⟨halike, hstop⟩ := hr
    unfold reportOf
    dsimp only
    rw [hstop]
    split
    · exact hskip
    · exact halike

/-- Groups of stages that do alike report alike on them. -/
theorem mirrors_run (hgroup : g'.name = g.name) (hcapacity : g'.capacity = g.capacity)
    (htimeout : g'.timeout = g.timeout)
    (hstages : Pairs (fun i s s' => s'.name = s.name ∧ Mirrors view (same i) s.work.catchCrash s'.work.catchCrash)
      g.stages g'.stages) : Mirrors view (Pairs fun i => Stage.Report.Alike (same i)) g.run g'.run := by
  have hempty : g'.stages.isEmpty = g.stages.isEmpty := by
    rw [Bool.eq_iff_iff, List.isEmpty_iff_length_eq_zero, List.isEmpty_iff_length_eq_zero, hstages.length_eq]
  unfold run
  rw [hempty, hcapacity, htimeout, ← hstages.length_eq]
  split
  · exact .done ⟨rfl, by simp⟩
  · split
    · exact .crash _
    · refine Mirrors.now.andThen ?_
      rintro start _ rfl
      have hmembers : Pairs (fun i => Mirrors view fun r r' => Stage.Report.Alike (same i) r.1 r'.1 ∧ r.2 = r'.2)
          (g.stages.map Stage.runNoting) (g'.stages.map Stage.runNoting) :=
        hstages.map fun _ _ _ hs => Stage.mirrors_runNoting hs.1 hs.2
      refine (Activity.mirrors_together hmembers).andThen fun ended ended' hended => .done ?_
      exact (hstages.zip hended).map fun i p q hpq => alike_reportOf hgroup hpq.1.1 _ hpq.2

end Mirrors

/-- Whether two groups differ at most in what stages other than the one at a place end with. -/
structure AlikeBut (i : Nat) (g g' : StageGroup σ α) : Prop where
  name_eq : g'.name = g.name
  capacity_eq : g'.capacity = g.capacity
  timeout_eq : g'.timeout = g.timeout
  own_eq : g'.stages[i]? = g.stages[i]?
  stages : Pairs (fun _ s s' => s'.name = s.name ∧ Stage.SameCourse s.work s'.work) g.stages g'.stages

/-- A group in which one stage may end with one result or another. -/
theorem alikeBut_set (g : StageGroup σ α) {i j : Nat} (hij : i ≠ j) (name : String) (work : Activity σ β)
    (f f' : β → Stage.Result α) :
    AlikeBut i { g with stages := g.stages.set j ⟨name, work.andThen fun x => Stage.conclude (f x)⟩ }
      { g with stages := g.stages.set j ⟨name, work.andThen fun x => Stage.conclude (f' x)⟩ } := by
  refine ⟨rfl, rfl, rfl, ?_, ?_⟩
  · rw [List.getElem?_set_ne (Ne.symm hij), List.getElem?_set_ne (Ne.symm hij)]
  · have hrefl : Pairs (fun _ s s' => s'.name = s.name ∧ Stage.SameCourse s.work s'.work) g.stages g.stages := by
      refine ⟨rfl, fun k s s' hs hs' => ?_⟩
      cases hs.symm.trans hs'
      exact ⟨rfl, (Mirrors.refl _).mono fun _ _ _ => trivial⟩
    exact hrefl.set ⟨rfl, Stage.sameCourse_conclude work f f'⟩

/-- What is reported on a stage does not depend on what the others end with. -/
theorem AlikeBut.getElem?_reports {i : Nat} {g g' : StageGroup σ α} (h : AlikeBut i g g') {start stop : Moment}
    {state state' : σ} {reports : List (Stage.Report α)}
    (hrun : g.run.run start state = .finished reports stop state') :
    ∃ reports', g'.run.run start state = .finished reports' stop state' ∧ reports'[i]? = reports[i]? := by
  have hstages : Pairs (fun j s s' => s'.name = s.name ∧ Mirrors id (fun x y => j = i → x = y) s.work.catchCrash
      s'.work.catchCrash) g.stages g'.stages := by
    refine ⟨h.stages.length_eq, fun j s s' hs hs' => ?_⟩
    obtain ⟨hname, hcourse⟩ := h.stages.rel j s s' hs hs'
    by_cases hji : j = i
    · subst hji
      rw [h.own_eq, hs] at hs'
      cases hs'
      exact ⟨rfl, (Mirrors.refl _).mono fun _ _ hxy _ => hxy⟩
    · exact ⟨hname, hcourse.mono fun _ _ _ heq => absurd heq hji⟩
  have houtcome := (mirrors_run h.name_eq h.capacity_eq h.timeout_eq hstages).run start state
  rw [hrun] at houtcome
  cases hrun' : g'.run.run start (id state) with
  | crashed m t s =>
    rw [hrun'] at houtcome
    cases houtcome
  | stuck t s =>
    rw [hrun'] at houtcome
    cases houtcome
  | finished reports' t s =>
    rw [hrun'] at houtcome
    cases houtcome with
    | finished _ _ hreports =>
      refine ⟨reports', hrun', ?_⟩
      cases hr : reports[i]? with
      | none =>
        rw [List.getElem?_eq_none_iff] at hr ⊢
        rwa [← hreports.length_eq]
      | some r =>
        obtain ⟨r', hr', halike⟩ := hreports.exists_right hr
        rw [hr', halike.eq fun _ _ hxy => hxy rfl]

end StageGroup
end CodeAtlas
