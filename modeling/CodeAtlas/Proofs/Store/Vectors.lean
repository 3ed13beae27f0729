import CodeAtlas.Proofs.Activity.Proceeds
import CodeAtlas.Proofs.Lists
import CodeAtlas.Store.Vectors
import Mathlib.Data.Int.Order.Basic

/-! Dimensions of stored vectors. The records of a project come in all at once, and they are turned down unless their
vectors have one dimension. So a search that has looked at the first record has looked at all of them. -/
namespace CodeAtlas.Store.Vectors

/-- Whether the vectors of records have one dimension. -/
def OneDimension (records : List Record) : Prop := ∀ a ∈ records, ∀ b ∈ records, a.vector.length = b.vector.length

/-- Whether the vectors of each project have one dimension. -/
def Uniform (v : Vectors) : Prop := ∀ project, OneDimension (v.records project)

section Replacing

variable {v v' : Vectors} {project : String} {records : List Record}

theorem oneDimension_cons_iff {first : Record} {rest : List Record} :
    OneDimension (first :: rest) ↔ ∀ r ∈ rest, r.vector.length = first.vector.length := by
  refine ⟨fun h r hr => h r (.tail _ hr) first (.head _), fun h => ?_⟩
  have hfirst : ∀ r ∈ first :: rest, r.vector.length = first.vector.length := List.forall_mem_cons.mpr ⟨rfl, h⟩
  exact fun a ha b hb => (hfirst a ha).trans (hfirst b hb).symm

theorem mismatch?_eq_none_iff : mismatch? records = none ↔ OneDimension records := by
  cases records with
  | nil => simp [mismatch?, OneDimension]
  | cons first rest => simp [mismatch?, oneDimension_cons_iff]

theorem dimension_of_mismatch? {f : Failure} (h : mismatch? records = some f) : ∃ d d', f = .dimension d d' := by
  cases records with
  | nil => cases h
  | cons first rest =>
    obtain ⟨r, -, rfl⟩ := Option.map_eq_some_iff.mp h
    exact ⟨_, _, rfl⟩

/-- Records of several dimensions are turned down. -/
theorem exists_replace_error (v : Vectors) (project : String) (h : ¬ OneDimension records) :
    ∃ d d', v.replace project records = .error (.dimension d d') := by
  obtain ⟨f, hf⟩ := Option.ne_none_iff_exists'.mp (mt mismatch?_eq_none_iff.mp h)
  obtain ⟨d, d', rfl⟩ := dimension_of_mismatch? hf
  exact ⟨d, d', by rw [replace, hf]⟩

theorem replace_eq_ok_iff : v.replace project records = .ok v' ↔
    OneDimension records ∧ v' = { v with projects := v.projects.insert project records } := by
  rw [replace, ← mismatch?_eq_none_iff]
  cases mismatch? records with
  | none => simp [eq_comm]
  | some f => simp

/-- Records that are stored take the place of those of their project. -/
theorem records_of_replace (h : v.replace project records = .ok v') (other : String) :
    v'.records other = if project = other then records else v.records other := by
  obtain ⟨-, rfl⟩ := replace_eq_ok_iff.mp h
  simp only [Vectors.records, Std.TreeMap.getD_insert, Std.LawfulEqCmp.compare_eq_iff_eq]

theorem Uniform.replace (hv : v.Uniform) (h : v.replace project records = .ok v') : v'.Uniform := by
  intro other
  rw [records_of_replace h]
  split
  · exact (replace_eq_ok_iff.mp h).1
  · exact hv other

theorem uniform_empty : ({} : Vectors).Uniform := fun project => by simp [Vectors.records, OneDimension]

end Replacing

section Searching

variable {v : Vectors} {project : String} {vector : List Float32} {count : ℕ} {maxDistance : Float32}

/-- A search that measures in its own way; it breaks off where the measure knows no distance. -/
def nearestBy (measure? : List Float32 → List Float32 → Option Float32) (v : Vectors) (project : String)
    (vector : List Float32) (count : ℕ) (maxDistance : Float32) : Option (Except Failure (List Hit)) :=
  let records := v.records project
  match records.head?.map (·.vector.length) with
  | some dimension =>
    if dimension = vector.length then do
      let hits ← records.mapM fun r => (measure? r.vector vector).map r.hit
      let near := hits.filter fun h => h.distance ≤ maxDistance
      return .ok ((near.mergeSort fun a b => Decimal.atMost32 a.distance b.distance).take count)
    else some (.error (.dimension dimension vector.length))
  | none => some (.ok [])

/-- The distance of two vectors of one dimension; vectors of different dimensions have none. -/
def distance? (a b : List Float32) : Option Float32 := if a.length = b.length then some (distance a b) else none

/-- A search measures the vectors of the project when the first of them has the dimension asked for, and no others. -/
theorem nearestBy_eq {measure? : List Float32 → List Float32 → Option Float32}
    (h : (∀ r ∈ (v.records project).head?, r.vector.length = vector.length) →
      ∀ r ∈ v.records project, measure? r.vector vector = some (distance r.vector vector)) :
    v.nearestBy measure? project vector count maxDistance = some (v.nearest project vector count maxDistance) := by
  unfold nearestBy nearest
  generalize v.records project = records at h
  cases records with
  | nil => rfl
  | cons first rest =>
    dsimp only [List.head?_cons, Option.map_some]
    by_cases hdimension : first.vector.length = vector.length
    · have hmeasured : (first :: rest).mapM (fun r => (measure? r.vector vector).map r.hit) =
          some ((first :: rest).map fun r => r.hit (distance r.vector vector)) :=
        AllOrNone.mapM_eq_some_map fun r hr => by
          rw [h (fun x hx => Option.some.inj hx ▸ hdimension) r hr, Option.map_some]
      rw [if_pos hdimension, if_pos hdimension, hmeasured]
      rfl
    · rw [if_neg hdimension, if_neg hdimension]

/-- A search that measures the distances of vectors is the search. -/
theorem nearestBy_distance : v.nearestBy (fun a b => some (distance a b)) project vector count maxDistance =
    some (v.nearest project vector count maxDistance) := nearestBy_eq fun _ _ _ => rfl

section Uniform

variable (hv : v.Uniform)

include hv

/-- Looking at the first record is looking at all. -/
theorem Uniform.first_iff : (∀ r ∈ (v.records project).head?, r.vector.length = vector.length) ↔
    ∀ r ∈ v.records project, r.vector.length = vector.length := by
  refine ⟨fun h r hr => ?_, fun h r hr => h r (List.mem_of_head? hr)⟩
  obtain ⟨first, hfirst⟩ := Option.isSome_iff_exists.mp (List.isSome_head?.mpr (List.ne_nil_of_mem hr))
  exact (hv project r hr first (List.mem_of_head? hfirst)).trans (h first hfirst)

/-- Where the vectors of each project have one dimension, no vectors of different dimensions are compared. -/
theorem Uniform.nearestBy_distance? : v.nearestBy distance? project vector count maxDistance =
    some (v.nearest project vector count maxDistance) := by
  exact nearestBy_eq fun hfirst r hr => if_pos (hv.first_iff.mp hfirst r hr)

/-- A search fails just where vectors of another dimension are stored. -/
theorem Uniform.nearest_eq_error_iff {f : Failure} : v.nearest project vector count maxDistance = .error f ↔
    ∃ r ∈ v.records project, r.vector.length ≠ vector.length ∧ f = .dimension r.vector.length vector.length := by
  have hrecords := hv project
  unfold nearest
  generalize v.records project = records at hrecords
  cases records with
  | nil => simp
  | cons first rest =>
    have hall : ∀ r ∈ first :: rest, r.vector.length = first.vector.length := fun r hr => hrecords r hr first (.head _)
    dsimp only [List.head?_cons, Option.map_some]
    by_cases hdimension : first.vector.length = vector.length
    · rw [if_pos hdimension]
      refine iff_of_false nofun ?_
      rintro ⟨r, hr, hne, -⟩
      exact hne ((hall r hr).trans hdimension)
    · rw [if_neg hdimension, Except.error.injEq, eq_comm]
      refine ⟨fun hf => ⟨first, .head _, hdimension, hf⟩, ?_⟩
      rintro ⟨r, hr, -, hf⟩
      rw [hf, hall r hr]

theorem Uniform.exists_nearest_eq_ok_iff : (∃ hits, v.nearest project vector count maxDistance = .ok hits) ↔
    ∀ r ∈ v.records project, r.vector.length = vector.length := by
  have herror (f : Failure) : v.nearest project vector count maxDistance = .error f ↔ _ := hv.nearest_eq_error_iff
  constructor
  · rintro ⟨hits, hhits⟩ r hr
    by_contra hne
    have h := (herror _).mpr ⟨r, hr, hne, rfl⟩
    rw [hhits] at h
    cases h
  · intro hall
    cases hfound : v.nearest project vector count maxDistance with
    | ok hits => exact ⟨hits, rfl⟩
    | error f =>
      obtain ⟨r, hr, hne, -⟩ := (herror f).mp hfound
      exact absurd (hall r hr) hne

end Uniform

theorem nearest_of_records_eq_nil (h : v.records project = []) :
    v.nearest project vector count maxDistance = .ok [] := by
  unfold nearest
  rw [h]
  rfl

end Searching

/-- What whoever keeps vectors is asked for. -/
inductive Request where
  | replace (project : String) (records : List Record)
  | nearest (project : String) (vector : List Float32) (count : ℕ) (maxDistance : Float32)

section Service

variable {σ : Type} {part : Activity.Part σ Vectors}

/-- Ask for something. What a search has found is kept, if there was one. -/
def Service.ask (s : Service σ) : Request → Activity σ (Except Failure (Option (List Hit)))
  | .replace project records => do return (← s.replace project records).map fun _ => none
  | .nearest project vector count maxDistance => do return (← s.nearest project vector count maxDistance).map some

variable (hpart : part.Lawful)

include hpart

/-- Records that are turned down change nothing. -/
theorem run_replace (project : String) (records : List Record) (t : Moment) (s : σ) :
    ((service part).replace project records).run t s =
      match (part.get s).replace project records with
      | .ok v => .finished (.ok ()) t (part.set v s)
      | .error f => .finished (.error f) t s := by
  show Activity.Outcome.finished _ t _ = _
  cases hreplace : (part.get s).replace project records with
  | ok v => simp [hreplace, Except.map]
  | error f => simp [hreplace, Except.map, hpart.set_get]

theorem run_nearest (project : String) (vector : List Float32) (count : ℕ) (maxDistance : Float32) (t : Moment) (s : σ) :
    ((service part).nearest project vector count maxDistance).run t s =
      .finished ((part.get s).nearest project vector count maxDistance) t s := by
  show Activity.Outcome.finished _ t _ = _
  cases hnearest : (part.get s).nearest project vector count maxDistance with
  | ok hits => simp [hnearest, Except.map, hpart.set_get]
  | error f => simp [hnearest, Except.map, hpart.set_get]

/-- Whatever is asked for, the vectors of each project keep to one dimension. -/
theorem exists_run_ask {s : σ} (h : (part.get s).Uniform) (q : Request) (t : Moment) :
    ∃ answer s', ((service part).ask q).run t s = .finished answer t s' ∧ (part.get s').Uniform := by
  cases q with
  | replace project records =>
    have hrun := run_replace hpart project records t s
    cases hreplace : (part.get s).replace project records with
    | ok v =>
      rw [hreplace] at hrun
      refine ⟨.ok none, part.set v s, Activity.run_andThen_of_run hrun _, ?_⟩
      rw [hpart.get_set]
      exact h.replace hreplace
    | error f =>
      rw [hreplace] at hrun
      exact ⟨.error f, s, Activity.run_andThen_of_run hrun _, h⟩
  | nearest project vector count maxDistance =>
    exact ⟨_, s, Activity.run_andThen_of_run (run_nearest hpart project vector count maxDistance t s) _, h⟩

theorem exists_run_asks {s : σ} (h : (part.get s).Uniform) (requests : List Request) (t : Moment) :
    ∃ answers s', (Activity.forEach (service part).ask requests).run t s = .finished answers t s' ∧
      (part.get s').Uniform := by
  induction requests generalizing s with
  | nil => exact ⟨[], s, rfl, h⟩
  | cons q rest ih =>
    obtain ⟨answer, s₁, hrun, h₁⟩ := exists_run_ask hpart h q t
    obtain ⟨answers, s', hrest, h'⟩ := ih h₁
    refine ⟨answer :: answers, s', ?_, h'⟩
    unfold Activity.forEach
    rw [Activity.run_andThen_of_run hrun, Activity.run_andThen_of_run hrest]
    rfl

/-- After any requests to whoever keeps vectors in a part of the state, from nothing on, the vectors of each project have one
dimension. Records with vectors of several dimensions are turned down and leave everything as it is; others are stored in
place of those of their project, and those of other projects stay. A search in a project without records finds nothing; it
fails, and says which dimension is stored, just if the project has records of another dimension; and it goes on as well
where vectors of different dimensions have no distance, so that it never compares any. -/
theorem dimensions_agree {s : σ} (hs : part.get s = {}) (requests : List Request) (t : Moment) :
    ∃ answers s', (Activity.forEach (service part).ask requests).run t s = .finished answers t s' ∧
      (∀ project, OneDimension ((part.get s').records project)) ∧
      (∀ project records, ¬ OneDimension records →
        ∃ d d', ((service part).replace project records).run t s' = .finished (.error (.dimension d d')) t s') ∧
      (∀ project records, OneDimension records →
        ∃ s'', ((service part).replace project records).run t s' = .finished (.ok ()) t s'' ∧
          ∀ other, (part.get s'').records other = if project = other then records else (part.get s').records other) ∧
      ∀ project vector count maxDistance, ∃ answer,
        ((service part).nearest project vector count maxDistance).run t s' = .finished answer t s' ∧
        ((part.get s').records project = [] → answer = .ok []) ∧
        ((∃ hits, answer = .ok hits) ↔ ∀ r ∈ (part.get s').records project, r.vector.length = vector.length) ∧
        (∀ f, answer = .error f ↔ ∃ r ∈ (part.get s').records project,
          r.vector.length ≠ vector.length ∧ f = .dimension r.vector.length vector.length) ∧
        (part.get s').nearestBy (fun a b => some (distance a b)) project vector count maxDistance = some answer ∧
        (part.get s').nearestBy distance? project vector count maxDistance = some answer := by
  have hempty : (part.get s).Uniform := hs ▸ uniform_empty
  obtain ⟨answers, s', hrun, h⟩ := exists_run_asks hpart hempty requests t
  refine ⟨answers, s', hrun, h, fun project records hmixed => ?_, fun project records hsame => ?_,
    fun project vector count maxDistance => ⟨_, run_nearest hpart project vector count maxDistance t s',
      nearest_of_records_eq_nil, h.exists_nearest_eq_ok_iff, fun f => h.nearest_eq_error_iff, nearestBy_distance,
      h.nearestBy_distance?⟩⟩
  · obtain ⟨d, d', herror⟩ := exists_replace_error (part.get s') project hmixed
    exact ⟨d, d', by rw [run_replace hpart, herror]⟩
  · have hreplace : (part.get s').replace project records = .ok _ := replace_eq_ok_iff.mpr ⟨hsame, rfl⟩
    refine ⟨_, by rw [run_replace hpart, hreplace], fun other => ?_⟩
    rw [hpart.get_set]
    exact records_of_replace hreplace other

end Service

/-- Four pieces of code, two with the same vector and one with the opposite one. -/
def shopRecords : List Record := [
  { file := "cart.py", content := "def cart():", startLine := 1, endLine := 5, vector := [1, 0] },
  { file := "pay.py", content := "def pay():", startLine := 1, endLine := 9, vector := [-1, 0] },
  { file := "shop.py", content := "def shop():", startLine := 2, endLine := 4, vector := [1, 0] },
  { file := "tax.py", content := "def tax():", startLine := 3, endLine := 7, vector := [0, 1] }]

/-- A piece of code whose vector has one dimension more. -/
def deepRecord : Record := { file := "deep.py", content := "def deep():", startLine := 1, endLine := 2, vector := [0, 0, 1] }

/-- Vectors that are all of the state. -/
def alone : Activity.Part Vectors Vectors := ⟨id, fun v _ => v⟩

/-- Records are stored for two projects, and some are turned down. -/
def shopRequests : List Request := [
  .replace "shop" shopRecords, .replace "shop" (deepRecord :: shopRecords), .replace "mine" [deepRecord],
  .nearest "shop" deepRecord.vector 2 1.5]

theorem dimensions_agree_shop : alone.Lawful ∧ alone.get {} = {} ∧
    ∃ answers v, (Activity.forEach (service alone).ask shopRequests).run 0 {} = .finished answers 0 v ∧
      answers = [.ok none, .error (.dimension 3 2), .ok none, .error (.dimension 2 3)] ∧
      OneDimension (v.records "shop") ∧ v.nearestBy distance? "mine" [0, 1, 0] 2 1.5 ≠ none := by
  have hpart : alone.Lawful := ⟨fun _ _ => rfl, fun _ => rfl⟩
  obtain ⟨answers, v, hrun, hsame, -, -, hsearch⟩ := dimensions_agree hpart (s := {}) rfl shopRequests 0
  obtain ⟨w, hanswers⟩ : ∃ w, (Activity.forEach (service alone).ask shopRequests).run 0 {} =
      .finished [.ok none, .error (.dimension 3 2), .ok none, .error (.dimension 2 3)] 0 w := ⟨_, rfl⟩
  obtain ⟨answer, -, -, -, -, -, hmeasured⟩ := hsearch "mine" [0, 1, 0] 2 1.5
  refine ⟨hpart, rfl, answers, v, hrun, ?_, hsame "shop", hmeasured ▸ nofun⟩
  rw [hanswers] at hrun
  cases hrun
  rfl

end CodeAtlas.Store.Vectors

/-! The search for the nearest records. Whatever the distances are, the records found are those that come first when all
that are near enough are put in order: by distance in the total order of floating-point numbers, and where distances are the
same in the order in which the records are stored. -/
namespace CodeAtlas.Store.Vectors

open Float.Model (UnpackedFloat)

/-- What is not a number comes in no order with anything. -/
theorem isNaN_of_isLE {a b : UnpackedFloat} (h : (a.compare b).any (·.isLE)) : a.isNaN = false ∧ b.isNaN = false := by
  cases a with
  | notANumber => cases h
  | _ => cases b with
    | notANumber => cases h
    | _ => exact ⟨rfl, rfl⟩

theorem isNaN_of_le {x y : Float32} (h : x ≤ y) : x.isNaN = false ∧ y.isNaN = false :=
  isNaN_of_isLE (of_decide_eq_true h)

/-- Whether a numbered record is less far than another one, or just as far and stored before it. -/
def Nearer (far : Record → Float32) (p q : Record × ℕ) : Prop :=
  Decimal.rank32 (far p.1) < Decimal.rank32 (far q.1) ∨
    Decimal.rank32 (far p.1) = Decimal.rank32 (far q.1) ∧ p.2 < q.2

/-- The records that are near enough, with their places, in the order in which a search takes them. -/
def candidates (far : Record → Float32) (maxDistance : Float32) (records : List Record) : List (Record × ℕ) :=
  (records.zipIdx.filter fun p => far p.1 ≤ maxDistance).mergeSort fun p q => Decimal.atMost32 (far p.1) (far q.1)

section Candidates

variable (far : Record → Float32) (maxDistance : Float32) (records : List Record)

theorem mem_candidates_iff {r : Record} {i : ℕ} :
    (r, i) ∈ candidates far maxDistance records ↔ records[i]? = some r ∧ far r ≤ maxDistance := by
  rw [candidates, List.mem_mergeSort, List.mem_filter, List.mem_zipIdx_iff_getElem?, decide_eq_true_eq]

theorem length_candidates :
    (candidates far maxDistance records).length = records.countP fun r => far r ≤ maxDistance := by
  have hcount := List.countP_map (p := fun r => decide (far r ≤ maxDistance)) (f := Prod.fst) (l := records.zipIdx)
  rw [List.zipIdx_map_fst] at hcount
  rw [candidates, List.length_mergeSort, ← List.countP_eq_length_filter, hcount]
  rfl

/-- The nearest come first, and of those that are equally far the one that was stored first. -/
theorem pairwise_candidates : (candidates far maxDistance records).Pairwise (Nearer far) := by
  have hplaces : (records.zipIdx.map Prod.snd).Pairwise (· < ·) := by
    rw [List.zipIdx_map_snd]
    exact List.pairwise_lt_range'
  have hstored := (List.pairwise_map.mp hplaces).filter fun p => decide (far p.1 ≤ maxDistance)
  have htrans (p q r : Record × ℕ) (h : Decimal.atMost32 (far p.1) (far q.1)) (h' : Decimal.atMost32 (far q.1) (far r.1)) :
      Decimal.atMost32 (far p.1) (far r.1) := Decimal.atMost32_trans h h'
  have htotal (p q : Record × ℕ) := Decimal.atMost32_total (far p.1) (far q.1)
  refine (Sorting.pairwise_mergeSort_ties htrans htotal hstored).imp fun {p q} ⟨hle, hties⟩ => ?_
  simp only [Decimal.atMost32, decide_eq_true_eq] at hle hties
  exact hle.lt_or_eq.imp id fun heq => ⟨heq, hties heq.ge⟩

/-- What is found near enough and sorted are the candidates. -/
theorem map_hit_candidates :
    (candidates far maxDistance records).map (fun p => p.1.hit (far p.1)) =
      ((records.map fun r => r.hit (far r)).filter fun h => h.distance ≤ maxDistance).mergeSort fun a b =>
        Decimal.atMost32 a.distance b.distance := by
  have hhits : records.map (fun r => r.hit (far r)) = records.zipIdx.map fun p => p.1.hit (far p.1) := by
    conv_lhs => rw [← List.zipIdx_map_fst 0 records, List.map_map]
    rfl
  rw [hhits, List.filter_map, candidates]
  exact List.map_mergeSort fun _ _ _ _ => rfl

end Candidates

/-- A search takes as many candidates as are asked for. -/
theorem nearest_eq_candidates {v : Vectors} {project : String} {vector : List Float32}
    (h : ∀ r ∈ (v.records project).head?, r.vector.length = vector.length) (count : ℕ) (maxDistance : Float32) :
    v.nearest project vector count maxDistance =
      .ok (((candidates (fun r => distance r.vector vector) maxDistance (v.records project)).take count).map fun p =>
        p.1.hit (distance p.1.vector vector)) := by
  unfold nearest
  generalize v.records project = records at h
  cases records with
  | nil => simp [candidates]
  | cons first rest =>
    have hfound := map_hit_candidates (fun r => distance r.vector vector) maxDistance (first :: rest)
    simp only [List.head?_cons, Option.map_some, h first rfl, if_true]
    rw [List.map_take, hfound]

/-- A search with a vector of the right dimension finds the nearest records: as many as asked for of those that are near
enough, or all of them, the nearest first and equally near ones in the order in which they are stored, each with its own
place and content. Whatever record is near enough and not found comes behind all that are. What is not a number is never
near enough, and nothing is where the greatest distance is none. -/
theorem nearest_takes_nearest (v : Vectors) (project : String) (vector : List Float32)
    (h : ∀ r ∈ (v.records project).head?, r.vector.length = vector.length) (count : ℕ) (maxDistance : Float32) :
    ∃ found : List (Record × ℕ),
      v.nearest project vector count maxDistance = .ok (found.map fun (r, _) =>
        { file := r.file, symbol := r.symbol, content := r.content, startLine := r.startLine, endLine := r.endLine,
          distance := distance r.vector vector }) ∧
      found.length = min count ((v.records project).countP fun r => distance r.vector vector ≤ maxDistance) ∧
      (∀ r i, (r, i) ∈ found → (v.records project)[i]? = some r ∧ distance r.vector vector ≤ maxDistance) ∧
      found.Pairwise (Nearer fun r => distance r.vector vector) ∧
      (∀ r i, (v.records project)[i]? = some r → distance r.vector vector ≤ maxDistance → (r, i) ∉ found →
        ∀ p ∈ found, Nearer (fun r => distance r.vector vector) p (r, i)) ∧
      (∀ r i, (r, i) ∈ found → (distance r.vector vector).isNaN = false) ∧
      (maxDistance.isNaN = true → found = []) := by
  obtain ⟨all, hall⟩ : ∃ all, all = candidates (fun r => distance r.vector vector) maxDistance (v.records project) :=
    ⟨_, rfl⟩
  have hmem {r : Record} {i : ℕ} : (r, i) ∈ all ↔
      (v.records project)[i]? = some r ∧ distance r.vector vector ≤ maxDistance := hall ▸ mem_candidates_iff ..
  have hpairs : all.Pairwise (Nearer fun r => distance r.vector vector) := hall ▸ pairwise_candidates ..
  have hfound {r : Record} {i : ℕ} (hr : (r, i) ∈ all.take count) := hmem.mp (List.mem_of_mem_take hr)
  refine ⟨all.take count, hall ▸ nearest_eq_candidates h count maxDistance, ?_, fun r i => hfound, hpairs.take,
    fun r i hstored hnear hleft p hp => ?_, fun r i hr => (isNaN_of_le (hfound hr).2).1, fun hmax => ?_⟩
  · rw [List.length_take, hall, length_candidates]
  · -- what is not taken stands behind all that is
    have hcandidate := hmem.mpr ⟨hstored, hnear⟩
    rw [← List.take_append_drop count all] at hpairs hcandidate
    exact (List.pairwise_append.mp hpairs).2.2 p hp (r, i) ((List.mem_append.mp hcandidate).resolve_left hleft)
  · refine List.eq_nil_iff_forall_not_mem.mpr fun p hp => ?_
    have hnumber := (isNaN_of_le (hfound (r := p.1) (i := p.2) hp).2).2
    rw [hmax] at hnumber
    cases hnumber

/-- They are stored for a project. -/
def shopVectors : Vectors where
  projects := .ofList [("shop", shopRecords)]

theorem nearest_takes_nearest_shop :
    (∀ r ∈ (shopVectors.records "shop").head?, r.vector.length = 2) ∧
    ∃ found : List (Record × ℕ),
      shopVectors.nearest "shop" [1, 0] 2 1.5 = .ok (found.map fun (r, _) =>
        { file := r.file, symbol := r.symbol, content := r.content, startLine := r.startLine, endLine := r.endLine,
          distance := distance r.vector [1, 0] }) ∧
      found.length = 2 ∧ found.Pairwise (Nearer fun r => distance r.vector [1, 0]) := by
  have hrecords : shopVectors.records "shop" = shopRecords := rfl
  have hlength : ∀ r ∈ (shopVectors.records "shop").head?, r.vector.length = 2 := by
    intro r hr
    rw [hrecords] at hr
    cases hr
    rfl
  have hcount : (shopRecords.countP fun r => distance r.vector [1, 0] ≤ 1.5) = 3 := by decide +kernel
  obtain ⟨found, hfound, hmany, -, hpairs, -⟩ := nearest_takes_nearest shopVectors "shop" [1, 0] hlength 2 1.5
  rw [hrecords, hcount] at hmany
  exact ⟨hlength, found, hfound, hmany, hpairs⟩

end CodeAtlas.Store.Vectors
