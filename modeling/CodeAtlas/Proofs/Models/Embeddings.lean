import CodeAtlas.Proofs.Models.Batches
import CodeAtlas.Proofs.Models.Fallback

/-! Texts that are embedded batch by batch, at a provider of any kind. Each batch gets a vector for each of its texts or
ends everything; what the batches got stands in the end at the places of their texts, and nothing stands at the places
of texts that are too short. -/
namespace CodeAtlas.Models

open Activity (Outcome Series Span)
open Registry (bookingOf ending)

section Places

variable {α : Type} {slots : List (Option α)} {filled : List (Nat × α)}

/-- Values are put into their slots, one after the other. -/
def fill (slots : List (Option α)) (filled : List (Nat × α)) : List (Option α) :=
  filled.foldl (fun slots f => slots.set f.1 (some f.2)) slots

theorem fill_append (filled' : List (Nat × α)) : fill slots (filled ++ filled') = fill (fill slots filled) filled' :=
  List.foldl_append

@[simp] theorem length_fill : (fill slots filled).length = slots.length := by
  induction filled generalizing slots with
  | nil => rfl
  | cons f filled ih =>
    rw [fill, List.foldl_cons, ← fill, ih, List.length_set]

theorem getElem?_fill_of_not_mem {i : Nat} (h : i ∉ filled.map Prod.fst) : (fill slots filled)[i]? = slots[i]? := by
  induction filled generalizing slots with
  | nil => rfl
  | cons f filled ih =>
    obtain ⟨hne, hrest⟩ := not_or.mp (mt List.mem_cons.mpr h)
    rw [fill, List.foldl_cons, ← fill, ih hrest, List.getElem?_set_ne (Ne.symm hne)]

theorem getElem?_fill_of_mem (hdistinct : (filled.map Prod.fst).Nodup) {i : Nat} {x : α} (h : (i, x) ∈ filled)
    (hi : i < slots.length) : (fill slots filled)[i]? = some (some x) := by
  induction filled generalizing slots with
  | nil => cases h
  | cons f filled ih =>
    obtain ⟨habsent, hrest⟩ := List.nodup_cons.mp hdistinct
    rw [fill, List.foldl_cons, ← fill]
    rcases List.mem_cons.mp h with rfl | h
    · rw [getElem?_fill_of_not_mem habsent, List.getElem?_set_self hi]
    · exact ih hrest h (by rwa [List.length_set])

/-- The vectors that the inputs of a batch get, with the places of their texts. -/
def placed (batch : List Input) (vectors : List Vector) : List (Nat × Vector) :=
  (batch.map Input.index).zip vectors

theorem map_fst_placed {batch : List Input} {vectors : List Vector} (h : vectors.length = batch.length) :
    (placed batch vectors).map Prod.fst = batch.map Input.index :=
  List.map_fst_zip (by rw [List.length_map, h])

/-- The vectors that batches get, with the places of their texts. -/
def allPlaced (done : List (List Input)) (answers : List (List Vector)) : List (Nat × Vector) :=
  (List.zipWith placed done answers).flatten

theorem map_fst_allPlaced {done : List (List Input)} {answers : List (List Vector)}
    (h : List.Forall₂ (fun batch vectors => vectors.length = batch.length) done answers) :
    (allPlaced done answers).map Prod.fst = done.flatten.map Input.index := by
  induction h with
  | nil => rfl
  | cons hlength _ ih =>
    rw [allPlaced, List.zipWith_cons_cons, List.flatten_cons, List.map_append, map_fst_placed hlength, ← allPlaced, ih,
      List.flatten_cons, List.map_append]

theorem mem_allPlaced {done : List (List Input)} {answers : List (List Vector)} {k j : Nat} {batch : List Input}
    {vectors : List Vector} {input : Input} {v : Vector} (hbatch : done[k]? = some batch)
    (hanswer : answers[k]? = some vectors) (hinput : batch[j]? = some input) (hv : vectors[j]? = some v) :
    (input.index, v) ∈ allPlaced done answers := by
  refine List.mem_flatten.mpr ⟨placed batch vectors, List.mem_of_getElem? (i := k) ?_, List.mem_of_getElem? (i := j) ?_⟩
  · rw [List.getElem?_zipWith, hbatch, hanswer]
  · rw [placed, List.getElem?_zip_eq_some]
    exact ⟨by rw [List.getElem?_map, hinput]; rfl, hv⟩

theorem place_eq_fill (slots : List (Option Vector)) (batch : List Input) (vectors : List Vector) :
    place slots batch vectors = fill slots (placed batch vectors) := by
  rw [place, fill, placed, List.zip_map_left, List.foldl_map]
  rfl

end Places

/-- Models whose texts a provider embeds. -/
def embeddedBy {τ : Type} (m : Models (Dealings τ)) (provider : EmbeddingService τ) : Models (Dealings τ) :=
  { m with
    embedding := some fun model texts => (provider model texts).on Dealings.providerPart
    breakers := Dealings.exchangePart.inside Exchange.breakersPart }

theorem checkCount_eq_ok_iff {texts : List String} {result : Except Failure (List Vector)} {vectors : List Vector} :
    checkCount texts result = .ok vectors ↔ result = .ok vectors ∧ vectors.length = texts.length := by
  cases result with
  | error e => exact ⟨nofun, nofun⟩
  | ok vectors' =>
    rw [checkCount]
    split
    · next hcount =>
      refine ⟨fun h => ?_, fun h => h.1⟩
      cases h
      exact ⟨rfl, hcount⟩
    · next hcount =>
      refine ⟨nofun, ?_⟩
      rintro ⟨⟨⟩, hlength⟩
      exact absurd hlength hcount

namespace Dealings

variable {τ : Type}

def embeddingBreaker (x : Dealings τ) (model : String) : Breaker := x.breakers.embedding.breakerOf model

def withEmbeddingBreaker (x : Dealings τ) (model : String) (b : Breaker) : Dealings τ :=
  { x with breakers := { x.breakers with embedding := x.breakers.embedding.put model b } }

@[simp] theorem embeddingBreaker_withEmbeddingBreaker (x : Dealings τ) (model : String) (b : Breaker) :
    (x.withEmbeddingBreaker model b).embeddingBreaker model = b :=
  Registry.breakerOf_put_self _ _ _

section Batch

variable (m : Models (Dealings τ)) (provider : EmbeddingService τ) (batch : List Input) (t : Moment) (x : Dealings τ)

/-- What a provider makes of the texts of a batch. -/
def answering (p : τ) : Outcome τ (Except Failure (List Vector)) :=
  (provider m.embeddingModel (batch.map Input.text)).run t p

def embedding : Activity (Dealings τ) (Except Failure (List Vector)) :=
  (m.embeddedBy provider).embed (batch.map Input.text)

/-- How the embedding of a batch can come out. -/
inductive Embedded : Outcome (Dealings τ) (Except Failure (List Vector)) → Prop where
  /-- The breaker is open, and the provider is not asked. -/
  | refused {u : Moment} {x' : Dealings τ} : (x.embeddingBreaker m.embeddingModel).state = .openUntil u → t < u →
      x'.provider = x.provider → Embedded (.finished (.error (.circuitOpen m.embeddingModel (u - t))) t x')
  /-- The provider has a vector for each text. -/
  | answered {vectors : List Vector} {t' : Moment} {x' : Dealings τ} :
      ((x.embeddingBreaker m.embeddingModel).look t).isOpen = false →
      answering m provider batch t x.provider = .finished (.ok vectors) t' x'.provider →
      vectors.length = batch.length →
      x'.embeddingBreaker m.embeddingModel = ((x.embeddingBreaker m.embeddingModel).look t).bookSuccess →
      Embedded (.finished (.ok vectors) t' x')
  /-- The provider fails, or has more or fewer vectors. -/
  | failed {result : Except Failure (List Vector)} {e : Failure} {t' : Moment} {x' : Dealings τ} :
      ((x.embeddingBreaker m.embeddingModel).look t).isOpen = false →
      answering m provider batch t x.provider = .finished result t' x'.provider →
      checkCount (batch.map Input.text) result = .error e →
      Embedded (.finished (.error e) t' x')
  /-- The provider fails, and the breaker would open for longer than the clock can show. -/
  | overran {result : Except Failure (List Vector)} {e : Failure} {t' : Moment} {x' : Dealings τ} :
      ((x.embeddingBreaker m.embeddingModel).look t).isOpen = false →
      answering m provider batch t x.provider = .finished result t' x'.provider →
      checkCount (batch.map Input.text) result = .error e →
      ¬ (x.embeddingBreaker m.embeddingModel).CanOpen t' →
      Embedded (.crashed Registry.overrunMessage t' x')
  /-- The provider crashes. -/
  | crashed {message : String} {t' : Moment} {x' : Dealings τ} :
      answering m provider batch t x.provider = .crashed message t' x'.provider → Embedded (.crashed message t' x')
  /-- The provider never answers. -/
  | stuck {t' : Moment} {x' : Dealings τ} :
      answering m provider batch t x.provider = .stuck t' x'.provider → Embedded (.stuck t' x')

/-- What the provider makes of a batch is checked, and changes nothing else. -/
theorem run_checked (y : Dealings τ) :
    (((provider m.embeddingModel (batch.map Input.text)).on providerPart).andThen fun r =>
        .done (checkCount (batch.map Input.text) r)).run t y =
      match answering m provider batch t y.provider with
      | .finished result t' p => .finished (checkCount (batch.map Input.text) result) t' { y with provider := p }
      | .crashed message t' p => .crashed message t' { y with provider := p }
      | .stuck t' p => .stuck t' { y with provider := p } := by
  have hpart : (providerPart : Activity.Part (Dealings τ) τ).Lawful := ⟨fun _ _ => rfl, fun _ => rfl⟩
  have hon := Activity.run_on hpart (fun _ _ _ => rfl)
    (provider m.embeddingModel (batch.map Input.text)) t y
  change _ = (answering m provider batch t y.provider).mapState _ at hon
  cases hout : answering m provider batch t y.provider with
  | finished result t' p =>
    rw [hout] at hon
    exact Activity.run_andThen_of_run hon _
  | crashed message t' p =>
    rw [hout] at hon
    exact Activity.run_andThen_of_crash hon _
  | stuck t' p =>
    rw [hout] at hon
    exact Activity.run_andThen_of_stuck hon _

/-- What the booking of an answer comes to. -/
theorem embedded_ending {result : Except Failure (List Vector)} {t' : Moment} {y : Dealings τ}
    (hopen : ((x.embeddingBreaker m.embeddingModel).look t).isOpen = false)
    (hout : answering m provider batch t x.provider = .finished result t' y.provider)
    (hsame : y.embeddingBreaker m.embeddingModel = (x.embeddingBreaker m.embeddingModel).look t) :
    let answer := checkCount (batch.map Input.text) result
    let settled := (y.embeddingBreaker m.embeddingModel).settle t' (bookingOf (fun _ => .failure) answer)
    Embedded m provider batch t x (ending settled.1 answer t' (y.withEmbeddingBreaker m.embeddingModel settled.2)) := by
  dsimp only
  rw [hsame]
  cases hanswer : checkCount (batch.map Input.text) result with
  | ok vectors =>
    obtain ⟨rfl, hlength⟩ := checkCount_eq_ok_iff.mp hanswer
    rw [bookingOf, (Breaker.settle_success _ t').1]
    exact .answered hopen hout (hlength.trans (List.length_map _)) (embeddingBreaker_withEmbeddingBreaker _ _ _)
  | error e =>
    rcases Breaker.settle_cases ((x.embeddingBreaker m.embeddingModel).look t) t' .failure with
      hsettle | ⟨hcan, hsettle⟩
    · rw [bookingOf, hsettle]
      exact .failed hopen hout hanswer
    · rw [bookingOf, hsettle]
      rw [Breaker.CanOpen, Breaker.limits_look] at hcan
      exact .overran hopen hout hanswer hcan

theorem embedded_embedding : Embedded m provider batch t x ((embedding m provider batch).run t x) := by
  let part : Activity.Part (Dealings τ) Registry := (m.embeddedBy provider).breakers.inside Breakers.embeddingPart
  let looking : Dealings τ := x.withEmbeddingBreaker m.embeddingModel ((x.embeddingBreaker m.embeddingModel).look t)
  rcases Breaker.enter_cases (x.embeddingBreaker m.embeddingModel) t with ⟨u, hu, hlt, henter⟩ | ⟨hover, henter⟩
  · have hcall := Registry.run_call_of_rejected (w := x) part henter
      (((provider m.embeddingModel (batch.map Input.text)).on providerPart).andThen fun r =>
        .done (checkCount (batch.map Input.text) r)) fun _ => .failure
    have hembed : (embedding m provider batch).run t x = _ := Activity.run_andThen_of_run hcall _
    rw [hembed]
    exact .refused hu hlt rfl
  · have hopen := Breaker.isOpen_look hover
    have hchecked := run_checked m provider batch t looking
    have hprovider : looking.provider = x.provider := rfl
    rw [hprovider] at hchecked
    cases hout : answering m provider batch t x.provider with
    | finished result t' p =>
      rw [hout] at hchecked
      have hcall := Registry.run_call_of_admitted (w := x) part henter (fun _ => .failure) hchecked
      have hembed : (embedding m provider batch).run t x = _ := Registry.run_andThen_of_ending hcall _
      rw [hembed, ofAnswer_answerOf]
      exact embedded_ending m provider batch t x (y := { looking with provider := p }) hopen hout
        (embeddingBreaker_withEmbeddingBreaker _ _ _)
    | crashed message t' p =>
      rw [hout] at hchecked
      have hcall := Registry.run_call_of_crash (w := x) part henter (fun _ => .failure) hchecked
      have hembed : (embedding m provider batch).run t x = _ := Activity.run_andThen_of_crash hcall _
      rw [hembed]
      exact .crashed hout
    | stuck t' p =>
      rw [hout] at hchecked
      have hcall := Registry.run_call_of_stuck (w := x) part henter (fun _ => .failure) hchecked
      have hembed : (embedding m provider batch).run t x = _ := Activity.run_andThen_of_stuck hcall _
      rw [hembed]
      exact .stuck hout

end Batch

section Batches

variable (m : Models (Dealings τ)) (provider : EmbeddingService τ)

/-- Batches that got their vectors, each in the state that those before it have left. -/
abbrev EmbeddedSeries : List (List Input) → Nat → Dealings τ → List (Span (Dealings τ) (Except Failure (List Vector))) →
    Nat → Dealings τ → Prop :=
  Series (embedding m provider) (fun _ => 0) fun result => ∃ vectors, result = .ok vectors

/-- Batches are embedded one after the other, up to the first that gets no vectors. -/
theorem exists_series_embedBatches (batches : List (List Input)) (slots : List (Option Vector)) (t : Nat)
    (x : Dealings τ) :
    ∃ done rest made answers t' x', batches = done ++ rest ∧ EmbeddedSeries m provider done t x made t' x' ∧
      made.map Span.outcome = answers.map .ok ∧
      List.Forall₂ (fun batch vectors => vectors.length = batch.length) done answers ∧
      ((m.embeddedBy provider).embedBatches batches slots).run t x =
        ((m.embeddedBy provider).embedBatches rest (fill slots (allPlaced done answers))).run t' x' ∧
      ∀ batch later, rest = batch :: later → ∀ vectors t'' x'',
        (embedding m provider batch).run t' x' ≠ .finished (.ok vectors) t'' x'' := by
  -- on the batches that are left; the slots are those that the batches before have filled
  induction batches generalizing slots t x with
  | nil => exact ⟨[], [], [], [], t, x, rfl, .nil t x, rfl, .nil, rfl, nofun⟩
  | cons batch later ih =>
    by_cases hok : ∃ vectors t₁ x₁, (embedding m provider batch).run t x = .finished (.ok vectors) t₁ x₁
    · obtain ⟨vectors, t₁, x₁, hrun⟩ := hok
      have hlength : vectors.length = batch.length := by
        have hembedded := embedded_embedding m provider batch t x
        rw [hrun] at hembedded
        cases hembedded with
        | answered _ _ hlength _ => exact hlength
      obtain ⟨done, rest, made, answers, t', x', hbatches, hseries, houtcomes, hlengths, hsame, hfirst⟩ :=
        ih (place slots batch vectors) t₁ x₁
      refine ⟨batch :: done, rest, ⟨t, x, t₁, x₁, .ok vectors⟩ :: made, vectors :: answers, t', x',
        congrArg (batch :: ·) hbatches, .cons hrun ⟨vectors, rfl⟩ hseries, congrArg (_ :: ·) houtcomes,
        .cons hlength hlengths, ?_, hfirst⟩
      rw [place_eq_fill, ← fill_append, ← place_eq_fill] at hsame
      exact (Activity.run_andThen_of_run hrun _).trans hsame
    · refine ⟨[], batch :: later, [], [], t, x, rfl, .nil t x, rfl, .nil, rfl, ?_⟩
      rintro _ _ ⟨⟩ vectors t₁ x₁ hrun
      exact hok ⟨vectors, t₁, x₁, hrun⟩

/-- How the first of the batches that are left decides what an embedding comes to, when there is any. -/
inductive Ends (rest : List (List Input)) (slots : List (Option Vector)) (t : Nat) (x : Dealings τ) :
    Outcome (Dealings τ) (Except Failure (List (Option Vector))) → Prop where
  | filled : rest = [] → Ends rest slots t x (.finished (.ok slots) t x)
  /-- A batch that fails, or gets more or fewer vectors than it has texts, fails all. -/
  | failed {batch : List Input} {later : List (List Input)} {e : Failure} {t' : Moment} {x' : Dealings τ} :
      rest = batch :: later → Embedded m provider batch t x (.finished (.error e) t' x') →
      Ends rest slots t x (.finished (.error e) t' x')
  | broken {batch : List Input} {later : List (List Input)} {message : String} {t' : Moment} {x' : Dealings τ} :
      rest = batch :: later → Embedded m provider batch t x (.crashed message t' x') →
      Ends rest slots t x (.crashed message t' x')
  | stuck {batch : List Input} {later : List (List Input)} {t' : Moment} {x' : Dealings τ} :
      rest = batch :: later → Embedded m provider batch t x (.stuck t' x') → Ends rest slots t x (.stuck t' x')

variable {m provider}

theorem ends_embedBatches {rest : List (List Input)} (slots : List (Option Vector)) {t : Nat} {x : Dealings τ}
    (hfirst : ∀ batch later, rest = batch :: later → ∀ vectors t' x',
      (embedding m provider batch).run t x ≠ .finished (.ok vectors) t' x') :
    Ends m provider rest slots t x (((m.embeddedBy provider).embedBatches rest slots).run t x) := by
  cases rest with
  | nil => exact .filled rfl
  | cons batch later =>
    have hembedded := embedded_embedding m provider batch t x
    cases hout : (embedding m provider batch).run t x with
    | finished result t' x' =>
      rw [hout] at hembedded
      cases result with
      | ok vectors => exact absurd hout (hfirst batch later rfl vectors t' x')
      | error e =>
        have hrun : ((m.embeddedBy provider).embedBatches (batch :: later) slots).run t x = _ :=
          Activity.run_andThen_of_run hout _
        rw [hrun]
        exact .failed rfl hembedded
    | crashed message t' x' =>
      have hrun : ((m.embeddedBy provider).embedBatches (batch :: later) slots).run t x = _ :=
        Activity.run_andThen_of_crash hout _
      rw [hrun]
      exact .broken rfl (hout ▸ hembedded)
    | stuck t' x' =>
      have hrun : ((m.embeddedBy provider).embedBatches (batch :: later) slots).run t x = _ :=
        Activity.run_andThen_of_stuck hout _
      rw [hrun]
      exact .stuck rfl (hout ▸ hembedded)

/-- Whether the vector of a text is the one that its batch got for it. `made` tells of the batches in `done`, one by
one. -/
def GotFor (done : List (List Input)) (made : List (Span (Dealings τ) (Except Failure (List Vector)))) (i : Nat)
    (text : String) (v : Vector) : Prop :=
  ∃ (k j : Nat) (batch : List Input) (q : Span (Dealings τ) (Except Failure (List Vector))) (cut : String)
    (vectors : List Vector), done[k]? = some batch ∧ batch[j]? = some ⟨i, cut⟩ ∧ IsLongestBeginning 32000 text cut ∧
      made[k]? = some q ∧ q.outcome = .ok vectors ∧ vectors[j]? = some v

/-- When all batches got their vectors, there is one for each text that is long enough. -/
theorem exists_gotFor {texts : List String} {done : List (List Input)} {answers : List (List Vector)}
    {made : List (Span (Dealings τ) (Except Failure (List Vector)))} (hplanned : Planned texts done)
    (hlengths : List.Forall₂ (fun batch vectors => vectors.length = batch.length) done answers)
    (houtcomes : made.map Span.outcome = answers.map .ok) {i : Nat} {text : String} (htext : texts[i]? = some text)
    (hlong : 40 ≤ text.utf8ByteSize) : ∃ v, (i, v) ∈ allPlaced done answers ∧ GotFor done made i text v := by
  have hplace : i ∈ done.flatten.map Input.index := by
    rw [hplanned.places, List.mem_filter, List.mem_range]
    exact ⟨(List.getElem?_eq_some_iff.mp htext).1, by simpa [htext] using hlong⟩
  obtain ⟨⟨_, cut⟩, hinput, rfl⟩ := List.mem_map.mp hplace
  obtain ⟨text', htext', hcut⟩ := hplanned.texts _ hinput
  cases htext.symm.trans htext'
  obtain ⟨batch, hbatch, hmem⟩ := List.mem_flatten.mp hinput
  obtain ⟨k, hk⟩ := List.getElem?_of_mem hbatch
  obtain ⟨j, hj⟩ := List.getElem?_of_mem hmem
  -- the answer to this batch, which has a vector at the place of the input
  obtain ⟨hlt, rfl⟩ := List.getElem?_eq_some_iff.mp hk
  have hanswers : k < answers.length := hlengths.length_eq ▸ hlt
  have hlength : answers[k].length = done[k].length := hlengths.get hlt hanswers
  have hjlt : j < answers[k].length := hlength ▸ (List.getElem?_eq_some_iff.mp hj).1
  have hv : answers[k][j]? = some answers[k][j] := List.getElem?_eq_getElem hjlt
  have hmade : (made.map Span.outcome)[k]? = some (.ok answers[k]) := by
    rw [houtcomes, List.getElem?_map, List.getElem?_eq_getElem hanswers]
    rfl
  obtain ⟨q, hq, houtcome⟩ := Option.map_eq_some_iff.mp (List.getElem?_map .. ▸ hmade)
  exact ⟨answers[k][j], mem_allPlaced hk (List.getElem?_eq_getElem hanswers) hj hv,
    k, j, done[k], q, cut, answers[k], hk, hj, hcut, hq, houtcome, hv⟩

/-- How texts come to be embedded. The batches in `done` have got their vectors, which `made` tells, and those in `rest`
are left when the end is decided, at `t'` in `x'`. -/
structure EmbeddedInBatches (m : Models (Dealings τ)) (provider : EmbeddingService τ) (texts : List String) (t : Nat)
    (x : Dealings τ) (done rest : List (List Input)) (made : List (Span (Dealings τ) (Except Failure (List Vector))))
    (t' : Nat) (x' : Dealings τ) (slots : List (Option Vector))
    (out : Outcome (Dealings τ) (Except Failure (List (Option Vector)))) : Prop where
  planned : batches texts = done ++ rest
  series : EmbeddedSeries m provider done t x made t' x'
  /-- Each batch in `done` got a vector from the provider for each of its texts. -/
  each : ∀ (k : Nat) batch q, done[k]? = some batch → made[k]? = some q → ∃ vectors, q.outcome = .ok vectors ∧
    vectors.length = batch.length ∧ Embedded m provider batch q.begins q.before (.finished (.ok vectors) q.ends q.after)
  ends : Ends m provider rest slots t' x' out
  length : slots.length = texts.length
  /-- A text that is long enough has the vector that its batch got for it, when all batches did. -/
  long : rest = [] → ∀ (i : Nat) text, texts[i]? = some text → 40 ≤ text.utf8ByteSize →
    ∃ v, slots[i]? = some (some v) ∧ GotFor done made i text v
  short : ∀ (i : Nat) text, texts[i]? = some text → text.utf8ByteSize < 40 → slots[i]? = some none

theorem exists_embeddedInBatches (m : Models (Dealings τ)) (provider : EmbeddingService τ) (texts : List String)
    (t : Nat) (x : Dealings τ) :
    ∃ done rest made t' x' slots, EmbeddedInBatches m provider texts t x done rest made t' x' slots
      (((m.embeddedBy provider).embedTexts texts).run t x) := by
  obtain ⟨done, rest, made, answers, t', x', hbatches, hseries, houtcomes, hlengths, hsame, hfirst⟩ :=
    exists_series_embedBatches m provider (batches texts) (texts.map fun _ => none) t x
  have hends := ends_embedBatches (fill (texts.map fun _ => none) (allPlaced done answers)) hfirst
  rw [← hsame] at hends
  have hplanned := planned_batches texts
  have hkeys := map_fst_allPlaced hlengths
  have hplaces : ((done ++ rest).flatten.map Input.index).Nodup := by
    rw [← hbatches, hplanned.places]
    exact List.nodup_range.filter _
  rw [List.flatten_append, List.map_append, ← hkeys] at hplaces
  have hdistinct : ((allPlaced done answers).map Prod.fst).Nodup := (List.nodup_append.mp hplaces).1
  refine ⟨done, rest, made, t', x', _, hbatches, hseries, fun k batch q hbatch hq => ?_, hends, by simp,
    fun hrest i text htext hlong => ?_, fun i text htext hshort => ?_⟩
  · obtain ⟨batch', hbatch', hrun, vectors, hvectors⟩ := hseries.getElem? hq
    cases hbatch.symm.trans hbatch'
    have hembedded := embedded_embedding m provider batch q.begins q.before
    rw [hrun, hvectors] at hembedded
    refine ⟨vectors, hvectors, ?_, hembedded⟩
    cases hembedded with
    | answered _ _ hlength _ => exact hlength
  · rw [hrest, List.append_nil] at hbatches
    obtain ⟨v, hmem, hgot⟩ := exists_gotFor (hbatches ▸ hplanned) hlengths houtcomes htext hlong
    have hi : i < (texts.map fun _ => (none : Option Vector)).length := by
      rw [List.length_map]
      exact (List.getElem?_eq_some_iff.mp htext).1
    exact ⟨v, getElem?_fill_of_mem hdistinct hmem hi, hgot⟩
  · have habsent : i ∉ (allPlaced done answers).map Prod.fst := fun hmem => by
      have hplace : i ∈ (batches texts).flatten.map Input.index := by
        rw [hbatches, List.flatten_append, List.map_append, ← hkeys]
        exact List.mem_append_left _ hmem
      rw [hplanned.places, List.mem_filter, htext] at hplace
      have hlong : 40 ≤ text.utf8ByteSize := by simpa using hplace.2
      omega
    rw [getElem?_fill_of_not_mem habsent, List.getElem?_map, htext]
    rfl

end Batches

section Mapped

variable {m : Models (Dealings τ)} {provider : EmbeddingService τ} {v : String → Vector}

/-- Whether a provider has the same vector for a text in whatever company and whenever it is asked. -/
def Maps (m : Models (Dealings τ)) (provider : EmbeddingService τ) (v : String → Vector) : Prop :=
  ∀ texts t p, ∃ t' p', (provider m.embeddingModel texts).run t p = .finished (.ok (texts.map v)) t' p'

theorem look_of_closed {b : Breaker} (h : b.state = .closed) (t : Moment) : b.look t = b := by
  rw [Breaker.look, h]

/-- A batch gets its vectors when the breaker is closed, which it stays. -/
theorem Embedded.of_maps {batch : List Input} {t : Moment} {x : Dealings τ}
    {out : Outcome (Dealings τ) (Except Failure (List Vector))} (h : Embedded m provider batch t x out)
    (hmaps : Maps m provider v) (hclosed : (x.embeddingBreaker m.embeddingModel).state = .closed) :
    ∃ t' x', out = .finished (.ok (batch.map fun i => v i.text)) t' x' ∧
      (x'.embeddingBreaker m.embeddingModel).state = .closed := by
  obtain ⟨t₁, p₁, hanswer⟩ := hmaps (batch.map Input.text) t x.provider
  change answering m provider batch t x.provider = _ at hanswer
  rw [List.map_map] at hanswer
  have hcount : ∀ e, checkCount (batch.map Input.text) (.ok (batch.map (v ∘ Input.text))) ≠ .error e := fun e => by
    rw [checkCount_eq_ok_iff.mpr ⟨rfl, by rw [List.length_map, List.length_map]⟩]
    nofun
  cases h with
  | refused hopen _ _ => cases hclosed.symm.trans hopen
  | answered _ hout _ hleft =>
    cases hanswer.symm.trans hout
    refine ⟨_, _, rfl, ?_⟩
    rw [hleft, look_of_closed hclosed, Breaker.bookSuccess, hclosed]
  | failed _ hout hfails =>
    cases hanswer.symm.trans hout
    exact absurd hfails (hcount _)
  | overran _ hout hfails _ =>
    cases hanswer.symm.trans hout
    exact absurd hfails (hcount _)
  | crashed hout => cases hanswer.symm.trans hout
  | stuck hout => cases hanswer.symm.trans hout

theorem series_of_maps (hmaps : Maps m provider v) {done : List (List Input)} {t t' : Nat} {x x' : Dealings τ}
    {made : List (Span (Dealings τ) (Except Failure (List Vector)))} (h : EmbeddedSeries m provider done t x made t' x')
    (hclosed : (x.embeddingBreaker m.embeddingModel).state = .closed) :
    (x'.embeddingBreaker m.embeddingModel).state = .closed ∧
      made.map Span.outcome = done.map fun batch => .ok (batch.map fun i => v i.text) := by
  -- along the series: every batch finds the breaker closed and leaves it closed
  induction h with
  | nil t x => exact ⟨hclosed, rfl⟩
  | @cons batch done t t₁ t' x x₁ x' result made hrun _ _ ih =>
    obtain ⟨t₂, x₂, hout, hleft⟩ := (embedded_embedding m provider batch t x).of_maps hmaps hclosed
    cases hrun.symm.trans hout
    obtain ⟨hlast, hrest⟩ := ih hleft
    exact ⟨hlast, congrArg (_ :: ·) hrest⟩

/-- Every text that is long enough gets the vector of its longest beginning, as if it were alone. -/
theorem embedTexts_of_maps (hmaps : Maps m provider v) (texts : List String) {t : Moment} {x : Dealings τ}
    (hclosed : (x.embeddingBreaker m.embeddingModel).state = .closed) :
    ∃ slots t' x', ((m.embeddedBy provider).embedTexts texts).run t x = .finished (.ok slots) t' x' ∧
      slots.length = texts.length ∧ ∀ (i : Nat) text, texts[i]? = some text →
        (40 ≤ text.utf8ByteSize → ∃ cut, IsLongestBeginning 32000 text cut ∧ slots[i]? = some (some (v cut))) ∧
        (text.utf8ByteSize < 40 → slots[i]? = some none) := by
  obtain ⟨done, rest, made, t', x', slots, h⟩ := exists_embeddedInBatches m provider texts t x
  obtain ⟨hlast, houtcomes⟩ := series_of_maps hmaps h.series hclosed
  have hnever : ∀ {batch out}, Embedded m provider batch t' x' out →
      ∃ vectors t'' x'', out = .finished (.ok vectors) t'' x'' := fun hembedded =>
    let ⟨t'', x'', hout, _⟩ := hembedded.of_maps hmaps hlast
    ⟨_, t'', x'', hout⟩
  have hends := h.ends
  cases hrun : ((m.embeddedBy provider).embedTexts texts).run t x with
  | crashed message t'' x'' =>
    rw [hrun] at hends
    cases hends with
    | broken _ hembedded =>
      obtain ⟨_, _, _, ⟨⟩⟩ := hnever hembedded
  | stuck t'' x'' =>
    rw [hrun] at hends
    cases hends with
    | stuck _ hembedded =>
      obtain ⟨_, _, _, ⟨⟩⟩ := hnever hembedded
  | finished result t'' x'' =>
    rw [hrun] at hends
    cases hends with
    | failed _ hembedded =>
      obtain ⟨_, _, _, ⟨⟩⟩ := hnever hembedded
    | filled hrest =>
      refine ⟨slots, _, _, rfl, h.length, fun i text htext => ⟨fun hlong => ?_, h.short i text htext⟩⟩
      obtain ⟨_, hslot, k, j, batch, q, cut, vectors, hbatch, hinput, hcut, hq, houtcome, hv⟩ :=
        h.long hrest i text htext hlong
      have hgot : (made.map Span.outcome)[k]? = some (.ok (batch.map fun i => v i.text)) := by
        rw [houtcomes, List.getElem?_map, hbatch]
        rfl
      rw [List.getElem?_map, hq, Option.map_some, houtcome] at hgot
      cases hgot
      rw [List.getElem?_map, hinput] at hv
      cases hv
      exact ⟨cut, hcut, hslot⟩

end Mapped

/-- What becomes of texts that are embedded, whatever the provider does and whatever its breaker has seen before; and a
provider that maps each text for itself is asked batch by batch as it would be asked text by text. -/
theorem embedded_batch_by_batch (m : Models (Dealings τ)) (provider : EmbeddingService τ) (texts : List String)
    (t : Nat) (x : Dealings τ) :
    (∃ done rest made t' x' slots, EmbeddedInBatches m provider texts t x done rest made t' x' slots
      (((m.embeddedBy provider).embedTexts texts).run t x)) ∧
    ∀ v : String → Vector, Maps m provider v → (x.embeddingBreaker m.embeddingModel).state = .closed →
      ∃ slots t' x', ((m.embeddedBy provider).embedTexts texts).run t x = .finished (.ok slots) t' x' ∧
        slots.length = texts.length ∧ ∀ (i : Nat) text, texts[i]? = some text →
          (40 ≤ text.utf8ByteSize → ∃ cut, IsLongestBeginning 32000 text cut ∧ slots[i]? = some (some (v cut))) ∧
          (text.utf8ByteSize < 40 → slots[i]? = some none) :=
  ⟨exists_embeddedInBatches m provider texts t x, fun _ hmaps hclosed => embedTexts_of_maps hmaps texts hclosed⟩

/-- Whoever embeds a text as how often it has been asked for, which is once. -/
def onceEach : EmbeddingService Unit := fun _ texts => .done (.ok (texts.map fun _ => [1]))

/-- A text of forty bytes. -/
def fortyBytes : String := "def cart(items):\n    return sum(items)\n\n"

/-- A text that is long enough gets its vector, one that is too short gets none, and the places are kept. -/
theorem embedded_batch_by_batch_sample :
    ∃ slots t' x', ((twoModels.embeddedBy onceEach).embedTexts ["short", fortyBytes]).run 0
        { breakers := .ofSettings {}, provider := () } = .finished (.ok slots) t' x' ∧
      slots.length = 2 ∧ slots[0]? = some none ∧ slots[1]? = some (some [1]) := by
  obtain ⟨slots, t', x', hrun, hlength, hslots⟩ := (embedded_batch_by_batch twoModels onceEach ["short", fortyBytes] 0
    { breakers := .ofSettings {}, provider := () }).2 (fun _ => [1]) (fun _ t p => ⟨t, p, rfl⟩) rfl
  obtain ⟨cut, -, hslot⟩ := (hslots 1 fortyBytes rfl).1 (by decide)
  exact ⟨slots, t', x', hrun, hlength, (hslots 0 "short" rfl).2 (by decide), hslot⟩

/-- Whoever has no vectors. -/
def noVectors : EmbeddingService Unit := fun _ _ => .done (.error .transport)

/-- A provider that opens its breaker at the first failure, for longer than the clock can show. -/
def endlessEmbeddings : Dealings Unit where
  breakers := .ofSettings { embedding := { failureThreshold := 1, recoverySeconds := Moment.lastSecond + 1 } }
  provider := ()

/-- When a batch fails and the breaker would open for too long, the embedding crashes instead of failing. -/
theorem embedding_breaks_off :
    ∃ t x, ((twoModels.embeddedBy noVectors).embedTexts [fortyBytes]).run 0 endlessEmbeddings =
      .crashed Registry.overrunMessage t x :=
  ⟨_, _, rfl⟩

end Dealings
end CodeAtlas.Models
