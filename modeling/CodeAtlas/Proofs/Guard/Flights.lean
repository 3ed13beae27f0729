import Mathlib
import CodeAtlas.Guard.SingleFlight

/-! Calls that share runs. Callers arrive, are polled and are cancelled one by one in any order, and outputs become known
in between. The entries tell at any time which runs have not ended, and a call gets the output of the run that it came
to. -/
namespace CodeAtlas
namespace SingleFlight

variable {ν : Type}

/-- What happens, one thing at a time: a caller arrives, the output of a run becomes known, a call is polled, a call is
cancelled. -/
inductive Move (ν : Type) where
  | arrive (caller key : String)
  | answer (id : Nat) (v : ν)
  | poll (i : Nat)
  | cancel (i : Nat)

def move (s : SingleFlight ν) : Move ν → SingleFlight ν
  | .arrive caller key => s.arrive caller key
  | .answer id v => s.ready id (.value v)
  | .poll i => (s.poll i).2
  | .cancel i => s.leave i

def moves (s : SingleFlight ν) (ms : List (Move ν)) : SingleFlight ν := ms.foldl move s

/-- What a call gets from a move. -/
def gets (s : SingleFlight ν) (i : Nat) : Move ν → Option (Result ν)
  | .poll j => if j = i then (s.poll i).1 else none
  | _ => none

/-- What a call gets from moves. -/
def received (s : SingleFlight ν) (i : Nat) : List (Move ν) → List (Result ν)
  | [] => []
  | m :: ms => (s.gets i m).toList ++ (s.move m).received i ms

@[simp] theorem moves_nil (s : SingleFlight ν) : s.moves [] = s := rfl
@[simp] theorem moves_cons (s : SingleFlight ν) (m : Move ν) (ms : List (Move ν)) :
    s.moves (m :: ms) = (s.move m).moves ms := rfl

theorem moves_append (s : SingleFlight ν) (ms ms' : List (Move ν)) : s.moves (ms ++ ms') = (s.moves ms).moves ms' :=
  List.foldl_append

theorem exists_moves_foldl {α β : Type} (f : β → α → β) (view : β → SingleFlight ν)
    (hf : ∀ b a, ∃ ms, view (f b a) = (view b).moves ms) (l : List α) (b : β) :
    ∃ ms, view (l.foldl f b) = (view b).moves ms := by
  induction l generalizing b with
  | nil => exact ⟨[], rfl⟩
  | cons a l ih =>
    obtain ⟨first, hfirst⟩ := hf b a
    obtain ⟨rest, hrest⟩ := ih (f b a)
    exact ⟨first ++ rest, by rw [moves_append, ← hfirst]; exact hrest⟩

theorem exists_moves_land (s : SingleFlight ν) : ∃ ms, s.land.2 = s.moves ms := by
  refine exists_moves_foldl _ Prod.snd (fun b a => ⟨[.poll a.2], ?_⟩) s.calls.zipIdx ([], s)
  obtain ⟨landed, s⟩ := b
  obtain ⟨c, i⟩ := a
  simp only [moves_cons, moves_nil, SingleFlight.move]
  split <;> next hpoll => rw [hpoll]

/-- An event, and all that can happen after it, comes down to moves, unless an operation panics. -/
theorem exists_moves_step (s : SingleFlight ν) (e : Event ν)
    (h : ∀ caller output, e = .supply caller output → ∃ v, output = .value v) : ∃ ms, (s.step e).2 = s.moves ms := by
  cases e with
  | arrive caller key =>
    obtain ⟨ms, hland⟩ := exists_moves_land (s.arrive caller key)
    exact ⟨.arrive caller key :: ms, hland⟩
  | supply caller output =>
    obtain ⟨v, rfl⟩ := h caller output rfl
    obtain ⟨first, hfirst⟩ := exists_moves_foldl
      (fun s (a : Run ν × Nat) => if a.1.owner == caller then s.ready a.2 (.value v) else s) id (fun s a => by
        split
        · exact ⟨[.answer a.2 v], rfl⟩
        · exact ⟨[], rfl⟩) s.runs.zipIdx s
    obtain ⟨ms, hland⟩ := exists_moves_land (s.supply caller (.value v))
    exact ⟨first ++ ms, by rw [moves_append]; exact hfirst ▸ hland⟩
  | cancel caller =>
    obtain ⟨first, hfirst⟩ := exists_moves_foldl
      (fun s (a : Call × Nat) => if a.1.caller == caller then s.leave a.2 else s) id (fun s a => by
        split
        · exact ⟨[.cancel a.2], rfl⟩
        · exact ⟨[], rfl⟩) s.calls.zipIdx s
    obtain ⟨ms, hland⟩ := exists_moves_land (s.cancel caller)
    exact ⟨first ++ ms, by rw [moves_append]; exact hfirst ▸ hland⟩

/-- Whether a run of an operation for a key has not ended. -/
def Flies (s : SingleFlight ν) (key : String) (id : Nat) : Prop :=
  ∃ r, s.runs[id]? = some r ∧ r.key = key ∧ r.ended = false

/-- The entries stand for the runs that have not ended, and no run ends before its output is known. -/
structure Sound (s : SingleFlight ν) : Prop where
  entries : ∀ key id, s.entries[key]? = some id ↔ s.Flies key id
  calls : ∀ c ∈ s.calls, c.run < s.runs.length
  ended : ∀ r ∈ s.runs, r.ended = true → r.output.isSome

section Moves

variable {s : SingleFlight ν}

theorem Sound.flies_unique (h : s.Sound) {key : String} {id id' : Nat} (hid : s.Flies key id)
    (hid' : s.Flies key id') : id = id' := by
  have hentry := (h.entries key id).mpr hid
  rw [(h.entries key id').mpr hid'] at hentry
  exact (Option.some.inj hentry).symm

theorem Sound.isInFlight_iff (h : s.Sound) (key : String) : s.isInFlight key = true ↔ ∃ id, s.Flies key id := by
  rw [isInFlight, Std.TreeMap.contains_eq_isSome_getElem?, Option.isSome_iff_exists]
  exact exists_congr fun id => h.entries key id

/-- A poll has two ways to come out: the output is known and the call, which waits, gets it; or nothing happens. -/
theorem poll_cases (s : SingleFlight ν) (i : Nat) :
    (∃ c r output, s.calls[i]? = some c ∧ c.waits = true ∧ s.runs[c.run]? = some r ∧ r.output = some output ∧
      s.poll i = (some output, (if r.ended then s else s.finish r.key c.run).leave i)) ∨
    (s.poll i = (none, s) ∧ ∀ c r, s.calls[i]? = some c → c.waits = true → s.runs[c.run]? = some r → r.output = none) := by
  unfold poll
  split
  · next caller id hcall =>
    split
    · next key owner output ended hrun =>
      exact .inl ⟨_, _, output, hcall, rfl, hrun, rfl, rfl⟩
    · next hno =>
      refine .inr ⟨rfl, fun c r hc _ hr => ?_⟩
      cases hcall.symm.trans hc
      cases hout : r.output with
      | none => rfl
      | some output => exact absurd (hr.trans (by rw [← hout])) (hno r.key r.owner output r.ended)
  · next hno =>
    refine .inr ⟨rfl, fun c r hc hwaits hr => ?_⟩
    exact absurd (hc.trans (by rw [← hwaits])) (hno c.caller c.run)

@[simp] theorem leave_runs (s : SingleFlight ν) (i : Nat) : (s.leave i).runs = s.runs := rfl

@[simp] theorem release_runs (s : SingleFlight ν) (key : String) (id : Nat) : (s.release key id).runs = s.runs := by
  unfold release
  split <;> rfl

@[simp] theorem release_calls (s : SingleFlight ν) (key : String) (id : Nat) : (s.release key id).calls = s.calls := by
  unfold release
  split <;> rfl

/-- A release takes away no entry but the one that stands for the very run. -/
theorem release_entries (s : SingleFlight ν) (key : String) (id : Nat) (other : String) :
    (s.release key id).entries[other]? =
      if other = key ∧ s.entries[key]? = some id then none else s.entries[other]? := by
  unfold release
  by_cases hid : s.entries[key]? = some id
  · by_cases hkey : other = key
    · simp [hid, hkey]
    · simp [hid, hkey, Ne.symm hkey, Std.TreeMap.getElem?_erase]
  · simp [hid]

theorem flies_of_runs {s' : SingleFlight ν} (h : s'.runs = s.runs) (key : String) (id : Nat) :
    s'.Flies key id ↔ s.Flies key id := by
  simp [Flies, h]

theorem flies_ready (s : SingleFlight ν) (i : Nat) (output : Result ν) (key : String) (id : Nat) :
    (s.ready i output).Flies key id ↔ s.Flies key id := by
  simp only [Flies, SingleFlight.ready, List.getElem?_modify]
  split <;> simp

theorem flies_finish (s : SingleFlight ν) (k key : String) (i id : Nat) :
    (s.finish k i).Flies key id ↔ id ≠ i ∧ s.Flies key id := by
  simp only [Flies, SingleFlight.finish, release_runs, List.getElem?_modify]
  split
  · next heq => simp [heq]
  · next hne => simp [Ne.symm hne]

theorem flies_start {s' : SingleFlight ν} {caller k : String}
    (h : s'.runs = s.runs ++ [{ key := k, owner := caller }]) (key : String) (id : Nat) :
    s'.Flies key id ↔ s.Flies key id ∨ key = k ∧ id = s.runs.length := by
  unfold Flies
  rw [h]
  rcases Nat.lt_trichotomy id s.runs.length with hlt | rfl | hgt
  · simp [List.getElem?_append_left hlt, Nat.ne_of_lt hlt]
  · have hkey : k = key ↔ key = k := eq_comm
    simp [hkey]
  · have hnone : (s.runs ++ [{ key := k, owner := caller }])[id]? = none :=
      List.getElem?_eq_none (by simpa using hgt)
    simp [hnone, List.getElem?_eq_none (Nat.le_of_lt hgt), Nat.ne_of_gt hgt]

theorem forall_mem_modify {α : Type} {p : α → Prop} {l : List α} {i : Nat} {f : α → α} (h : ∀ a ∈ l, p a)
    (hf : ∀ a, l[i]? = some a → p (f a)) : ∀ a ∈ l.modify i f, p a := by
  intro a ha
  obtain ⟨j, hj⟩ := List.getElem?_of_mem ha
  rw [List.getElem?_modify] at hj
  obtain ⟨b, hb, rfl⟩ := Option.map_eq_some_iff.mp hj
  split
  · next heq => exact hf b (heq ▸ hb)
  · exact h b (List.mem_of_getElem? hb)

theorem Sound.arrive (h : s.Sound) (caller key : String) : (s.arrive caller key).Sound := by
  unfold SingleFlight.arrive
  split
  · next id hid =>
    obtain ⟨r, hr, _, _⟩ := (h.entries key id).mp hid
    have hlt : id < s.runs.length := (List.getElem?_eq_some_iff.mp hr).1
    exact ⟨h.entries, by simpa [or_imp, forall_and, hlt] using h.calls, h.ended⟩
  · next hno =>
    refine ⟨fun other id => ?_, fun c hc => ?_, ?_⟩
    · rw [flies_start rfl, ← h.entries, Std.TreeMap.getElem?_insert]
      by_cases hkey : key = other
      · subst hkey
        simp [hno, eq_comm]
      · simp [hkey, Ne.symm hkey]
    · rcases List.mem_append.mp hc with hold | hnew
      · exact (h.calls c hold).trans (by simp)
      · simp [List.mem_singleton.mp hnew]
    · simpa [or_imp, forall_and] using h.ended

theorem Sound.ready (h : s.Sound) (id : Nat) (output : Result ν) : (s.ready id output).Sound where
  entries key id' := (h.entries key id').trans (flies_ready s id output key id').symm
  calls c hc := by simpa [SingleFlight.ready] using h.calls c hc
  ended := forall_mem_modify h.ended fun _ _ _ => by simp

theorem Sound.leave (h : s.Sound) (i : Nat) : (s.leave i).Sound where
  entries := h.entries
  calls := forall_mem_modify h.calls fun c hc => h.calls c (List.mem_of_getElem? hc)
  ended := h.ended

theorem Sound.finish (h : s.Sound) {id : Nat} {r : Run ν} (hr : s.runs[id]? = some r) (hended : r.ended = false)
    (hknown : r.output.isSome) : (s.finish r.key id).Sound := by
  refine ⟨fun key id' => ?_, fun c hc => ?_, ?_⟩
  · -- the entry of the key stands for this very run, so the release takes it
    have hentry : s.entries[r.key]? = some id := (h.entries r.key id).mpr ⟨r, hr, rfl, hended⟩
    rw [flies_finish, SingleFlight.finish, release_entries]
    by_cases hkey : key = r.key
    · subst hkey
      refine ⟨fun hsome => by simp [hentry] at hsome, fun ⟨hne, hflies⟩ => ?_⟩
      exact absurd (h.flies_unique hflies ⟨r, hr, rfl, hended⟩) hne
    · have hother : s.Flies key id' → id' ≠ id := by
        rintro ⟨r', hr', hkey', _⟩ rfl
        cases hr.symm.trans hr'
        exact hkey hkey'.symm
      simp only [hkey, false_and, if_false]
      exact ⟨fun hsome => ⟨hother ((h.entries key id').mp hsome), (h.entries key id').mp hsome⟩,
        fun hflies => (h.entries key id').mpr hflies.2⟩
  · simpa [SingleFlight.finish] using h.calls c (by simpa [SingleFlight.finish] using hc)
  · rw [SingleFlight.finish, release_runs]
    refine forall_mem_modify h.ended fun r' hr' _ => ?_
    cases hr.symm.trans hr'
    exact hknown

theorem Sound.move (h : s.Sound) (m : Move ν) : (s.move m).Sound := by
  cases m with
  | arrive caller key => exact h.arrive caller key
  | answer id v => exact h.ready id (.value v)
  | cancel i => exact h.leave i
  | poll i =>
    rcases poll_cases s i with ⟨c, r, output, _, _, hr, houtput, hpoll⟩ | ⟨hpoll, _⟩
    · simp only [SingleFlight.move, hpoll]
      cases hended : r.ended with
      | true => exact h.leave i
      | false => exact (h.finish hr hended (by simp [houtput])).leave i
    · simp only [SingleFlight.move, hpoll]
      exact h

theorem sound_start : ({} : SingleFlight ν).Sound :=
  ⟨fun key id => by simp [Flies], by simp, by simp⟩

theorem Sound.moves (h : s.Sound) (ms : List (Move ν)) : (s.moves ms).Sound := by
  induction ms generalizing s with
  | nil => exact h
  | cons m ms ih => exact ih (h.move m)

end Moves

/-- What stays of a run, whatever happens. -/
structure Run.Becomes (r r' : Run ν) : Prop where
  key : r'.key = r.key
  owner : r'.owner = r.owner
  output : ∀ output, r.output = some output → r'.output = some output
  ended : r.ended = true → r'.ended = true

theorem Run.Becomes.refl (r : Run ν) : r.Becomes r := ⟨rfl, rfl, fun _ h => h, id⟩

theorem Run.Becomes.trans {r r' r'' : Run ν} (h : r.Becomes r') (h' : r'.Becomes r'') : r.Becomes r'' :=
  ⟨h'.key.trans h.key, h'.owner.trans h.owner, fun o ho => h'.output o (h.output o ho), h'.ended ∘ h.ended⟩

/-- What stays of a call. -/
structure Call.Becomes (c c' : Call) : Prop where
  caller : c'.caller = c.caller
  run : c'.run = c.run
  waits : c.waits = false → c'.waits = false

theorem Call.Becomes.refl (c : Call) : c.Becomes c := ⟨rfl, rfl, id⟩

theorem Call.Becomes.trans {c c' c'' : Call} (h : c.Becomes c') (h' : c'.Becomes c'') : c.Becomes c'' :=
  ⟨h'.caller.trans h.caller, h'.run.trans h.run, h'.waits ∘ h.waits⟩

/-- What stays of all runs and calls. -/
structure Later (s s' : SingleFlight ν) : Prop where
  runs : ∀ (id : Nat) r, s.runs[id]? = some r → ∃ r', s'.runs[id]? = some r' ∧ r.Becomes r'
  calls : ∀ (i : Nat) c, s.calls[i]? = some c → ∃ c', s'.calls[i]? = some c' ∧ c.Becomes c'

section Later

variable {s s' s'' : SingleFlight ν}

theorem Later.refl (s : SingleFlight ν) : s.Later s :=
  ⟨fun _ r hr => ⟨r, hr, .refl r⟩, fun _ c hc => ⟨c, hc, .refl c⟩⟩

theorem Later.trans (h : s.Later s') (h' : s'.Later s'') : s.Later s'' where
  runs id r hr := by
    obtain ⟨r', hr', hbecomes⟩ := h.runs id r hr
    obtain ⟨r'', hr'', hbecomes'⟩ := h'.runs id r' hr'
    exact ⟨r'', hr'', hbecomes.trans hbecomes'⟩
  calls i c hc := by
    obtain ⟨c', hc', hbecomes⟩ := h.calls i c hc
    obtain ⟨c'', hc'', hbecomes'⟩ := h'.calls i c' hc'
    exact ⟨c'', hc'', hbecomes.trans hbecomes'⟩

theorem later_of_modify {i : Nat} {f : Run ν → Run ν} (hruns : s'.runs = s.runs.modify i f)
    (hcalls : s'.calls = s.calls) (hf : ∀ r, Run.Becomes r (f r)) : s.Later s' where
  runs id r hr := by
    rw [hruns, List.getElem?_modify, hr]
    exact ⟨_, rfl, by split; exacts [hf r, .refl r]⟩
  calls i c hc := ⟨c, hcalls ▸ hc, .refl c⟩

theorem later_ready (s : SingleFlight ν) (id : Nat) (output : Result ν) : s.Later (s.ready id output) :=
  later_of_modify rfl rfl fun _ => ⟨rfl, rfl, fun o ho => by simp [ho], fun h => h⟩

theorem later_finish (s : SingleFlight ν) (key : String) (id : Nat) : s.Later (s.finish key id) :=
  later_of_modify (release_runs _ _ _) (release_calls _ _ _) fun _ => ⟨rfl, rfl, fun _ h => h, fun _ => rfl⟩

theorem later_leave (s : SingleFlight ν) (i : Nat) : s.Later (s.leave i) where
  runs id r hr := ⟨r, hr, .refl r⟩
  calls j c hc := by
    simp only [SingleFlight.leave, List.getElem?_modify, hc]
    exact ⟨_, rfl, by split; exacts [⟨rfl, rfl, fun _ => rfl⟩, .refl c]⟩

theorem later_arrive (s : SingleFlight ν) (caller key : String) : s.Later (s.arrive caller key) := by
  have hgrow : ∀ {α : Type} {l : List α} {i : Nat} {a b : α}, l[i]? = some a → (l ++ [b])[i]? = some a :=
    fun h => by rw [List.getElem?_append_left (List.getElem?_eq_some_iff.mp h).1, h]
  unfold SingleFlight.arrive
  split
  · exact ⟨fun id r hr => ⟨r, hr, .refl r⟩, fun i c hc => ⟨c, hgrow hc, .refl c⟩⟩
  · exact ⟨fun id r hr => ⟨r, hgrow hr, .refl r⟩, fun i c hc => ⟨c, hgrow hc, .refl c⟩⟩

theorem later_poll (s : SingleFlight ν) (i : Nat) : s.Later (s.poll i).2 := by
  rcases poll_cases s i with ⟨c, r, output, _, _, _, _, hpoll⟩ | ⟨hpoll, _⟩
  · rw [hpoll]
    cases r.ended with
    | true => exact later_leave s i
    | false => exact (later_finish s r.key c.run).trans (later_leave _ i)
  · rw [hpoll]
    exact .refl s

theorem later_move (s : SingleFlight ν) (m : Move ν) : s.Later (s.move m) := by
  cases m with
  | arrive caller key => exact later_arrive s caller key
  | answer id v => exact later_ready s id (.value v)
  | poll i => exact later_poll s i
  | cancel i => exact later_leave s i

theorem later_moves (s : SingleFlight ν) (ms : List (Move ν)) : s.Later (s.moves ms) := by
  induction ms generalizing s with
  | nil => exact .refl s
  | cons m ms ih => exact (later_move s m).trans (ih (s.move m))

end Later

section Received

variable {s : SingleFlight ν} {i : Nat} {c : Call}

theorem gets_of_left (hc : s.calls[i]? = some c) (hleft : c.waits = false) (m : Move ν) : s.gets i m = none := by
  cases m with
  | poll j =>
    simp only [gets]
    split
    · rcases poll_cases s i with ⟨c', _, _, hc', hwaits, _⟩ | ⟨hpoll, _⟩
      · cases hc.symm.trans hc'
        simp [hleft] at hwaits
      · rw [hpoll]
    · rfl
  | _ => rfl

/-- A call that has left gets nothing any more. -/
theorem received_of_left (hc : s.calls[i]? = some c) (hleft : c.waits = false) (ms : List (Move ν)) :
    s.received i ms = [] := by
  induction ms generalizing s c with
  | nil => rfl
  | cons m ms ih =>
    obtain ⟨c', hc', hbecomes⟩ := (later_move s m).calls i c hc
    simp [received, gets_of_left hc hleft m, ih hc' (hbecomes.waits hleft)]

theorem call_leave (hc : s.calls[i]? = some c) {j : Nat} (hne : j ≠ i) : (s.leave j).calls[i]? = some c := by
  simp [SingleFlight.leave, hc, hne]

/-- A call that is not cancelled and gets nothing stays as it is. -/
theorem call_move (hc : s.calls[i]? = some c) {m : Move ν} (hcancel : m ≠ .cancel i) (hgets : s.gets i m = none) :
    (s.move m).calls[i]? = some c := by
  cases m with
  | arrive caller key =>
    simp only [SingleFlight.move, SingleFlight.arrive]
    split <;> rw [List.getElem?_append_left (List.getElem?_eq_some_iff.mp hc).1, hc]
  | answer id v => exact hc
  | cancel j => exact call_leave hc fun heq => hcancel (heq ▸ rfl)
  | poll j =>
    rcases poll_cases s j with ⟨c', r, output, _, _, _, _, hpoll⟩ | ⟨hpoll, _⟩
    · have hne : j ≠ i := fun heq => by
        subst heq
        simp [gets, hpoll] at hgets
      simp only [SingleFlight.move, hpoll]
      refine call_leave ?_ hne
      split
      · exact hc
      · simpa [SingleFlight.finish] using hc
    · simpa only [SingleFlight.move, hpoll] using hc

/-- A move that gives a call something gives it the output of its run, which has ended then, and the call leaves. -/
theorem gets_eq_some (hc : s.calls[i]? = some c) {m : Move ν} {output : Result ν} (hgets : s.gets i m = some output) :
    (∃ r, (s.move m).runs[c.run]? = some r ∧ r.output = some output ∧ r.ended = true) ∧
      ∃ c', (s.move m).calls[i]? = some c' ∧ c'.waits = false := by
  cases m with
  | poll j =>
    by_cases hj : j = i
    · subst hj
      simp only [gets, if_true] at hgets
      rcases poll_cases s j with ⟨c', r, o, hc', _, hr, ho, hpoll⟩ | ⟨hpoll, _⟩
      · cases hc.symm.trans hc'
        rw [hpoll] at hgets
        cases hgets
        simp only [SingleFlight.move, hpoll]
        cases hended : r.ended with
        | true => exact ⟨⟨r, hr, ho, hended⟩, by simp [SingleFlight.leave, hc]⟩
        | false =>
          refine ⟨⟨{ r with ended := true }, ?_, ho, rfl⟩, by simp [SingleFlight.leave, SingleFlight.finish, hc]⟩
          simp [SingleFlight.finish, hr]
      · rw [hpoll] at hgets
        cases hgets
    · simp [gets, hj] at hgets
  | _ => cases hgets

/-- A call gets nothing, and waits unless it is cancelled, until it gets the output of its run, once. -/
theorem received_cases (hc : s.calls[i]? = some c) (ms : List (Move ν)) :
    (s.received i ms = [] ∧ (.cancel i ∉ ms → (s.moves ms).calls[i]? = some c)) ∨
      ∃ output r, s.received i ms = [output] ∧ (s.moves ms).runs[c.run]? = some r ∧ r.output = some output ∧
        r.ended = true := by
  induction ms generalizing s with
  | nil => exact .inl ⟨rfl, fun _ => hc⟩
  | cons m ms ih =>
    cases hgets : s.gets i m with
    | some output =>
      -- the call has left after this move, so nothing comes after the output
      obtain ⟨⟨r, hr, ho, hended⟩, c', hc', hleft⟩ := gets_eq_some hc hgets
      obtain ⟨r', hr', hbecomes⟩ := (later_moves (s.move m) ms).runs c.run r hr
      refine .inr ⟨output, r', ?_, hr', hbecomes.output output ho, hbecomes.ended hended⟩
      simp [received, hgets, received_of_left hc' hleft]
    | none =>
      by_cases hcancel : m = .cancel i
      · subst hcancel
        have hleft : (s.leave i).calls[i]? = some { c with waits := false } := by simp [SingleFlight.leave, hc]
        exact .inl ⟨by simpa [received, hgets, SingleFlight.move] using received_of_left hleft rfl ms, fun hno => by simp at hno⟩
      · have hreceived : s.received i (m :: ms) = (s.move m).received i ms := by simp [received, hgets]
        rw [hreceived]
        refine (ih (call_move hc hcancel hgets)).imp_left fun ⟨hnone, hwaits⟩ => ⟨hnone, fun hno => hwaits ?_⟩
        exact fun hmem => hno (List.mem_cons_of_mem m hmem)

end Received

section Main

variable {s : SingleFlight ν}

theorem Sound.arrive_of_flies (h : s.Sound) {key : String} {id : Nat} (hflies : s.Flies key id) (caller : String) :
    s.arrive caller key = { s with calls := s.calls ++ [{ caller := caller, run := id }] } := by
  simp [SingleFlight.arrive, (h.entries key id).mpr hflies]

/-- An arrival joins the run that flies for its key, or starts one of its own. -/
theorem Sound.arrival (h : s.Sound) (caller key : String) :
    ∃ id, (s.Flies key id ∧ (s.arrive caller key).runs = s.runs ∨
        (∀ id', ¬ s.Flies key id') ∧ id = s.runs.length ∧
          (s.arrive caller key).runs = s.runs ++ [{ key := key, owner := caller }]) ∧
      (s.arrive caller key).calls[s.calls.length]? = some { caller := caller, run := id } ∧
      ∃ r, (s.arrive caller key).runs[id]? = some r ∧ r.key = key := by
  by_cases hjoin : ∃ id, s.Flies key id
  · obtain ⟨id, r, hr, hkey, hended⟩ := hjoin
    have hflies : s.Flies key id := ⟨r, hr, hkey, hended⟩
    rw [h.arrive_of_flies hflies caller]
    exact ⟨id, .inl ⟨hflies, rfl⟩, by simp, r, hr, hkey⟩
  · have hfree : ∀ id, ¬ s.Flies key id := fun id hid => hjoin ⟨id, hid⟩
    have hentry : s.entries[key]? = none :=
      Option.eq_none_iff_forall_ne_some.mpr fun id hid => hfree id ((h.entries key id).mp hid)
    have harrive : s.arrive caller key =
        { runs := s.runs ++ [{ key := key, owner := caller }]
          entries := s.entries.insert key s.runs.length
          calls := s.calls ++ [{ caller := caller, run := s.runs.length }] } := by
      simp [SingleFlight.arrive, hentry]
    rw [harrive]
    exact ⟨s.runs.length, .inr ⟨hfree, rfl, rfl⟩, by simp, _, List.getElem?_concat_length, rfl⟩

theorem moves_cancel (s : SingleFlight ν) (is : List Nat) :
    (s.moves (is.map .cancel)).runs = s.runs ∧ (s.moves (is.map .cancel)).entries = s.entries := by
  induction is generalizing s with
  | nil => exact ⟨rfl, rfl⟩
  | cons i is ih => exact ih (s.leave i)

/-- The next poll of a call that waits gives what is known of its run. -/
theorem poll_of_waiting {i : Nat} {c : Call} {r : Run ν} (hc : s.calls[i]? = some c) (hwaits : c.waits = true)
    (hr : s.runs[c.run]? = some r) : (s.poll i).1 = r.output := by
  rcases poll_cases s i with ⟨c', r', output, hc', _, hr', houtput, hpoll⟩ | ⟨hpoll, hnone⟩
  · cases hc.symm.trans hc'
    cases hr.symm.trans hr'
    rw [hpoll, houtput]
  · rw [hpoll, hnone c r hc hwaits hr]

/-- At most one operation of a key is under way. Whoever arrives joins it, or starts its own when there is none, and
gets the output of that very run at the first poll after it is known, unless cancelled. Cancelling changes nothing for
the run, and taking an ended run off the flight changes nothing for any other. -/
theorem one_run_at_a_time (before : List (Move ν)) :
    let s : SingleFlight ν := moves {} before
    (∀ key id id', s.Flies key id → s.Flies key id' → id = id') ∧
    (∀ key, s.isInFlight key = true ↔ ∃ id, s.Flies key id) ∧
    (∀ r ∈ s.runs, r.ended = true → r.output.isSome) ∧
    (∀ caller key, ∃ id,
      (s.Flies key id ∧ (s.arrive caller key).runs = s.runs ∨
        (∀ id', ¬ s.Flies key id') ∧ id = s.runs.length ∧
          (s.arrive caller key).runs = s.runs ++ [{ key := key, owner := caller }]) ∧
      ∀ after, ∃ r, ((s.arrive caller key).moves after).runs[id]? = some r ∧ r.key = key ∧
        ((s.arrive caller key).received s.calls.length after = [] ∧
            (.cancel s.calls.length ∉ after →
              (((s.arrive caller key).moves after).poll s.calls.length).1 = r.output) ∨
          ∃ output, (s.arrive caller key).received s.calls.length after = [output] ∧ r.output = some output ∧
            r.ended = true)) ∧
    (∀ key id, s.Flies key id → ∀ (is : List Nat) caller,
      let t := s.moves (is.map .cancel)
      (t.arrive caller key).runs = s.runs ∧
        (t.arrive caller key).calls = t.calls ++ [{ caller := caller, run := id }]) ∧
    ∀ key id other held, s.entries[other]? = some held → other ≠ key ∨ held ≠ id →
      (s.release key id).entries[other]? = some held := by
  intro s
  have hsound : s.Sound := sound_start.moves before
  refine ⟨fun key id id' => hsound.flies_unique, hsound.isInFlight_iff, hsound.ended, fun caller key => ?_,
    fun key id hflies is caller => ?_, fun key id other held hheld hother => ?_⟩
  · obtain ⟨id, hjoins, hc, r, hr, hkey⟩ := hsound.arrival caller key
    refine ⟨id, hjoins, fun after => ?_⟩
    obtain ⟨r', hr', hbecomes⟩ := (later_moves (s.arrive caller key) after).runs id r hr
    refine ⟨r', hr', hbecomes.key.trans hkey, ?_⟩
    rcases received_cases hc after with ⟨hnone, hwaits⟩ | ⟨output, r'', hgot, hr'', houtput, hended⟩
    · exact .inl ⟨hnone, fun hno => poll_of_waiting (hwaits hno) rfl hr'⟩
    · cases hr'.symm.trans hr''
      exact .inr ⟨output, hgot, houtput, hended⟩
  · obtain ⟨hruns, _⟩ := moves_cancel s is
    have hstill : (s.moves (is.map .cancel)).Flies key id := (flies_of_runs hruns key id).mpr hflies
    have harrive := (hsound.moves (is.map .cancel)).arrive_of_flies hstill caller
    exact ⟨by rw [harrive, hruns], by rw [harrive]⟩
  · rw [release_entries, if_neg, hheld]
    rintro ⟨rfl, hid⟩
    cases hheld.symm.trans hid
    simp at hother

end Main

end SingleFlight
end CodeAtlas
