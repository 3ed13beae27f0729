import Std.Data.TreeMap

/-!
At most one operation per key at a time. A caller that arrives while an operation for its key is in flight
joins its run and gets its output; otherwise the caller's own operation starts as a new run. A run belongs to
no caller: cancelling callers, even all of them, neither restarts nor loses it, and the next arrival goes on
with it. A run is looked after by the callers that wait for it. It ends when one of them polls it and its
output is known; then it leaves the flight, and every caller that came to it gets the output when it polls.
Runs are numbered in the order of their start, calls in the order of their arrival.
-/
namespace CodeAtlas

namespace SingleFlight

/-- What a caller gets from an operation. -/
inductive Result (ν : Type) where
  | value (v : ν)
  | panicked
  | cancelled
deriving DecidableEq, Repr

/-- A run of an operation: its key, the caller whose operation it is, what it ends in once that is known, and
whether it has ended. -/
structure Run (ν : Type) where
  key : String
  owner : String
  output : Option (Result ν) := none
  ended : Bool := false
deriving DecidableEq, Repr

/-- A caller, the run that it came to, and whether it still waits. -/
structure Call where
  caller : String
  run : Nat
  waits : Bool := true
deriving DecidableEq, Repr

/-- Something that happens to the runs. -/
inductive Event (ν : Type) where
  | arrive (caller key : String)
  | supply (caller : String) (output : Result ν)
  | cancel (caller : String)

end SingleFlight

/-- All runs and all calls so far, and for each key in flight the number of its run. -/
structure SingleFlight (ν : Type) where
  runs : List (SingleFlight.Run ν) := []
  entries : Std.TreeMap String Nat := {}
  calls : List SingleFlight.Call := []

namespace SingleFlight

variable {ν : Type}

/-- Whether an operation for a key is in flight. -/
def isInFlight (s : SingleFlight ν) (key : String) : Bool := s.entries.contains key

/-- A caller arrives with an operation for a key. -/
def arrive (s : SingleFlight ν) (caller key : String) : SingleFlight ν :=
  match s.entries[key]? with
  | some id => { s with calls := s.calls ++ [{ caller := caller, run := id }] }
  | none =>
    { runs := s.runs ++ [{ key := key, owner := caller }]
      entries := s.entries.insert key s.runs.length
      calls := s.calls ++ [{ caller := caller, run := s.runs.length }] }

/-- What a run ends in becomes known; only the first time counts. -/
def ready (s : SingleFlight ν) (id : Nat) (output : Result ν) : SingleFlight ν :=
  { s with runs := s.runs.modify id fun r => { r with output := r.output.or (some output) } }

/-- A call no longer waits. -/
def leave (s : SingleFlight ν) (i : Nat) : SingleFlight ν :=
  { s with calls := s.calls.modify i fun c => { c with waits := false } }

/-- Take a key out of the flight, unless its entry stands for another run. -/
def release (s : SingleFlight ν) (key : String) (id : Nat) : SingleFlight ν :=
  if s.entries[key]? == some id then { s with entries := s.entries.erase key } else s

/-- A run ends and leaves the flight. -/
def finish (s : SingleFlight ν) (key : String) (id : Nat) : SingleFlight ν :=
  release { s with runs := s.runs.modify id fun r => { r with ended := true } } key id

/-- A call that waits polls its run: when the output is known the run ends, unless it has ended before, and the
caller gets the output. -/
def poll (s : SingleFlight ν) (i : Nat) : Option (Result ν) × SingleFlight ν :=
  match s.calls[i]? with
  | some { caller := _, run := id, waits := true } =>
    match s.runs[id]? with
    | some { key, owner := _, output := some output, ended } =>
      (some output, (if ended then s else s.finish key id).leave i)
    | _ => (none, s)
  | _ => (none, s)

/-- Let every call poll once, in order, and give what the callers get. -/
def land (s : SingleFlight ν) : List (String × Result ν) × SingleFlight ν :=
  s.calls.zipIdx.foldl (fun (landed, s) (c, i) =>
    match s.poll i with
    | (some output, s) => (landed ++ [(c.caller, output)], s)
    | (none, s) => (landed, s)) ([], s)

/-- What a caller's own operation ends in becomes known. -/
def supply (s : SingleFlight ν) (caller : String) (output : Result ν) : SingleFlight ν :=
  s.runs.zipIdx.foldl (fun s (r, id) => if r.owner == caller then s.ready id output else s) s

/-- A caller no longer waits. -/
def cancel (s : SingleFlight ν) (caller : String) : SingleFlight ν :=
  s.calls.zipIdx.foldl (fun s (c, i) => if c.caller == caller then s.leave i else s) s

/-- The callers whose own operations were started, in order. -/
def started (s : SingleFlight ν) : List String := s.runs.map (·.owner)

/-- The callers that wait, in the order of their arrival. -/
def waiting (s : SingleFlight ν) : List String := (s.calls.filter (·.waits)).map (·.caller)

/-- The keys in flight, sorted. -/
def keys (s : SingleFlight ν) : List String := s.entries.keys

/-- Take one event, after which everything happens that can. -/
def step (s : SingleFlight ν) : Event ν → List (String × Result ν) × SingleFlight ν
  | .arrive caller key => (s.arrive caller key).land
  | .supply caller output => (s.supply caller output).land
  | .cancel caller =>
    let (landed, after) := (s.cancel caller).land
    ((if s.waiting.contains caller then [(caller, .cancelled)] else []) ++ landed, after)

end SingleFlight
end CodeAtlas
