import CodeAtlas.Guard.Registry
import CodeAtlas.Json.Basic
import CodeAtlas.Models.Basic

/-!
Calls through a breaker whose outcome is given by a word: `ok` is a success, and any other word an error of
that text, which counts as a failure unless it says otherwise.
-/
namespace CodeAtlas.Rehearsal

/-- The registry itself as a part. -/
def wholeRegistry : Activity.Part Registry Registry := ⟨id, fun r _ => r⟩

/-- How an error counts, by its word. -/
def countWord (word : String) : Breaker.Booking :=
  if word == "ignored" then .ignored else if word == "success" then .success else .failure

/-- An operation that takes some time and ends as a word says. -/
def wordOperation (word : String) (wait : Duration) : Activity Registry (Except String Unit) := do
  Activity.sleep wait
  return if word == "ok" then .ok () else .error word

/-- Whether a call's operation ran, and what the call ended in. -/
def encodeCall : Registry.Answer String Unit → Json
  | .ok _ => .obj [("invoked", .bool true), ("result", .str "ok")]
  | .failed e => .obj [("invoked", .bool true), ("result", failed e false (.str e))]
  | .rejected target retryAfter =>
    .obj [("invoked", .bool false),
      ("result", failed (Models.Failure.circuitOpen target retryAfter).message true .null)]
where
  /-- A call that failed, and with which error of its operation. -/
  failed (message : String) (isOpen : Bool) (inner : Json) : Json :=
    .obj [("error", .str message), ("open", .bool isOpen), ("inner", inner)]

/-- Call a target once. -/
def call (target word : String) (wait : Duration) : Activity Registry Json := do
  return encodeCall (← Registry.call wholeRegistry target (wordOperation word wait) countWord)

/-- Call a target several times; the last outcome counts. -/
def callTimes (target word : String) (wait : Duration) (n : Nat) : Activity Registry Json := do
  let outcomes ← Activity.forEach (fun _ => call target word wait) (List.range n)
  return outcomes.getLast?.getD .null

/-- Look at the breaker of a target. -/
def look (target : String) : Activity Registry Json := Activity.update fun now r =>
  let b := (r.breakerOf target).look now
  (b.encode now, r.put target b)

end CodeAtlas.Rehearsal
