import CodeAtlas.Models.Guarded
import CodeAtlas.Retrieval.Basic
import CodeAtlas.Store.Snapshots

/-!
Retrieval by words and by vectors. The two searches are fused into one ranking of nodes. The search for
vectors may fail at any point, which leaves its side empty; only a failure of the store is one of the
retrieval. It crashes when more results are asked for than there can be room for.
-/
namespace CodeAtlas

namespace Retrieval

/-- What identifies a result: its file and first line. -/
def resultId (file : String) (startLine : Nat) : String := file ++ ":" ++ Decimal.natText startLine

/-- What identifies a node as a result. -/
def nodeId (n : Graph.Node) : String := resultId n.file n.startLine

/-- The target of the breaker in front of the vector index. -/
def vectorTarget : String := "vector_index"

/-- How long the vector of a question is kept, in nanoseconds of the calendar. -/
def keepFor : Int := 600000000000

/-- A question's vector that is kept, and until when. -/
structure Kept where
  question : String
  vector : Models.Vector
  expiry : Instant

/-- The vectors of questions that are kept. -/
abbrev Memory := List Kept

/-- The vector of a question, if it is kept. -/
def Memory.recall? (m : Memory) (question : String) (now : Instant) : Option Models.Vector :=
  (m.find? fun k => k.question == question && now < k.expiry).map (·.vector)

/-- Keep the vector of a question. -/
def Memory.keep (m : Memory) (question : String) (vector : Models.Vector) (now : Instant) : Memory :=
  ⟨question, vector, now + keepFor⟩ :: m.filter (·.question != question)

/-- How well a node fits a piece of code: the named one first, then by lines. -/
def fitsBefore (h : Store.Vectors.Hit) (a b : Graph.Node) : Bool :=
  let unnamed (n : Graph.Node) : Nat := if h.symbol == some n.name then 0 else 1
  unnamed a < unnamed b || (unnamed a == unnamed b && a.startLine ≤ b.startLine)

/-- The nodes that begin within a piece of code. -/
def covered (nodes : List Graph.Node) (h : Store.Vectors.Hit) : List Graph.Node :=
  (nodes.filter fun n =>
    n.file == h.file && h.startLine ≤ n.startLine && n.startLine ≤ h.endLine).mergeSort (fitsBefore h)

/-- The identifiers of a piece of code in the ranking: those of its nodes, or its own without any. -/
def idsOf (nodes : List Graph.Node) (h : Store.Vectors.Hit) (ids : List String) : List String :=
  match covered nodes h with
  | [] => ids ++ [resultId h.file h.startLine]
  | found => found.foldl (fun ids n => if ids.contains (nodeId n) then ids else ids ++ [nodeId n]) ids

/-- The ranking of pieces of code. -/
def vectorRanking (nodes : List Graph.Node) (hits : List Store.Vectors.Hit) : List String :=
  hits.foldl (fun ids h => idsOf nodes h ids) []

/-- The first node with an identifier, among those of the pieces of code and then those found by words. -/
def lookUp (nodes : List Graph.Node) (hits : List Store.Vectors.Hit) (found : List Graph.Node)
    (id : String) : Option Graph.Node :=
  (hits.flatMap (covered nodes) ++ found).find? (nodeId · == id)

/-- Count a node that a word found. -/
def countNode (counts : List (Graph.Node × Nat)) (n : Graph.Node) : List (Graph.Node × Nat) :=
  if counts.any (·.1.id == n.id) then
    counts.map fun (m, k) => if m.id == n.id then (m, k + 1) else (m, k)
  else counts ++ [(n, 1)]

/-- The nodes that words found, those first that most words found. -/
def keywordRanking (found : List (List Graph.Node)) : List Graph.Node :=
  ((found.flatten.foldl countNode []).mergeSort fun a b => b.2 ≤ a.2).map (·.1)

/-- Take nodes that were not taken until there are enough. -/
def fill (limit : Nat) (taken : List String) (selected : List Graph.Node) :
    List Graph.Node → List Graph.Node
  | [] => selected
  | n :: rest =>
    if limit ≤ selected.length then selected
    else if taken.contains (nodeId n) then fill limit taken selected rest
    else fill limit (nodeId n :: taken) (selected ++ [n]) rest

/-- The nodes selected from both searches. -/
def select (limit fusionK : Nat) (nodes : List Graph.Node) (hits : List Store.Vectors.Hit)
    (found : List Graph.Node) : List Graph.Node :=
  let fused := Fusion.fuse fusionK [vectorRanking nodes hits, found.map nodeId]
  let first := (fused.filterMap fun (id, _) => lookUp nodes hits found id).take limit
  fill limit (first.map nodeId) first found

end Retrieval

/-- A retriever: its models, its stores, and where it keeps the vectors of questions. -/
structure Retriever (σ : Type) where
  models : Models σ
  vectors : Store.Vectors.Service σ
  store : Store.Snapshots.Service σ
  settings : Settings.Retrieval
  memory : Activity.Part σ Retrieval.Memory
  calendar : Activity σ Instant

namespace Retriever

variable {σ : Type}

open Retrieval

/-- The vector of a question, kept or asked for. -/
def vectorOf (r : Retriever σ) (question : String) : Activity σ (Option Models.Vector) := do
  let now ← r.calendar
  let kept ← Activity.updatePart r.memory fun _ m => (m.recall? question now, m)
  match kept with
  | some v => return some v
  | none =>
    match ← r.models.embed [question] with
    | .error _ => return none
    | .ok vectors =>
      match vectors.getLast? with
      | none => return none
      | some v =>
        Activity.updatePart r.memory fun _ m => ((), m.keep question v now)
        return some v

/-- The pieces of code nearest to a question; none when the search failed. -/
def searchVectors (r : Retriever σ) (project question : String) :
    Activity σ (Option (List Store.Vectors.Hit)) := do
  if r.models.embedding.isNone then return some []
  match ← r.vectorOf question with
  | none => return none
  | some v =>
    let search := r.vectors.nearest project v r.settings.vectorTopK r.settings.maxDistance
    match ← Registry.call (r.models.breakers.inside Breakers.vectorPart) vectorTarget search
        fun _ => .failure with
    | .ok hits => return some hits
    | _ => return none

/-- What a crash says when twice as many results as asked for are more than a word of 64 bits can count. -/
def doublingMessage : String := "attempt to multiply with overflow"

/-- The greatest number of results that can be asked for; each takes up 200 bytes. -/
def maxRoom : Nat := (Width.size 63 - 1) / 200

/-- What a crash says when there cannot be room for the results. -/
def roomMessage : String := "capacity overflow"

/-- The nodes that each word finds; twice as many as there are to be results. -/
def searchWords (r : Retriever σ) (project : String) :
    List String → Activity σ (Except Store.Failure (List (List Graph.Node)))
  | [] => return .ok []
  | word :: rest => do
    if Width.size 64 ≤ r.settings.maxResults * 2 then .crash doublingMessage
    else
      match ← r.store.search project word (r.settings.maxResults * 2) with
      | .error e => return .error e
      | .ok nodes =>
        match ← searchWords r project rest with
        | .error e => return .error e
        | .ok more => return .ok (nodes :: more)

/-- The nodes stored for a project, when there are pieces of code to resolve. -/
def nodesFor (r : Retriever σ) (project : String) (hits : List Store.Vectors.Hit) :
    Activity σ (Except Store.Failure (List Graph.Node)) := do
  if hits.isEmpty then return .ok []
  match ← r.store.load? project with
  | .error e => return .error e
  | .ok record => return .ok (record.elim [] (·.graph.nodes))

/-- Retrieve what a project has to a question. -/
def retrieve (r : Retriever σ) (project question : String) :
    Activity σ (Except Store.Failure Retrieval) := do
  let words := keywordsOf question
  let hits? ← r.searchVectors project question
  let hits := hits?.getD []
  match ← r.searchWords project words with
  | .error e => return .error e
  | .ok found =>
    match ← r.nodesFor project hits with
    | .error e => return .error e
    | .ok nodes =>
      if maxRoom < r.settings.maxResults then .crash roomMessage
      else return .ok {
        keywords := words
        hits := hits
        nodes := select r.settings.maxResults r.settings.fusionK nodes hits (keywordRanking found)
        degraded := hits?.isNone }

/-- Whether anything is stored for a project. -/
def knows (r : Retriever σ) (project : String) : Activity σ (Except Store.Failure Bool) := do
  match ← r.store.load? project with
  | .error e => return .error e
  | .ok record => return .ok record.isSome

end Retriever
end CodeAtlas
