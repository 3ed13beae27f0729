import CodeAtlas.Graph.Basic
import CodeAtlas.Store.Vectors
import CodeAtlas.Text.Basic
import CodeAtlas.Text.Lower

/-!
The words of a question that are worth searching for.
-/
namespace CodeAtlas.Retrieval

/-- At most this many words are searched for. -/
def maxKeywords : Nat := 8

/-- Words that say nothing about what is searched. -/
def stopWords : List String := [
  "the", "and", "for", "are", "but", "not", "you", "all", "any", "can", "had", "her",
  "was", "one", "our", "out", "has", "have", "how", "what", "when", "where", "which",
  "who", "why", "does", "this", "that", "these", "those", "with", "from", "into", "about",
  "there", "their", "them", "then", "than", "been", "being", "will", "would", "should",
  "could", "its", "it's", "use", "used", "uses", "using", "code", "file", "files",
  "function", "functions", "show", "tell", "explain", "work", "works", "make", "made",
  "get", "gets", "some", "more", "most", "other", "such", "only", "also", "very",
  "just", "over", "under", "via", "per", "between"]

/-- Whether a character can be part of a word. -/
def isKeywordChar (c : Char) : Bool := Text.isAlphanumeric c || c == '_'

/-- Whether a word in small letters is worth searching for: at least three bytes, no stop word, no number. -/
def isKeyword (word : String) : Bool :=
  3 ≤ word.utf8ByteSize && !stopWords.contains word && !word.toList.all Char.isDigit

/-- The first occurrences of the items of a list. -/
def firsts [BEq α] (items : List α) : List α :=
  items.foldl (fun seen a => if seen.contains a then seen else seen ++ [a]) []

/-- The words of a question to search for, in small letters, in the order of their first occurrence. -/
def keywordsOf (question : String) : List String :=
  let words := (Text.splitWhere (fun c => !isKeywordChar c) question).map Text.lowercase
  (firsts (words.filter isKeyword)).take maxKeywords

end CodeAtlas.Retrieval

/-!
Reciprocal rank fusion: one ranking out of several. What stands at place `rank` of a list, counted from
zero, gains `1 / (k + rank)`; gains of several lists add up. The gains may be numbers of any kind.
-/
namespace CodeAtlas.Retrieval.Fusion

variable {α : Type} [Add α]

/-- Add a gain to the score of an identifier; new identifiers go to the end. -/
def gain (id : String) (amount : α) : List (String × α) → List (String × α)
  | [] => [(id, amount)]
  | (i, score) :: rest => if i = id then (i, score + amount) :: rest else (i, score) :: gain id amount rest

/-- Add the gains of a list, the first item of which stands at place `rank`. -/
def addFrom (share : Nat → α) (rank : Nat) (scores : List (String × α)) : List String → List (String × α)
  | [] => scores
  | id :: rest => addFrom share (rank + 1) (gain id (share rank) scores) rest

/-- The scores of all identifiers, in the order in which they first occur. -/
def scores (share : Nat → α) (lists : List (List String)) : List (String × α) :=
  lists.foldl (addFrom share 0) []

/-- Scores from the highest to the lowest; equal ones keep their order. -/
def ranked (isLess : α → α → Bool) (scores : List (String × α)) : List (String × α) :=
  scores.mergeSort fun a b => !isLess a.2 b.2

/-- What a place is worth, in floating point. -/
def shareOf (k rank : Nat) : Float := 1.0 / (k.toUInt64.toFloat + rank.toUInt64.toFloat)

/-- Fuse rankings. -/
def fuse (k : Nat) (lists : List (List String)) : List (String × Float) :=
  ranked (fun a b => a < b) (scores (shareOf k) lists)

end CodeAtlas.Retrieval.Fusion

/-!
What was retrieved for a question, and its text for a model. The text consists of whole blocks: first
pieces of code, then nodes of the graph, each kind up to the first block that would exceed the size allowed.
-/
namespace CodeAtlas

/-- What was retrieved for a question. -/
structure Retrieval where
  keywords : List String := []
  hits : List Store.Vectors.Hit := []
  nodes : List Graph.Node := []
  /-- The search for vectors failed. -/
  degraded : Bool := false

namespace Retrieval

/-- Whether nothing was retrieved. -/
def isEmpty (r : Retrieval) : Bool := r.hits.isEmpty && r.nodes.isEmpty

/-- The text when there is none. -/
def noContext : String := "No context found."

/-- A text cut to some characters, with dots where something is missing. -/
def clip (text : String) (maxChars : Nat) : String :=
  Text.take maxChars text ++ if maxChars < text.length then "..." else ""

/-- Lines of a file. -/
def placeText (file : String) (startLine endLine : Nat) : String :=
  file ++ ":" ++ Decimal.natText startLine ++ "-" ++ Decimal.natText endLine

/-- The block of a piece of code. -/
def hitBlock (snippetChars : Nat) (h : Store.Vectors.Hit) : String :=
  "### " ++ placeText h.file h.startLine h.endLine ++ h.symbol.elim "" (fun s => " (" ++ s ++ ")") ++
    "\n```\n" ++ clip (Text.trim h.content) snippetChars ++ "\n```\n\n"

/-- The block of a node. -/
def nodeBlock (n : Graph.Node) : String :=
  "- `" ++ n.name ++ "` (" ++ n.kind.text ++ ") in " ++ placeText n.file n.startLine n.endLine ++
    n.signature.elim "" (fun s => " `" ++ clip s 120 ++ "`") ++
    n.description.elim "" (fun d => ": " ++ clip d 200) ++ "\n"

/-- Blocks with a heading in front of the first. -/
def headed (heading : String) : List String → List String
  | [] => []
  | block :: rest => (heading ++ block) :: rest

/-- Add blocks to a text up to the first that would exceed the size allowed, in bytes. -/
def addBlocks (maxBytes : Nat) (text : String) : List String → String
  | [] => text
  | block :: rest =>
    if text.utf8ByteSize + block.utf8ByteSize ≤ maxBytes then addBlocks maxBytes (text ++ block) rest
    else text

/-- The text of what was retrieved. -/
def text (r : Retrieval) (snippetChars maxBytes : Nat) : String :=
  let code := headed "## Semantic Matches\n\n" (r.hits.map (hitBlock snippetChars))
  let nodes := headed "## Code Entities\n\n" (r.nodes.map nodeBlock)
  let text := addBlocks maxBytes (addBlocks maxBytes "" code) nodes
  if Text.blank text then noContext else text

end Retrieval
end CodeAtlas
