import CodeAtlas.Text.Basic
import CodeAtlas.Text.Lower

/-!
The words inside identifiers and sentences. A text is split at everything that is no letter and no number,
each part is cut where a capital follows a small letter, where digits begin or end, and before the last
capital of a run that a small letter follows; pieces of one character are dropped. Matching by words is
exact: `get` does not occur in `getter`.
-/
namespace CodeAtlas.Words

/-- What a character counts as when a word is cut. -/
inductive Class where
  | upper
  | lower
  | digit
deriving DecidableEq, Repr

/-- The class of a character; letters without case count as small. -/
def classOf (c : Char) : Class :=
  if Text.isNumeric c then .digit else if Text.isUppercase c then .upper else .lower

/-- Whether a word is cut between two classes, given the class that follows them. -/
def isCut (before after : Class) (next : Option Class) : Bool :=
  match before, after with
  | .lower, .upper => true
  | .digit, .upper => true
  | .digit, .lower => true
  | .upper, .digit => true
  | .lower, .digit => true
  | .upper, .upper => next == some .lower
  | _, _ => false

/-- Put a character in front of the first piece. -/
def extendFirst (c : Char) : List (List Char) → List (List Char)
  | [] => [[c]]
  | piece :: pieces => (c :: piece) :: pieces

/-- The pieces of a word, in order. -/
def pieces : List Char → List (List Char)
  | [] => []
  | [c] => [[c]]
  | c :: d :: rest =>
    if isCut (classOf c) (classOf d) (rest.head?.map classOf) then [c] :: pieces (d :: rest)
    else extendFirst c (pieces (d :: rest))

/-- All words of a text, in order and in lower case. -/
def words (text : String) : List String :=
  ((Text.splitChars (fun c => !Text.isAlphanumeric c) text.toList).flatMap pieces).filterMap
    fun piece => if 2 ≤ piece.length then some (Text.lowercase (String.ofList piece)) else none

/-- Whether every word of `name` is among `others`. -/
def allAmong (name others : List String) : Bool := name.all others.contains

/-- The distinct words of a text, sorted. -/
def vocabulary (text : String) : List String :=
  ((words text).mergeSort (fun a b => !decide (b < a))).eraseDups

end CodeAtlas.Words
