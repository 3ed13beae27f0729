import CodeAtlas.Decimal.Notation
import CodeAtlas.Gate.Basic
import CodeAtlas.Text.Basic
import CodeAtlas.Text.Lower

/-!
Placeholders that were left unfilled: words in capitals between brackets, outside code. Code between triple
backticks is passed over first, then code between single ones; a backtick without a partner counts for
nothing.
-/
namespace CodeAtlas.Gate

/-- The mark around a block of code. -/
def fence : List Char := ['\x60', '\x60', '\x60']

/-- What lies outside the fences, given the pieces of a text between them; a fence that is never closed is
part of the text. -/
def outsideFences : List (List Char) → List Char
  | [] => []
  | [piece] => piece
  | [piece, rest] => piece ++ fence ++ rest
  | piece :: _ :: rest => piece ++ outsideFences rest

/-- A text without its blocks of code. -/
def withoutBlocks (cs : List Char) : List Char := outsideFences (Text.splitOnChars fence 0 cs)

/-- The length of a piece of code and the backtick that ends it, at the place after the one that begins it. -/
def codeLength? (cs : List Char) : Option Nat :=
  let code := cs.takeWhile (· ≠ '\x60')
  if code.isEmpty || (cs.drop code.length).isEmpty then none else some (code.length + 1)

/-- A text without its pieces of code; `skip` counts the characters of the last piece that are still to
pass. -/
def withoutPieces (skip : Nat) : List Char → List Char
  | [] => []
  | c :: cs =>
    match skip with
    | skip + 1 => withoutPieces skip cs
    | 0 =>
      if c = '\x60' then
        match codeLength? cs with
        | some n => withoutPieces n cs
        | none => c :: withoutPieces 0 cs
      else c :: withoutPieces 0 cs

/-- A text without its code. -/
def withoutCode (cs : List Char) : List Char := withoutPieces 0 (withoutBlocks cs)

/-- Whether a letter is a capital of the Latin alphabet. -/
def isCapital (c : Char) : Bool := 'A' ≤ c && c ≤ 'Z'

/-- Whether a character can stand in a placeholder after its first. -/
def isPlaceholderChar (c : Char) : Bool := isCapital c || c.isDigit || c == '_' || Text.isBlank c

/-- The word between brackets, at the place after the opening one: a capital and two to thirty more. -/
def bracketed? : List Char → Option (List Char)
  | [] => none
  | c :: cs =>
    let more := cs.takeWhile isPlaceholderChar
    if isCapital c && 2 ≤ more.length && more.length ≤ 30 && (cs.drop more.length).head? == some ']' then
      some (c :: more)
    else none

/-- All words in capitals between brackets. -/
def bracketedWords : List Char → List (List Char)
  | [] => []
  | c :: cs => if c = '[' then (bracketed? cs).toList ++ bracketedWords cs else bracketedWords cs

/-- Words that are placeholders. -/
def knownPlaceholders : List String := [
  "PROJECT NAME", "PROJECT_NAME", "TODO", "TBD", "PLACEHOLDER", "INSERT", "YOUR", "EXAMPLE",
  "MODULE NAME", "MODULE_NAME", "FUNCTION NAME", "FUNCTION_NAME", "CLASS NAME", "CLASS_NAME",
  "FILE PATH", "FILE_PATH", "DESCRIPTION", "DETAILS"]

/-- Words that make a placeholder of any word they occur in. -/
def placeholderKeywords : List String := ["TODO", "TBD", "INSERT", "YOUR", "EXAMPLE", "PLACEHOLDER"]

/-- Whether a word between brackets is a placeholder. -/
def isPlaceholder (word : String) : Bool :=
  knownPlaceholders.contains word || placeholderKeywords.any (Text.contains word ·)

/-- The placeholders of a text, with their brackets, in order. -/
def placeholders (text : String) : List String :=
  (((bracketedWords (withoutCode text.toList)).map String.ofList).filter isPlaceholder).map fun word =>
    "[" ++ word ++ "]"

end CodeAtlas.Gate

/-!
The four checks on a section. Length and placeholders forbid a section, headings and repetition only lower
its score. Every check that the rules ask for counts, whether it fails or not.
-/
namespace CodeAtlas.Gate

/-- The number of characters of a text, white space around it not counted. -/
def trimmedLength (content : String) : Nat := (Text.trimChars content.toList).length

/-- The check on length. -/
def checkLength (rules : Rules) (content : String) : Option Failure :=
  if trimmedLength content < rules.minLength then some {
    field := "content_length"
    expected := "At least " ++ Decimal.natText rules.minLength ++ " characters"
    actual := Decimal.natText (trimmedLength content) ++ " characters"
    severity := .error
    remedy := "Generate more detailed content" }
  else none

/-- The headings that do not occur in a text, in small or capital letters. -/
def missingHeadings (headings : List String) (content : String) : List String :=
  let lower := Text.lowercase content
  headings.filter fun h =>
    !Text.contains lower ("## " ++ Text.lowercase h) && !Text.contains lower ("### " ++ Text.lowercase h)

/-- The check on headings. -/
def checkHeadings (rules : Rules) (content : String) : Option Failure :=
  let missing := ", ".intercalate (missingHeadings rules.headings content)
  if (missingHeadings rules.headings content).isEmpty then none
  else some {
    field := "required_headings"
    expected := "Headings present: " ++ ", ".intercalate rules.headings
    actual := "Missing: " ++ missing
    severity := .warning
    remedy := "Add sections: " ++ missing }

/-- The check on placeholders, of which it names the first three. -/
def checkPlaceholders (content : String) : Option Failure :=
  let found := placeholders content
  if found.isEmpty then none
  else some {
    field := "placeholders"
    expected := "No unfilled placeholders"
    actual := Decimal.natText found.length ++ " placeholder(s): " ++ ", ".intercalate (found.take 3)
    severity := .error
    remedy := "Replace all [PLACEHOLDER] text with specific content" }

/-- Paragraphs that are no longer are not compared. -/
def minRepeatedLength : Nat := 50

/-- The paragraphs of a text that are compared. -/
def longParagraphs (content : String) : List String :=
  ((Text.splitOn "\n\n" content).map Text.trim).filter fun p => minRepeatedLength < p.length

/-- How many items of a list occur before. -/
def repetitions : List String → Nat
  | [] => 0
  | p :: rest => (if rest.contains p then 1 else 0) + repetitions rest

/-- The check on repetition. -/
def checkRepetition (content : String) : Option Failure :=
  let count := repetitions (longParagraphs content)
  if count = 0 then none
  else some {
    field := "repetition"
    expected := "No duplicate paragraphs"
    actual := Decimal.natText count ++ " duplicate paragraph(s)"
    severity := .warning
    remedy := "Remove repeated content" }

/-- The outcomes of the checks that the rules ask for. -/
def outcomes (rules : Rules) (content : String) : List (Option Failure) :=
  [checkLength rules content] ++
    (if rules.headings.isEmpty then [] else [checkHeadings rules content]) ++
    (if rules.checkPlaceholders then [checkPlaceholders content] else []) ++
    (if rules.checkRepetition then [checkRepetition content] else [])

/-- The share of `total` checks that did not fail. -/
def shareOf (total failed : Nat) : Float := (total - failed).toUInt64.toFloat / total.toUInt64.toFloat

/-- Judge a section. -/
def judge (sectionName : String) (rules : Rules) (content : String) : Gate :=
  let all := outcomes rules content
  let failures := all.filterMap id
  { sectionName := sectionName
    passed := (errors failures).isEmpty
    score := shareOf all.length failures.length
    failures := failures }

/-- Put a number between two bounds; none when they are not in order. -/
def clamp? (floor ceiling x : Float) : Option Float :=
  if floor ≤ ceiling then some (if x < floor then floor else if ceiling < x then ceiling else x) else none

/-- A confidence scaled by a score, between two bounds; none when they are not in order. -/
def scaled? (confidence score floor ceiling : Float) : Option Float :=
  clamp? floor ceiling (confidence * score)

/-- What a crash says when the bounds of a confidence are not in order. -/
def boundsMessage (floor ceiling : Float) : String :=
  "min > max, or either was NaN. min = " ++ Decimal.general floor ++ ", max = " ++ Decimal.general ceiling

/-- A text with a warning in front when its confidence is below a threshold, and whether it has one. -/
def withWarning (content : String) (confidence threshold : Float) : String × Bool :=
  if threshold ≤ confidence then (content, false)
  else ("[Low confidence: " ++ Decimal.fixed 2 confidence ++ "] " ++ content, true)

end CodeAtlas.Gate
