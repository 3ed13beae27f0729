import CodeAtlas.Text.Ranges

/-!
Character classes over all of Unicode: white space, letters, numbers, capitals and word characters.
ASCII characters are decided without a table.
-/
namespace CodeAtlas.Text

/-- The code points with the property White_Space. -/
def blankRanges : Ranges := #[
  (0x9, 0xd), (0x20, 0x20), (0x85, 0x85), (0xa0, 0xa0), (0x1680, 0x1680), (0x2000, 0x200a),
  (0x2028, 0x2029), (0x202f, 0x202f), (0x205f, 0x205f), (0x3000, 0x3000)]

/-- Whether the code point is below 128. -/
def isAscii (c : Char) : Bool := c.toNat < 128

/-- White space of any script. -/
def isBlank (c : Char) : Bool :=
  if isAscii c then c == ' ' || (9 ≤ c.toNat && c.toNat ≤ 13) else blankRanges.has c

/-- A number character of any script. -/
def isNumeric (c : Char) : Bool :=
  if isAscii c then c.isDigit else numericRanges.has c

/-- A letter of any script. -/
def isAlphabetic (c : Char) : Bool :=
  if isAscii c then c.isAlpha else alphabeticRanges.has c

/-- A letter or a number of any script. -/
def isAlphanumeric (c : Char) : Bool := isAlphabetic c || isNumeric c

/-- A capital letter of any script. -/
def isUppercase (c : Char) : Bool :=
  if isAscii c then c.isUpper else uppercaseRanges.has c

/-- A character that may stand in a word: letter, mark, decimal digit, connector. -/
def isWord (c : Char) : Bool :=
  if isAscii c then c.isAlphanum || c == '_' else alphabeticRanges.has c || wordExtraRanges.has c

end CodeAtlas.Text

/-!
Cutting text: trimming white space, splitting at characters and at separators, finding and replacing
parts, and reading lines. Everything is defined over lists of characters.
-/
namespace CodeAtlas.Text

/-- Drop the longest suffix whose characters all satisfy `p`. -/
def dropEndWhile (p : Char → Bool) (cs : List Char) : List Char :=
  (cs.reverse.dropWhile p).reverse

/-- Without white space at both ends. -/
def trimChars (cs : List Char) : List Char := dropEndWhile isBlank (cs.dropWhile isBlank)

/-- Without white space at both ends. -/
def trim (s : String) : String := String.ofList (trimChars s.toList)

/-- Without white space at the end. -/
def trimEnd (s : String) : String := String.ofList (dropEndWhile isBlank s.toList)

/-- Without white space at the start. -/
def trimStart (s : String) : String := String.ofList (s.toList.dropWhile isBlank)

/-- Whether a text holds nothing but white space. -/
def blank (s : String) : Bool := s.toList.all isBlank

/-- The pieces between the characters that satisfy `p`, empty ones included. -/
def splitChars (p : Char → Bool) : List Char → List (List Char)
  | [] => [[]]
  | c :: cs =>
    match splitChars p cs with
    | [] => [[c]]
    | piece :: pieces => if p c then [] :: piece :: pieces else (c :: piece) :: pieces

/-- The pieces between the characters that satisfy `p`, empty ones included. -/
def splitWhere (p : Char → Bool) (s : String) : List String :=
  (splitChars p s.toList).map String.ofList

/-- What follows `start` when a text begins with it. -/
def dropStart? (start cs : List Char) : Option (List Char) :=
  match start, cs with
  | [], cs => some cs
  | _ :: _, [] => none
  | a :: start, c :: cs => if a = c then dropStart? start cs else none

/-- The text before the first occurrence of `part` and the text after it. -/
def splitFirst? (part : List Char) : List Char → Option (List Char × List Char)
  | [] => if part.isEmpty then some ([], []) else none
  | c :: cs =>
    match dropStart? part (c :: cs) with
    | some rest => some ([], rest)
    | none => (splitFirst? part cs).map fun (before, after) => (c :: before, after)

/-- Whether `part` occurs in `s`. -/
def contains (s part : String) : Bool := (splitFirst? part.toList s.toList).isSome

/-- The pieces of a text between the occurrences of a separator, found from the left; `skip` counts the
characters of the last occurrence that are still to pass. -/
def splitOnChars (sep : List Char) (skip : Nat) : List Char → List (List Char)
  | [] => [[]]
  | c :: cs =>
    if skip ≠ 0 then splitOnChars sep (skip - 1) cs
    else if (dropStart? sep (c :: cs)).isSome && !sep.isEmpty then
      [] :: splitOnChars sep (sep.length - 1) cs
    else match splitOnChars sep 0 cs with
      | [] => [[c]]
      | piece :: pieces => (c :: piece) :: pieces

/-- The pieces of a text between the occurrences of a separator. -/
def splitOn (sep s : String) : List String :=
  (splitOnChars sep.toList 0 s.toList).map String.ofList

/-- Put `new` for every occurrence of `old`. -/
def replace (old new s : String) : String := new.intercalate (splitOn old s)

/-- Whether `s` begins with `start`. -/
def startsWith (s start : String) : Bool := (dropStart? start.toList s.toList).isSome

/-- What follows `start` in a text that begins with it. -/
def afterStart? (s start : String) : Option String :=
  (dropStart? start.toList s.toList).map String.ofList

/-- Whether `s` ends with `stop`. -/
def endsWith (s stop : String) : Bool := (dropStart? stop.toList.reverse s.toList.reverse).isSome

/-- What stands before `stop` in a text that ends with it. -/
def beforeEnd? (s stop : String) : Option String :=
  (dropStart? stop.toList.reverse s.toList.reverse).map fun cs => String.ofList cs.reverse

/-- The first `n` characters. -/
def take (n : Nat) (s : String) : String := String.ofList (s.toList.take n)

/-- A line without the carriage return that ends it. -/
def dropReturn (line : List Char) : List Char :=
  match line.reverse with
  | '\r' :: rest => rest.reverse
  | _ => line

/-- The lines of a text. A line ends at a line feed, with or without a carriage return before it; the
last line needs no end, and keeps a carriage return it ends with. -/
def lineChars : List Char → List (List Char)
  | cs =>
    match splitChars (· == '\n') cs with
    | [] => []
    | pieces =>
      let closed := pieces.dropLast.map dropReturn
      match pieces.getLast? with
      | some [] => closed
      | some last => closed ++ [last]
      | none => closed

/-- The lines of a text. -/
def lines (s : String) : List String := (lineChars s.toList).map String.ofList

end CodeAtlas.Text
