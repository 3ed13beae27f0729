import CodeAtlas.Json.Number

/-!
The tokens of a document. Strings may hold any character from the space on, the short escapes, and
`\u` escapes in which a high surrogate is followed by a low one; a surrogate that stands alone is refused.
-/
namespace CodeAtlas.Json

/-- A token: a bracket, a separator, or a value without parts. -/
inductive Token where
  | openArray
  | closeArray
  | openObject
  | closeObject
  | comma
  | colon
  | atom (value : Json)

/-- The value of a hexadecimal digit. -/
def hexValue? (c : Char) : Option Nat :=
  if c.isDigit then some (c.toNat - 48)
  else if 'a' ≤ c ∧ c ≤ 'f' then some (c.toNat - 87)
  else if 'A' ≤ c ∧ c ≤ 'F' then some (c.toNat - 55)
  else none

/-- The 16-bit unit of four hexadecimal digits. -/
def unit? (a b c d : Char) : Option Nat := do
  let a ← hexValue? a
  let b ← hexValue? b
  let c ← hexValue? c
  let d ← hexValue? d
  return ((a * 16 + b) * 16 + c) * 16 + d

/-- The character of two units; none unless they are a high and a low surrogate. -/
def surrogates? (high low : Nat) : Option Char :=
  if 0xd800 ≤ high ∧ high < 0xdc00 ∧ 0xdc00 ≤ low ∧ low < 0xe000 then
    some (Char.ofNat (0x10000 + (high - 0xd800) * 0x400 + (low - 0xdc00)))
  else none

/-- The character of a unit that is no surrogate. -/
def plainUnit? (u : Nat) : Option Char :=
  if 0xd800 ≤ u ∧ u < 0xe000 then none else some (Char.ofNat u)

/-- The character of a short escape. -/
def shortEscape? : Char → Option Char
  | '"' => some '"'
  | '\\' => some '\\'
  | '/' => some '/'
  | 'b' => some '\x08'
  | 'f' => some '\x0c'
  | 'n' => some '\n'
  | 'r' => some '\r'
  | 't' => some '\t'
  | _ => none

/-- Read a string whose opening quote is behind; gives the characters and the text after the closing
quote. `seen` holds the characters read so far, last one first. -/
def readString (seen : List Char) : List Char → Option (List Char × List Char)
  | [] => none
  | '"' :: rest => some (seen.reverse, rest)
  | '\\' :: 'u' :: a :: b :: c :: d :: rest =>
    match unit? a b c d with
    | none => none
    | some u =>
      match plainUnit? u with
      | some ch => readString (ch :: seen) rest
      | none =>
        match rest with
        | '\\' :: 'u' :: e :: f :: g :: h :: rest =>
          match (unit? e f g h).bind (surrogates? u) with
          | some ch => readString (ch :: seen) rest
          | none => none
        | _ => none
  | '\\' :: c :: rest =>
    match shortEscape? c with
    | some ch => readString (ch :: seen) rest
    | none => none
  | c :: rest => if c.toNat < 32 || c == '\\' then none else readString (c :: seen) rest

theorem length_of_readString {seen cs : List Char} {s rest : List Char}
    (h : readString seen cs = some (s, rest)) : rest.length < cs.length := by
  fun_induction readString seen cs <;> simp only [List.length_cons, List.length_nil] <;> grind

/-- A character that may stand in a number. -/
def isNumberChar (c : Char) : Bool :=
  c.isDigit || c == '-' || c == '+' || c == '.' || c == 'e' || c == 'E'

/-- The number a whole text stands for. -/
def number? (cs : List Char) : Option Json :=
  match NumberText.read? cs with
  | some (t, []) => t.value?
  | _ => none

/-- White space between tokens. -/
def isSpace (c : Char) : Bool := c == ' ' || c == '\n' || c == '\t' || c == '\r'

/-- The tokens of a text, put in front of those already read, last one first. -/
def tokens? (seen : List Token) (cs : List Char) : Option (List Token) :=
  match cs with
  | [] => some seen.reverse
  | '[' :: rest => tokens? (.openArray :: seen) rest
  | ']' :: rest => tokens? (.closeArray :: seen) rest
  | '\x7b' :: rest => tokens? (.openObject :: seen) rest
  | '\x7d' :: rest => tokens? (.closeObject :: seen) rest
  | ',' :: rest => tokens? (.comma :: seen) rest
  | ':' :: rest => tokens? (.colon :: seen) rest
  | 't' :: 'r' :: 'u' :: 'e' :: rest => tokens? (.atom (.bool true) :: seen) rest
  | 'f' :: 'a' :: 'l' :: 's' :: 'e' :: rest => tokens? (.atom (.bool false) :: seen) rest
  | 'n' :: 'u' :: 'l' :: 'l' :: rest => tokens? (.atom .null :: seen) rest
  | '"' :: rest =>
    match _h : readString [] rest with
    | some (s, rest) => tokens? (.atom (.str (String.ofList s)) :: seen) rest
    | none => none
  | c :: rest =>
    if isSpace c then tokens? seen rest
    else if c == '-' || c.isDigit then
      match number? (c :: rest.takeWhile isNumberChar) with
      | some n => tokens? (.atom n :: seen) (rest.dropWhile isNumberChar)
      | none => none
    else none
termination_by cs.length
decreasing_by
  all_goals simp only [List.length_cons]
  all_goals first
    | omega
    | exact Nat.lt_succ_of_lt (length_of_readString _h)
    | exact Nat.lt_succ_of_le (List.dropWhile_suffix isNumberChar).length_le

end CodeAtlas.Json
