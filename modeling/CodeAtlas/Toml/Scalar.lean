import CodeAtlas.Json.Token
import CodeAtlas.Width

/-!
The scalar values of a settings document: numbers with underscores between digits, in four bases; floats,
infinities and NaN; truth values; dates and times; and strings, quoted once or three times, with escapes
between double quotes and none between single ones.
-/
namespace CodeAtlas.Toml

/-- A text that was read and what follows it. -/
abbrev Read (α : Type) := Option (α × List Char)

/-- The digits of a text without the underscores; each underscore must stand between two digits. -/
def digits? (isDigit : Char → Bool) (cs : List Char) : Option (List Char) :=
  let rec go : Bool → List Char → Option (List Char)
    | afterDigit, [] => if afterDigit then some [] else none
    | afterDigit, c :: rest =>
      if isDigit c then (go true rest).map (c :: ·)
      else if c == '_' && afterDigit then go false rest
      else none
  go false cs

/-- The value of digits in a base. -/
def baseValue (base : Nat) (cs : List Char) : Nat :=
  cs.foldl (fun n c => n * base + (Json.hexValue? c).getD 0) 0

/-- A whole number, when it fits 64 bits with a sign. -/
def inRange? (n : Int) : Option Json :=
  if -(Width.size 63 : Int) ≤ n ∧ n < Width.size 63 then some (.int n) else none

/-- Whether a character is a digit of a small base. -/
def isDigitOf (base : Nat) (c : Char) : Bool := ((Json.hexValue? c).any (· < base))

/-- A number in a base that a mark names. -/
def based? (base : Nat) (cs : List Char) : Option Json :=
  (digits? (isDigitOf base) cs).bind fun ds => inRange? (baseValue base ds)

/-- The sign of a text, and the rest. -/
def signOf : List Char → Bool × List Char
  | '-' :: rest => (true, rest)
  | '+' :: rest => (false, rest)
  | cs => (false, cs)

/-- Decimal digits without a leading zero. -/
def decimal? (cs : List Char) : Option (List Char) :=
  (digits? Char.isDigit cs).filter fun ds => !(ds.head? == some '0' && 1 < ds.length)

/-- Split a text at the first character of a class. -/
def splitAt? (p : Char → Bool) (cs : List Char) : Option (List Char × List Char) :=
  match cs.dropWhile (!p ·) with
  | [] => none
  | _ :: after => some (cs.takeWhile (!p ·), after)

/-- A floating-point number with a fraction or an exponent; too large a one is refused unless negative. -/
def float? (cs : List Char) : Option Json := do
  let (negative, cs) := signOf cs
  let (mantissa, power) ← match splitAt? (fun c => c == 'e' || c == 'E') cs with
    | none => some (cs, none)
    | some (mantissa, power) => do
      let (down, power) := signOf power
      let ds ← digits? Char.isDigit power
      let n : Int := Json.digitsValue ds
      some (mantissa, some (if down then -n else n))
  let (whole, fraction) ← match splitAt? (· == '.') mantissa with
    | none => if power.isNone then none else some (← decimal? mantissa, [])
    | some (whole, fraction) => some (← decimal? whole, ← digits? Char.isDigit fraction)
  let n := Json.digitsValue (whole ++ fraction)
  let exponent := power.getD 0 - fraction.length
  let bounded := max (-100000) (min exponent 100000)
  let x := Float.ofScientific n (bounded < 0) bounded.natAbs
  if negative then some (.float (-x)) else if x.isInf then none else some (.float x)

/-- A whole number in decimal notation. -/
def integer? (cs : List Char) : Option Json :=
  let (negative, ds) := signOf cs
  (decimal? ds).bind fun ds =>
    let n : Int := Json.digitsValue ds
    inRange? (if negative then -n else n)

/-- Two digits with a value of at most `high`. -/
def twoDigits? (low high : Nat) : List Char → Option (List Char)
  | a :: b :: rest =>
    let n := Json.digitsValue [a, b]
    if a.isDigit && b.isDigit && low ≤ n && n ≤ high then some rest else none
  | _ => none

/-- A given character. -/
def skip? (c : Char) : List Char → Option (List Char)
  | d :: rest => if c = d then some rest else none
  | [] => none

/-- A time of day, with a fraction of the second if there is one. -/
def time? (cs : List Char) : Option (List Char) := do
  let cs ← skip? ':' (← twoDigits? 0 23 cs)
  let cs ← skip? ':' (← twoDigits? 0 59 cs)
  let cs ← twoDigits? 0 60 cs
  match cs with
  | '.' :: rest => if rest.head?.any Char.isDigit then some (rest.dropWhile Char.isDigit) else none
  | _ => some cs

/-- An offset from universal time. -/
def offset? : List Char → Option (List Char)
  | 'Z' :: rest => some rest
  | 'z' :: rest => some rest
  | '+' :: rest => (twoDigits? 0 23 rest).bind (skip? ':') |>.bind (twoDigits? 0 59)
  | '-' :: rest => (twoDigits? 0 23 rest).bind (skip? ':') |>.bind (twoDigits? 0 59)
  | cs => some cs

/-- The number of days of a month. -/
def daysOf (year month : Nat) : Nat :=
  if month = 2 then (if year % 4 = 0 ∧ (year % 100 ≠ 0 ∨ year % 400 = 0) then 29 else 28)
  else if [4, 6, 9, 11].contains month then 30 else 31

/-- A date, and what follows it. -/
def date? (cs : List Char) : Option (List Char) :=
  match cs with
  | a :: b :: c :: d :: '-' :: m :: n :: '-' :: x :: y :: rest =>
    let year := Json.digitsValue [a, b, c, d]
    let month := Json.digitsValue [m, n]
    let day := Json.digitsValue [x, y]
    if [a, b, c, d, m, n, x, y].all Char.isDigit && 1 ≤ month && month ≤ 12 && 1 ≤ day &&
        day ≤ daysOf year month then some rest else none
  | _ => none

/-- Whether a whole text is a date, a time, or both. -/
def isMoment (cs : List Char) : Bool :=
  match date? cs with
  | some [] => true
  | some (t :: rest) =>
    (t == 'T' || t == 't' || t == ' ') && ((time? rest).bind offset?) == some []
  | none => time? cs == some []

/-- A date or time as a document: it fits no setting. -/
def moment (cs : List Char) : Json := .obj [("$__toml_private_datetime", .str (String.ofList cs))]

/-- A value that is written as one word. -/
def word? (cs : List Char) : Option Json :=
  let (negative, unsigned) := signOf cs
  if cs = "true".toList then some (.bool true)
  else if cs = "false".toList then some (.bool false)
  else if unsigned = "inf".toList then some (.float (if negative then -(1.0 / 0.0) else 1.0 / 0.0))
  else if unsigned = "nan".toList then some (.float (0.0 / 0.0))
  else match cs with
    | '0' :: 'x' :: rest => based? 16 rest
    | '0' :: 'o' :: rest => based? 8 rest
    | '0' :: 'b' :: rest => based? 2 rest
    | _ => if isMoment cs then some (moment cs) else (integer? cs).or (float? cs)

/-- A character that may stand unescaped in a string or a comment. -/
def isPrintable (c : Char) : Bool := c == '\t' || (32 ≤ c.toNat && c.toNat ≠ 127)

/-- The character of `n` hexadecimal digits at the start of a text. -/
def codePoint? (n : Nat) (cs : List Char) : Read Char :=
  let ds := cs.take n
  let value := baseValue 16 ds
  if ds.length = n ∧ ds.all (isDigitOf 16) ∧ value.isValidChar then
    some (Char.ofNat value, cs.drop n)
  else none

/-- An escape whose backslash is behind. -/
def escape? : List Char → Read Char
  | 'b' :: rest => some ('\x08', rest)
  | 't' :: rest => some ('\t', rest)
  | 'n' :: rest => some ('\n', rest)
  | 'f' :: rest => some ('\x0c', rest)
  | 'r' :: rest => some ('\r', rest)
  | '"' :: rest => some ('"', rest)
  | '\\' :: rest => some ('\\', rest)
  | 'u' :: rest => codePoint? 4 rest
  | 'U' :: rest => codePoint? 8 rest
  | _ => none

/-- The rest of a string between double quotes on one line; `fuel` bounds its length. -/
def basic? : Nat → List Char → List Char → Read String
  | 0, _, _ => none
  | fuel + 1, seen, cs =>
    match cs with
    | '"' :: rest => some (String.ofList seen.reverse, rest)
    | '\\' :: rest => (escape? rest).bind fun (c, rest) => basic? fuel (c :: seen) rest
    | c :: rest => if isPrintable c then basic? fuel (c :: seen) rest else none
    | [] => none

/-- The rest of a string between single quotes on one line. -/
def literal? (cs : List Char) : Read String :=
  match cs.dropWhile (· ≠ '\x27') with
  | _ :: rest =>
    let text := cs.takeWhile (· ≠ '\x27')
    if text.all isPrintable then some (String.ofList text, rest) else none
  | [] => none

/-- The text after the end of a line, if it is one. -/
def newline? : List Char → Option (List Char)
  | '\n' :: rest => some rest
  | '\r' :: '\n' :: rest => some rest
  | _ => none

/-- What follows a backslash that ends a line: white space up to the next text, over at least one line. -/
def joinLines? (cs : List Char) : Option (List Char) :=
  let rest := cs.dropWhile fun c => c == ' ' || c == '\t'
  (newline? rest).map fun rest => rest.dropWhile fun c =>
    c == ' ' || c == '\t' || c == '\n' || c == '\r'

/-- The rest of a string between threefold quotes; up to two quotes may stand before the closing ones. -/
def threefold? (quote : Char) (escapes : Bool) : Nat → List Char → List Char → Read String
  | 0, _, _ => none
  | fuel + 1, seen, cs =>
    let run := (cs.takeWhile (· == quote)).length
    if 6 ≤ run then none
    else if 3 ≤ run then
      some (String.ofList ((List.replicate (run - 3) quote ++ seen).reverse), cs.drop run)
    else match newline? cs with
      | some rest => threefold? quote escapes fuel ('\n' :: seen) rest
      | none =>
        match cs with
        | [] => none
        | c :: rest =>
          if escapes && c == '\\' then
            match joinLines? rest with
            | some rest => threefold? quote escapes fuel seen rest
            | none => (escape? rest).bind fun (c, rest) =>
                threefold? quote escapes fuel (c :: seen) rest
          else if isPrintable c then threefold? quote escapes fuel (c :: seen) rest
          else none

/-- A string at the start of a text. -/
def string? (cs : List Char) : Read String :=
  match cs with
  | '"' :: '"' :: '"' :: rest =>
    threefold? '"' true (rest.length + 1) [] ((newline? rest).getD rest)
  | '\x27' :: '\x27' :: '\x27' :: rest =>
    threefold? '\x27' false (rest.length + 1) [] ((newline? rest).getD rest)
  | '"' :: rest => basic? (rest.length + 1) [] rest
  | '\x27' :: rest => literal? rest
  | _ => none

end CodeAtlas.Toml
