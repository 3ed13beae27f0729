import CodeAtlas.Text.Basic

/-!
Patterns over single lines of text. A pattern is tried from left to right and its alternatives in order;
the first way to match wins, so `Pattern.find?` gives the leftmost match and prefers earlier alternatives
and, for greedy repetitions, longer ones. Named parts of the match are kept.
-/
namespace CodeAtlas.Scan

/-- A pattern over a line. -/
inductive Pattern where
  /-- Matches without taking anything. -/
  | nothing
  /-- One character of a class. -/
  | one (p : Char → Bool)
  /-- One pattern after the other. -/
  | seq (a b : Pattern)
  /-- The first pattern, or else the second. -/
  | alt (a b : Pattern)
  /-- Any number of times, as often as possible or as seldom as possible. -/
  | many (greedy : Bool) (a : Pattern)
  /-- Keep what is matched under a name. -/
  | named (name : String) (a : Pattern)
  /-- The start of the line. -/
  | lineStart
  /-- The end of the line. -/
  | lineEnd
  /-- A place with a word character on exactly one side. -/
  | wordEdge

namespace Pattern

instance : Append Pattern := ⟨seq⟩
instance : OrElse Pattern := ⟨fun a b => alt a (b ())⟩

/-- A place in a line: what lies before it, last character first, what lies behind it, and the parts
kept so far. -/
structure Place where
  position : Nat
  before : List Char
  after : List Char
  kept : List (String × List Char)

/-- The place at the start of a line. -/
def Place.start (line : List Char) : Place := ⟨0, [], line, []⟩

/-- The place after the next character. -/
def Place.next? (p : Place) : Option Place :=
  match p.after with
  | [] => none
  | c :: rest => some { p with position := p.position + 1, before := c :: p.before, after := rest }

/-- Whether the place lies at the edge of a word. -/
def Place.atWordEdge (p : Place) : Bool :=
  p.before.head?.any Text.isWord != p.after.head?.any Text.isWord

/-- The first of two attempts that succeeds. -/
def firstOf (a : Option α) (b : Unit → Option α) : Option α :=
  match a with
  | some x => some x
  | none => b ()

/-- Repeat `once` before going on with `k`; a repetition that takes nothing is not repeated. -/
def repeated (greedy : Bool) (once : Place → (Place → Option α) → Option α) :
    Nat → Place → (Place → Option α) → Option α
  | 0, p, k => k p
  | fuel + 1, p, k =>
    let again (_ : Unit) : Option α := once p fun q =>
      if q.position = p.position then none else repeated greedy once fuel q k
    if greedy then firstOf (again ()) fun _ => k p else firstOf (k p) again

/-- Match at a place and go on with `k`; `size` is the length of the whole line. -/
def run (size : Nat) : Pattern → Place → (Place → Option α) → Option α
  | .nothing, p, k => k p
  | .one f, p, k =>
    match p.after with
    | [] => none
    | c :: rest =>
      if f c then k { p with position := p.position + 1, before := c :: p.before, after := rest }
      else none
  | .seq a b, p, k => run size a p fun q => run size b q k
  | .alt a b, p, k => firstOf (run size a p k) fun _ => run size b p k
  | .many greedy a, p, k => repeated greedy (run size a) (size + 1) p k
  | .named name a, p, k => run size a p fun q =>
      k { q with kept := (name, (q.before.take (q.position - p.position)).reverse) :: q.kept }
  | .lineStart, p, k => if p.before.isEmpty then k p else none
  | .lineEnd, p, k => if p.after.isEmpty then k p else none
  | .wordEdge, p, k => if p.atWordEdge then k p else none

/-- A match: the named parts, and the place behind it. -/
structure Found where
  parts : List (String × List Char)
  stop : Place

/-- What was kept under a name; empty when nothing was. -/
def Found.part (f : Found) (name : String) : String := String.ofList ((f.parts.lookup name).getD [])

/-- What was kept under a name. -/
def Found.part? (f : Found) (name : String) : Option String := (f.parts.lookup name).map String.ofList

/-- The first match at or after a place; `fuel` is the number of places to try. -/
def searchFrom (pattern : Pattern) (size : Nat) : Nat → Place → Option Found
  | 0, _ => none
  | fuel + 1, p =>
    match run size pattern { p with kept := [] } fun q => some ⟨q.kept, q⟩ with
    | some found => some found
    | none =>
      match p.next? with
      | some q => searchFrom pattern size fuel q
      | none => none

/-- The leftmost match in a line. -/
def find? (pattern : Pattern) (line : List Char) : Option Found :=
  searchFrom pattern line.length (line.length + 1) (Place.start line)

/-- The matches from a place on; `fuel` bounds their number. -/
def findAllFrom (pattern : Pattern) (size : Nat) : Nat → Place → List Found
  | 0, _ => []
  | fuel + 1, p =>
    match searchFrom pattern size (size + 1) p with
    | none => []
    | some found => found :: findAllFrom pattern size fuel found.stop

/-- All matches in a line, each search starting behind the match before; for patterns that take at least
one character. -/
def findAll (pattern : Pattern) (line : List Char) : List Found :=
  findAllFrom pattern line.length (line.length + 1) (Place.start line)

/-- One given character. -/
def chr (c : Char) : Pattern := one (· == c)

/-- A given text. -/
def lit (s : String) : Pattern := s.toList.foldr (fun c rest => chr c ++ rest) nothing

/-- One of several texts, tried in order. -/
def words : List String → Pattern
  | [] => one fun _ => false
  | [w] => lit w
  | w :: rest => lit w <|> words rest

/-- A pattern or nothing. -/
def opt (a : Pattern) : Pattern := a <|> nothing

/-- As often as possible. -/
def star (a : Pattern) : Pattern := many true a

/-- At least once, as often as possible. -/
def plus (a : Pattern) : Pattern := a ++ star a

/-- One character out of a list. -/
def among (s : String) : Pattern := one s.toList.contains

/-- One character that is not in a list. -/
def except (s : String) : Pattern := one fun c => !s.toList.contains c

/-- White space, possibly none. -/
def blanks : Pattern := star (one Text.isBlank)

/-- White space, at least one character. -/
def gap : Pattern := plus (one Text.isBlank)

/-- A word character. -/
def wordChar : Pattern := one Text.isWord

/-- A Latin letter or an underscore. -/
def nameStart : Pattern := one fun c => c.isAlpha || c == '_'

/-- A name: a Latin letter or an underscore, then word characters. -/
def ident : Pattern := nameStart ++ star wordChar

end Pattern
end CodeAtlas.Scan
