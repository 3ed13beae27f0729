import CodeAtlas.Proofs.Scan.Places
import Mathlib.Data.List.Flatten

/-! Tables and the brackets of their declarations. A table that is read off SQL is what the lines behind its declaration
say, up to the first that begins with a closing bracket and before the next declaration (`schemas_scanSql`). No brackets
are counted: where the bracket of a declaration is closed at the end of another line, the table goes on behind it. -/
namespace CodeAtlas

namespace Sql

/-- What a place in a text of SQL lies in. -/
inductive Zone where
  | code
  | quoted (stop : Char)
  | remark
deriving DecidableEq

/-- Where a statement stands with the bracket that it is to open: `inner` counts the brackets that stand open in it. -/
inductive Bracket where
  | awaited
  | opened (inner : Nat)
  | closed
  | missing
deriving DecidableEq

/-- The mark that ends a quoted text, from the one that starts it. -/
def quoteEnd? (c : Char) : Option Char :=
  if c = '[' then some ']' else if "\x27\"\x60".toList.contains c then some c else none

/-- One more character of code. A statement that ends before it opens a bracket has none. -/
def Bracket.step : Bracket → Char → Bracket
  | .awaited, '(' => .opened 0
  | .awaited, ';' => .missing
  | .opened inner, '(' => .opened (inner + 1)
  | .opened 0, ')' => .closed
  | .opened (inner + 1), ')' => .opened inner
  | b, _ => b

/-- One more line; quoted texts and remarks hold no brackets. -/
def readLine : Zone → Bracket → List Char → Zone × Bracket
  | zone, b, [] => (zone, b)
  | .code, b, '-' :: '-' :: _ => (.code, b)
  | .code, b, '/' :: '*' :: rest => readLine .remark b rest
  | .remark, b, '*' :: '/' :: rest => readLine .code b rest
  | .remark, b, _ :: rest => readLine .remark b rest
  | .quoted stop, b, c :: rest => readLine (if c = stop then .code else .quoted stop) b rest
  | .code, b, c :: rest =>
    match quoteEnd? c with
    | some stop => readLine (.quoted stop) b rest
    | none => readLine .code (b.step c) rest

/-- The number of the line on which the bracket of a statement is closed. -/
def closingLine? (zone : Zone) (b : Bracket) : List (Nat × String) → Option Nat
  | [] => none
  | (n, line) :: rest =>
    let (zone, b) := readLine zone b line.toList
    if b = .closed then some n else closingLine? zone b rest

end Sql

namespace Scan

variable {c : Chunk} {file : String} {t : Facts.Schema}

/-- The columns on a line. -/
def SqlLine.attributes (l : SqlLine) : List Facts.Attribute := l.column.toList.map fun (name, type) => ⟨name, type⟩

/-- The references on a line. -/
def SqlLine.relations (l : SqlLine) : List Facts.Relation := l.reference.toList.map fun target => ⟨target, "foreign_key"⟩

/-- The lines that a table takes, of those behind its declaration: no other declaration, and none behind a line that
begins with a closing bracket. -/
def body : List (Nat × String) → List (Nat × String)
  | [] => []
  | p :: rest =>
    if (readSql p.2).table.isSome then [] else if (readSql p.2).closes then [p] else p :: body rest

section Reading

/-- A table with what some lines say about it. -/
def extendAll (t : Facts.Schema) (lines : List (Nat × String)) : Facts.Schema :=
  { t with
    attributes := t.attributes ++ lines.flatMap fun p => (readSql p.2).attributes
    relations := t.relations ++ lines.flatMap fun p => (readSql p.2).relations }

/-- The tables declared on some lines. -/
def tables (file : String) : List (Nat × String) → List Facts.Schema
  | [] => []
  | p :: rest =>
    match (readSql p.2).table with
    | some name => extendAll ⟨name, file, p.1, "sql", [], []⟩ (body rest) :: tables file rest
    | none => tables file rest

theorem extendAll_nil (t : Facts.Schema) : extendAll t [] = t := by simp [extendAll]

theorem extendAll_cons (t : Facts.Schema) (p : Nat × String) (lines : List (Nat × String)) :
    extendAll t (p :: lines) = extendAll ((readSql p.2).extend t) lines := by
  simp [extendAll, SqlLine.extend, SqlLine.attributes, SqlLine.relations]

/-- Reading on from a state: the open table takes its lines, and then come the tables declared on the lines. -/
theorem schemas_foldl_step (file : String) (lines : List (Nat × String)) (s : SqlState) :
    (lines.foldl (fun s p => s.step file p.1 p.2) s).schemas =
      s.done ++ (s.current.map fun t => extendAll t (body lines)).toList ++ tables file lines := by
  induction lines generalizing s with
  | nil => simp [SqlState.schemas, tables, body, extendAll_nil]
  | cons p rest ih =>
    rw [List.foldl_cons, ih, body, tables, SqlState.step]
    cases htable : (readSql p.2).table with
    | some name => simp [SqlState.schemas, extendAll_nil]
    | none =>
      cases hcurrent : s.current with
      | none => simp [hcurrent]
      | some t => cases hcloses : (readSql p.2).closes <;> simp [extendAll_cons, extendAll_nil]

theorem schemas_scanSql (c : Chunk) : (scanSql c).schemas = tables c.file (numberedLines c) := by
  have hall := schemas_foldl_step c.file (numberedLines c) {}
  simpa [scanSql] using hall

/-- A table is declared on a line, and what it has is said on the lines it takes. -/
theorem exists_of_mem_tables {lines : List (Nat × String)} (h : t ∈ tables file lines) :
    ∃ before declaration after, lines = before ++ (t.startLine, declaration) :: after ∧
      (readSql declaration).table = some t.name ∧
      t.attributes = (body after).flatMap (fun p => (readSql p.2).attributes) ∧
      t.relations = (body after).flatMap fun p => (readSql p.2).relations := by
  induction lines with
  | nil => simp [tables] at h
  | cons p rest ih =>
    rw [tables] at h
    split at h
    · next name hname =>
      rcases List.mem_cons.mp h with rfl | h
      · exact ⟨[], p.2, rest, rfl, hname, List.nil_append _, List.nil_append _⟩
      · obtain ⟨before, declaration, after, hlines, hsaid⟩ := ih h
        exact ⟨p :: before, declaration, after, congrArg (p :: ·) hlines, hsaid⟩
    · obtain ⟨before, declaration, after, hlines, hsaid⟩ := ih h
      exact ⟨p :: before, declaration, after, congrArg (p :: ·) hlines, hsaid⟩

end Reading

section Body

variable {lines : List (Nat × String)} {p q : Nat × String}

theorem body_isPrefix (lines : List (Nat × String)) : body lines <+: lines := by
  induction lines with
  | nil => exact List.prefix_rfl
  | cons p rest ih =>
    unfold body
    split
    · exact List.nil_prefix
    · split
      · exact List.prefix_append [p] rest
      · exact (List.prefix_cons_inj p).mpr ih

/-- Above a line that a table takes it takes every line, and none of them closes it. -/
theorem taken_of_lt (hsorted : lines.Pairwise fun p q => p.1 < q.1) (hp : p ∈ body lines) (hq : q ∈ lines)
    (hlt : q.1 < p.1) : q ∈ body lines ∧ (readSql q.2).closes = false := by
  induction lines with
  | nil => cases hq
  | cons first rest ih =>
    obtain ⟨hfirst, hrest⟩ := List.pairwise_cons.mp hsorted
    unfold body at hp ⊢
    split at hp
    · cases hp
    · next htable =>
      rw [if_neg htable]
      split at hp
      · next hcloses =>
        -- The first line is all that the table takes.
        obtain rfl := List.mem_singleton.mp hp
        rcases List.mem_cons.mp hq with rfl | hlater
        · exact absurd hlt (Nat.lt_irrefl _)
        · exact absurd (hfirst q hlater) (Nat.lt_asymm hlt)
      · next hopen =>
        rw [if_neg hopen]
        rcases List.mem_cons.mp hq with rfl | hlater
        · exact ⟨.head _, Bool.eq_false_iff.mpr hopen⟩
        · rcases List.mem_cons.mp hp with rfl | hp
          · exact absurd (hfirst q hlater) (Nat.lt_asymm hlt)
          · obtain ⟨htaken, hopen⟩ := ih hrest hp hlater
            exact ⟨.tail _ htaken, hopen⟩

end Body

section Provenance

/-- The lines behind the declaration of a table. -/
def linesBelow (c : Chunk) (t : Facts.Schema) : List (Nat × String) := (numberedLines c).filter (t.startLine < ·.1)

/-- The number of the line on which the bracket of a table's declaration is closed. -/
def closingLine? (c : Chunk) (t : Facts.Schema) : Option Nat :=
  Sql.closingLine? .code .awaited ((numberedLines c).filter (t.startLine ≤ ·.1))

/-- Whether the columns and references of a table are the ones on some lines of a chunk below its declaration. -/
structure ReadOff (c : Chunk) (t : Facts.Schema) (lines : List (Nat × String)) : Prop where
  below : lines.Sublist (linesBelow c t)
  attributes : t.attributes = lines.flatMap fun p => (readSql p.2).attributes
  relations : t.relations = lines.flatMap fun p => (readSql p.2).relations

/-- Whether all that a table has is read off lines below its declaration and not below the line that closes it. -/
def ReadWithin (c : Chunk) (t : Facts.Schema) : Prop :=
  ∃ lines, ReadOff c t lines ∧ ∀ p ∈ lines, ∀ n ∈ closingLine? c t, p.1 ≤ n

theorem increasing_numberedLines (c : Chunk) : (numberedLines c).Pairwise fun p q => p.1 < q.1 := by
  have hrange := List.pairwise_lt_range' (s := c.startLine) (n := (Text.lines c.content).length) 1
  rw [← map_fst_numberedLines] at hrange
  exact List.pairwise_map.mp hrange

theorem linesBelow_eq {before after : List (Nat × String)} {declaration : String}
    (h : numberedLines c = before ++ (t.startLine, declaration) :: after) : linesBelow c t = after := by
  have hsorted := increasing_numberedLines c
  rw [h, List.pairwise_append, List.pairwise_cons] at hsorted
  obtain ⟨-, ⟨hafter, -⟩, hbefore⟩ := hsorted
  have habove : before.filter (t.startLine < ·.1) = [] := by
    rw [List.filter_eq_nil_iff]
    intro p hp
    simpa using Nat.le_of_lt (hbefore p hp _ (.head _))
  have hbelow : after.filter (t.startLine < ·.1) = after := by
    rw [List.filter_eq_self]
    exact fun p hp => decide_eq_true (hafter p hp)
  rw [linesBelow, h, List.filter_append, habove, List.filter_cons_of_neg (by simp), hbelow, List.nil_append]

/-- What is read off the lines that a table takes is all it has. -/
theorem readOff_body (ht : t ∈ (scanSql c).schemas) :
    (∃ declaration, (t.startLine, declaration) ∈ numberedLines c ∧ (readSql declaration).table = some t.name) ∧
      ReadOff c t (body (linesBelow c t)) := by
  rw [schemas_scanSql] at ht
  obtain ⟨before, declaration, after, hlines, hname, hattributes, hrelations⟩ := exists_of_mem_tables ht
  have hbelow := linesBelow_eq hlines
  refine ⟨⟨declaration, ?_, hname⟩, ?_, ?_, ?_⟩
  · rw [hlines]
    exact List.mem_append_right before (.head after)
  · exact (body_isPrefix _).sublist
  · rw [hbelow, hattributes]
  · rw [hbelow, hrelations]

end Provenance

section Brackets

variable {α β : Type} {n : Nat} {p : Nat × String}

/-- An element that some of the elements can do without gives nothing. -/
theorem eq_nil_of_flatMap_eq {part all : List α} {f : α → List β} {a : α} (hsub : part.Sublist all)
    (heq : all.flatMap f = part.flatMap f) (hmem : a ∈ all) (hnot : a ∉ part) : f a = [] := by
  obtain ⟨before, after, rfl⟩ := List.append_of_mem hmem
  obtain ⟨first, last, rfl, hfirst, hlast⟩ := List.sublist_append_iff.mp hsub
  have hlast : last.Sublist after := by
    rcases List.sublist_cons_iff.mp hlast with hlast | ⟨rest, rfl, -⟩
    · exact hlast
    · exact absurd (List.mem_append_right first (.head rest)) hnot
  have hlength := congrArg List.length heq
  have hbefore := (hfirst.flatMap f).length_le
  have hafter := (hlast.flatMap f).length_le
  simp only [List.flatMap_append, List.flatMap_cons, List.length_append] at hlength
  exact List.eq_nil_of_length_eq_zero (by omega)

theorem flatMap_filter_eq {l : List α} {f : α → List β} {p : α → Bool} (h : ∀ a ∈ l, p a = false → f a = []) :
    (l.filter p).flatMap f = l.flatMap f := by
  induction l with
  | nil => rfl
  | cons a rest ih =>
    have hrest := ih fun b hb => h b (.tail _ hb)
    cases hp : p a with
    | true => rw [List.filter_cons_of_pos hp, List.flatMap_cons, List.flatMap_cons, hrest]
    | false =>
      rw [List.filter_cons_of_neg (by simp [hp]), List.flatMap_cons, h a (.head _) hp, List.nil_append, hrest]

/-- Where a table takes a line below some line, all of its lines above that one are lines it takes. -/
theorem sublist_body {below lines : List (Nat × String)} (hsorted : below.Pairwise fun p q => p.1 < q.1)
    (hsub : lines.Sublist below) (hlines : ∀ q ∈ lines, q.1 ≤ n) (hp : p ∈ body below) (hlt : n < p.1) :
    lines.Sublist (body below) := by
  obtain ⟨left, hleft⟩ := body_isPrefix below
  rw [← hleft, List.pairwise_append] at hsorted
  -- What is left over stands behind `p`, and so behind `n`.
  have hnone : left.filter (·.1 ≤ n) = [] := by
    rw [List.filter_eq_nil_iff]
    intro q hq
    have hbehind := hsorted.2.2 p hp q hq
    simp only [decide_eq_true_eq]
    omega
  have hself : lines.filter (·.1 ≤ n) = lines := List.filter_eq_self.mpr fun q hq => decide_eq_true (hlines q hq)
  have hkept := hsub.filter (·.1 ≤ n)
  rw [hself, ← hleft, List.filter_append, hnone, List.append_nil] at hkept
  exact hkept.trans List.filter_sublist

/-- A table is read off lines within its brackets exactly if the lines that it takes behind them hold nothing. -/
theorem readWithin_iff (h : ReadOff c t (body (linesBelow c t))) :
    ReadWithin c t ↔ ∀ p ∈ body (linesBelow c t), ∀ n ∈ closingLine? c t, n < p.1 →
      (readSql p.2).attributes = [] ∧ (readSql p.2).relations = [] := by
  constructor
  · rintro ⟨lines, hread, hwithin⟩ p hp n hn hlt
    have hsorted := (increasing_numberedLines c).filter (t.startLine < ·.1)
    have hlines : ∀ q ∈ lines, q.1 ≤ n := fun q hq => hwithin q hq n hn
    have hsub := sublist_body hsorted hread.below hlines hp hlt
    have hnot : p ∉ lines := fun hmem => absurd (hlines p hmem) (Nat.not_le.mpr hlt)
    have hattributes := eq_nil_of_flatMap_eq hsub (h.attributes.symm.trans hread.attributes) hp hnot
    have hrelations := eq_nil_of_flatMap_eq hsub (h.relations.symm.trans hread.relations) hp hnot
    exact ⟨hattributes, hrelations⟩
  · intro hbare
    cases hclosing : closingLine? c t with
    | none => exact ⟨_, h, fun p _ n hn => by rw [hclosing] at hn; cases hn⟩
    | some n =>
      have hnone : ∀ p ∈ body (linesBelow c t), decide (p.1 ≤ n) = false →
          (readSql p.2).attributes = [] ∧ (readSql p.2).relations = [] := fun p hp hbehind =>
        hbare p hp n hclosing (Nat.not_le.mp (of_decide_eq_false hbehind))
      refine ⟨(body (linesBelow c t)).filter (·.1 ≤ n), ⟨List.filter_sublist.trans h.below, ?_, ?_⟩, ?_⟩
      · rw [h.attributes, flatMap_filter_eq fun p hp hbehind => (hnone p hp hbehind).1]
      · rw [h.relations, flatMap_filter_eq fun p hp hbehind => (hnone p hp hbehind).2]
      · intro p hp m hm
        rw [hclosing] at hm
        cases hm
        exact of_decide_eq_true (List.mem_filter.mp hp).2

end Brackets

/-- A table of SQL has the columns and references that stand on the lines it takes below its declaration. All of them
come from within its brackets exactly if none of these lines that stands behind the closing one holds a column or a
reference, and so whenever a line up to the closing one begins with a closing bracket. -/
theorem read_within_brackets (hsql : c.language = "sql") (ht : t ∈ (scan c).schemas) :
    (∃ declaration, (t.startLine, declaration) ∈ numberedLines c ∧ (readSql declaration).table = some t.name) ∧
      ReadOff c t (body (linesBelow c t)) ∧
      (ReadWithin c t ↔ ∀ p ∈ body (linesBelow c t), ∀ n ∈ closingLine? c t, n < p.1 →
        (readSql p.2).attributes = [] ∧ (readSql p.2).relations = []) ∧
      ((∀ n ∈ closingLine? c t, ∃ q ∈ linesBelow c t, q.1 ≤ n ∧ (readSql q.2).closes = true) → ReadWithin c t) := by
  rw [scan, if_pos hsql] at ht
  obtain ⟨hdeclared, hread⟩ := readOff_body ht
  refine ⟨hdeclared, hread, readWithin_iff hread, fun hclosed => (readWithin_iff hread).mpr fun p hp n hn hlt => ?_⟩
  obtain ⟨q, hq, hle, hcloses⟩ := hclosed n hn
  have hsorted := (increasing_numberedLines c).filter (t.startLine < ·.1)
  have hopen := (taken_of_lt hsorted hp hq (by omega)).2
  rw [hcloses] at hopen
  cases hopen

/-- Brackets in quotes and remarks are not counted. -/
example : Sql.closingLine? .code .awaited [(7, "CREATE TABLE notes ("), (8, "  text TEXT DEFAULT ')', -- :)"),
    (9, "  size DECIMAL(10,2)) ENGINE = x;")] = some 9 := by decide

/-- A table that is closed before another statement follows. -/
theorem read_within_brackets_orders :
    let c : Chunk := ⟨"shop.sql", "sql", 21, 26,
      "CREATE TABLE orders (\n  id INTEGER,\n  user_id INTEGER REFERENCES users(id),\n  total DECIMAL(10,2)\n);\nDROP TABLE x;",
      none⟩
    c.language = "sql" ∧ ∃ t ∈ (scan c).schemas, t.name = "orders" ∧
      (∃ declaration, (t.startLine, declaration) ∈ numberedLines c ∧ (readSql declaration).table = some t.name) ∧
      ReadOff c t (body (linesBelow c t)) ∧
      (ReadWithin c t ↔ ∀ p ∈ body (linesBelow c t), ∀ n ∈ closingLine? c t, n < p.1 →
        (readSql p.2).attributes = [] ∧ (readSql p.2).relations = []) ∧
      ((∀ n ∈ closingLine? c t, ∃ q ∈ linesBelow c t, q.1 ≤ n ∧ (readSql q.2).closes = true) → ReadWithin c t) := by
  intro c
  obtain ⟨t, ht, hname⟩ : ∃ t ∈ (scan c).schemas, t.name = "orders" := by decide +kernel
  exact ⟨rfl, t, ht, hname, read_within_brackets rfl ht⟩

/-- A table that is declared on one line takes the start of the next statement for a column. -/
theorem reads_other_statement : ¬ ∀ c t, c.language = "sql" → t ∈ (scan c).schemas → ReadWithin c t := by
  intro h
  let c : Chunk := ⟨"shop.sql", "sql", 1, 2, "CREATE TABLE users (id INT);\nINSERT INTO logs VALUES (1);", none⟩
  obtain ⟨t, ht, hstart, hattributes⟩ : ∃ t ∈ (scan c).schemas, t.startLine = 1 ∧ t.attributes.length = 1 := by
    decide +kernel
  have hclosing : closingLine? c t = some 1 := by
    rw [closingLine?, hstart]
    decide +kernel
  obtain ⟨lines, hread, hwithin⟩ := h c t rfl ht
  have hnil : lines = [] := by
    rw [List.eq_nil_iff_forall_not_mem]
    intro p hp
    have hbelow := of_decide_eq_true (List.mem_filter.mp (hread.below.subset hp)).2
    have hle := hwithin p hp 1 hclosing
    omega
  rw [hread.attributes, hnil] at hattributes
  cases hattributes

end Scan
end CodeAtlas
