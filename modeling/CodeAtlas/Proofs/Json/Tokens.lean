import CodeAtlas.Json.Printer
import CodeAtlas.Json.Reader
import CodeAtlas.Proofs.Decimal.Digits

/-! The values without parts, read back from how they are written: whole numbers that fit 64 bits, and texts,
whose escapes stand for the characters that they replace. -/
namespace CodeAtlas
namespace Json

open Decimal

/-- Whether a whole number fits 64 bits, with a sign when it is negative. -/
def FitsInt (n : Int) : Prop := -(Width.size 63 : Int) ≤ n ∧ n < Width.size 64

/-- The characters of a sign. -/
def signChars (negative : Bool) : List Char := if negative then ['-'] else []

/-- Digits before the point are all kept as long as their value fits. -/
theorem foldl_pushWhole (ds : List Char) (n : Nat) (h : Nat.ofDigitChars 10 ds n < Width.size 64) :
    ds.foldl Scaled.pushWhole ⟨n, 0⟩ = ⟨Nat.ofDigitChars 10 ds n, 0⟩ := by
  induction ds generalizing n with
  | nil => simp
  | cons c ds ih =>
    rw [Nat.ofDigitChars_cons] at h ⊢
    have hnext : n * 10 + digitValue c = 10 * n + (c.toNat - '0'.toNat) := by
      rw [Nat.mul_comm, digitValue]
    have hfit : 10 * n + (c.toNat - '0'.toNat) < Width.size 64 :=
      Nat.lt_of_le_of_lt (le_ofDigitChars ds _) h
    have hpush : Scaled.pushWhole ⟨n, 0⟩ c = ⟨10 * n + (c.toNat - '0'.toNat), 0⟩ := by
      unfold Scaled.pushWhole
      rw [hnext]
      exact if_pos ⟨rfl, hfit⟩
    rw [List.foldl_cons, hpush, ih _ h]

theorem foldl_pushWhole_toDigits {n : Nat} (h : n < Width.size 64) :
    (Nat.toDigits 10 n).foldl Scaled.pushWhole ⟨0, 0⟩ = ⟨n, 0⟩ := by
  rw [foldl_pushWhole _ _ (by rwa [Nat.ofDigitChars_ten_toDigits]), Nat.ofDigitChars_ten_toDigits]

theorem hasNoLeadingZero (n : Nat) :
    ((Nat.toDigits 10 n).head? == some '0' && decide (1 < (Nat.toDigits 10 n).length)) = false := by
  by_cases h : (Nat.toDigits 10 n).head? = some '0'
  · rw [eq_zero_of_head_toDigits h]
    rfl
  · simp [h]

/-- A sign and digits are split into just these. -/
theorem read?_digits (negative : Bool) (n : Nat) :
    NumberText.read? (signChars negative ++ Nat.toDigits 10 n) =
      some (⟨negative, Nat.toDigits 10 n, [], none⟩, []) := by
  have hrun : ∀ c ∈ Nat.toDigits 10 n, c.isDigit = true := fun c h => isDigit_of_mem h
  have htake := takeWhile_run hrun (stops_nil _)
  have hdrop := dropWhile_run hrun (stops_nil _)
  rw [List.append_nil] at htake hdrop
  have hzero := hasNoLeadingZero n
  cases negative with
  | true => simp [NumberText.read?, signChars, htake, hdrop, hzero]
  | false =>
    have hsign : signChars false ++ Nat.toDigits 10 n = Nat.toDigits 10 n := rfl
    rw [hsign]
    unfold NumberText.read?
    split
    next negative cs heq =>
      split at heq
      · next rest hd =>
        have hdigit : '-'.isDigit = true := hrun '-' (by simp [hd])
        exact absurd hdigit (by decide)
      · obtain ⟨rfl, rfl⟩ := Prod.mk.inj heq
        simp [htake, hdrop, hzero]

theorem value?_digits {n : Int} (h : FitsInt n) :
    NumberText.value? ⟨decide (n < 0), Nat.toDigits 10 n.natAbs, [], none⟩ = some (.int n) := by
  obtain ⟨hlow, hhigh⟩ := h
  have hsize : Width.size 64 = 2 * Width.size 63 := by decide
  have hfit : n.natAbs < Width.size 64 := by omega
  unfold NumberText.value?
  rw [foldl_pushWhole_toDigits hfit]
  generalize hm : n.natAbs = m
  by_cases hneg : n < 0
  · have hpos : m ≠ 0 := by omega
    have hmost : m ≤ Width.size 63 := by omega
    have habs : -(m : Int) = n := by omega
    simp [hneg, hpos, hmost, habs]
  · have habs : (m : Int) = n := by omega
    simp [hneg, habs]

/-- The characters of a whole number. -/
theorem toList_atomText_int (n : Int) :
    (atomText (.int n)).toList = signChars (decide (n < 0)) ++ Nat.toDigits 10 n.natAbs := by
  unfold atomText signChars
  by_cases hneg : n < 0 <;> simp [hneg]

theorem number?_int {n : Int} (h : FitsInt n) : number? (atomText (.int n)).toList = some (.int n) := by
  unfold number?
  rw [toList_atomText_int, read?_digits]
  exact value?_digits h

theorem hexValue?_hexDigit : ∀ {k : Nat}, k < 16 → hexValue? (hexDigit k) = some k := by
  decide

theorem unit?_control {k : Nat} (h : k < 32) :
    unit? '0' '0' (hexDigit (k / 16)) (hexDigit (k % 16)) = some k := by
  have hzero : hexValue? '0' = some 0 := by decide
  have hhigh := hexValue?_hexDigit (k := k / 16) (by omega)
  have hlow := hexValue?_hexDigit (k := k % 16) (by omega)
  have hsum : (0 * 16 + 0) * 16 + k / 16 = k / 16 := by omega
  simp [unit?, hzero, hhigh, hlow]
  omega

/-- An escape stands for the character that it replaces. -/
theorem readString_escapeChar (c : Char) (seen rest : List Char) :
    readString seen (escapeChar c ++ rest) = readString (c :: seen) rest := by
  unfold escapeChar
  split
  case h_8 hquote hback hline hreturn htab hbell hfeed =>
    split
    · next hlow =>
      have hunit := unit?_control hlow
      have hplain : plainUnit? c.toNat = some c := by
        unfold plainUnit?
        rw [if_neg (by omega), Char.ofNat_toNat]
      simp [readString, hunit, hplain]
    · next hlow =>
      rw [List.singleton_append, readString.eq_def]
      split
      · next h => cases h
      · next h => exact (hquote (List.cons.inj h).1).elim
      · next h => exact (hback (List.cons.inj h).1).elim
      · next h => exact (hback (List.cons.inj h).1).elim
      · next h =>
        obtain ⟨rfl, rfl⟩ := List.cons.inj h
        exact if_neg (by simpa [hlow] using hback)
  all_goals simp [readString, shortEscape?]

theorem readString_escaped (cs seen rest : List Char) :
    readString seen (cs.flatMap escapeChar ++ '"' :: rest) = some (seen.reverse ++ cs, rest) := by
  induction cs generalizing seen with
  | nil => simp [readString]
  | cons c cs ih =>
    rw [List.flatMap_cons, List.append_assoc, readString_escapeChar, ih]
    simp

/-- The characters of a text in quotes. -/
theorem toList_quote (s : String) : (quote s).toList = '"' :: (s.toList.flatMap escapeChar ++ ['"']) := by
  have hfold (cs : List Char) (out : String) :
      (cs.foldl (fun out c => out ++ String.ofList (escapeChar c)) out).toList =
        out.toList ++ cs.flatMap escapeChar := by
    induction cs generalizing out with
    | nil => simp
    | cons c cs ih => simp [ih]
  unfold quote
  rw [String.foldl_eq_foldl_toList, String.toList_append, hfold]
  simp

end Json
end CodeAtlas

/-! The tokens of a document, and that the indented text of a document has just these. Blanks between tokens
do not matter, and a number ends where a character follows that cannot stand in one. -/
namespace CodeAtlas
namespace Json

open Decimal

mutual

/-- The tokens of a document. -/
def tokens : Json → List Token
  | .arr items => .openArray :: (itemTokens true items ++ [.closeArray])
  | .obj fields => .openObject :: (fieldTokens true fields ++ [.closeObject])
  | j => [.atom j]

/-- The tokens of items with commas between them. -/
def itemTokens (isFirst : Bool) : List Json → List Token
  | [] => []
  | j :: rest => (if isFirst then [] else [.comma]) ++ tokens j ++ itemTokens false rest

/-- The tokens of fields with commas between them. -/
def fieldTokens (isFirst : Bool) : List (String × Json) → List Token
  | [] => []
  | (k, j) :: rest =>
    (if isFirst then [] else [.comma]) ++ [.atom (.str k), .colon] ++ tokens j ++ fieldTokens false rest

end

/-- Documents that are written without loss and nested at most `depth` deep: without floating-point numbers,
and with whole numbers that fit. -/
inductive Exact : Nat → Json → Prop
  | null (depth : Nat) : Exact depth .null
  | bool (depth : Nat) (b : Bool) : Exact depth (.bool b)
  | int (depth : Nat) {n : Int} : FitsInt n → Exact depth (.int n)
  | str (depth : Nat) (s : String) : Exact depth (.str s)
  | arr {depth : Nat} {items : List Json} : (∀ j ∈ items, Exact depth j) → Exact (depth + 1) (.arr items)
  | obj {depth : Nat} {fields : List (String × Json)} : (∀ f ∈ fields, Exact depth f.2) →
      Exact (depth + 1) (.obj fields)

theorem Exact.mono {depth : Nat} {j : Json} (h : Exact depth j) {more : Nat} (hle : depth ≤ more) :
    Exact more j := by
  induction h generalizing more with
  | null => exact .null more
  | bool _ b => exact .bool more b
  | int _ hn => exact .int more hn
  | str _ s => exact .str more s
  | arr _ ih =>
    cases more with
    | zero => omega
    | succ more => exact .arr fun j hj => ih j hj (by omega)
  | obj _ ih =>
    cases more with
    | zero => omega
    | succ more => exact .obj fun f hf => ih f hf (by omega)

/-- The characters that are tokens by themselves. -/
def marks : List (Char × Token) :=
  [('[', .openArray), (']', .closeArray), ('\x7b', .openObject), ('\x7d', .closeObject), (',', .comma), (':', .colon)]

theorem tokens?_mark {c : Char} {t : Token} (h : (c, t) ∈ marks) (seen : List Token) (rest : List Char) :
    tokens? seen (c :: rest) = tokens? (t :: seen) rest := by
  simp only [marks, List.mem_cons, Prod.mk.injEq, List.not_mem_nil, or_false] at h
  rcases h with ⟨rfl, rfl⟩ | ⟨rfl, rfl⟩ | ⟨rfl, rfl⟩ | ⟨rfl, rfl⟩ | ⟨rfl, rfl⟩ | ⟨rfl, rfl⟩ <;> simp [tokens?]

/-- A text that is read as some tokens, whatever follows that does not go on with a number. -/
def Lexes (cs : List Char) (ts : List Token) : Prop :=
  ∀ seen rest, Stops isNumberChar rest → tokens? seen (cs ++ rest) = tokens? (ts.reverse ++ seen) rest

namespace Lexes

theorem nil : Lexes [] [] := fun _ _ _ => rfl

theorem append {cs ds : List Char} {ts us : List Token} (hc : Lexes cs ts) (hd : Lexes ds us)
    (hstop : Stops isNumberChar ds) : Lexes (cs ++ ds) (ts ++ us) := by
  intro seen rest hrest
  have hnext : Stops isNumberChar (ds ++ rest) := by
    cases ds with
    | nil => exact hrest
    | cons d ds => exact stops_cons.mpr (stops_cons.mp hstop)
  rw [List.append_assoc, hc seen (ds ++ rest) hnext, hd _ rest hrest]
  simp

/-- A mark in front of a text. -/
theorem mark {c : Char} {t : Token} {cs : List Char} {ts : List Token} (hc : (c, t) ∈ marks) (h : Lexes cs ts) :
    Lexes (c :: cs) (t :: ts) := by
  intro seen rest hrest
  rw [List.cons_append, tokens?_mark hc, h _ rest hrest]
  simp

theorem space {c : Char} (hc : isSpace c = true) {cs : List Char} {ts : List Token} (h : Lexes cs ts) :
    Lexes (c :: cs) ts := by
  intro seen rest hrest
  rw [List.cons_append, ← h seen rest hrest]
  simp only [isSpace, Bool.or_eq_true, beq_iff_eq] at hc
  rcases hc with ((rfl | rfl) | rfl) | rfl <;> simp [tokens?, isSpace]

theorem indent (level : Nat) {cs : List Char} {ts : List Token} (h : Lexes cs ts) :
    Lexes ((indent level).toList ++ cs) ts := by
  have hblanks : ∀ n, Lexes (List.replicate n ' ' ++ cs) ts := by
    intro n
    induction n with
    | zero => exact h
    | succ n ih => exact ih.space (by decide)
  have hline := (hblanks (2 * level)).space (c := '\n') (by decide)
  simpa [Json.indent] using hline

/-- A text of which the first character may begin a number, and the others may stand in one. -/
theorem number {c : Char} {cs : List Char} {j : Json} (hc : (c == '-' || c.isDigit) = true)
    (hcs : ∀ d ∈ cs, isNumberChar d = true) (hj : number? (c :: cs) = some j) : Lexes (c :: cs) [.atom j] := by
  intro seen rest hrest
  have htake := takeWhile_run hcs hrest
  have hdrop := dropWhile_run hcs hrest
  have hspace : isSpace c = false := by
    cases hs : isSpace c with
    | false => rfl
    | true =>
      simp only [isSpace, Bool.or_eq_true, beq_iff_eq] at hs
      rcases hs with ((rfl | rfl) | rfl) | rfl <;> exact absurd hc (by decide)
  rw [List.cons_append, tokens?.eq_def]
  split
  case h_1 heq => cases heq
  case h_12 heq =>
    obtain ⟨rfl, rfl⟩ := List.cons.inj heq
    simp [htake, hdrop, hspace, hj, hc]
  all_goals
    next heq =>
      obtain ⟨rfl, -⟩ := List.cons.inj heq
      exact absurd hc (by decide)

theorem quote (s : String) : Lexes (quote s).toList [.atom (.str s)] := by
  intro seen rest _
  rw [toList_quote, List.cons_append, List.append_assoc, List.singleton_append]
  have hread := readString_escaped s.toList [] rest
  rw [tokens?.eq_def]
  simp
  split
  · next text after heq =>
    rw [hread] at heq
    cases heq
    simp
  · next heq =>
    rw [hread] at heq
    cases heq

theorem int {n : Int} (h : FitsInt n) : Lexes (atomText (.int n)).toList [.atom (.int n)] := by
  have hread := number?_int h
  have hdigit : ∀ c ∈ Nat.toDigits 10 n.natAbs, c.isDigit = true := fun c hc => isDigit_of_mem hc
  rw [toList_atomText_int] at hread ⊢
  by_cases hneg : n < 0
  · simp only [hneg, decide_true, signChars, if_true, List.singleton_append] at hread ⊢
    exact number (by decide) (fun c hc => by simp [isNumberChar, hdigit c hc]) hread
  · simp only [hneg, decide_false, signChars, Bool.false_eq_true, if_false, List.nil_append] at hread ⊢
    cases hd : Nat.toDigits 10 n.natAbs with
    | nil => exact absurd hd Nat.toDigits_ne_nil
    | cons c cs =>
      rw [hd] at hread hdigit
      have hc : c.isDigit = true := hdigit c (by simp)
      exact number (by simp [hc]) (fun d hd => by simp [isNumberChar, hdigit d (by simp [hd])]) hread

end Lexes

/-- What writing appends to the text so far. -/
def Appends (write : String → String) (cs : List Char) : Prop :=
  ∀ out, (write out).toList = out.toList ++ cs

/-- A writer of a text with some tokens. -/
def Writes (write : String → String) (ts : List Token) : Prop :=
  ∃ cs, Appends write cs ∧ Lexes cs ts

/-- A writer of a text with some tokens that may follow a number. -/
def WritesAfter (write : String → String) (ts : List Token) : Prop :=
  ∃ cs, Appends write cs ∧ Lexes cs ts ∧ Stops isNumberChar cs

theorem stops_indent (level : Nat) (cs : List Char) : Stops isNumberChar ((indent level).toList ++ cs) := by
  have hline : (indent level).toList ++ cs = '\n' :: (List.replicate (2 * level) ' ' ++ cs) := by
    simp [indent]
  rw [hline]
  exact stops_cons.mpr (by decide)

/-- A comma in front of all but the first part. -/
theorem writesAfter_comma (isFirst : Bool) {write : String → String} {ts : List Token}
    (h : WritesAfter write ts) :
    WritesAfter (fun out => write (if isFirst then out else out ++ ","))
      ((if isFirst then [] else [.comma]) ++ ts) := by
  obtain ⟨cs, happ, hlex, hstop⟩ := h
  cases isFirst with
  | true => exact ⟨cs, happ, hlex, hstop⟩
  | false =>
    refine ⟨',' :: cs, fun out => ?_, hlex.mark (by simp [marks]), stops_cons.mpr (by decide)⟩
    simp [happ (out ++ ",")]

theorem writesAfter_indent (level : Nat) {write : String → String} {ts : List Token} (h : Writes write ts) :
    WritesAfter (fun out => write (out ++ indent level)) ts := by
  obtain ⟨cs, happ, hlex⟩ := h
  refine ⟨(indent level).toList ++ cs, fun out => ?_, hlex.indent level, stops_indent level cs⟩
  simp [happ (out ++ indent level)]

/-- One part after the other. -/
theorem WritesAfter.then {first next : String → String} {ts us : List Token} (h : WritesAfter first ts)
    (hnext : WritesAfter next us) : WritesAfter (fun out => next (first out)) (ts ++ us) := by
  obtain ⟨cs, happ, hlex, hstop⟩ := h
  obtain ⟨ds, hnapp, hnlex, hnstop⟩ := hnext
  refine ⟨cs ++ ds, fun out => ?_, hlex.append hnlex hnstop, ?_⟩
  · simp [hnapp (first out), happ out]
  · cases cs with
    | nil => exact hnstop
    | cons c cs => exact stops_cons.mpr (stops_cons.mp hstop)

theorem writesAfter_items {items : List Json} (h : ∀ j ∈ items, ∀ level, Writes (writePretty level · j) (tokens j))
    (level : Nat) (isFirst : Bool) :
    WritesAfter (prettyItems level · isFirst items) (itemTokens isFirst items) := by
  induction items generalizing isFirst with
  | nil => exact ⟨[], fun out => by simp [prettyItems], Lexes.nil, stops_nil _⟩
  | cons j items ih =>
    have hhead := writesAfter_comma isFirst (writesAfter_indent level (h j (by simp) level))
    have htail := ih (fun k hk => h k (by simp [hk])) false
    exact hhead.then htail

theorem writes_key (k : String) {write : String → String} {ts : List Token} (h : Writes write ts) :
    Writes (fun out => write (out ++ quote k ++ ": ")) ([.atom (.str k), .colon] ++ ts) := by
  obtain ⟨cs, happ, hlex⟩ := h
  refine ⟨(quote k).toList ++ ':' :: ' ' :: cs, fun out => by simp [happ (out ++ quote k ++ ": ")], ?_⟩
  have hblank : Lexes (' ' :: cs) ts := hlex.space (by decide)
  have hcolon : Lexes (':' :: ' ' :: cs) (.colon :: ts) := hblank.mark (by simp [marks])
  exact (Lexes.quote k).append hcolon (stops_cons.mpr (by decide))

theorem writesAfter_fields {fields : List (String × Json)}
    (h : ∀ f ∈ fields, ∀ level, Writes (writePretty level · f.2) (tokens f.2)) (level : Nat) (isFirst : Bool) :
    WritesAfter (prettyFields level · isFirst fields) (fieldTokens isFirst fields) := by
  induction fields generalizing isFirst with
  | nil => exact ⟨[], fun out => by simp [prettyFields], Lexes.nil, stops_nil _⟩
  | cons f fields ih =>
    have hfield := writes_key f.1 (h f (by simp) level)
    have hhead := writesAfter_comma isFirst (writesAfter_indent level hfield)
    have htail := ih (fun g hg => h g (by simp [hg])) false
    have hboth := hhead.then htail
    rw [← List.append_assoc] at hboth
    exact hboth

/-- Parts between brackets, the closing one on a line of its own. -/
theorem writes_brackets (level : Nat) (left right : String) (l r : Char) {opening closing : Token}
    (hleft : left.toList = [l]) (hright : right.toList = [r])
    (hopen : (l, opening) ∈ marks) (hclose : (r, closing) ∈ marks)
    {write : String → String} {ts : List Token} (h : WritesAfter write ts) :
    Writes (fun out => write (out ++ left) ++ indent level ++ right) (opening :: (ts ++ [closing])) := by
  obtain ⟨cs, happ, hlex, _⟩ := h
  refine ⟨l :: (cs ++ ((indent level).toList ++ [r])), fun out => ?_, ?_⟩
  · simp [happ (out ++ left), hleft, hright]
  · have hend : Lexes ((indent level).toList ++ [r]) [closing] := (Lexes.nil.mark hclose).indent level
    exact (hlex.append hend (stops_indent level [r])).mark hopen

theorem writes_atom {j : Json} (text : String) (hatom : ∀ level out, writePretty level out j = out ++ text)
    (htokens : tokens j = [.atom j]) (hlex : Lexes text.toList [.atom j]) (level : Nat) :
    Writes (writePretty level · j) (tokens j) := by
  rw [htokens]
  exact ⟨text.toList, fun out => by simp [hatom], hlex⟩

/-- The indented text of a document has the document's tokens. -/
theorem Exact.writes {depth : Nat} {j : Json} (h : Exact depth j) (level : Nat) :
    Writes (writePretty level · j) (tokens j) := by
  induction h generalizing level with
  | null =>
    refine writes_atom "null" (fun _ _ => by simp [writePretty, atomText]) (by simp [tokens]) ?_ level
    intro seen rest _
    simp [tokens?]
  | bool _ b =>
    cases b with
    | true =>
      refine writes_atom "true" (fun _ _ => by simp [writePretty, atomText]) (by simp [tokens]) ?_ level
      intro seen rest _
      simp [tokens?]
    | false =>
      refine writes_atom "false" (fun _ _ => by simp [writePretty, atomText]) (by simp [tokens]) ?_ level
      intro seen rest _
      simp [tokens?]
  | int _ hn => exact writes_atom _ (fun _ _ => by simp [writePretty]) (by simp [tokens]) (Lexes.int hn) level
  | str _ s =>
    exact writes_atom (quote s) (fun _ _ => by simp [writePretty, atomText]) (by simp [tokens]) (Lexes.quote s) level
  | @arr _ items _ ih =>
    have hopen : ('[', Token.openArray) ∈ marks := by simp [marks]
    have hclose : (']', Token.closeArray) ∈ marks := by simp [marks]
    have hparts := writesAfter_items ih (level + 1) true
    cases items with
    | nil =>
      refine ⟨['[', ']'], fun out => by simp [writePretty], ?_⟩
      simpa [tokens, itemTokens] using (Lexes.nil.mark hclose).mark hopen
    | cons j items =>
      have h := writes_brackets level "[" "]" '[' ']' rfl rfl hopen hclose hparts
      simpa only [writePretty, tokens] using h
  | @obj _ fields _ ih =>
    have hopen : ('\x7b', Token.openObject) ∈ marks := by simp [marks]
    have hclose : ('\x7d', Token.closeObject) ∈ marks := by simp [marks]
    have hparts := writesAfter_fields ih (level + 1) true
    cases fields with
    | nil =>
      refine ⟨['\x7b', '\x7d'], fun out => by simp [writePretty], ?_⟩
      simpa [tokens, fieldTokens] using (Lexes.nil.mark hclose).mark hopen
    | cons f fields =>
      have h := writes_brackets level "\x7b" "\x7d" '\x7b' '\x7d' rfl rfl hopen hclose hparts
      simpa only [writePretty, tokens] using h

end Json
end CodeAtlas

/-! A document that is written without loss and not too deep is read back from its indented text as it was. -/
namespace CodeAtlas
namespace Json

/-- What a value's tokens do where a value may stand. -/
def Reads (j : Json) (depth : Nat) : Prop :=
  ∀ stack expect, (expect = .value ∨ expect = .itemOrClose) → stack.length + depth ≤ maxDepth →
    (tokens j).foldlM Reading.step ⟨stack, expect⟩ = Reading.finish j stack

theorem reads_atom {j : Json} (htokens : tokens j = [.atom j]) (depth : Nat) : Reads j depth := by
  intro stack expect hexpect _
  rw [htokens]
  rcases hexpect with rfl | rfl <;> simp [Reading.step]

theorem Reading.enter_of_lt {frame : Frame} {expect : Expect} {stack : List Frame}
    (h : stack.length < maxDepth) : enter frame expect stack = some ⟨frame :: stack, expect⟩ := if_pos h

/-- The items after the first one, each behind its comma. -/
theorem foldlM_itemTokens {depth : Nat} {items : List Json} (h : ∀ j ∈ items, Reads j depth)
    (seen : List Json) (stack : List Frame) (hdepth : stack.length + 1 + depth ≤ maxDepth) :
    (itemTokens false items).foldlM Reading.step ⟨.items seen :: stack, .separator⟩ =
      some ⟨.items (items.reverse ++ seen) :: stack, .separator⟩ := by
  induction items generalizing seen with
  | nil => simp [itemTokens]
  | cons j items ih =>
    have hj := h j (by simp) (.items seen :: stack) .value (.inl rfl) (by simpa using hdepth)
    have hrest := ih (fun k hk => h k (by simp [hk])) (j :: seen)
    simp [itemTokens, Reading.step, List.foldlM_append, hj, Reading.finish, hrest]

theorem foldlM_fieldTokens {depth : Nat} {fields : List (String × Json)} (h : ∀ f ∈ fields, Reads f.2 depth)
    (seen : List (String × Json)) (stack : List Frame) (hdepth : stack.length + 1 + depth ≤ maxDepth) :
    (fieldTokens false fields).foldlM Reading.step ⟨.fields seen :: stack, .separator⟩ =
      some ⟨.fields (fields.reverse ++ seen) :: stack, .separator⟩ := by
  induction fields generalizing seen with
  | nil => simp [fieldTokens]
  | cons f fields ih =>
    have hf := h f (by simp) (.value seen f.1 :: stack) .value (.inl rfl) (by simpa using hdepth)
    have hrest := ih (fun g hg => h g (by simp [hg])) (f :: seen)
    simp [fieldTokens, Reading.step, List.foldlM_append, hf, Reading.finish, hrest]

theorem Exact.reads {depth : Nat} {j : Json} (h : Exact depth j) : Reads j depth := by
  induction h with
  | null | bool | int | str => exact reads_atom (by simp [tokens]) _
  | @arr depth items _ ih =>
    intro stack expect hexpect hdepth
    have henter : Reading.enter (.items []) .itemOrClose stack = some ⟨.items [] :: stack, .itemOrClose⟩ :=
      Reading.enter_of_lt (by omega)
    have hopen : Reading.step ⟨stack, expect⟩ .openArray = some ⟨.items [] :: stack, .itemOrClose⟩ := by
      rcases hexpect with rfl | rfl <;> simpa [Reading.step] using henter
    rw [tokens, List.foldlM_cons, hopen]
    cases items with
    | nil => simp [itemTokens, Reading.step]
    | cons j items =>
      have hj := ih j (by simp) (.items [] :: stack) .itemOrClose (.inr rfl) (by simp; omega)
      have hrest := foldlM_itemTokens (fun k hk => ih k (List.mem_cons_of_mem j hk)) [j] stack (by omega)
      simp [itemTokens, List.foldlM_append, hj, Reading.finish, hrest, Reading.step]
  | @obj depth fields _ ih =>
    intro stack expect hexpect hdepth
    have henter : Reading.enter (.fields []) .keyOrClose stack = some ⟨.fields [] :: stack, .keyOrClose⟩ :=
      Reading.enter_of_lt (by omega)
    have hopen : Reading.step ⟨stack, expect⟩ .openObject = some ⟨.fields [] :: stack, .keyOrClose⟩ := by
      rcases hexpect with rfl | rfl <;> simpa [Reading.step] using henter
    rw [tokens, List.foldlM_cons, hopen]
    cases fields with
    | nil => simp [fieldTokens, Reading.step]
    | cons f fields =>
      have hf := ih f (by simp) (.value [] f.1 :: stack) .value (.inl rfl) (by simp; omega)
      have hrest := foldlM_fieldTokens (fun g hg => ih g (List.mem_cons_of_mem f hg)) [f] stack (by omega)
      simp [fieldTokens, List.foldlM_append, hf, Reading.finish, hrest, Reading.step]

/-- Reading the indented text of a document gives the document. -/
theorem parse?_pretty {depth : Nat} {j : Json} (h : Exact depth j) (hdepth : depth ≤ maxDepth) :
    parse? (pretty j) = some j := by
  obtain ⟨cs, happ, hlex⟩ := h.writes 0
  have htext : (pretty j).toList = cs := by
    simpa [pretty] using happ ""
  have hlexed : tokens? [] cs = some (tokens j) := by
    have hall := hlex [] [] (Decimal.stops_nil _)
    simpa [tokens?] using hall
  have hread : (tokens j).foldlM Reading.step ⟨[], .value⟩ = some ⟨[], .nothing j⟩ :=
    h.reads [] .value (.inl rfl) (by simpa using hdepth)
  simp [parse?, htext, hlexed, hread]

end Json
end CodeAtlas
