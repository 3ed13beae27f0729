import CodeAtlas.Proofs.Chunk.Windows
import CodeAtlas.Scan.Sql
import Mathlib.Data.List.Basic

/-! Scanning a file window by window. What a line holds depends on the line and its number alone, and a blank line
holds nothing, so cutting a file into chunks neither hides nor moves what stands on its lines. Only what reaches
over lines may change: where a definition ends, its docstring, and the handler of a route. -/
namespace CodeAtlas

namespace Chunk

/-- A whole file as one chunk. -/
def whole (file language content : String) : Chunk where
  file := file
  language := language
  startLine := 1
  endLine := (Text.lines content).length
  content := content

end Chunk

namespace Facts

/-- Two scans agree on everything that stands on single lines: calls, imports, routes, and the heads of definitions. -/
structure SameByLine (a b : Facts) : Prop where
  calls : a.calls = b.calls
  imports : a.imports = b.imports
  routes : a.endpoints.map (fun e => (e.method, e.path, e.line)) =
    b.endpoints.map fun e => (e.method, e.path, e.line)
  heads : a.definitions.map (fun d => (d.name, d.kind, d.startLine, d.signature)) =
    b.definitions.map fun d => (d.name, d.kind, d.startLine, d.signature)

theorem concat_eq (parts : List Facts) : concat parts =
    { definitions := parts.flatMap (·.definitions)
      calls := parts.flatMap (·.calls)
      imports := parts.flatMap (·.imports)
      schemas := parts.flatMap (·.schemas)
      endpoints := parts.flatMap (·.endpoints) } := by
  induction parts using List.reverseRecOn with
  | nil => rfl
  | append_singleton before last ih =>
    rw [concat, List.foldl_append, ← concat, ih]
    simp [append]

end Facts

namespace Scan

variable {β : Type} {reader : LineReader} {file language : String}

/-- What is read off the lines of a chunk one by one. -/
def perLine (f : Nat → String → List β) (c : Chunk) : List β := (numberedLines c).flatMap fun (n, line) => f n line

section Windows

variable {f : Nat → String → List β}

theorem perLine_eq (f : Nat → String → List β) (c : Chunk) :
    perLine f c = ((Text.lines c.content).zipIdx c.startLine).flatMap fun (line, n) => f n line := by
  rw [perLine, numberedLines, List.zipIdx_eq_map_add (i := c.startLine)]
  simp [List.flatMap_map]

/-- One window: an empty last line is not read back, and holds nothing. -/
theorem perLine_window (hf : ∀ n, f n "" = []) {c : Chunk} {window : List String} (hne : window ≠ [])
    (h : ∀ line ∈ window, '\n' ∉ line.toList ∧ '\r' ∉ line.toList) (hc : c.content = "\n".intercalate window) :
    perLine f c = (window.zipIdx c.startLine).flatMap fun (line, n) => f n line := by
  rw [perLine_eq, hc]
  rcases Text.lines_joined hne h with hall | hbut
  · rw [hall]
  · conv_rhs => rw [← hbut]
    simp [List.zipIdx_append, hf]

/-- Windows one after the other: the number a line is read with is its number in the file. -/
theorem perLine_ofWindows (hf : ∀ n, f n "" = []) (start : Nat) {windows : List (List String)}
    (hne : ∀ window ∈ windows, window ≠ [])
    (h : ∀ window ∈ windows, ∀ line ∈ window, '\n' ∉ line.toList ∧ '\r' ∉ line.toList) :
    (Chunk.ofWindows file language start windows).flatMap (perLine f) =
      (windows.flatten.zipIdx start).flatMap fun (line, n) => f n line := by
  induction windows generalizing start with
  | nil => rfl
  | cons window rest ih =>
    rw [Chunk.ofWindows, List.flatMap_cons, perLine_window hf (hne _ (.head _)) (h _ (.head _)) rfl,
      ih _ (fun w hw => hne w (.tail _ hw)) (fun w hw => h w (.tail _ hw)), List.flatten_cons, List.zipIdx_append,
      List.flatMap_append]

/-- A file cut into chunks holds on its lines what it holds as one. -/
theorem perLine_ofText (hf : ∀ n, f n "" = []) {content : String} (hcr : '\r' ∉ content.toList) (maxLines : Nat) :
    (Chunk.ofText file language content maxLines).flatMap (perLine f) =
      perLine f (Chunk.whole file language content) := by
  rw [Chunk.ofText, perLine_ofWindows hf, Chunk.flatten_windowsOf, perLine_eq]
  · rfl
  · exact fun window => Chunk.ne_nil_of_mem_windowsOf
  · intro window hwindow line hline
    have hmem := Text.of_mem_lines (Chunk.mem_of_mem_windowsOf hwindow hline)
    exact ⟨fun hn => (hmem _ hn).2 rfl, fun hr => hcr (hmem _ hr).1⟩

end Windows

section Readings

/-- The method, the path and the line of the route on a line. -/
def LineReading.routes (r : LineReading) : List (String × String × Nat) :=
  r.route.toList.map fun (method, path) => (if method = "ROUTE" then "GET" else method, path, r.number)

/-- The name, the kind, the line and the signature of the definition on a line. -/
def LineReading.heads (language : String) (r : LineReading) : List (String × EntityKind × Nat × Option String) :=
  match r.content with
  | .definition name kind => [(name, kindFor language (indentOf r.text) kind, r.number, some (signatureOf r.text))]
  | _ => []

theorem heads_close (file language : String) (chunkEnd : Nat) (openings : List Opening) :
    (close file language chunkEnd openings).map (fun d => (d.name, d.kind, d.startLine, d.signature)) =
      openings.map fun o => (o.name, o.kind, o.line, some o.signature) := by
  induction openings with
  | nil => rfl
  | cons o later ih => simp [close, ih]

theorem heads_openings (language : String) (previous : Option String) (readings : List LineReading) :
    (openings language previous readings).map (fun o => (o.name, o.kind, o.line, some o.signature)) =
      readings.flatMap (·.heads language) := by
  induction readings generalizing previous with
  | nil => rfl
  | cons r rest ih =>
    rw [List.flatMap_cons, ← ih (some r.text), openings, LineReading.heads]
    cases r.content <;> rfl

/-- What a scan gives, line by line. -/
theorem scanWith_byLine (reader : LineReader) (c : Chunk) :
    (scanWith reader c).calls = perLine (fun n line => (reader.read n line).calls c.file) c ∧
      (scanWith reader c).imports = perLine (fun n line => (reader.read n line).imports c.file) c ∧
      ((scanWith reader c).endpoints.map fun e => (e.method, e.path, e.line)) =
        perLine (fun n line => (reader.read n line).routes) c ∧
      ((scanWith reader c).definitions.map fun d => (d.name, d.kind, d.startLine, d.signature)) =
        perLine (fun n line => (reader.read n line).heads c.language) c := by
  have hroutes (opened : List Opening) (readings : List LineReading) :
      (readings.filterMap fun r => r.route.map fun (method, path) => endpointOf c.file opened r.number method path).map
        (fun e => (e.method, e.path, e.line)) = readings.flatMap LineReading.routes := by
    induction readings with
    | nil => rfl
    | cons r rest ih =>
      rw [List.flatMap_cons, ← ih, LineReading.routes, List.filterMap_cons]
      cases r.route <;> rfl
  refine ⟨?_, ?_, ?_, ?_⟩
  · simp [scanWith, perLine, List.flatMap_map]
  · simp [scanWith, perLine, List.flatMap_map]
  · simp only [scanWith, hroutes, perLine, List.flatMap_map]
  · simp only [scanWith, heads_close, heads_openings, perLine, List.flatMap_map]

theorem read_skipped {line : String} (h : reader.isSkipped line = true) (n : Nat) :
    reader.read n line = ⟨n, line, none, .skipped⟩ := by
  rw [LineReader.read, if_pos h]

/-- Parts that hold on their lines what a whole holds. -/
theorem sameByLine_concat {chunks : List Chunk} {c : Chunk}
    (hsame : ∀ d ∈ chunks, d.file = c.file ∧ d.language = c.language) (hblank : reader.isSkipped "" = true)
    (h : ∀ {β : Type} {f : Nat → String → List β}, (∀ n, f n "" = []) → chunks.flatMap (perLine f) = perLine f c) :
    (Facts.concat (chunks.map (scanWith reader))).SameByLine (scanWith reader c) := by
  have hview {β : Type} {view : Facts → List β} {f : Nat → String → List β} (hf : ∀ n, f n "" = [])
      (hparts : ∀ d ∈ chunks, view (scanWith reader d) = perLine f d) :
      (chunks.map (scanWith reader)).flatMap view = perLine f c := by
    rw [List.flatMap_map, List.flatMap_congr hparts, h hf]
  have hempty := read_skipped hblank
  obtain ⟨hcalls, himports, hroutes, hheads⟩ := scanWith_byLine reader c
  rw [Facts.concat_eq]
  refine ⟨?_, ?_, ?_, ?_⟩
  · rw [hcalls]
    refine hview (fun n => by rw [hempty]; rfl) fun d hd => ?_
    rw [(scanWith_byLine reader d).1, (hsame d hd).1]
  · rw [himports]
    refine hview (fun n => by rw [hempty]; rfl) fun d hd => ?_
    rw [(scanWith_byLine reader d).2.1, (hsame d hd).1]
  · rw [hroutes, List.map_flatMap]
    exact hview (fun n => by rw [hempty]; rfl) fun d _ => (scanWith_byLine reader d).2.2.1
  · rw [hheads, List.map_flatMap]
    refine hview (fun n => by rw [hempty]; rfl) fun d hd => ?_
    rw [(scanWith_byLine reader d).2.2.2, (hsame d hd).2]

end Readings

section Files

variable {content : String}

theorem isSkipped_empty (g : Grammar) : g.reader.isSkipped "" = true := rfl

theorem sameByLine_ofText (hblank : reader.isSkipped "" = true) (hcr : '\r' ∉ content.toList) (maxLines : Nat) :
    (Facts.concat ((Chunk.ofText file language content maxLines).map (scanWith reader))).SameByLine
      (scanWith reader (Chunk.whole file language content)) := by
  refine sameByLine_concat (fun c hc => ?_) hblank fun hf => perLine_ofText hf hcr maxLines
  have hwindow := Chunk.isWindow_of_mem (Nat.le_refl 1) hc
  exact ⟨hwindow.file, hwindow.language⟩

/-- Chunking does not change what the scanner finds on the lines of a file: with the reader of the file's own language,
and with any other way to read single lines that passes over an empty one. -/
theorem concat_scan_ofText {language content : String} (hsql : language ≠ "sql") (hcr : '\r' ∉ content.toList)
    (file : String) (maxLines : Nat) :
    (Facts.concat ((Chunk.ofText file language content maxLines).map scan)).SameByLine
        (scan (Chunk.whole file language content)) ∧
      ∀ reader : LineReader, reader.isSkipped "" = true →
        (Facts.concat ((Chunk.ofText file language content maxLines).map (scanWith reader))).SameByLine
          (scanWith reader (Chunk.whole file language content)) := by
  refine ⟨?_, fun reader hblank => sameByLine_ofText hblank hcr maxLines⟩
  have hscan (c : Chunk) (hc : c.language = language) : scan c =
      ((grammars.lookup language).map fun g => scanWith g.reader c).getD {} := by
    rw [scan, hc, if_neg hsql]
    cases grammars.lookup language <;> rfl
  have hchunks : (Chunk.ofText file language content maxLines).map scan =
      (Chunk.ofText file language content maxLines).map fun c =>
        ((grammars.lookup language).map fun g => scanWith g.reader c).getD {} :=
    List.map_congr_left fun c hc => hscan c (Chunk.isWindow_of_mem (Nat.le_refl 1) hc).language
  rw [hchunks, hscan _ rfl]
  cases grammars.lookup language with
  | none =>
    rw [Facts.concat_eq]
    refine ⟨?_, ?_, ?_, ?_⟩ <;> simp
  | some g => exact sameByLine_ofText (isSkipped_empty g) hcr maxLines

/-- A file whose first window ends with a blank line. -/
theorem concat_scan_ofText_python : '\r' ∉ "import os\n\ndef run():\n  go()\n".toList ∧
    (Facts.concat ((Chunk.ofText "a.py" "python" "import os\n\ndef run():\n  go()\n" 2).map scan)).SameByLine
      (scan (Chunk.whole "a.py" "python" "import os\n\ndef run():\n  go()\n")) :=
  ⟨by decide, (concat_scan_ofText (by decide) (by decide) "a.py" 2).1⟩

end Files

end Scan
end CodeAtlas

/-! Where the facts of a chunk stand. A chunk that is cut out of a file has at least one line for every line that is
read of it, and so whatever the scanner finds stands within the lines that the chunk says it has. -/
namespace CodeAtlas

namespace Chunk

/-- Whether no more lines are read of a chunk than it says it has. -/
def HasRoom (c : Chunk) : Prop := (Text.lines c.content).length ≤ c.endLine + 1 - c.startLine

/-- Whether a chunk has a last line for every line that is read of it. -/
structure Spans (c : Chunk) : Prop where
  startLine : 1 ≤ c.startLine
  endLine : ∀ i < (Text.lines c.content).length, c.startLine + i ≤ c.endLine

/-- Whether some lines of a file are lines of a chunk. -/
structure Holds (c : Chunk) (file : String) (first last : Nat) : Prop where
  file_eq : file = c.file
  starts : c.startLine ≤ first
  order : first ≤ last
  ends : last ≤ c.endLine

theorem length_lines_intercalate_le {window : List String} (hne : window ≠ [])
    (h : ∀ line ∈ window, '\n' ∉ line.toList) : (Text.lines ("\n".intercalate window)).length ≤ window.length := by
  rw [Text.lines_intercalate hne h, List.length_map]
  simpa using Text.length_linesOf_le (window.map String.toList)

theorem Spans.hasRoom {c : Chunk} (h : c.Spans) : c.HasRoom := by
  unfold HasRoom
  cases hlength : (Text.lines c.content).length with
  | zero => exact Nat.zero_le _
  | succ n =>
    have hlast := h.endLine n (by omega)
    omega

theorem spans_of_mem_ofText {file language content : String} {maxLines : Nat} {c : Chunk}
    (h : c ∈ ofText file language content maxLines) : c.Spans := by
  obtain ⟨-, -, hstart, window, hwindow, hend, hcontent⟩ := isWindow_of_mem (Nat.le_refl 1) h
  have hlength := length_lines_intercalate_le (ne_nil_of_mem_windowsOf hwindow) fun line hline hn =>
    (Text.of_mem_lines (mem_of_mem_windowsOf hwindow hline) _ hn).2 rfl
  refine ⟨hstart, fun i hi => ?_⟩
  rw [hcontent] at hi
  omega

end Chunk

/-- Whether all that was found stands within the lines of a chunk. -/
structure Facts.Within (c : Chunk) (f : Facts) : Prop where
  definitions : ∀ d ∈ f.definitions, c.Holds d.file d.startLine d.endLine
  endpoints : ∀ e ∈ f.endpoints, c.Holds e.file e.line e.line
  schemas : ∀ s ∈ f.schemas, c.Holds s.file s.startLine s.startLine

namespace Scan

variable {c : Chunk} {reader : LineReader}

theorem holds_of_mem_numberedLines (hc : c.HasRoom) {n : Nat} {line : String} (h : (n, line) ∈ numberedLines c) :
    c.Holds c.file n n := by
  obtain ⟨⟨text, i⟩, hi, heq⟩ := List.mem_map.mp h
  obtain ⟨rfl, rfl⟩ := Prod.mk.inj heq
  have hlt := (List.mem_zipIdx' hi).1
  have hend : c.startLine + i ≤ c.endLine := by
    unfold Chunk.HasRoom at hc
    omega
  exact ⟨rfl, Nat.le_add_right .., Nat.le_refl _, hend⟩

section Readings

theorem map_fst_numberedLines (c : Chunk) :
    (numberedLines c).map Prod.fst = List.range' c.startLine (Text.lines c.content).length := by
  have hnumbers : (Text.lines c.content).zipIdx.map ((c.startLine + ·) ∘ Prod.snd) =
      List.range' c.startLine (Text.lines c.content).length := by
    rw [← List.map_map, List.zipIdx_map_snd, List.map_add_range', Nat.add_zero]
  rw [numberedLines, List.map_map]
  exact hnumbers

theorem number_read (n : Nat) (line : String) : (reader.read n line).number = n := by
  unfold LineReader.read
  split <;> rfl

theorem text_read (n : Nat) (line : String) : (reader.read n line).text = line := by
  unfold LineReader.read
  split <;> rfl

theorem map_number_read (reader : LineReader) (c : Chunk) :
    ((numberedLines c).map fun (n, line) => reader.read n line).map (·.number) = (numberedLines c).map Prod.fst := by
  rw [List.map_map]
  exact List.map_congr_left fun p _ => number_read p.1 p.2

theorem map_text_read (reader : LineReader) (c : Chunk) :
    ((numberedLines c).map fun (n, line) => reader.read n line).map (·.text) = (numberedLines c).map Prod.snd := by
  rw [List.map_map]
  exact List.map_congr_left fun p _ => text_read p.1 p.2

end Readings

section Definitions

variable {language : String} {readings : List LineReading}

theorem number_of_mem_openings {previous : Option String} {o : Opening}
    (h : o ∈ openings language previous readings) : ∃ r ∈ readings, r.number = o.line := by
  induction readings generalizing previous with
  | nil => simp [openings] at h
  | cons r rest ih =>
    have hlater : o ∈ openings language (some r.text) rest → ∃ r' ∈ r :: rest, r'.number = o.line := by
      intro hmem
      obtain ⟨r', hr', hnumber⟩ := ih hmem
      exact ⟨r', .tail _ hr', hnumber⟩
    unfold openings at h
    dsimp only at h
    split at h
    · rcases List.mem_cons.mp h with rfl | h
      · exact ⟨r, .head _, rfl⟩
      · exact hlater h
    · exact hlater h

/-- A definition is one that opened, on its line and with its docstring. -/
theorem exists_of_mem_close {file : String} {chunkEnd : Nat} {opened : List Opening} {d : Facts.Definition}
    (h : d ∈ close file language chunkEnd opened) : ∃ o ∈ opened, o.line = d.startLine ∧ o.docstring = d.docstring := by
  induction opened with
  | nil => simp [close] at h
  | cons o later ih =>
    rw [close, List.mem_cons] at h
    rcases h with rfl | h
    · exact ⟨o, .head _, rfl, rfl⟩
    · obtain ⟨p, hp, hsame⟩ := ih h
      exact ⟨p, .tail _ hp, hsame⟩

/-- A definition ends no earlier than it starts, and no later than its chunk. -/
theorem holds_of_mem_close {opened : List Opening} (h : ∀ o ∈ opened, c.Holds c.file o.line o.line)
    {d : Facts.Definition} (hd : d ∈ close c.file language c.endLine opened) :
    c.Holds d.file d.startLine d.endLine := by
  induction opened with
  | nil => simp [close] at hd
  | cons o later ih =>
    rw [close, List.mem_cons] at hd
    rcases hd with rfl | hd
    · have ho := h o (.head _)
      suffices hend : o.line ≤ o.endLine later c.endLine ∧ o.endLine later c.endLine ≤ c.endLine from
        ⟨rfl, ho.starts, hend.1, hend.2⟩
      unfold Opening.endLine
      split
      · next next hnext =>
        have hlast := (h next (.tail _ (List.mem_of_find?_eq_some hnext))).ends
        have hown := ho.ends
        omega
      · exact ⟨ho.ends, Nat.le_refl _⟩
    · exact ih (fun o ho => h o (.tail _ ho)) hd

end Definitions

theorem within_scanWith (hc : c.HasRoom) (reader : LineReader) : (scanWith reader c).Within c := by
  have hread : ∀ p ∈ numberedLines c, c.Holds c.file (reader.read p.1 p.2).number (reader.read p.1 p.2).number := by
    intro p hp
    rw [number_read]
    exact holds_of_mem_numberedLines hc hp
  refine ⟨fun d hd => holds_of_mem_close (fun o ho => ?_) hd, fun e he => ?_, fun s hs => by simp [scanWith] at hs⟩
  · obtain ⟨r, hr, hline⟩ := number_of_mem_openings ho
    obtain ⟨p, hp, rfl⟩ := List.mem_map.mp hr
    exact hline ▸ hread p hp
  · obtain ⟨r, hr, hroute⟩ := List.mem_filterMap.mp he
    obtain ⟨p, hp, rfl⟩ := List.mem_map.mp hr
    obtain ⟨route, -, rfl⟩ := Option.map_eq_some_iff.mp hroute
    exact hread p hp

section Tables

/-- Whether the tables of a state stand within a chunk. -/
def SqlState.Within (c : Chunk) (s : SqlState) : Prop := ∀ t ∈ s.schemas, c.Holds t.file t.startLine t.startLine

/-- One more line opens a table on that line at most, and leaves the places of the others. -/
theorem SqlState.Within.step {s : SqlState} (h : s.Within c) {n : Nat} (hn : c.Holds c.file n n) (line : String) :
    (s.step c.file n line).Within c := by
  unfold SqlState.step
  dsimp only
  split
  · next name _ =>
    intro t ht
    rcases List.mem_append.mp ht with ht | ht
    · exact h t ht
    · obtain rfl := List.mem_singleton.mp ht
      exact hn
  · exact h
  · next table _ hcurrent =>
    have htable : c.Holds table.file table.startLine table.startLine :=
      h table (List.mem_append_right _ (by simp [hcurrent]))
    have hdone : ∀ t ∈ s.done, c.Holds t.file t.startLine t.startLine := fun t ht => h t (List.mem_append_left _ ht)
    split
    · intro t ht
      simp only [SqlState.schemas, Option.toList_none, List.append_nil, List.mem_append, List.mem_singleton] at ht
      rcases ht with ht | rfl
      · exact hdone t ht
      · exact htable
    · intro t ht
      simp only [SqlState.schemas, Option.toList_some, List.mem_append, List.mem_singleton] at ht
      rcases ht with ht | rfl
      · exact hdone t ht
      · exact htable

theorem within_scanSql (hc : c.HasRoom) : (scanSql c).Within c := by
  have hall : ∀ lines : List (Nat × String), (∀ p ∈ lines, c.Holds c.file p.1 p.1) → ∀ s : SqlState, s.Within c →
      (lines.foldl (fun s p => s.step c.file p.1 p.2) s).Within c := by
    intro lines
    induction lines with
    | nil => exact fun _ s hs => hs
    | cons p rest ih =>
      exact fun hlines s hs => ih (fun q hq => hlines q (.tail _ hq)) _ (hs.step (hlines p (.head _)) p.2)
  refine ⟨fun d hd => by simp [scanSql] at hd, fun e he => by simp [scanSql] at he, ?_⟩
  exact hall _ (fun p hp => holds_of_mem_numberedLines hc hp) {} (by simp [SqlState.Within, SqlState.schemas])

end Tables

/-- All that is found in a chunk stands within its lines. -/
theorem within_scan (hc : c.HasRoom) : (scan c).Within c := by
  unfold scan
  split
  · exact within_scanSql hc
  · split
    · exact within_scanWith hc _
    · exact ⟨by simp, by simp, by simp⟩

/-- All that is found in some chunks stands within the lines of one of them. -/
theorem exists_holds_of_mem_concat {chunks : List Chunk} (h : ∀ c ∈ chunks, c.Spans) :
    (∀ d ∈ (Facts.concat (chunks.map scan)).definitions, ∃ c ∈ chunks, c.Holds d.file d.startLine d.endLine) ∧
      (∀ e ∈ (Facts.concat (chunks.map scan)).endpoints, ∃ c ∈ chunks, c.Holds e.file e.line e.line) ∧
      ∀ s ∈ (Facts.concat (chunks.map scan)).schemas, ∃ c ∈ chunks, c.Holds s.file s.startLine s.startLine := by
  rw [Facts.concat_eq]
  simp only [List.flatMap_map, List.mem_flatMap]
  refine ⟨?_, ?_, ?_⟩
  · rintro d ⟨c, hc, hd⟩
    exact ⟨c, hc, (within_scan (h c hc).hasRoom).definitions d hd⟩
  · rintro e ⟨c, hc, he⟩
    exact ⟨c, hc, (within_scan (h c hc).hasRoom).endpoints e he⟩
  · rintro s ⟨c, hc, hs⟩
    exact ⟨c, hc, (within_scan (h c hc).hasRoom).schemas s hs⟩

end Scan
end CodeAtlas
