import CodeAtlas.Models.Basic
import CodeAtlas.Proofs.Findings.Legible
import CodeAtlas.Proofs.Text.Pieces

/-! What is read from a reply. The findings are those that the reply tells of, in its order and attributed to the file
of the chunk, less the rules without a text and the risks without a title; a fence around the reply adds nothing. -/

namespace CodeAtlas.Models

/-! Fences around the answers of models. A text that is put between two fences, with or without a word after the first
one, is found again without them, whatever fences it has inside. -/

/-- A text between two fences, with a tag after the first one. -/
def fenced (tag text : String) : String := "```" ++ tag ++ "\n" ++ text ++ "\n```"

theorem toList_fenced (tag text : String) :
    (fenced tag text).toList = fence ++ (tag.toList ++ '\n' :: (text.toList ++ ['\n'])) ++ fence := by
  simp [fenced, fence, String.toList_append]

theorem insideFence_of_tag {tag : List Char} (hblank : ' ' ∉ tag) (hline : '\n' ∉ tag) (rest : List Char) :
    insideFence (tag ++ '\n' :: rest) = rest := by
  rw [insideFence, Text.splitFirst?_singleton hline]
  exact if_neg fun hmem => hblank (List.contains_iff_mem.mp hmem)

/-- A text that is fenced is taken out of its fence. -/
theorem withoutFence_fenced {before tag text after : String} (hbefore : ∀ c ∈ before.toList, Text.isBlank c = true)
    (hafter : ∀ c ∈ after.toList, Text.isBlank c = true) (hblank : ' ' ∉ tag.toList) (hline : '\n' ∉ tag.toList) :
    withoutFence (before ++ fenced tag text ++ after) = Text.trim text := by
  have htrimmed : Text.trimChars (before ++ fenced tag text ++ after).toList = (fenced tag text).toList := by
    rw [String.toList_append, String.toList_append, Text.trimChars_append hbefore hafter]
    -- what is fenced begins and ends with a mark, and no mark is white space
    have hmarks : (fenced tag text).toList =
        '`' :: ("``".toList ++ (tag.toList ++ '\n' :: (text.toList ++ ['\n'])) ++ "``".toList) ++ ['`'] := by
      rw [toList_fenced]
      simp [fence]
    rw [hmarks]
    exact Text.trimChars_of_ends rfl rfl _
  have hreverse : ∀ body : List Char, (body ++ fence).reverse = fence ++ body.reverse := fun body => by
    simp [fence]
  have hline' : ∀ c ∈ ['\n'], Text.isBlank c = true := by simp [Text.isBlank, Text.isAscii]
  unfold withoutFence
  dsimp only
  rw [htrimmed, toList_fenced, List.append_assoc, Text.dropStart?_append, Option.bind_some, hreverse,
    Text.dropStart?_append]
  dsimp only
  rw [List.reverse_reverse, insideFence_of_tag hblank hline, ← List.nil_append (text.toList ++ ['\n']),
    ← List.append_assoc, Text.trimChars_append (by simp) hline']
  rfl

/-- A text that does not begin with a fence is only trimmed. -/
theorem withoutFence_of_not_fenced {text : String} (h : ¬ fence <+: (Text.trim text).toList) :
    withoutFence text = Text.trim text := by
  have hstart : Text.dropStart? fence (Text.trimChars text.toList) = none := by
    rw [Text.trim, String.toList_ofList] at h
    exact Text.dropStart?_eq_none_iff.mpr h
  unfold withoutFence
  dsimp only
  rw [hstart]
  rfl

/-- A fence around a text changes nothing in what it is read as. -/
theorem documentOf?_fenced {before tag text after : String} (h : ¬ fence <+: (Text.trim text).toList)
    (hbefore : ∀ c ∈ before.toList, Text.isBlank c = true) (hafter : ∀ c ∈ after.toList, Text.isBlank c = true)
    (hblank : ' ' ∉ tag.toList) (hline : '\n' ∉ tag.toList) :
    documentOf? (before ++ fenced tag text ++ after) = documentOf? text := by
  rw [documentOf?, documentOf?, withoutFence_fenced hbefore hafter hblank hline, withoutFence_of_not_fenced h]

end CodeAtlas.Models

namespace CodeAtlas.Findings.Reply

open Json (part?)

variable {file : String} {fields : List (String × Json)} {f : ChunkFindings}

/-- Whether findings are what a reply tells of a file. -/
structure IsTranscript (file : String) (j : Json) (f : ChunkFindings) : Prop where
  /-- The reply is well formed, so that nothing it tells is lost. -/
  fits : j.Fits replyForm
  ofFile : f.narrative.file = file ∧ (∀ x ∈ f.rules, x.file = file) ∧ ∀ x ∈ f.risks, x.file = file
  purposeful : Text.blank f.narrative.purpose = false
  purpose : (teller j).part? ["purpose"] 0 = some (.str f.narrative.purpose)
  /-- The rules are the entries with a text. -/
  rules : f.rules = ((itemsPart ["business_rules", "rules"] 1 j).filter fun i =>
    !Text.blank (textPart ["rule_text", "rule", "description"] 0 i)).map (ruleOf file)
  /-- The risks are the entries with a title. -/
  risks : f.risks = ((itemsPart ["risks"] 2 j).filter fun i => !Text.blank (textPart ["title"] 0 i)).map (riskOf file)

theorem toNarrative?_eq_some {n : RawNarrative} {x : Narrative} (h : n.toNarrative? file = some x) :
    x.file = file ∧ n.purpose = some x.purpose ∧ Text.blank x.purpose = false := by
  rw [RawNarrative.toNarrative?, Option.map_eq_some_iff] at h
  obtain ⟨purpose, hpurpose, rfl⟩ := h
  obtain ⟨hsome, hfull⟩ := Option.filter_eq_some_iff.mp hpurpose
  exact ⟨rfl, hsome, by simpa using hfull⟩

theorem isTranscript_of_findings? (h : findings? file (.obj fields) = some f) :
    IsTranscript file (.obj fields) f := by
  obtain ⟨hown, hnarrative, n, hn, rfl⟩ := findings?_obj_eq_some_iff.mp h
  obtain ⟨hfile, hpurpose, hfull⟩ := toNarrative?_eq_some hn
  refine ⟨Json.fits_append_iff.mpr ⟨hown, hnarrative⟩, ⟨hfile, fun x hx => ?_, fun x hx => ?_⟩, hfull,
    purpose_narrativeOf_eq_some_iff.mp hpurpose, ?_, ?_⟩
  · obtain ⟨i, -, rfl⟩ := List.mem_map.mp (List.mem_filter.mp hx).1
    rfl
  · obtain ⟨i, -, rfl⟩ := List.mem_map.mp (List.mem_filter.mp hx).1
    rfl
  · exact List.filter_map
  · exact List.filter_map

/-- What is read from a reply is what it tells of the chunk's file, and a fence around it changes nothing in that. -/
theorem transcribed (text : String) (c : Chunk) :
    (∀ f, read? text c = some f →
      ∃ fields, Models.documentOf? text = some (.obj fields) ∧ IsTranscript c.file (.obj fields) f) ∧
    (¬ Models.fence <+: (Text.trim text).toList → ∀ before tag after : String,
      (∀ x ∈ before.toList, Text.isBlank x = true) → (∀ x ∈ after.toList, Text.isBlank x = true) →
      ' ' ∉ tag.toList → '\n' ∉ tag.toList →
      read? (before ++ Models.fenced tag text ++ after) c = read? text c) := by
  constructor
  · intro f hread
    obtain ⟨j, hdocument, hfindings⟩ := Option.bind_eq_some_iff.mp hread
    cases j with
    | obj fields => exact ⟨fields, hdocument, isTranscript_of_findings? hfindings⟩
    | _ => cases hfindings
  · intro hbare before tag after hbefore hafter hblank hline
    rw [read?, read?, Models.documentOf?_fenced hbare hbefore hafter hblank hline]

/-- A reply with a rule that has no text. -/
def greeting : String :=
  "\x7b\"narrative\": \x7b\"purpose\": \"Greets\"\x7d, " ++
    "\"rules\": [\x7b\"rule\": \"Be kind\"\x7d, \x7b\"rule\": \" \"\x7d]\x7d"

/-- The findings in it. -/
def greetingFindings : ChunkFindings where
  narrative := ⟨"a.py", "Greets", [], [], .medium⟩
  rules := [⟨"Be kind", "", "", "", "a.py", 0, 0, .medium⟩]
  risks := []

/-- The reply is read alike with and without a fence, and its one rule with a text is found. -/
theorem transcribed_greeting :
    let c : Chunk := ⟨"a.py", "python", 1, 2, "", none⟩
    (∃ fields, Models.documentOf? greeting = some (.obj fields) ∧
      IsTranscript "a.py" (.obj fields) greetingFindings) ∧
    read? (" \n" ++ Models.fenced "json" greeting ++ "\n") c = some greetingFindings := by
  have hread : read? greeting ⟨"a.py", "python", 1, 2, "", none⟩ = some greetingFindings := by decide +kernel
  obtain ⟨htold, hfenced⟩ := transcribed greeting ⟨"a.py", "python", 1, 2, "", none⟩
  refine ⟨htold greetingFindings hread, ?_⟩
  have hblank : ∀ x ∈ [' ', '\n'], Text.isBlank x = true := by simp [Text.isBlank, Text.isAscii]
  rw [hfenced (by decide +kernel) " \n" "json" "\n" hblank (fun x hx => hblank x (List.mem_cons_of_mem _ hx))
    (by decide) (by decide), hread]

end CodeAtlas.Findings.Reply
