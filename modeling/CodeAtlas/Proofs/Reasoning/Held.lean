import CodeAtlas.Proofs.Graph.Passes
import CodeAtlas.Proofs.Reasoning.Order

/-! What is held of the findings after a build. Of the narratives of a file the first one of the highest level is heard,
and of rules and risks the last one of each kind stays; findings of low level are passed over everywhere. Rules and risks
are filed under short identifiers, so for them this is said of findings whose identifiers tell them apart. -/
namespace CodeAtlas

/-- The first of some things that has a property. -/
def FirstOf {β : Type} (P : β → Prop) (xs : List β) (x : β) : Prop :=
  ∃ before after, xs = before ++ x :: after ∧ P x ∧ ∀ y ∈ before, ¬ P y

/-- The last of some things that has a property. -/
def LastOf {β : Type} (P : β → Prop) (xs : List β) (x : β) : Prop :=
  ∃ before after, xs = before ++ x :: after ∧ P x ∧ ∀ y ∈ after, ¬ P y

section Places

variable {β : Type} {P Q : β → Prop} {p : β → Bool} {xs : List β} {x : β}

theorem find?_eq_some_iff_firstOf : xs.find? p = some x ↔ FirstOf (p · = true) xs x := by
  simp only [List.find?_eq_some_iff_append, FirstOf, Bool.not_eq_true', Bool.not_eq_true]
  constructor
  · rintro ⟨hx, before, after, hxs, hbefore⟩
    exact ⟨before, after, hxs, hx, hbefore⟩
  · rintro ⟨before, after, hxs, hx, hbefore⟩
    exact ⟨hx, before, after, hxs, hbefore⟩

theorem FirstOf.reverse (h : FirstOf P xs x) : LastOf P xs.reverse x := by
  obtain ⟨before, after, rfl, hx, hbefore⟩ := h
  exact ⟨after.reverse, before.reverse, by simp, hx, by simpa using hbefore⟩

theorem LastOf.reverse (h : LastOf P xs x) : FirstOf P xs.reverse x := by
  obtain ⟨before, after, rfl, hx, hafter⟩ := h
  exact ⟨after.reverse, before.reverse, by simp, hx, by simpa using hafter⟩

theorem getLast?_filter_eq_some_iff_lastOf : (xs.filter p).getLast? = some x ↔ LastOf (p · = true) xs x := by
  rw [List.getLast?_filter, find?_eq_some_iff_firstOf]
  exact ⟨fun h => xs.reverse_reverse ▸ h.reverse, LastOf.reverse⟩

theorem FirstOf.imp (hxs : ∀ y ∈ xs, P y ↔ Q y) (h : FirstOf P xs x) : FirstOf Q xs x := by
  obtain ⟨before, after, rfl, hx, hbefore⟩ := h
  refine ⟨before, after, rfl, (hxs x (by simp)).mp hx, fun y hy => ?_⟩
  exact fun hQ => hbefore y hy ((hxs y (List.mem_append_left _ hy)).mpr hQ)

theorem LastOf.imp (hxs : ∀ y ∈ xs, P y ↔ Q y) (h : LastOf P xs x) : LastOf Q xs x := by
  have hfirst : FirstOf Q xs.reverse x := h.reverse.imp fun y hy => hxs y (List.mem_reverse.mp hy)
  exact xs.reverse_reverse ▸ hfirst.reverse

theorem FirstOf.holds (h : FirstOf P xs x) : P x := by
  obtain ⟨-, -, -, hx, -⟩ := h
  exact hx

theorem LastOf.mem (h : LastOf P xs x) : x ∈ xs := by
  obtain ⟨before, after, rfl, -⟩ := h
  simp

theorem LastOf.holds (h : LastOf P xs x) : P x := by
  obtain ⟨-, -, -, hx, -⟩ := h
  exact hx

end Places

namespace Reasoning

open Findings (Narrative)

/-- Whether a narrative states a purpose of a file that is taken over. -/
structure Narrates (file : String) (n : Narrative) : Prop where
  file : n.file = file
  level : n.level ≠ .low
  stated : ∃ c ∈ n.purpose.toList, Text.isBlank c = false

/-- Whether a narrative is the one that is heard about a file: the first high one, or the first medium one when there is
no high one. -/
inductive Heard (ns : List Narrative) (file : String) (n : Narrative) : Prop
  | high : FirstOf (fun m => Narrates file m ∧ m.level = .high) ns n → Heard ns file n
  | medium : (¬ ∃ m ∈ ns, Narrates file m ∧ m.level = .high) →
      FirstOf (fun m => Narrates file m ∧ m.level = .medium) ns n → Heard ns file n

/-- A purpose as a narrative states it. -/
structure Purpose.StatedBy (p : Purpose) (n : Narrative) : Prop where
  subject : p.subject = n.file
  statement : p.statement = n.purpose
  provenance : p.confidence.provenance = .probabilistic
  value : p.confidence.value = n.level.score

/-- A rule as the model states it. -/
structure Rule.StatedBy (x : Rule) (r : Findings.Rule) : Prop where
  text : x.text = r.text
  kind : x.kind = r.kind
  condition : x.condition = r.condition
  consequence : x.consequence = r.consequence
  file : x.file = r.file
  lineStart : x.lineStart = r.lineStart
  lineEnd : x.lineEnd = r.lineEnd
  provenance : x.confidence.provenance = .probabilistic
  value : x.confidence.value = r.level.score

/-- A risk as the model states it. -/
structure Risk.StatedBy (x : Risk) (r : Findings.Risk) : Prop where
  title : x.title = r.title
  kind : x.kind = r.kind
  severity : x.severity = r.severity
  description : x.description = r.description
  file : x.file = r.file
  line : x.line = r.line
  recommendations : x.recommendations = r.recommendations
  provenance : x.confidence.provenance = .probabilistic
  value : x.confidence.value = r.level.score

/-- Whether of some findings just the last one of each key is held, apart from those that do not count. -/
structure LastOfEach {α β κ : Type} (counts : α → Prop) (key : α → κ) (statedBy : β → α → Prop) (key' : β → κ)
    (found : List α) (held : List β) : Prop where
  held_of_last : ∀ a, LastOf (fun b => counts b ∧ key b = key a) found a → ∃ x ∈ held, statedBy x a
  last_of_held : ∀ x ∈ held, ∃ a, LastOf (fun b => counts b ∧ key b = key a) found a ∧ statedBy x a
  once : (held.map key').Nodup

/-- What is held of findings. -/
structure Holds (findings : Findings) (r : Reasoning) : Prop where
  purpose_iff : ∀ file, (∃ p, r.purpose? file = some p) ↔ ∃ n ∈ findings.narratives, Narrates file n
  purpose : ∀ file p, r.purpose? file = some p → ∃ n, Heard findings.narratives file n ∧ p.StatedBy n
  listed : ∀ p, p ∈ r.purposes ↔ r.purpose? p.subject = some p
  rules : LastOfEach (·.level ≠ .low) (fun s : Findings.Rule => (s.file, s.text)) Rule.StatedBy
    (fun x => (x.file, x.text)) findings.rules r.rules
  risks : LastOfEach (·.level ≠ .low) (fun s : Findings.Risk => (s.file, s.title, s.line)) Risk.StatedBy
    (fun x => (x.file, x.title, x.line)) findings.risks r.risks
  confident : (∀ p ∈ r.purposes, 0.70 ≤ p.confidence.value) ∧ (∀ x ∈ r.rules, 0.70 ≤ x.confidence.value) ∧
    ∀ x ∈ r.risks, 0.70 ≤ x.confidence.value

/-- Whether the identifiers of the rules that count are the same for the same text of the same file alone, and those of
the risks for the same title at the same line of the same file. -/
structure ToldApart (findings : Findings) : Prop where
  rules : ∀ r ∈ findings.rules, ∀ s ∈ findings.rules, r.level ≠ .low → s.level ≠ .low →
    (ofRule r).id = (ofRule s).id → (r.file, r.text) = (s.file, s.text)
  risks : ∀ r ∈ findings.risks, ∀ s ∈ findings.risks, r.level ≠ .low → s.level ≠ .low →
    (ofRisk r).id = (ofRisk s).id → (r.file, r.title, r.line) = (s.file, s.title, s.line)

section Purposes

variable {ns : List Narrative} {file : String} {n : Narrative}

theorem narrates_iff : Narrates file n ↔ n.file = file ∧ n.level ≠ .low ∧ Text.blank n.purpose = false := by
  have hstated : Text.blank n.purpose = false ↔ ∃ c ∈ n.purpose.toList, Text.isBlank c = false := by simp [Text.blank]
  rw [hstated]
  exact ⟨fun h => ⟨h.file, h.level, h.stated⟩, fun ⟨hfile, hlevel, hstated⟩ => ⟨hfile, hlevel, hstated⟩⟩

theorem mem_speaking_iff : n ∈ speaking ns ∧ n.file = file ↔ n ∈ ns ∧ Narrates file n := by
  rw [speaking, List.mem_filter, decide_eq_true_iff, narrates_iff, Bool.not_eq_true', and_assoc]
  tauto

theorem find?_speaking_eq_some_iff {test : Narrative → Bool} : (speaking ns).find? test = some n ↔
    FirstOf (fun m => (m.level ≠ .low ∧ Text.blank m.purpose = false) ∧ test m = true) ns n := by
  simp only [speaking, List.find?_filter, find?_eq_some_iff_firstOf, decide_eq_true_iff, Bool.not_eq_true']

/-- The one that leads among those that are taken over is the one that is heard. -/
theorem heard_of_leader? (h : leader? (speaking ns) file = some n) : Heard ns file n := by
  rcases Option.or_eq_some_iff.mp h with hhigh | ⟨hnone, hany⟩
  · refine .high ((find?_speaking_eq_some_iff.mp hhigh).imp fun m _ => ?_)
    simp only [narrates_iff, Bool.and_eq_true, beq_iff_eq]
    tauto
  · have hnot : ¬ ∃ m ∈ ns, Narrates file m ∧ m.level = .high := by
      rintro ⟨m, hm, hnarrates, hlevel⟩
      obtain ⟨hspeaking, hfile⟩ := mem_speaking_iff.mpr ⟨hm, hnarrates⟩
      exact List.find?_eq_none.mp hnone m hspeaking (by simp [hfile, hlevel])
    refine .medium hnot ((find?_speaking_eq_some_iff.mp hany).imp fun m hm => ?_)
    -- whatever is neither low nor high is medium
    have hmedium : Narrates file m → m.level = .medium := fun hnarrates => by
      cases hlevel : m.level with
      | high => exact absurd ⟨m, hm, hnarrates, hlevel⟩ hnot
      | medium => rfl
      | low => exact absurd hlevel hnarrates.level
    rw [and_iff_left_of_imp hmedium, narrates_iff, beq_iff_eq]
    exact and_comm

theorem score_ge (level : Level) (h : level ≠ .low) : 0.70 ≤ level.score := by
  cases level with
  | high => decide
  | medium => decide
  | low => exact absurd rfl h

end Purposes

section Filed

variable {α β κ : Type} {counts : α → Prop} [DecidablePred counts] {f : α → β} {id : β → String} {found : List α}

/-- The last thing under an identifier comes of the last finding that has it. -/
theorem lastUnder_map_filter_eq_some_iff {k : String} {x : β} :
    lastUnder id k ((found.filter counts).map f) = some x ↔
      ∃ a, LastOf (fun b => counts b ∧ id (f b) = k) found a ∧ f a = x := by
  have htest (b : α) : (decide (counts b) && (id (f b) == k)) = true ↔ counts b ∧ id (f b) = k := by simp
  rw [lastUnder, List.filter_map, List.getLast?_map, Option.map_eq_some_iff, List.filter_filter]
  simp only [getLast?_filter_eq_some_iff_lastOf, Function.comp_apply, Bool.and_comm (id _ == k), htest]

section Keys

variable {key : α → κ} (hid : ∀ a ∈ found, ∀ b ∈ found, counts a → counts b → (id (f a) = id (f b) ↔ key a = key b))

include hid

/-- Where identifiers tell the keys of findings apart, the last finding of each key is listed. -/
theorem mem_values_filed_iff {x : β} :
    x ∈ (((found.filter counts).map f).foldl (fun (m : Std.TreeMap String β) x => m.insert (id x) x) {}).values ↔
      ∃ a, LastOf (fun b => counts b ∧ key b = key a) found a ∧ f a = x := by
  rw [mem_values_foldl_insert, lastUnder_map_filter_eq_some_iff]
  refine exists_congr fun a => and_congr_left fun hx => ?_
  subst hx
  have hsame (ha : a ∈ found) (hcounts : counts a) :
      ∀ b ∈ found, (counts b ∧ id (f b) = id (f a)) ↔ (counts b ∧ key b = key a) :=
    fun b hb => and_congr_right fun hb' => hid b hb a ha hb' hcounts
  exact ⟨fun h => h.imp (hsame h.mem h.holds.1), fun h => h.imp fun b hb => (hsame h.mem h.holds.1 b hb).symm⟩

theorem lastOfEach_filed {key' : β → κ} {statedBy : β → α → Prop} (hkey : ∀ a, key' (f a) = key a)
    (hstated : ∀ a, statedBy (f a) a) : LastOfEach counts key statedBy key' found
      (((found.filter counts).map f).foldl (fun (m : Std.TreeMap String β) x => m.insert (id x) x) {}).values where
  held_of_last a h := ⟨f a, (mem_values_filed_iff hid).mpr ⟨a, h, rfl⟩, hstated a⟩
  last_of_held x hx := by
    obtain ⟨a, hlast, rfl⟩ := (mem_values_filed_iff hid).mp hx
    exact ⟨a, hlast, hstated a⟩
  once := by
    have hnodup := nodup_map_key_foldl_insert id ((found.filter counts).map f)
    refine List.Nodup.map_on (fun x hx y hy hxy => List.inj_on_of_nodup_map hnodup hx hy ?_) (List.Nodup.of_map _ hnodup)
    obtain ⟨a, ha, rfl⟩ := (mem_values_filed_iff hid).mp hx
    obtain ⟨b, hb, rfl⟩ := (mem_values_filed_iff hid).mp hy
    rw [hkey, hkey] at hxy
    exact (hid a ha.mem b hb.mem ha.holds.1 hb.holds.1).mpr hxy

end Keys

end Filed

section Built

variable {findings : Findings} {g : Graph} {file : String} {p : Purpose}

theorem purpose?_known (findings : Findings) (g : Graph) (file : String) :
    (known findings g).purpose? file = (leader? (speaking findings.narratives) file).map ofNarrative := by
  rw [known, build_eq]
  exact getElem?_purposes findings.narratives file

theorem heard_of_purpose? (h : (known findings g).purpose? file = some p) :
    p.subject = file ∧ ∃ n, Heard findings.narratives file n ∧ p.StatedBy n := by
  rw [purpose?_known] at h
  obtain ⟨n, hn, rfl⟩ := Option.map_eq_some_iff.mp h
  exact ⟨(mem_of_leader? hn).2, n, heard_of_leader? hn, rfl, rfl, rfl, rfl⟩

theorem exists_purpose?_iff :
    (∃ p, (known findings g).purpose? file = some p) ↔ ∃ n ∈ findings.narratives, Narrates file n := by
  rw [purpose?_known, ← Option.isSome_iff_exists, Option.isSome_map, ← Option.ne_none_iff_isSome, ne_eq,
    leader?_eq_none_iff]
  push Not
  exact exists_congr fun n => mem_speaking_iff

theorem mem_purposes_known_iff :
    p ∈ (known findings g).purposes ↔ (known findings g).purpose? p.subject = some p := by
  have hsubject (file : String) (p : Purpose) (h : (known findings g).purposeMap[file]? = some p) : p.subject = file :=
    (heard_of_purpose? h).1
  exact ((getElem?_eq_some_iff_mem_values hsubject).trans (and_iff_left rfl)).symm

theorem rules_known (h : ToldApart findings) (g : Graph) :
    LastOfEach (·.level ≠ .low) (fun s : Findings.Rule => (s.file, s.text)) Rule.StatedBy (fun x => (x.file, x.text))
      findings.rules (known findings g).rules := by
  have hid : ∀ r ∈ findings.rules, ∀ s ∈ findings.rules, r.level ≠ .low → s.level ≠ .low →
      ((ofRule r).id = (ofRule s).id ↔ (r.file, r.text) = (s.file, s.text)) := by
    refine fun r hr s hs hr' hs' => ⟨h.rules r hr s hs hr' hs', fun hkey => ?_⟩
    obtain ⟨hfile, htext⟩ := Prod.mk.inj hkey
    simp only [ofRule, hfile, htext]
  rw [known, build_eq]
  exact lastOfEach_filed hid (fun _ => rfl) fun _ => ⟨rfl, rfl, rfl, rfl, rfl, rfl, rfl, rfl, rfl⟩

theorem risks_known (h : ToldApart findings) (g : Graph) :
    LastOfEach (·.level ≠ .low) (fun s : Findings.Risk => (s.file, s.title, s.line)) Risk.StatedBy
      (fun x => (x.file, x.title, x.line)) findings.risks (known findings g).risks := by
  have hid : ∀ r ∈ findings.risks, ∀ s ∈ findings.risks, r.level ≠ .low → s.level ≠ .low →
      ((ofRisk r).id = (ofRisk s).id ↔ (r.file, r.title, r.line) = (s.file, s.title, s.line)) := by
    refine fun r hr s hs hr' hs' => ⟨h.risks r hr s hs hr' hs', fun hkey => ?_⟩
    simp only [Prod.mk.injEq] at hkey
    simp only [ofRisk, hkey]
  rw [known, build_eq]
  exact lastOfEach_filed hid (fun _ => rfl) fun _ => ⟨rfl, rfl, rfl, rfl, rfl, rfl, rfl, rfl, rfl⟩

theorem Heard.level_ne_low {n : Narrative} (h : Heard findings.narratives file n) : n.level ≠ .low := by
  cases h with
  | high h => rw [h.holds.2]; decide
  | medium _ h => rw [h.holds.2]; decide

theorem holds_known (h : ToldApart findings) (g : Graph) : (known findings g).Holds findings where
  purpose_iff _ := exists_purpose?_iff
  purpose _ _ hp := (heard_of_purpose? hp).2
  listed _ := mem_purposes_known_iff
  rules := rules_known h g
  risks := risks_known h g
  confident := by
    refine ⟨fun p hp => ?_, fun x hx => ?_, fun x hx => ?_⟩
    · obtain ⟨-, n, hheard, hstated⟩ := heard_of_purpose? (mem_purposes_known_iff.mp hp)
      rw [hstated.value]
      exact score_ge _ hheard.level_ne_low
    · obtain ⟨r, hlast, hstated⟩ := (rules_known h g).last_of_held x hx
      rw [hstated.value]
      exact score_ge _ hlast.holds.1
    · obtain ⟨r, hlast, hstated⟩ := (risks_known h g).last_of_held x hx
      rw [hstated.value]
      exact score_ge _ hlast.holds.1

end Built

end Reasoning

/-- A build holds of the findings what it should: purposes, rules and risks, none of them of low level. -/
theorem Atlas.findings_held {project : String} {report : Report} {facts : Facts} {findings : Findings} {atlas : Atlas}
    (h : Atlas.build project report facts findings = .ok atlas) (hids : Reasoning.ToldApart findings) :
    atlas.reasoning.Holds findings := by
  obtain ⟨g, -, hatlas⟩ := Graph.exists_of_bind_ok h
  cases hatlas
  exact Reasoning.holds_known hids g

/-- Two files of a shop, with a purpose, a rule and a risk each that are stated more than once. -/
def Findings.repeated : Findings where
  narratives :=
    [{ file := "cart.py", purpose := "Unknown", level := .low }, { file := "cart.py", purpose := "Adds items" },
     { file := "pay.py", purpose := "  " }, { file := "cart.py", purpose := "Sums totals", level := .high },
     { file := "cart.py", purpose := "Sums prices", level := .high }]
  rules :=
    [{ text := "Totals are positive", file := "cart.py", lineStart := 1, level := .high },
     { text := "Totals are rounded", file := "cart.py" },
     { text := "Totals are positive", file := "cart.py", lineStart := 40 },
     { text := "Totals are positive", file := "cart.py", lineStart := 90, level := .low }]
  risks :=
    [{ title := "Race", file := "pay.py", line := 3 }, { title := "Race", file := "pay.py", line := 7, level := .low },
     { title := "Race", file := "pay.py", line := 3, severity := .high }]

/-- Identifiers of a kind are the same only if the hashes over their parts begin with the same digit. -/
theorem Reasoning.head?_of_shortId_eq {kind : String} {parts parts' : List String}
    (h : shortId kind parts = shortId kind parts') :
    (Hash.hashBytes (parts.flatMap fun part => part.toUTF8.toList ++ [0])).toList.head? =
      (Hash.hashBytes (parts'.flatMap fun part => part.toUTF8.toList ++ [0])).toList.head? := by
  have hdigits := congrArg String.toList h
  simp only [shortId, String.toList_append, List.append_cancel_left_eq, Text.take, String.toList_ofList] at hdigits
  have hfirst := congrArg List.head? hdigits
  rwa [List.head?_take, List.head?_take, if_neg (by decide), if_neg (by decide)] at hfirst

theorem toldApart_repeated : Reasoning.ToldApart .repeated := by
  have hrules : Reasoning.shortId "rule" ["cart.py", "Totals are positive"] ≠
      Reasoning.shortId "rule" ["cart.py", "Totals are rounded"] := by
    intro h
    have hpositive : (Hash.hashBytes (["cart.py", "Totals are positive"].flatMap fun part =>
        part.toUTF8.toList ++ [0])).toList.head? = some 'f' := (Hash.head?_hashBytes _).trans (by decide +kernel)
    have hrounded : (Hash.hashBytes (["cart.py", "Totals are rounded"].flatMap fun part =>
        part.toUTF8.toList ++ [0])).toList.head? = some 'a' := (Hash.head?_hashBytes _).trans (by decide +kernel)
    have hsame := Reasoning.head?_of_shortId_eq h
    rw [hpositive, hrounded] at hsame
    exact absurd hsame (by decide)
  refine ⟨?_, ?_⟩
  · simp [Findings.repeated, Reasoning.ofRule, hrules, hrules.symm]
  · simp [Findings.repeated]

theorem Atlas.findings_held_repeated : ∃ atlas,
    Atlas.build "shop" (.reconcile .empty .repeated) .empty .repeated = .ok atlas ∧
      Reasoning.ToldApart .repeated ∧ atlas.reasoning.Holds .repeated ∧
      (atlas.reasoning.purpose? "cart.py").map (·.statement) = some "Sums totals" := by
  obtain ⟨atlas, hbuild, hpurpose⟩ := Graph.exists_of_map_eq_some
    (f := fun a : Atlas => (a.reasoning.purpose? "cart.py").map (·.statement))
    (x := Atlas.build "shop" (.reconcile .empty .repeated) .empty .repeated) (b := some "Sums totals") (by decide +kernel)
  exact ⟨atlas, hbuild, toldApart_repeated, Atlas.findings_held hbuild toldApart_repeated, hpurpose⟩

end CodeAtlas
