import RiskRules.Proofs.Pack.Emission
import RiskRules.Proofs.Rule.Reporting
import RiskRules.Proofs.Text.Blank

/-!
Rules that can fire. Every rule can that asks for a tag at all, and an accepted template makes no
others: one of its tags is more than white space, and each rule keeps that one. The list is checked
as a whole and its blank tags are dropped rule by rule, but both go by the same notion of blank.
-/

namespace RiskRules

def Rule.Live (rule : Rule) : Prop :=
  ∃ model, rule.findings model ≠ []

/-- The tags that a template names, as they are spelled. One that is nothing but white space is not
among them. -/
def Template.Names (template : Template) (tag : String) : Prop :=
  tag ∈ template.supportedTags ∧ Text.trim tag ≠ ""

/-! ### Rules and what they ask for -/

theorem Gate.Admits.tagged {gate : Gate} {wanted : TagSet} {asset : Asset}
    (admits : gate.Admits wanted asset) : wanted.tags ≠ [] := by
  cases gate with
  | anyTag =>
      obtain ⟨tag, member, _⟩ := admits
      exact List.ne_nil_of_mem member
  | allTags => exact admits.1

namespace Rule

variable {rule : Rule}

def target (rule : Rule) : Asset :=
  ⟨"", "", rule.supportedTags.tags, false⟩

theorem reports_target (tagged : rule.supportedTags.tags ≠ []) : rule.Reports rule.target :=
  ⟨rfl, Gate.admits_iff.mp (Gate.admits_of_subset tagged fun _ member => member)⟩

/-- Whatever its gate, a rule is live exactly when it asks for a tag at all. -/
theorem live_iff : rule.Live ↔ rule.supportedTags.tags ≠ [] := by
  constructor
  · rintro ⟨model, reported⟩
    obtain ⟨finding, found⟩ := List.exists_mem_of_ne_nil _ reported
    obtain ⟨asset, _, ⟨_, admitted⟩, _⟩ := mem_findings.mp found
    exact admitted.tagged
  · intro tagged
    let model : Model := ⟨[rule.target], List.pairwise_singleton _ _⟩
    exact ⟨model, List.ne_nil_of_mem
      (mem_findings.mpr ⟨rule.target, List.mem_cons_self, reports_target tagged, rfl⟩)⟩

end Rule

/-! ### What the rules of a template ask for -/

theorem Template.Names.not_carried {template : Template} {tag : String} {asset : Asset}
    (named : template.Names tag) (blank : ∀ own ∈ asset.tags, Text.trim own = "") :
    ¬asset.Carries tag := by
  rintro ⟨own, member, same⟩
  have ownBlank : Text.isBlank own = true := Text.trim_eq_empty_iff.mp (blank own member)
  exact named.2 (Text.trim_eq_empty_iff.mpr (Text.isBlank_eq same ▸ ownBlank))

namespace Emitter

variable {emitter : Emitter} {entry : Entry}

theorem mem_tags_iff_names {tag : String} :
    tag ∈ emitter.tags.tags ↔ emitter.template.Names tag := by
  rw [mem_tags, Template.Names, ne_eq, Text.trim_eq_empty_iff, Bool.not_eq_true]

theorem reports_rule_iff {asset : Asset} :
    (emitter.rule entry).Reports asset ↔
      asset.outOfScope = false ∧ ∃ tag, emitter.template.Names tag ∧ asset.Carries tag := by
  simp only [Rule.Reports, rule, Gate.Admits, mem_tags_iff_names]

/-- Every rule of a pack, curated or not, reports something of some model. The tags of a rule from
the catalog are those that the template names, each once and as it is spelled, and there is always
one. Such a rule reports the assets in scope that carry one of them, so none whose tags are all
blank. -/
theorem rules_live (template : Template) (emitter : Emitter) (entries : List Entry)
    (digest : String) (pack : Pack) (accepted : ofTemplate template = .ok emitter)
    (emitted : emitter.emit entries digest = .ok pack) :
    (∀ rule ∈ pack.rules, rule.Live) ∧
    pack.rules = entries.map emitter.rule ++
      (if template.includeCurated then Curated.rules else []) ∧
    ∀ entry ∈ entries,
      let rule := emitter.rule entry
      (∀ tag, tag ∈ rule.supportedTags.tags ↔ template.Names tag) ∧
      rule.supportedTags.tags.Nodup ∧ rule.supportedTags.tags ≠ [] ∧
      ∀ model : Model, ∀ asset ∈ model.assets,
        ((∃ finding ∈ rule.findings model, finding.componentId = asset.id) ↔
          asset.outOfScope = false ∧ ∃ tag, template.Names tag ∧ asset.Carries tag) ∧
        ((∀ own ∈ asset.tags, Text.trim own = "") →
          ∀ finding ∈ rule.findings model, finding.componentId ≠ asset.id) := by
  obtain ⟨rfl, _⟩ := ofTemplate_eq_ok.mp accepted
  have content : pack.rules = emitter.rules entries := rules_of_emit emitted
  have tagged : ∀ rule ∈ emitter.rules entries, rule.supportedTags.tags ≠ [] :=
    supportedTags_ne_nil accepted
  refine ⟨?_, content, ?_⟩
  · intro rule member
    exact Rule.live_iff.mpr (tagged rule (content ▸ member))
  · intro entry member rule
    have within : rule ∈ emitter.rules entries :=
      List.mem_append_left _ (List.mem_map_of_mem member)
    refine ⟨fun tag => mem_tags_iff_names, rule.supportedTags.nodup, tagged rule within, ?_⟩
    intro model asset present
    have reported : (∃ finding ∈ rule.findings model, finding.componentId = asset.id) ↔
        rule.Reports asset := Rule.exists_finding_iff present
    refine ⟨reported.trans reports_rule_iff, fun blank finding found same => ?_⟩
    obtain ⟨_, tag, named, carried⟩ := reports_rule_iff.mp (reported.mp ⟨finding, found, same⟩)
    exact named.not_carried blank carried

def paddedTemplate : Template :=
  { Template.automotive with supportedTags := ["", "ECU ", " \u3000", "can", "ECU "] }

def bus : Asset :=
  ⟨"bus", "", ["CAN"], false⟩

def unpadded : Asset :=
  ⟨"ecu", "", ["ecu"], false⟩

def blankTagged : Asset :=
  ⟨"sensor", "", ["", " \u3000"], false⟩

theorem rules_live_padded : ∃ emitter pack, ofTemplate paddedTemplate = .ok emitter ∧
    emitter.emit [plain] "" = .ok pack ∧ emitter.rule plain ∈ pack.rules ∧
    (∀ rule ∈ pack.rules, rule.Live) ∧
    let rule := emitter.rule plain
    let findings := rule.findings (.ofAssets [bus, unpadded, blankTagged])
    rule.supportedTags.tags.Nodup ∧ "ECU " ∈ rule.supportedTags.tags ∧
      "" ∉ rule.supportedTags.tags ∧
      (∃ finding ∈ findings, finding.componentId = "bus") ∧
      (¬∃ finding ∈ findings, finding.componentId = "ecu") ∧
      ∀ finding ∈ findings, finding.componentId ≠ "sensor" := by
  obtain ⟨emitter, accepted⟩ : ∃ emitter, ofTemplate paddedTemplate = .ok emitter := ⟨_, rfl⟩
  have distinct : ((emitter.rules [plain]).map Rule.identifier).Nodup :=
    nodup_rules_iff.mpr ⟨List.nodup_singleton _, fun _ => by decide⟩
  obtain ⟨pack, emitted⟩ := exists_emit_iff.mpr distinct
  obtain ⟨live, content, made⟩ := rules_live paddedTemplate emitter [plain] "" pack accepted emitted
  obtain ⟨tags, unrepeated, _, reports⟩ := made plain List.mem_cons_self
  refine ⟨emitter, pack, accepted, emitted, content ▸ List.mem_cons_self, live, unrepeated, ?_, ?_,
    ?_, ?_, ?_⟩
  · exact (tags "ECU ").mpr ⟨by decide, by decide⟩
  · exact fun member => ((tags "").mp member).2 (by decide)
  · refine (reports _ bus (by decide)).1.mpr ⟨rfl, "can", ⟨by decide, by decide⟩, ?_⟩
    exact ⟨"CAN", List.mem_cons_self, sameTag_iff.mp (by decide)⟩
  · intro found
    obtain ⟨_, tag, named, carried⟩ := (reports _ unpadded (by decide)).1.mp found
    have apart : ¬∃ tag ∈ paddedTemplate.supportedTags, unpadded.Carries tag :=
      carriesAny_iff.not.mp (by decide)
    exact apart ⟨tag, named.1, carried⟩
  · exact (reports _ blankTagged (by decide)).2 (by decide)

end Emitter

end RiskRules
