import Mathlib.Data.List.Pairwise
import RiskRules.Curated
import RiskRules.Proofs.Model
import RiskRules.Proofs.Tags

/-!
What a rule reports of a model. Whether an asset is reported depends on nothing but the rule and the
asset, and an asset that is reported gives one finding, in the place of its id.
-/

namespace RiskRules

def Asset.Carries (asset : Asset) (tag : String) : Prop :=
  ∃ own ∈ asset.tags, EqualUpToCase tag own

def Gate.Admits : Gate → TagSet → Asset → Prop
  | .anyTag, wanted, asset => ∃ tag ∈ wanted.tags, asset.Carries tag
  | .allTags, wanted, asset => wanted.tags ≠ [] ∧ ∀ tag ∈ wanted.tags, asset.Carries tag

def Mitigation.Covers : Mitigation → Asset → Prop
  | .none, _ => False
  | .anyTag tags, asset => ∃ tag ∈ tags, asset.Carries tag

namespace Rule

def Reports (rule : Rule) (asset : Asset) : Prop :=
  asset.outOfScope = false ∧ rule.gate.Admits rule.supportedTags asset

structure Describes (rule : Rule) (asset : Asset) (finding : Finding) : Prop where
  categoryId : finding.categoryId = rule.category.id
  severity : finding.severity = rule.severity
  likelihood : finding.likelihood = rule.likelihood
  impact : finding.impact = rule.impact
  title : finding.title = rule.findingTitle.render rule.category.title asset.title
  componentId : finding.componentId = asset.id
  breachProbability : finding.breachProbability = rule.breachProbability
  breachComponentIds : finding.breachComponentIds = [asset.id]
  syntheticId : finding.syntheticId = rule.category.id ++ "@" ++ asset.id
  status : finding.status = .mitigated ↔ rule.mitigation.Covers asset

end Rule

/-! ### Assets that are reported -/

theorem carriesAny_iff {asset : Asset} {wanted : List String} :
    carriesAny asset.tags wanted = true ↔ ∃ tag ∈ wanted, asset.Carries tag := by
  simp only [carriesAny, List.any_eq_true, carries_iff, Asset.Carries]

theorem Gate.admits_iff {gate : Gate} {wanted : TagSet} {asset : Asset} :
    gate.admits wanted asset = true ↔ gate.Admits wanted asset := by
  cases gate with
  | anyTag => exact carriesAny_iff
  | allTags => simp [admits, Admits, carries_iff, Asset.Carries]

theorem Gate.admits_of_subset {gate : Gate} {wanted : TagSet} {asset : Asset}
    (given : wanted.tags ≠ []) (subset : ∀ tag ∈ wanted.tags, tag ∈ asset.tags) :
    gate.admits wanted asset = true := by
  cases gate with
  | anyTag =>
      obtain ⟨tag, member⟩ := List.exists_mem_of_ne_nil _ given
      rw [admits, carriesAny, List.any_eq_true]
      exact ⟨tag, member, carries_of_mem (subset tag member)⟩
  | allTags =>
      have carried : wanted.tags.all (carries asset.tags ·) = true :=
        List.all_eq_true.mpr fun tag member => carries_of_mem (subset tag member)
      simp [admits, given, carried]

theorem Mitigation.covers_iff {mitigation : Mitigation} {asset : Asset} :
    mitigation.covers asset = true ↔ mitigation.Covers asset := by
  cases mitigation with
  | none => simp [covers, Covers]
  | anyTag tags => exact carriesAny_iff

namespace Rule

variable {rule : Rule} {asset : Asset}

theorem appliesTo_iff : rule.appliesTo asset = true ↔ rule.Reports asset := by
  simp only [appliesTo, Reports, Bool.and_eq_true, Bool.not_eq_true', Gate.admits_iff]

theorem describes_findingFor (rule : Rule) (asset : Asset) :
    rule.Describes asset (rule.findingFor asset) where
  categoryId := rfl
  severity := rfl
  likelihood := rfl
  impact := rfl
  title := rfl
  componentId := rfl
  breachProbability := rfl
  breachComponentIds := rfl
  syntheticId := rfl
  status := by
    rw [← Mitigation.covers_iff, findingFor]
    split
    next covered => simp [covered]
    next uncovered => simp [uncovered]

/-! ### Their findings -/

theorem mem_findings {model : Model} {finding : Finding} :
    finding ∈ rule.findings model ↔
      ∃ asset ∈ model.assets, rule.Reports asset ∧ rule.findingFor asset = finding := by
  simp only [findings, List.mem_map, List.mem_filter, appliesTo_iff, and_assoc]

theorem exists_finding_iff {model : Model} (member : asset ∈ model.assets) :
    (∃ finding ∈ rule.findings model, finding.componentId = asset.id) ↔ rule.Reports asset := by
  constructor
  · rintro ⟨finding, found, same⟩
    obtain ⟨second, otherMember, reported, rfl⟩ := mem_findings.mp found
    obtain rfl := Model.eq_of_id otherMember member same
    exact reported
  · intro reported
    exact ⟨rule.findingFor asset, mem_findings.mpr ⟨asset, member, reported, rfl⟩, rfl⟩

/-- The findings about one asset do not depend on the other assets. -/
theorem filter_findings {model : Model} (rule : Rule) (member : asset ∈ model.assets) :
    (rule.findings model).filter (·.componentId = asset.id) =
      if rule.appliesTo asset then [rule.findingFor asset] else [] := by
  have located : ((fun finding => decide (finding.componentId = asset.id)) ∘ rule.findingFor) =
      fun second => decide (second.id = asset.id) := rfl
  rw [findings, List.filter_map, located, List.filter_comm, Model.filter_id member]
  by_cases applies : rule.appliesTo asset = true
  · rw [List.filter_cons_of_pos applies, if_pos applies]
    rfl
  · rw [List.filter_cons_of_neg applies, if_neg applies]
    rfl

theorem findings_ascending (rule : Rule) (model : Model) :
    (rule.findings model).Pairwise fun finding later =>
      Text.encodeUtf8 finding.componentId < Text.encodeUtf8 later.componentId := by
  rw [findings, List.pairwise_map]
  exact model.bytes_ascending.filter _

/-- Every asset in scope that the gate admits is reported in one finding, every other asset in none,
and there are no other findings. They stand in the order of the bytes of the component ids, and the
assets are those that the listed ids lead to. -/
theorem findings_exact (rule : Rule) (model : Model) :
    (∀ asset ∈ model.assets,
      (rule.Reports asset → ∃ finding, rule.Describes asset finding ∧
        (rule.findings model).filter (·.componentId = asset.id) = [finding]) ∧
      (¬rule.Reports asset →
        (rule.findings model).filter (·.componentId = asset.id) = [])) ∧
    (∀ finding ∈ rule.findings model,
      ∃ asset ∈ model.assets, rule.Reports asset ∧ rule.Describes asset finding) ∧
    ((rule.findings model).Pairwise fun finding later =>
      Text.encodeUtf8 finding.componentId < Text.encodeUtf8 later.componentId) ∧
    model.ids.filterMap model.find? = model.assets := by
  refine ⟨?_, ?_, rule.findings_ascending model, model.filterMap_find?_ids⟩
  · intro asset member
    rw [rule.filter_findings member, ← appliesTo_iff]
    constructor
    · intro reported
      exact ⟨rule.findingFor asset, rule.describes_findingFor asset, if_pos reported⟩
    · intro unreported
      exact if_neg unreported
  · intro finding found
    obtain ⟨asset, fits, rfl⟩ := List.mem_map.mp found
    obtain ⟨member, applies⟩ := List.mem_filter.mp fits
    exact ⟨asset, member, appliesTo_iff.mp applies, rule.describes_findingFor asset⟩

def gateway : Asset :=
  ⟨"gw", "Gateway", ["Hardware", "GATEWAY", "Isolation"], false⟩

def controlUnit : Asset :=
  ⟨"ecu", "ECU", ["hardware"], false⟩

/-- A rule that asks for two tags reports the asset with both of them, spelled in another case. -/
theorem findings_exact_gateway :
    let findings := Curated.socIsolation.findings (.ofAssets [gateway, controlUnit])
    findings.filter (·.componentId = "ecu") = [] ∧
      ∃ finding, findings.filter (·.componentId = "gw") = [finding] ∧
        Curated.socIsolation.Describes gateway finding ∧ finding.status = .mitigated := by
  obtain ⟨assets, -⟩ := findings_exact Curated.socIsolation (.ofAssets [gateway, controlUnit])
  have unreported : ¬Curated.socIsolation.Reports controlUnit :=
    appliesTo_iff.not.mp (by decide)
  have reported : Curated.socIsolation.Reports gateway := appliesTo_iff.mp (by decide)
  have covered : Curated.socIsolation.mitigation.Covers gateway :=
    Mitigation.covers_iff.mp (by decide)
  obtain ⟨finding, described, found⟩ := (assets gateway (by decide)).1 reported
  exact ⟨(assets controlUnit (by decide)).2 unreported, finding, found, described,
    described.status.mpr covered⟩

end Rule

end RiskRules
