import Mathlib.Data.List.Forall2
import RiskRules.Proofs.Rule.Reporting

/-!
What a rule's findings owe to tags. Tags are seen without their case, so respelling them changes no
finding, and an asset that gains tags keeps its finding, which may become mitigated.
-/

namespace RiskRules

/-! ### Lists of tags up to case -/

theorem equalUpToCase_iff {left right : String} :
    EqualUpToCase left right ↔ foldCase left = foldCase right := by
  rw [← sameTag_iff, sameTag, decide_eq_true_eq]

theorem EqualUpToCase.symm {left right : String} (same : EqualUpToCase left right) :
    EqualUpToCase right left :=
  equalUpToCase_iff.mpr (equalUpToCase_iff.mp same).symm

theorem EqualUpToCase.trans {left middle right : String} (first : EqualUpToCase left middle)
    (second : EqualUpToCase middle right) : EqualUpToCase left right :=
  equalUpToCase_iff.mpr ((equalUpToCase_iff.mp first).trans (equalUpToCase_iff.mp second))

def TagsWithin (tags others : List String) : Prop :=
  ∀ tag ∈ tags, ∃ other ∈ others, EqualUpToCase tag other

structure SameTags (tags others : List String) : Prop where
  within : TagsWithin tags others
  back : TagsWithin others tags

theorem SameTags.symm {tags others : List String} (same : SameTags tags others) :
    SameTags others tags :=
  ⟨same.back, same.within⟩

/-- Each tag may be replaced by one that is equal to it up to case. -/
theorem TagsWithin.of_forall₂ {tags others : List String}
    (each : List.Forall₂ EqualUpToCase tags others) : TagsWithin tags others := by
  induction each with
  | nil => exact fun _ member => absurd member List.not_mem_nil
  | cons first _ ih =>
      refine List.forall_mem_cons.mpr ⟨⟨_, List.mem_cons_self, first⟩, ?_⟩
      intro tag member
      obtain ⟨other, found, same⟩ := ih tag member
      exact ⟨other, List.mem_cons_of_mem _ found, same⟩

theorem SameTags.of_forall₂ {tags others : List String}
    (each : List.Forall₂ EqualUpToCase tags others) : SameTags tags others :=
  ⟨.of_forall₂ each, .of_forall₂ (each.flip.imp fun _ _ => EqualUpToCase.symm)⟩

theorem SameTags.ofList {tags texts : List String} (same : SameTags tags texts) :
    SameTags tags (TagSet.ofList texts).tags := by
  constructor
  · intro tag member
    obtain ⟨text, found, equal⟩ := same.within tag member
    exact ⟨text, TagSet.mem_tags_ofList.mpr found, equal⟩
  · exact fun text member => same.back text (TagSet.mem_tags_ofList.mp member)

/-! ### Assets with more tags -/

section

variable {asset second : Asset}

theorem Asset.Carries.mono {tag other : String} (carries : asset.Carries tag)
    (more : TagsWithin asset.tags second.tags) (same : EqualUpToCase other tag) :
    second.Carries other := by
  obtain ⟨own, member, equal⟩ := carries
  obtain ⟨found, present, respelled⟩ := more own member
  exact ⟨found, present, (same.trans equal).trans respelled⟩

theorem exists_carries_mono {wanted others : List String} (within : TagsWithin wanted others)
    (more : TagsWithin asset.tags second.tags) (carries : ∃ tag ∈ wanted, asset.Carries tag) :
    ∃ tag ∈ others, second.Carries tag := by
  obtain ⟨tag, member, carried⟩ := carries
  obtain ⟨other, found, same⟩ := within tag member
  exact ⟨other, found, carried.mono more same.symm⟩

/-- Both gates need more of an asset's tags and are not shut by any. -/
theorem Gate.Admits.mono {gate : Gate} {wanted others : TagSet} (admits : gate.Admits wanted asset)
    (same : SameTags wanted.tags others.tags) (more : TagsWithin asset.tags second.tags) :
    gate.Admits others second := by
  cases gate with
  | anyTag => exact exists_carries_mono same.within more admits
  | allTags =>
      obtain ⟨nonempty, all⟩ := admits
      constructor
      · obtain ⟨tag, member⟩ := List.exists_mem_of_ne_nil _ nonempty
        obtain ⟨other, found, _⟩ := same.within tag member
        exact List.ne_nil_of_mem found
      · intro other found
        obtain ⟨tag, member, equal⟩ := same.back other found
        exact (all tag member).mono more equal

def Mitigation.tags : Mitigation → List String
  | .none => []
  | .anyTag tags => tags

theorem Mitigation.covers_iff_tags {mitigation : Mitigation} :
    mitigation.Covers asset ↔ ∃ tag ∈ mitigation.tags, asset.Carries tag := by
  cases mitigation <;> simp [Covers, tags]

theorem Mitigation.Covers.mono {mitigation other : Mitigation} (covers : mitigation.Covers asset)
    (within : TagsWithin mitigation.tags other.tags)
    (more : TagsWithin asset.tags second.tags) : other.Covers second :=
  covers_iff_tags.mpr (exists_carries_mono within more (covers_iff_tags.mp covers))

end

structure Asset.Respells (asset second : Asset) : Prop where
  untagged : second = { asset with tags := second.tags }
  tags : List.Forall₂ EqualUpToCase asset.tags second.tags

structure Asset.Gains (asset second : Asset) : Prop where
  untagged : second = { asset with tags := second.tags }
  tags : TagsWithin asset.tags second.tags

theorem Asset.Respells.gains {asset second : Asset} (respells : asset.Respells second) :
    asset.Gains second ∧ second.Gains asset := by
  obtain ⟨untagged, tags⟩ := respells
  have same := SameTags.of_forall₂ tags
  exact ⟨⟨untagged, same.within⟩, ⟨by rw [untagged], same.back⟩⟩

/-! ### Rules with their tags respelled -/

/-- The set of respelled tags is smaller than the first one where two spellings have become one. -/
def TagSet.Respells (set other : TagSet) : Prop :=
  ∃ spellings, List.Forall₂ EqualUpToCase set.tags spellings ∧ other = .ofList spellings

inductive Mitigation.Respells : Mitigation → Mitigation → Prop
  | none : Respells .none .none
  | anyTag {tags others : List String} (each : List.Forall₂ EqualUpToCase tags others) :
      Respells (.anyTag tags) (.anyTag others)

theorem Mitigation.Respells.sameTags {mitigation other : Mitigation}
    (respells : mitigation.Respells other) : SameTags mitigation.tags other.tags := by
  cases respells with
  | none => exact .of_forall₂ .nil
  | anyTag each => exact .of_forall₂ each

structure Finding.Persists (finding later : Finding) : Prop where
  unchanged : later = { finding with status := later.status }
  mitigated : finding.status = .mitigated → later.status = .mitigated

theorem Finding.Persists.antisymm {finding later : Finding} (persists : finding.Persists later)
    (back : later.Persists finding) : finding = later := by
  have statuses : finding.status = later.status := by
    cases before : finding.status with
    | mitigated => exact (persists.mitigated before).symm
    | opened =>
        cases after : later.status with
        | opened => rfl
        | mitigated => exact before.symm.trans (back.mitigated after)
  rw [persists.unchanged, ← statuses]

namespace Rule

structure Respells (rule other : Rule) : Prop where
  untagged : other = { rule with
    supportedTags := other.supportedTags, mitigation := other.mitigation }
  supportedTags : rule.supportedTags.Respells other.supportedTags
  mitigation : rule.mitigation.Respells other.mitigation

structure Alike (rule other : Rule) : Prop where
  untagged : other = { rule with
    supportedTags := other.supportedTags, mitigation := other.mitigation }
  supportedTags : SameTags rule.supportedTags.tags other.supportedTags.tags
  mitigation : SameTags rule.mitigation.tags other.mitigation.tags

theorem Alike.symm {rule other : Rule} (alike : rule.Alike other) : other.Alike rule where
  untagged := by rw [alike.untagged]
  supportedTags := alike.supportedTags.symm
  mitigation := alike.mitigation.symm

theorem alike_self (rule : Rule) : rule.Alike rule where
  untagged := rfl
  supportedTags := .of_forall₂ (List.forall₂_same.mpr fun _ _ => equalUpToCase_iff.mpr rfl)
  mitigation := .of_forall₂ (List.forall₂_same.mpr fun _ _ => equalUpToCase_iff.mpr rfl)

theorem Respells.alike {rule other : Rule} (respells : rule.Respells other) :
    rule.Alike other := by
  obtain ⟨untagged, ⟨spellings, each, set⟩, mitigation⟩ := respells
  exact ⟨untagged, set ▸ (SameTags.of_forall₂ each).ofList, mitigation.sameTags⟩

/-! ### Findings of one asset, and of a whole model -/

/-- The tags decide whether there is a finding and what its status is, and nothing else. -/
theorem Alike.persists {rule other : Rule} {asset second : Asset} (alike : rule.Alike other)
    (gains : asset.Gains second) (applies : rule.appliesTo asset = true) :
    other.appliesTo second = true ∧
      (rule.findingFor asset).Persists (other.findingFor second) := by
  have sameRule := alike.untagged
  have sameAsset := gains.untagged
  obtain ⟨inScope, admits⟩ := appliesTo_iff.mp applies
  refine ⟨appliesTo_iff.mpr ⟨?_, ?_⟩, ?_, ?_⟩
  · rw [sameAsset]
    exact inScope
  · rw [sameRule]
    exact admits.mono alike.supportedTags gains.tags
  · rw [sameRule, sameAsset]
    rfl
  · intro mitigated
    have covers := (rule.describes_findingFor asset).status.mp mitigated
    exact (other.describes_findingFor second).status.mpr
      (covers.mono alike.mitigation.within gains.tags)

/-- Where every finding about an asset is met by one about its counterpart, the findings are met in
their order. Further ones may stand between them. -/
theorem sublistForall₂_findings {rule other : Rule} {relates : Asset → Asset → Prop}
    {meets : Finding → Finding → Prop} {assets others : List Asset}
    (each : ∀ asset second, relates asset second → rule.appliesTo asset = true →
      other.appliesTo second = true ∧ meets (rule.findingFor asset) (other.findingFor second))
    (related : List.Forall₂ relates assets others) :
    List.SublistForall₂ meets ((assets.filter rule.appliesTo).map rule.findingFor)
      ((others.filter other.appliesTo).map other.findingFor) := by
  induction related with
  | nil => exact .nil
  | @cons asset second _ _ first _ ih =>
      by_cases applies : rule.appliesTo asset = true
      · obtain ⟨alsoApplies, met⟩ := each asset second first applies
        rw [List.filter_cons_of_pos applies, List.filter_cons_of_pos alsoApplies]
        exact .cons met ih
      · rw [List.filter_cons_of_neg applies]
        by_cases gained : other.appliesTo second = true
        · rw [List.filter_cons_of_pos gained]
          exact .cons_right ih
        · rw [List.filter_cons_of_neg gained]
          exact ih

theorem Alike.findings_sublist {rule other : Rule} (alike : rule.Alike other)
    {assets others : List Asset} (respells : List.Forall₂ Asset.Respells assets others) :
    ((assets.filter rule.appliesTo).map rule.findingFor).Sublist
      ((others.filter other.appliesTo).map other.findingFor) := by
  have met : ∀ asset second : Asset, asset.Respells second → rule.appliesTo asset = true →
      other.appliesTo second = true ∧ rule.findingFor asset = other.findingFor second := by
    intro asset second respells applies
    obtain ⟨gains, back⟩ := respells.gains
    obtain ⟨alsoApplies, persists⟩ := alike.persists gains applies
    exact ⟨alsoApplies, persists.antisymm (alike.symm.persists back alsoApplies).2⟩
  obtain ⟨findings, same, sublist⟩ :=
    List.sublistForall₂_iff.mp (sublistForall₂_findings met respells)
  rw [List.forall₂_eq_eq_eq] at same
  exact same ▸ sublist

/-- The case of tags never matters. Replace any tags of a rule and of the assets by other spellings
of them, even so that some supported tags become one, and the findings are the same. -/
theorem findings_respelled {rule other : Rule} {model second : Model}
    (rules : rule.Respells other)
    (assets : List.Forall₂ Asset.Respells model.assets second.assets) :
    rule.findings model = other.findings second := by
  have back : List.Forall₂ Asset.Respells second.assets model.assets := by
    refine assets.flip.imp fun asset second respells => ⟨?_, ?_⟩
    · rw [respells.untagged]
    · exact respells.tags.flip.imp fun _ _ => EqualUpToCase.symm
  exact (rules.alike.findings_sublist assets).antisymm (rules.alike.symm.findings_sublist back)

def doublySpelled : Rule :=
  { Curated.socIsolation with supportedTags := .ofList ["GATEWAY", "gateway"] }

def singlySpelled : Rule :=
  { doublySpelled with
    supportedTags := .ofList ["Gateway"]
    mitigation := .anyTag ["ISOLATION", "virtualization", "partitioning"] }

def respelledGateway : Asset :=
  { gateway with tags := ["hardware", "Gateway", "isolation"] }

theorem singlySpelled_respells : doublySpelled.Respells singlySpelled where
  untagged := rfl
  supportedTags := by
    have tags : doublySpelled.supportedTags.tags = ["GATEWAY", "gateway"] := by decide
    refine ⟨["Gateway", "Gateway"], ?_, by decide⟩
    rw [tags]
    exact .cons (sameTag_iff.mp (by decide)) (.cons (sameTag_iff.mp (by decide)) .nil)
  mitigation :=
    .anyTag (.cons (sameTag_iff.mp (by decide)) (.cons (sameTag_iff.mp (by decide))
      (.cons (sameTag_iff.mp (by decide)) .nil)))

theorem respelledGateway_respells : gateway.Respells respelledGateway where
  untagged := rfl
  tags :=
    .cons (sameTag_iff.mp (by decide)) (.cons (sameTag_iff.mp (by decide))
      (.cons (sameTag_iff.mp (by decide)) .nil))

theorem findings_respelled_gateway :
    doublySpelled.Respells singlySpelled ∧ gateway.Respells respelledGateway ∧
      doublySpelled.supportedTags.tags.length = 2 ∧ singlySpelled.supportedTags.tags.length = 1 ∧
      doublySpelled.findings (.ofAssets [gateway]) =
        singlySpelled.findings (.ofAssets [respelledGateway]) :=
  ⟨singlySpelled_respells, respelledGateway_respells, by decide, by decide,
    findings_respelled singlySpelled_respells (.cons respelledGateway_respells .nil)⟩

/-- Tags that are added to assets hide no finding. All findings of before are there again and in
the same order, alike in all fields but that an open one may have become mitigated. -/
theorem findings_gained (rule : Rule) {model second : Model}
    (assets : List.Forall₂ Asset.Gains model.assets second.assets) :
    ∃ kept, kept.Sublist (rule.findings second) ∧
      List.Forall₂ Finding.Persists (rule.findings model) kept := by
  have met := sublistForall₂_findings (fun _ _ => rule.alike_self.persists) assets
  obtain ⟨kept, persist, sublist⟩ := List.sublistForall₂_iff.mp met
  exact ⟨kept, sublist, persist⟩

def exposedGateway : Asset :=
  { gateway with tags := ["Hardware", "GATEWAY"] }

def routingUnit : Asset :=
  { controlUnit with tags := ["gateway", "hardware"] }

theorem findings_gained_gateway :
    exposedGateway.Gains gateway ∧ controlUnit.Gains routingUnit ∧
      ∃ kept, kept.Sublist (Curated.socIsolation.findings (.ofAssets [routingUnit, gateway])) ∧
        List.Forall₂ Finding.Persists
          (Curated.socIsolation.findings (.ofAssets [controlUnit, exposedGateway])) kept := by
  have gateways : exposedGateway.Gains gateway := by
    refine ⟨rfl, ?_⟩
    intro tag member
    have kept : tag ∈ gateway.tags := List.mem_append_left ["Isolation"] member
    exact ⟨tag, kept, equalUpToCase_iff.mpr rfl⟩
  have units : controlUnit.Gains routingUnit := by
    refine ⟨rfl, ?_⟩
    intro tag member
    exact ⟨tag, List.mem_cons_of_mem "gateway" member, equalUpToCase_iff.mpr rfl⟩
  exact ⟨gateways, units, findings_gained _ (.cons units (.cons gateways .nil))⟩

end Rule

end RiskRules
