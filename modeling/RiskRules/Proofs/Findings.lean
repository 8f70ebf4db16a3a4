import Mathlib
import RiskRules.Proofs.Compilation
import RiskRules.Proofs.Lint.Collisions
import RiskRules.Proofs.Model
import RiskRules.Proofs.Rule.SyntheticId
import RiskRules.Proofs.Text.Bytes

/-!
Findings of compiled packs. The check of category ids keeps the ids of rules distinct; that makes
synthetic ids distinct only as far as component ids hold no `@`, or no category id goes on after an
`@` where another one ends.
-/

namespace RiskRules

section

variable {template : Template} {document : List UInt8} {compilation : Compilation}

theorem distinct_of_unreported (compiled : compile template document = .ok compilation)
    (enabled : template.lint.isEnabled "category_key_collision" = true)
    (unreported : compilation.inspection.lint.ofCheck "category_key_collision" = []) :
    (compilation.pack.rules.map (·.category.id)).Nodup := by
  obtain ⟨_, emitter, groups, accepted, _, inspected, _, emitted⟩ := compile_eq_ok.mp compiled
  obtain ⟨rfl, _⟩ := Emitter.ofTemplate_eq_ok.mp accepted
  have report : compilation.inspection.lint =
      Lint.report compilation.inspection.normalization emitter.template := by rw [inspected]; rfl
  have checked := @Lint.ofCheck_report compilation.inspection.normalization emitter.template
    .categoryKeyCollision
  change LintReport.ofCheck _ "category_key_collision" =
    if emitter.template.lint.isEnabled "category_key_collision" then _ else _ at checked
  rw [← report, unreported, if_pos enabled] at checked
  rw [Emitter.rules_of_emit emitted]
  exact (Lint.diagnose_collision_eq_nil_iff emitter _).mp checked.symm

theorem tagged_of_compile (compiled : compile template document = .ok compilation) :
    ∀ rule ∈ compilation.pack.rules, rule.supportedTags.tags ≠ [] := by
  obtain ⟨_, emitter, groups, accepted, _, _, _, emitted⟩ := compile_eq_ok.mp compiled
  rw [Emitter.rules_of_emit emitted]
  exact Emitter.supportedTags_ne_nil accepted

end

theorem syntheticId_eq_iff {pack : Pack} {model : Model}
    (distinct : (pack.rules.map (·.category.id)).Nodup) {rule other : Rule}
    (member : rule ∈ pack.rules) (otherMember : other ∈ pack.rules) {finding second : Finding}
    (found : finding ∈ rule.findings model) (otherFound : second ∈ other.findings model) :
    finding.syntheticId = second.syntheticId ↔
      rule = other ∧ finding = second ∨
      (∃ rest, finding.categoryId = second.categoryId ++ "@" ++ rest ∧
        second.componentId = rest ++ "@" ++ finding.componentId) ∨
      ∃ rest, second.categoryId = finding.categoryId ++ "@" ++ rest ∧
        finding.componentId = rest ++ "@" ++ second.componentId := by
  obtain ⟨asset, fits, rfl⟩ := List.mem_map.mp found
  obtain ⟨component, otherFits, rfl⟩ := List.mem_map.mp otherFound
  have present := List.mem_of_mem_filter fits
  have otherPresent := List.mem_of_mem_filter otherFits
  have own : rule = other ∧ rule.findingFor asset = other.findingFor component ↔
      rule.category.id = other.category.id ∧ asset.id = component.id := by
    constructor
    · rintro ⟨rfl, same⟩
      exact ⟨rfl, congrArg Finding.componentId same⟩
    · rintro ⟨categories, components⟩
      obtain rfl := List.inj_on_of_nodup_map distinct member otherMember categories
      obtain rfl := Model.eq_of_id present otherPresent components
      exact ⟨rfl, rfl⟩
  rw [own]
  exact joined_eq_iff

/-! ### Two classes whose names meet at the mark -/

def twins : List Char :=
  "<RootNodes>".toList ++ "<ThreatsCatalog>".toList ++ "<ThreatClasses>".toList ++
    "<ThreatClass name='A'/>".toList ++ "<ThreatClass name='A@B'/>".toList ++
    "</ThreatClasses>".toList ++ "</ThreatsCatalog>".toList ++ "</RootNodes>".toList

def twinGroups : List Group :=
  [⟨"", [⟨"", "A", ""⟩, ⟨"", "A@B", ""⟩]⟩]

theorem Catalog.ofBytes_ascii {chars : List Char} (ascii : chars.all (·.toNat < 0x80) = true) :
    ofBytes (Text.asciiBytes chars) = ofText (String.ofList chars) := by
  rw [ofBytes, Text.decodeUtf8_ascii fun char member =>
    of_decide_eq_true (List.all_eq_true.mp ascii char member)]

theorem ofBytes_twins : Catalog.ofBytes (Text.asciiBytes twins) = .ok twinGroups := by
  have ascii : twins.all (·.toNat < 0x80) = true := by
    cbv
  rw [Catalog.ofBytes_ascii ascii, Catalog.ofText, String.toList_ofList]
  cbv

def shortTwin : Entry :=
  ⟨"A", .name, "a", "automotive-a", "", ""⟩

def longTwin : Entry :=
  ⟨"AB", .name, "a@b", "automotive-a@b", "", ""⟩

def twinEntries : List Entry :=
  [shortTwin, longTwin]

theorem normalization_twins :
    Normalization.ofGroups Template.automotive.name twinGroups = ⟨twinEntries, []⟩ := by
  decide

theorem compile_twins : ∃ (emitter : Emitter) (compilation : Compilation),
    compile .automotive (Text.asciiBytes twins) = .ok compilation ∧
      compilation.inspection.lint.ofCheck "category_key_collision" = [] ∧
      emitter.template = .automotive ∧ compilation.pack.rules = emitter.rules twinEntries := by
  obtain ⟨emitter, accepted⟩ := Emitter.exists_automotive
  have unchanged : emitter.template = .automotive := (Emitter.ofTemplate_eq_ok.mp accepted).1
  have distinct : ((emitter.rules twinEntries).map Rule.identifier).Nodup := by
    rw [Emitter.rules, unchanged]
    change (["A", "AB"] ++ Curated.rules.map Rule.identifier).Nodup
    decide
  have entries : (Inspection.ofGroups .automotive twinGroups).normalization.entries =
      twinEntries := congrArg Normalization.entries normalization_twins
  let pack := (emitter.draft twinEntries (Digest.sha256Hex (Text.asciiBytes twins))).sealed
  refine ⟨emitter, ⟨pack, .ofGroups .automotive twinGroups⟩, compile_eq_ok.mpr ⟨rfl, emitter,
    twinGroups, accepted, ofBytes_twins, rfl, rfl, ?_⟩, ?_, unchanged, rfl⟩
  · rw [entries]
    exact Emitter.emit_eq_ok.mpr ⟨distinct, rfl⟩
  · have keys : ((Lint.categoryOwners ⟨twinEntries, []⟩ .automotive).map (·.1)).Nodup := by
      decide
    have checked := @Lint.ofCheck_report ⟨twinEntries, []⟩ .automotive .categoryKeyCollision
    simp only [Inspection.ofGroups, normalization_twins]
    apply checked.trans
    exact Lint.categoryKeyCollisions_eq_nil_iff.mpr keys

/-! ### What the check gives -/

/-- What the check of category ids gives: rules with ids of their own. Two findings then share a
synthetic id only if one category id goes on after an `@` where another one ends, and unless there
are two such ids, or a component id with an `@` in it, no two findings do. -/
theorem findings_apart (template : Template) (document : List UInt8) (compilation : Compilation)
    (compiled : compile template document = .ok compilation)
    (enabled : template.lint.isEnabled "category_key_collision" = true)
    (unreported : compilation.inspection.lint.ofCheck "category_key_collision" = []) :
    (compilation.pack.rules.map (·.category.id)).Nodup ∧
    (∀ model : Model, ∀ rule ∈ compilation.pack.rules, ∀ other ∈ compilation.pack.rules,
      ∀ finding ∈ rule.findings model, ∀ second ∈ other.findings model,
        (finding.syntheticId = second.syntheticId ↔
          rule = other ∧ finding = second ∨
          (∃ rest, finding.categoryId = second.categoryId ++ "@" ++ rest ∧
            second.componentId = rest ++ "@" ++ finding.componentId) ∨
          ∃ rest, second.categoryId = finding.categoryId ++ "@" ++ rest ∧
            finding.componentId = rest ++ "@" ++ second.componentId)) ∧
    (∀ model : Model, (∀ asset ∈ model.assets, '@' ∉ asset.id.toList) →
      (compilation.pack.syntheticIds model).Nodup) ∧
    ((∀ model, (compilation.pack.syntheticIds model).Nodup) ↔
      ∀ rule ∈ compilation.pack.rules, ∀ other ∈ compilation.pack.rules, ∀ rest,
        rule.category.id ≠ other.category.id ++ "@" ++ rest) := by
  have distinct := distinct_of_unreported compiled enabled unreported
  refine ⟨distinct, ?_, ?_, ?_, ?_⟩
  · intro model rule member other otherMember finding found second otherFound
    exact syntheticId_eq_iff distinct member otherMember found otherFound
  · intro model unmarked
    apply Pack.nodup_syntheticIds distinct
    intro rule _ other _ asset _ second present rest _ marked
    apply unmarked second present
    simp [marked]
  · intro always rule member other otherMember rest continued
    obtain ⟨model, shared⟩ := Pack.exists_shared (tagged_of_compile compiled) member otherMember
      continued
    exact shared (always model)
  · intro apart model
    apply Pack.nodup_syntheticIds distinct
    intro rule member other otherMember _ _ _ _ rest continued _
    exact apart rule member other otherMember rest continued

theorem findings_apart_twins : ∃ compilation,
    compile .automotive (Text.asciiBytes twins) = .ok compilation ∧
      (compilation.pack.rules.map (·.category.id)).Nodup ∧
      (compilation.pack.syntheticIds
        (.ofAssets [⟨"x", "", ["automotive", "hardware"], false⟩])).Nodup := by
  obtain ⟨_, compilation, compiled, unreported, _⟩ := compile_twins
  obtain ⟨distinct, _, unmarked, _⟩ := findings_apart .automotive (Text.asciiBytes twins)
    compilation compiled (by decide) unreported
  exact ⟨compilation, compiled, distinct, unmarked _ (by decide)⟩

def twinAssets : Model :=
  .ofAssets [⟨"b@x", "", ["automotive"], false⟩, ⟨"x", "", ["automotive"], false⟩]

/-- Nothing is reported of the document, and two findings share an id. -/
theorem findings_share_id : ∃ compilation,
    compile .automotive (Text.asciiBytes twins) = .ok compilation ∧
      Template.automotive.lint.isEnabled "category_key_collision" = true ∧
      compilation.inspection.lint.ofCheck "category_key_collision" = [] ∧
      ¬(compilation.pack.syntheticIds twinAssets).Nodup := by
  obtain ⟨emitter, compilation, compiled, unreported, unchanged, rules⟩ := compile_twins
  refine ⟨compilation, compiled, by decide, unreported, fun distinct => ?_⟩
  have applies : ∀ entry : Entry, ∀ asset : Asset, asset.tags = ["automotive"] →
      asset.outOfScope = false → (emitter.rule entry).appliesTo asset = true := by
    intro entry asset tags inScope
    simp only [Rule.appliesTo, Emitter.rule, Emitter.tags, unchanged, inScope, Gate.admits, tags]
    decide
  have shortMember : emitter.rule shortTwin ∈ compilation.pack.rules := by
    rw [rules]
    exact List.mem_append_left _ List.mem_cons_self
  have longMember : emitter.rule longTwin ∈ compilation.pack.rules := by
    rw [rules]
    exact List.mem_append_left _ (List.mem_cons_of_mem _ List.mem_cons_self)
  have different : emitter.rule shortTwin ≠ emitter.rule longTwin := by
    intro same
    have identifiers : shortTwin.identifier = longTwin.identifier :=
      congrArg Rule.identifier same
    exact absurd identifiers (by decide)
  refine Pack.disjoint_syntheticIds distinct shortMember longMember different
    (Rule.mem_syntheticIds.mpr ⟨⟨"b@x", "", ["automotive"], false⟩, by decide,
      applies _ _ rfl rfl, rfl⟩)
    (Rule.mem_syntheticIds.mpr ⟨⟨"x", "", ["automotive"], false⟩, by decide,
      applies _ _ rfl rfl, ?_⟩)
  show "automotive-a" ++ "@" ++ "b@x" = "automotive-a@b" ++ "@" ++ "x"
  decide

end RiskRules
