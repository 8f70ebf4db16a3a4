import Mathlib.Data.List.Find
import RiskRules.Proofs.Emission
import RiskRules.Proofs.Lint

/-!
Overrides that match no rule. The check asks for each override whether an entry has its identifier,
emission for each entry which override is the first for its identifier. What the check reports is
never found by emission, so it can be removed and the pack stays the same.
-/

namespace RiskRules

def Override.IsReported (entry : Override) (diagnostics : List Diagnostic) : Prop :=
  ∃ diagnostic ∈ diagnostics, diagnostic.identifier = some entry.identifier

instance (entry : Override) (diagnostics : List Diagnostic) :
    Decidable (entry.IsReported diagnostics) :=
  inferInstanceAs (Decidable (∃ diagnostic ∈ diagnostics, _))

namespace Template

variable {template : Template} {identifier : String} {tags : List String}

def withoutReported (template : Template) (diagnostics : List Diagnostic) : Template :=
  { template with overrides := template.overrides.filter (¬·.IsReported diagnostics) }

def IsLeading (template : Template) (entry : Override) : Prop :=
  ∃ before after, template.overrides = before ++ entry :: after ∧
    ∀ other ∈ before, other.identifier ≠ entry.identifier

structure IsEffective (template : Template) (diagnostics : List Diagnostic) (entry : Override) :
    Prop where
  leading : template.IsLeading entry
  unreported : ¬entry.IsReported diagnostics
  tagged : entry.tags ≠ []

theorem IsLeading.mem {entry : Override} (leading : template.IsLeading entry) :
    entry ∈ template.overrides := by
  obtain ⟨before, after, parts, _⟩ := leading
  rw [parts]
  exact List.mem_append_right before List.mem_cons_self

theorem mitigationTags?_eq_some :
    template.mitigationTags? identifier = some tags ↔
      ∃ entry, template.IsLeading entry ∧ entry.identifier = identifier ∧ entry.tags = tags := by
  simp only [mitigationTags?, Option.map_eq_some_iff, List.find?_eq_some_iff_append,
    decide_eq_true_eq, Bool.not_eq_true', decide_eq_false_iff_not, IsLeading]
  constructor
  · rintro ⟨entry, ⟨rfl, leading⟩, same⟩
    exact ⟨entry, leading, rfl, same⟩
  · rintro ⟨entry, leading, rfl, same⟩
    exact ⟨entry, ⟨rfl, leading⟩, same⟩

/-- Overrides for other identifiers can be removed. -/
theorem mitigationTags?_withoutReported {diagnostics : List Diagnostic}
    (unreported : ∀ entry ∈ template.overrides, entry.identifier = identifier →
      ¬entry.IsReported diagnostics) :
    (template.withoutReported diagnostics).mitigationTags? identifier =
      template.mitigationTags? identifier := by
  rw [mitigationTags?, mitigationTags?, withoutReported, List.find?_filter]
  refine congrArg _ (List.find?_congr fun entry member => ?_)
  rw [Bool.eq_iff_iff]
  simp only [decide_eq_true_eq, and_iff_right_iff_imp]
  exact unreported entry member

end Template

theorem Mitigation.ofTags_of_ne_nil {tags : List String} (some : tags ≠ []) :
    ofTags tags = .anyTag tags := by
  cases tags with
  | nil => exact absurd rfl some
  | cons tag rest => rfl

namespace Lint

variable {normalization : Normalization} {template : Template}

theorem isReported_unused {entry : Override} (member : entry ∈ template.overrides) :
    entry.IsReported (diagnose normalization template .unusedOverride) ↔
      ∀ other ∈ normalization.entries, other.identifier ≠ entry.identifier := by
  have unused : ∀ other : Override, isUnused normalization other = true ↔
      ∀ entry ∈ normalization.entries, entry.identifier ≠ other.identifier := by
    simp [isUnused]
  constructor
  · rintro ⟨diagnostic, found, about⟩
    obtain ⟨reported, kept, rfl⟩ := List.mem_map.mp found
    have same : reported.identifier = entry.identifier := Option.some.inj about
    rw [← same]
    exact (unused reported).mp (List.mem_filter.mp kept).2
  · intro unmatched
    have kept := List.mem_filter.mpr ⟨member, (unused entry).mpr unmatched⟩
    exact ⟨_, List.mem_map_of_mem kept, rfl⟩

/-- The check has no more to say about what is left. -/
theorem diagnose_withoutReported :
    diagnose normalization (template.withoutReported
      (diagnose normalization template .unusedOverride)) .unusedOverride = [] := by
  rw [diagnose, unusedOverrides, List.map_eq_nil_iff, List.filter_eq_nil_iff]
  intro entry kept unused
  obtain ⟨member, unreported⟩ := List.mem_filter.mp kept
  rw [decide_eq_true_eq, isReported_unused member] at unreported
  apply unreported
  simpa [isUnused] using unused

end Lint

namespace Emitter

open Lint

section

variable {template : Template} {emitter other : Emitter} {entries : List Entry} {digest : String}
  {pack : Pack}

/-- Of the template itself a pack shows the name and the version. -/
theorem emit_congr (rules : emitter.rules entries = other.rules entries)
    (name : emitter.template.name = other.template.name)
    (version : emitter.template.version = other.template.version) :
    emitter.emit entries digest = other.emit entries digest := by
  rw [emit, emit, draft, draft, rules, name, version]

theorem take_rules_of_emit (emitted : emitter.emit entries digest = .ok pack) :
    pack.rules.take entries.length = entries.map emitter.rule := by
  have length : (entries.map emitter.rule).length = entries.length := List.length_map _
  rw [rules_of_emit emitted, rules, ← length, List.take_left]

variable {normalization : Normalization}

theorem rules_withoutReported
    (accepted : ofTemplate template = .ok emitter) :
    let pruned := template.withoutReported (diagnose normalization template .unusedOverride)
    rules { emitter with template := pruned } normalization.entries =
      emitter.rules normalization.entries := by
  obtain ⟨rfl, _⟩ := ofTemplate_eq_ok.mp accepted
  refine congrArg (· ++ _) (List.map_congr_left fun entry member => ?_)
  have tags := @Template.mitigationTags?_withoutReported emitter.template entry.identifier
    (diagnose normalization emitter.template .unusedOverride) fun override given same reported =>
      (isReported_unused given).mp reported entry member same.symm
  simp only [rule, tags]
  rfl

theorem mitigation_of_leading (accepted : ofTemplate template = .ok emitter) {override : Override}
    (leading : template.IsLeading override) (tagged : override.tags ≠ []) {entry : Entry}
    (same : override.identifier = entry.identifier) :
    (emitter.rule entry).mitigation = .anyTag override.tags := by
  obtain ⟨rfl, _⟩ := ofTemplate_eq_ok.mp accepted
  have tags := Template.mitigationTags?_eq_some.mpr ⟨override, leading, same, rfl⟩
  rw [rule, tags]
  exact Mitigation.ofTags_of_ne_nil tagged

theorem mitigation_of_untagged (accepted : ofTemplate template = .ok emitter) {entry : Entry}
    (untagged : ∀ override, template.IsLeading override →
      override.identifier = entry.identifier → override.tags = []) :
    (emitter.rule entry).mitigation = .none := by
  obtain ⟨rfl, _⟩ := ofTemplate_eq_ok.mp accepted
  rw [rule]
  cases tags : emitter.template.mitigationTags? entry.identifier with
  | none => rfl
  | some found =>
      obtain ⟨override, leading, same, rfl⟩ := Template.mitigationTags?_eq_some.mp tags
      rw [untagged override leading same]
      rfl

end

/-- Overrides that are reported as unused have no rule of the catalog. Without them the same pack is
made, its digest included, and nothing more is reported. Of the others the first one for each
identifier is, if it has tags, the mitigation of the rule with this identifier, and no other rule of
the catalog has a mitigation. -/
theorem unused_overrides_inert {template : Template} {emitter : Emitter}
    {normalization : Normalization} {digest : String} {pack : Pack}
    (accepted : ofTemplate template = .ok emitter)
    (emitted : emitter.emit normalization.entries digest = .ok pack) :
    let reported := diagnose normalization template .unusedOverride
    let pruned := template.withoutReported reported
    let catalogRules := pack.rules.take normalization.entries.length
    (∀ override ∈ template.overrides, override.IsReported reported →
      ∀ rule ∈ catalogRules, rule.identifier ≠ override.identifier) ∧
    (∃ other, ofTemplate pruned = .ok other ∧
      other.emit normalization.entries digest = .ok pack) ∧
    diagnose normalization pruned .unusedOverride = [] ∧
    (∀ override, template.IsEffective reported override →
      (∃ rule ∈ catalogRules, rule.identifier = override.identifier) ∧
      ∀ rule ∈ catalogRules, rule.identifier = override.identifier →
        rule.mitigation = .anyTag override.tags) ∧
    ∀ rule ∈ catalogRules,
      (∀ override, template.IsEffective reported override →
        override.identifier ≠ rule.identifier) → rule.mitigation = .none := by
  intro reported pruned catalogRules
  have catalog : catalogRules = normalization.entries.map emitter.rule :=
    take_rules_of_emit emitted
  rw [catalog]
  simp only [List.forall_mem_map]
  refine ⟨?_, ?_, diagnose_withoutReported, ?_, ?_⟩
  · intro override member isReported
    exact (isReported_unused member).mp isReported
  · obtain ⟨rfl, checked⟩ := ofTemplate_eq_ok.mp accepted
    refine ⟨{ emitter with template := pruned }, ofTemplate_eq_ok.mpr ⟨rfl, checked⟩, ?_⟩
    rw [← emitted]
    exact emit_congr (rules_withoutReported accepted) rfl rfl
  · rintro override ⟨leading, unreported, tagged⟩
    have matched := mt (isReported_unused leading.mem).mpr unreported
    simp only [ne_eq, not_forall, not_not] at matched
    obtain ⟨entry, member, same⟩ := matched
    exact ⟨⟨emitter.rule entry, List.mem_map_of_mem member, same⟩, fun other _ alike =>
      mitigation_of_leading accepted leading tagged alike.symm⟩
  · intro entry member none
    refine mitigation_of_untagged accepted fun override leading same => ?_
    by_contra tagged
    refine none override ⟨leading, fun isReported => ?_, tagged⟩ same
    exact (isReported_unused leading.mem).mp isReported entry member same.symm

/-- One override has no rule, one comes too late, and one has no tags. -/
def overridden : Template :=
  { Template.automotive with overrides :=
      [⟨"Z", ["shield"]⟩, ⟨"A", ["guard"]⟩, ⟨"A", ["late"]⟩, ⟨"B", []⟩] }

def twoEntries : Normalization where
  entries := [⟨"A", .name, "a", "automotive-a", "", ""⟩, ⟨"B", .name, "b", "automotive-b", "", ""⟩]
  dropped := []

theorem unused_overrides_inert_shadowed :
    let reported := diagnose twoEntries overridden .unusedOverride
    ∃ emitter pack other, ofTemplate overridden = .ok emitter ∧
      emitter.emit twoEntries.entries "" = .ok pack ∧
      (⟨"Z", ["shield"]⟩ : Override).IsReported reported ∧
      (overridden.withoutReported reported).overrides =
        [⟨"A", ["guard"]⟩, ⟨"A", ["late"]⟩, ⟨"B", []⟩] ∧
      ofTemplate (overridden.withoutReported reported) = .ok other ∧
      other.emit twoEntries.entries "" = .ok pack ∧
      overridden.IsEffective reported ⟨"A", ["guard"]⟩ ∧
      ∃ rule ∈ pack.rules.take 2, rule.identifier = "A" ∧ rule.mitigation = .anyTag ["guard"] := by
  obtain ⟨emitter, accepted⟩ : ∃ emitter, ofTemplate overridden = .ok emitter := ⟨_, rfl⟩
  obtain ⟨pack, emitted⟩ : ∃ pack, emitter.emit twoEntries.entries "" = .ok pack :=
    exists_emit_iff.mpr (nodup_rules_iff.mpr ⟨by decide, fun _ => by decide⟩)
  obtain ⟨_, ⟨other, prunedAccepted, prunedEmitted⟩, _, effective, _⟩ :=
    unused_overrides_inert accepted emitted
  have governs : overridden.IsEffective (diagnose twoEntries overridden .unusedOverride)
      ⟨"A", ["guard"]⟩ :=
    ⟨⟨[⟨"Z", ["shield"]⟩], _, rfl, by decide⟩, by decide, by decide⟩
  obtain ⟨⟨rule, member, same⟩, mitigated⟩ := effective _ governs
  exact ⟨emitter, pack, other, accepted, emitted, by decide, by decide, prunedAccepted,
    prunedEmitted, governs, rule, member, same, mitigated rule member same⟩

end Emitter

end RiskRules
