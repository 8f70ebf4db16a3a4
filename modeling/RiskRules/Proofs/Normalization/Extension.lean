import RiskRules.Proofs.Compilation.Outcome
import RiskRules.Proofs.Normalization.Positions

/-!
Catalogs that grow. Groups at the end of a catalog add entries behind those that are there and
change none of them, so the rules made of a catalog stay where they are. What group a class is in
shows in its entry and nowhere in its rule.
-/

namespace RiskRules

variable {space : String} {taken : List String} {classes : List (String × ThreatClass)}

namespace Normalization

/-- What matters of the identifiers that are taken is which ones they are. -/
theorem ofClasses_congr {other : List String}
    (same : ∀ identifier, identifier ∈ taken ↔ identifier ∈ other) :
    ofClasses space taken classes = ofClasses space other classes := by
  simp only [ofClasses_eq_selected, same]

theorem ofClasses_append (more : List (String × ThreatClass)) :
    ofClasses space taken (classes ++ more) = {
      entries := (ofClasses space taken classes).entries ++
        (ofClasses space ((ofClasses space taken classes).entries.map Entry.identifier ++ taken)
          more).entries
      dropped := (ofClasses space taken classes).dropped ++
        (ofClasses space ((ofClasses space taken classes).entries.map Entry.identifier ++ taken)
          more).dropped } := by
  induction classes generalizing taken with
  | nil => rfl
  | cons first classes ih =>
      obtain ⟨group, threat⟩ := first
      rw [List.cons_append]
      by_cases owned : threat.candidate.1 ∈ taken
      · rw [ofClasses_taken owned, ofClasses_taken owned, ih]
        rfl
      · rw [ofClasses_fresh owned, ofClasses_fresh owned, ih]
        rw [ofClasses_congr fun identifier => List.perm_middle.mem_iff]
        rfl

/-- With more identifiers taken, the same entries are made except those that have them. -/
theorem entries_of_owned (owned : List String) :
    (ofClasses space (owned ++ taken) classes).entries =
      (ofClasses space taken classes).entries.filter (·.identifier ∉ owned) := by
  induction classes generalizing taken with
  | nil => rfl
  | cons first classes ih =>
      obtain ⟨group, threat⟩ := first
      by_cases before : threat.candidate.1 ∈ taken
      · rw [ofClasses_taken before, ofClasses_taken (List.mem_append_right owned before)]
        exact ih
      · have later := @ih (threat.candidate.1 :: taken)
        rw [ofClasses_congr fun identifier => List.perm_middle.mem_iff] at later
        rw [ofClasses_fresh before, List.filter_cons]
        by_cases kept : threat.candidate.1 ∈ owned
        · have known : threat.candidate.1 ∈ owned ++ taken := List.mem_append_left taken kept
          have same : ∀ identifier, identifier ∈ threat.candidate.1 :: (owned ++ taken) ↔
              identifier ∈ owned ++ taken := by
            intro identifier
            rw [List.mem_cons]
            exact or_iff_right_of_imp fun equal => equal ▸ known
          rw [ofClasses_congr same] at later
          rw [ofClasses_taken known]
          simpa [Entry.ofClass, kept] using later
        · rw [ofClasses_fresh (by simp [before, kept])]
          simpa [Entry.ofClass, kept] using later

theorem flatten_append (base more : List Group) :
    flatten (base ++ more) = flatten base ++ flatten more :=
  List.flatMap_append

theorem map_snd_flatten (groups : List Group) :
    (flatten groups).map Prod.snd = groups.flatMap Group.classes := by
  simp [flatten, List.map_flatMap, Function.comp_def]

theorem entries_append (base more : List Group) :
    (ofGroups space (base ++ more)).entries =
      (ofGroups space base).entries ++ (ofGroups space more).entries.filter
        (·.identifier ∉ (ofGroups space base).entries.map Entry.identifier) := by
  rw [ofGroups, flatten_append, ofClasses_append, entries_of_owned]
  rfl

theorem dropped_prefix (base more : List Group) :
    (ofGroups space base).dropped <+: (ofGroups space (base ++ more)).dropped := by
  rw [ofGroups, ofGroups, flatten_append, ofClasses_append]
  exact List.prefix_append _ _

end Normalization

namespace Emitter

variable (emitter : Emitter)

/-- Rules depend on the classes and not on their groups. -/
theorem map_rule_congr {others : List (String × ThreatClass)}
    (same : classes.map Prod.snd = others.map Prod.snd) :
    (Normalization.ofClasses space taken classes).entries.map emitter.rule =
      (Normalization.ofClasses space taken others).entries.map emitter.rule := by
  induction classes generalizing taken others with
  | nil => rw [List.map_eq_nil_iff.mp same.symm]
  | cons first classes ih =>
      cases others with
      | nil => cases same
      | cons second others =>
          obtain ⟨group, threat⟩ := first
          obtain ⟨name, other⟩ := second
          rw [List.map_cons, List.map_cons, List.cons.injEq] at same
          obtain ⟨rfl, rest⟩ := same
          by_cases owned : threat.candidate.1 ∈ taken
          · rw [Normalization.ofClasses_taken owned, Normalization.ofClasses_taken owned]
            exact ih rest
          · rw [Normalization.ofClasses_fresh owned, Normalization.ofClasses_fresh owned,
              List.map_cons, List.map_cons, ih rest]
            rfl

def curated (template : Template) : List Rule :=
  if template.includeCurated then Curated.rules else []

theorem exists_emit_ofGroups {template : Template} {emitter : Emitter}
    (accepted : ofTemplate template = .ok emitter) (space : String) (groups : List Group)
    (digest : String) :
    ∃ pack, emitter.emit (Normalization.ofGroups space groups).entries digest = .ok pack ∧
      pack.rules =
        (Normalization.ofGroups space groups).entries.map emitter.rule ++ curated template ∧
      pack.registry = (Normalization.ofGroups space groups).entries.map Entry.identifier ++
        (curated template).map Rule.identifier := by
  obtain ⟨rfl, _⟩ := ofTemplate_eq_ok.mp accepted
  refine ⟨_, emit_ofGroups emitter space groups digest, rfl, ?_⟩
  change (emitter.rules _).map Rule.identifier = _
  rw [rules, List.map_append, List.map_map]
  rfl

end Emitter

namespace Normalization

/-- Groups that are added to a catalog add entries for the identifiers that are new, and rules
between the rules of the catalog and the curated ones; nothing that was there changes or moves. How
classes are divided into groups has no part in the rules. -/
theorem extension_stable (template : Template) (emitter : Emitter)
    (accepted : Emitter.ofTemplate template = .ok emitter) :
    (∀ space base more, ∃ added : List Entry,
      added = (ofGroups space more).entries.filter
        (·.identifier ∉ (ofGroups space base).entries.map Entry.identifier) ∧
      (ofGroups space (base ++ more)).entries = (ofGroups space base).entries ++ added ∧
      (ofGroups space base).dropped <+: (ofGroups space (base ++ more)).dropped ∧
      ∀ digest extendedDigest, ∃ pack extended,
        emitter.emit (ofGroups space base).entries digest = .ok pack ∧
        emitter.emit (ofGroups space (base ++ more)).entries extendedDigest = .ok extended ∧
        pack.rules =
          (ofGroups space base).entries.map emitter.rule ++ Emitter.curated template ∧
        extended.rules = (ofGroups space base).entries.map emitter.rule ++
          added.map emitter.rule ++ Emitter.curated template ∧
        pack.registry = (ofGroups space base).entries.map Entry.identifier ++
          (Emitter.curated template).map Rule.identifier ∧
        extended.registry = (ofGroups space base).entries.map Entry.identifier ++
          added.map Entry.identifier ++ (Emitter.curated template).map Rule.identifier) ∧
    ∀ space left right, left.flatMap Group.classes = right.flatMap Group.classes →
      ∀ digest otherDigest, ∃ pack other,
        emitter.emit (ofGroups space left).entries digest = .ok pack ∧
        emitter.emit (ofGroups space right).entries otherDigest = .ok other ∧
        pack.rules = other.rules ∧ pack.registry = other.registry := by
  constructor
  · intro space base more
    refine ⟨_, rfl, entries_append base more, dropped_prefix base more, ?_⟩
    intro digest extendedDigest
    obtain ⟨pack, emitted, rules, registry⟩ :=
      Emitter.exists_emit_ofGroups accepted space base digest
    obtain ⟨extended, extendedEmitted, extendedRules, extendedRegistry⟩ :=
      Emitter.exists_emit_ofGroups accepted space (base ++ more) extendedDigest
    rw [entries_append, List.map_append] at extendedRules extendedRegistry
    exact ⟨pack, extended, emitted, extendedEmitted, rules, extendedRules, registry,
      extendedRegistry⟩
  · intro space left right same digest otherDigest
    obtain ⟨pack, emitted, rules, registry⟩ :=
      Emitter.exists_emit_ofGroups accepted space left digest
    obtain ⟨other, otherEmitted, otherRules, otherRegistry⟩ :=
      Emitter.exists_emit_ofGroups accepted space right otherDigest
    have catalog : (ofGroups space left).entries.map emitter.rule =
        (ofGroups space right).entries.map emitter.rule := by
      apply Emitter.map_rule_congr
      rw [map_snd_flatten, map_snd_flatten, same]
    -- The identifier of an entry is that of its rule.
    have identifiers := congrArg (List.map Rule.identifier) catalog
    rw [List.map_map, List.map_map] at identifiers
    refine ⟨pack, other, emitted, otherEmitted, ?_, ?_⟩
    · rw [rules, otherRules, catalog]
    · rw [registry, otherRegistry]
      exact congrArg (· ++ _) identifiers

/-- The second group adds a rule for one of its two classes, and it may as well be part of the
first. -/
theorem extension_stable_late : ∃ emitter extended merged,
    Emitter.ofTemplate .automotive = .ok emitter ∧
      emitter.emit (ofGroups "ns" lateGroups).entries "" = .ok extended ∧
      extended.registry = ["A", ""] ++ Curated.rules.map Rule.identifier ∧
      emitter.emit (ofGroups "ns" [⟨"", lateGroups.flatMap Group.classes⟩]).entries "" =
        .ok merged ∧
      merged.rules = extended.rules := by
  obtain ⟨emitter, accepted⟩ := Emitter.exists_automotive
  obtain ⟨extension, regrouping⟩ := extension_stable .automotive emitter accepted
  obtain ⟨added, new, _, _, packs⟩ := extension "ns" (lateGroups.take 1) (lateGroups.drop 1)
  obtain ⟨_, extended, _, emitted, _, _, _, registry⟩ := packs "" ""
  obtain ⟨other, merged, otherEmitted, mergedEmitted, rules, _⟩ :=
    regrouping "ns" lateGroups [⟨"", lateGroups.flatMap Group.classes⟩] rfl "" ""
  obtain rfl : other = extended := Except.ok.inj (otherEmitted.symm.trans emitted)
  refine ⟨emitter, other, merged, accepted, emitted, ?_, mergedEmitted, rules.symm⟩
  rw [registry, new]
  decide

end Normalization

end RiskRules
