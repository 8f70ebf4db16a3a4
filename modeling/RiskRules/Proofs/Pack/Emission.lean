import RiskRules.Proofs.Pack.Registry

/-!
Emission of packs from any entries, those included that no catalog gives. Each entry has a rule of
its own, which no other entry changes, and a pack is refused only for the first identifier to come
again.
-/

namespace RiskRules.Emitter

variable {emitter : Emitter} {entries : List Entry} {digest : String} {pack : Pack}

theorem getElem?_rules {index : Nat} {entry : Entry} (place : entries[index]? = some entry) :
    (emitter.rules entries)[index]? = some (emitter.rule entry) := by
  obtain ⟨within, _⟩ := List.getElem?_eq_some_iff.mp place
  rw [rules, List.getElem?_append_left (by rwa [List.length_map]), List.getElem?_map, place]
  rfl

/-- Entries that can be emitted together can be emitted alone. -/
theorem exists_emit_singleton (emitted : emitter.emit entries digest = .ok pack) {entry : Entry}
    (member : entry ∈ entries) : ∃ alone, emitter.emit [entry] digest = .ok alone := by
  obtain ⟨_, unclashing⟩ := nodup_rules_iff.mp (emit_eq_ok.mp emitted).1
  refine exists_emit_iff.mpr (nodup_rules_iff.mpr ⟨List.nodup_singleton _, ?_⟩)
  intro included other same
  rw [List.mem_singleton.mp same]
  exact unclashing included entry member

/-- A pack is made exactly when no identifier comes twice, among the entries and, with the curated
rules, between the two. Otherwise the first rule to repeat an earlier one is named. A pack that is
made has the rule of each entry, the same as if it were the only entry, and the curated rules behind
them; its keys are distinct and lead to the rules in their own places, and it is sealed. -/
theorem emission_exact (template : Template) (emitter : Emitter) (entries : List Entry)
    (digest : String) (accepted : ofTemplate template = .ok emitter) :
    let curated := if template.includeCurated then Curated.rules else []
    ((∃ pack, emitter.emit entries digest = .ok pack) ↔
      (entries.map Entry.identifier).Nodup ∧ (template.includeCurated = true →
        ∀ entry ∈ entries, ∀ rule ∈ Curated.rules, entry.identifier ≠ rule.identifier)) ∧
    (∀ error, emitter.emit entries digest = .error error ↔
      ∃ earlier rule later, entries.map emitter.rule ++ curated = earlier ++ rule :: later ∧
        (earlier.map Rule.identifier).Nodup ∧ rule.identifier ∈ earlier.map Rule.identifier ∧
        error = .duplicateIdentifier rule.identifier) ∧
    ∀ pack, emitter.emit entries digest = .ok pack →
      pack.rules = entries.map emitter.rule ++ curated ∧
      (∀ (index : Nat) (entry : Entry), entries[index]? = some entry →
        pack.rules[index]? = some (emitter.rule entry) ∧
        ∃ alone, emitter.emit [entry] digest = .ok alone ∧
          alone.rules[0]? = pack.rules[index]?) ∧
      pack.registry = pack.rules.map Rule.identifier ∧ pack.registry.Nodup ∧
      pack.LookupsExact ∧ pack.packHash = pack.computedHash := by
  obtain ⟨rfl, _⟩ := ofTemplate_eq_ok.mp accepted
  refine ⟨exists_emit_iff.trans nodup_rules_iff, fun error => emit_eq_error, ?_⟩
  intro pack emitted
  have rules := rules_of_emit emitted
  have fits := registry_of_emit emitted
  have distinct : (pack.rules.map Rule.identifier).Nodup := by
    rw [rules]
    exact (emit_eq_ok.mp emitted).1
  refine ⟨rules, ?_, fits, fits ▸ distinct,
    (Pack.lookupsExact_iff fits).mpr (Pack.identifiersApart_of_nodup distinct),
    packHash_of_emit emitted⟩
  intro index entry place
  obtain ⟨alone, single⟩ := exists_emit_singleton emitted (List.mem_of_getElem? place)
  have own : pack.rules[index]? = some (emitter.rule entry) := by
    rw [rules]
    exact getElem?_rules place
  refine ⟨own, alone, single, ?_⟩
  rw [own, rules_of_emit single]
  exact getElem?_rules rfl

def plain : Entry :=
  ⟨"A", .name, "a", "automotive-a", "A", ""⟩

def namedLikeCurated : Entry :=
  { plain with identifier := Curated.inputValidation.identifier }

theorem emission_exact_automotive : ∃ emitter, ofTemplate .automotive = .ok emitter ∧
    (∃ pack, emitter.emit [plain] "" = .ok pack ∧ pack.registry.Nodup ∧
      pack.rules = emitter.rule plain :: Curated.rules) ∧
    emitter.emit [plain, plain] "" = .error (.duplicateIdentifier "A") ∧
    emitter.emit [plain, namedLikeCurated] "" =
      .error (.duplicateIdentifier "curated/MissingInputValidation") := by
  obtain ⟨emitter, accepted⟩ := exists_automotive
  refine ⟨emitter, accepted, ?_, ?_, ?_⟩
  · obtain ⟨made, _, content⟩ := emission_exact .automotive emitter [plain] "" accepted
    obtain ⟨pack, emitted⟩ := made.mpr ⟨List.nodup_singleton _, fun _ => by decide⟩
    obtain ⟨rules, _, _, distinct, _, _⟩ := content pack emitted
    exact ⟨pack, emitted, distinct, rules⟩
  · obtain ⟨_, refused, _⟩ := emission_exact .automotive emitter [plain, plain] "" accepted
    exact (refused _).mpr ⟨[emitter.rule plain], emitter.rule plain, Curated.rules, rfl,
      List.nodup_singleton _, List.mem_cons_self, rfl⟩
  · obtain ⟨_, refused, _⟩ :=
      emission_exact .automotive emitter [plain, namedLikeCurated] "" accepted
    let earlier := [emitter.rule plain, emitter.rule namedLikeCurated, Curated.debugPort,
      Curated.socIsolation]
    have identifiers : earlier.map Rule.identifier = ["A", "curated/MissingInputValidation",
      "curated/UnsecuredHardwareDebugPort", "curated/ImproperSoCIsolation"] := rfl
    exact (refused _).mpr ⟨earlier, Curated.inputValidation, [], rfl,
      by rw [identifiers]; decide, by rw [identifiers]; decide, rfl⟩

end RiskRules.Emitter
