import Mathlib.Data.List.Nodup
import RiskRules.Proofs.Pack.RoundTrip

/-!
Registry keys and the rules that they lead to. Emission refuses to repeat an identifier; loading
does not look for repeats, so a sealed pack may have two rules of one identifier, and the later of
them cannot be looked up.
-/

namespace RiskRules.Pack

def LookupsExact (pack : Pack) : Prop :=
  ∀ index : Nat, pack.registry[index]?.bind pack.rule? = pack.rules[index]?

def IdentifiersApart (rules : List Rule) : Prop :=
  ∀ rule ∈ rules, ∀ other ∈ rules, rule.identifier = other.identifier → rule = other

theorem rule?_identifier {pack : Pack} {rule : Rule} (member : rule ∈ pack.rules) :
    ∃ found ∈ pack.rules, found.identifier = rule.identifier ∧
      pack.rule? rule.identifier = some found := by
  cases search : pack.rule? rule.identifier with
  | none =>
      have absent := List.find?_eq_none.mp search rule member
      simp at absent
  | some found =>
      have same := List.find?_some search
      exact ⟨found, List.mem_of_find?_eq_some search, by simpa using same, rfl⟩

theorem lookupsExact_iff {pack : Pack} (fits : pack.registry = pack.rules.map Rule.identifier) :
    pack.LookupsExact ↔ IdentifiersApart pack.rules := by
  constructor
  · intro lookups
    have found : ∀ rule ∈ pack.rules, pack.rule? rule.identifier = some rule := by
      intro rule member
      obtain ⟨index, place⟩ := List.mem_iff_getElem?.mp member
      simpa [fits, place] using lookups index
    intro rule member other otherMember same
    have lookup := found rule member
    rw [same, found other otherMember] at lookup
    exact (Option.some.inj lookup).symm
  · intro apart index
    rw [fits, List.getElem?_map]
    cases place : pack.rules[index]? with
    | none => rfl
    | some rule =>
        have member := List.mem_of_getElem? place
        obtain ⟨found, foundMember, same, lookup⟩ := rule?_identifier member
        rw [Option.map_some, Option.bind_some, lookup, apart found foundMember rule member same]

theorem identifiersApart_of_nodup {rules : List Rule}
    (distinct : (rules.map Rule.identifier).Nodup) : IdentifiersApart rules :=
  fun _ member _ otherMember same => List.inj_on_of_nodup_map distinct member otherMember same

theorem exists_load_iff (rules : List Rule) :
    (∃ text pack, load text = .ok pack ∧ pack.rules = rules) ↔
      ∀ rule ∈ rules, rule.findingTitle.Built := by
  constructor
  · rintro ⟨text, pack, loaded, rfl⟩
    exact titlesBuilt_of_ofText (load_eq_ok.mp loaded).1
  · intro built
    let pack := sealed ⟨"", "", "", "", rules, rules.map Rule.identifier, ""⟩
    have titles : pack.TitlesBuilt := built
    exact ⟨pack.render, pack, load_render titles rfl (sealed_fits _).symm, rfl⟩

/-- The keys of a loaded pack are distinct, and each leads to the rule in its own place, if and only
if no two of its rules have one identifier. Lookups alone are exact as long as no two different
rules do. That holds of every pack that was emitted, and of others it is not checked. -/
theorem registry_lookups (text : String) (pack : Pack) (loaded : load text = .ok pack) :
    (pack.registry.Nodup ∧ pack.LookupsExact ↔
      pack.rules.Pairwise fun rule other => rule.identifier ≠ other.identifier) ∧
    (pack.LookupsExact ↔ ∀ rule ∈ pack.rules, ∀ other ∈ pack.rules,
      rule.identifier = other.identifier → rule = other) ∧
    (∀ (template : Template) (emitter : Emitter) (entries : List Entry) (digest : String),
      Emitter.ofTemplate template = .ok emitter → emitter.emit entries digest = .ok pack →
        load pack.render = .ok pack ∧ pack.registry.Nodup ∧ pack.LookupsExact) := by
  have fits := (load_eq_ok.mp loaded).2.1
  have lookups : pack.registry.Nodup → pack.LookupsExact := fun distinct =>
    (lookupsExact_iff fits).mpr (identifiersApart_of_nodup (fits ▸ distinct))
  refine ⟨?_, lookupsExact_iff fits, ?_⟩
  · rw [← List.pairwise_map, ← List.nodup_iff_pairwise_ne, ← fits]
    exact ⟨fun both => both.1, fun distinct => ⟨distinct, lookups distinct⟩⟩
  · intro template emitter entries digest accepted emitted
    obtain ⟨distinct, packed⟩ := Emitter.emit_eq_ok.mp emitted
    have keys : pack.registry.Nodup := by
      rw [packed]
      exact distinct
    exact ⟨Emitter.load_render_of_emit accepted emitted, keys, lookups keys⟩

theorem registry_lookups_sample :
    load sample.render = .ok sample ∧ sample.registry.Nodup ∧ sample.LookupsExact ∧
      ∃ emitter pack, Emitter.ofTemplate .automotive = .ok emitter ∧
        emitter.emit [] "" = .ok pack ∧ pack.registry.Nodup ∧ pack.LookupsExact := by
  have loaded : load sample.render = .ok sample :=
    load_render sample_titlesBuilt rfl (sealed_fits _).symm
  obtain ⟨emitter, pack, accepted, emitted⟩ := Emitter.exists_emit_automotive
  have emittedLoaded := Emitter.load_render_of_emit accepted emitted
  obtain ⟨distinct, lookups⟩ := (registry_lookups _ _ loaded).1.mpr (by decide)
  exact ⟨loaded, distinct, lookups, emitter, pack, accepted, emitted,
    ((registry_lookups _ _ emittedLoaded).2.2 _ _ _ _ accepted emitted).2⟩

def repeated : Pack :=
  let rule := Curated.inputValidation
  sealed {
    engineVersion := "1.0.0"
    templateVersion := "1.0.0"
    space := "automotive"
    catalogDigest := ""
    rules := [rule, { rule with gate := .allTags }]
    registry := [rule.identifier, rule.identifier]
    packHash := "" }

theorem repeated_titlesBuilt : repeated.TitlesBuilt := by
  intro rule member
  rcases List.mem_cons.mp member with rfl | second
  · exact .around _ _
  · cases List.mem_singleton.mp second
    exact .around _ _

theorem registry_repeats :
    load repeated.render = .ok repeated ∧ ¬repeated.registry.Nodup ∧
      repeated.registry[1]?.bind repeated.rule? ≠ repeated.rules[1]? := by
  refine ⟨load_render repeated_titlesBuilt rfl (sealed_fits _).symm, by decide, ?_⟩
  intro same
  have gates := congrArg (Option.map Rule.gate) same
  exact absurd gates (by decide)

end RiskRules.Pack
