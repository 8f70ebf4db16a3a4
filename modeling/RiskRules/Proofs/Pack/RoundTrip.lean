import RiskRules.Proofs.Emission
import RiskRules.Proofs.Pack.Loading

/-!
Packs are loaded from their renderings as they are: those that fit together, among them all that
were made from a template and all that were themselves loaded.
-/

namespace RiskRules

theorem Curated.titlesBuilt : ∀ rule ∈ Curated.rules, rule.findingTitle.Built := by
  simp only [Curated.rules, List.forall_mem_cons, List.not_mem_nil, false_implies, implies_true,
    and_true]
  exact ⟨.around _ _, .around _ _, .around _ _⟩

namespace Emitter

variable {template : Template} {emitter : Emitter} {entries : List Entry} {digest : String}
  {pack : Pack}

theorem titlesBuilt_rules (accepted : ofTemplate template = .ok emitter) :
    ∀ rule ∈ emitter.rules entries, rule.findingTitle.Built := by
  obtain ⟨_, _, _, _, _, titled⟩ := ofTemplate_eq_ok.mp accepted
  intro rule member
  rcases List.mem_append.mp member with made | curated
  · obtain ⟨entry, _, rfl⟩ := List.mem_map.mp made
    exact .parsed titled
  · split at curated
    · exact Curated.titlesBuilt rule curated
    · exact absurd curated List.not_mem_nil

theorem load_render_of_emit (accepted : ofTemplate template = .ok emitter)
    (emitted : emitter.emit entries digest = .ok pack) : Pack.load pack.render = .ok pack := by
  obtain ⟨_, rfl⟩ := emit_eq_ok.mp emitted
  exact Pack.load_render (titlesBuilt_rules accepted) rfl (Pack.sealed_fits _).symm

end Emitter

namespace Pack

theorem load_render_of_load {text : String} {pack : Pack} (loaded : load text = .ok pack) :
    load pack.render = .ok pack := by
  obtain ⟨read, fits, hashed⟩ := load_eq_ok.mp loaded
  exact load_render (titlesBuilt_of_ofText read) fits hashed

/-- Writing a pack and loading it again changes nothing, and what is then written is the same
text. -/
theorem round_trip :
    (∀ pack : Pack, pack.registry = pack.rules.map Rule.identifier →
      pack.packHash = pack.computedHash → pack.TitlesBuilt → load pack.render = .ok pack) ∧
    (∀ (template : Template) (emitter : Emitter) (entries : List Entry) (digest : String)
      (pack : Pack), Emitter.ofTemplate template = .ok emitter →
      emitter.emit entries digest = .ok pack →
        load pack.render = .ok pack ∧ (load pack.render).map render = .ok pack.render) ∧
    (∀ (text : String) (pack : Pack), load text = .ok pack →
      load pack.render = .ok pack ∧ (load pack.render).map render = .ok pack.render) := by
  have stable : ∀ pack : Pack, load pack.render = .ok pack →
      load pack.render = .ok pack ∧ (load pack.render).map render = .ok pack.render :=
    fun pack loaded => ⟨loaded, by rw [loaded]; rfl⟩
  refine ⟨?_, ?_, ?_⟩
  · intro pack fits hashed built
    exact load_render built fits hashed.symm
  · intro template emitter entries digest pack accepted emitted
    exact stable pack (Emitter.load_render_of_emit accepted emitted)
  · intro text pack loaded
    exact stable pack (load_render_of_load loaded)

def sample : Pack := sealed {
  engineVersion := "1.0.0"
  templateVersion := "\x01\"\\"
  space := ""
  catalogDigest := "\n"
  rules := [Curated.inputValidation]
  registry := [Curated.inputValidation.identifier]
  packHash := "" }

theorem sample_titlesBuilt : sample.TitlesBuilt := by
  intro rule member
  cases List.mem_singleton.mp member
  exact .around _ _

theorem round_trip_sample :
    load sample.render = .ok sample ∧ (load sample.render).map render = .ok sample.render ∧
      ∃ emitter pack, Emitter.ofTemplate .automotive = .ok emitter ∧
        emitter.emit [] "" = .ok pack ∧ load pack.render = .ok pack := by
  obtain ⟨written, emitted, loaded⟩ := round_trip
  have first : load sample.render = .ok sample := written sample rfl (sealed_fits _) sample_titlesBuilt
  obtain ⟨emitter, pack, accepted, made⟩ := Emitter.exists_emit_automotive
  exact ⟨first, (loaded sample.render sample first).2, emitter, pack, accepted, made,
    (emitted .automotive emitter [] "" pack accepted made).1⟩

end Pack

end RiskRules
