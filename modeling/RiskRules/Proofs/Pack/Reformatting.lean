import RiskRules.Proofs.Pack.RoundTrip
import RiskRules.Proofs.Rule.Rearrangement

/-!
Packs do not depend on the layout of their files. What a pack is loaded from may be written again
with the members of any object in any order, with other white space and with strings spelled
otherwise, and the same pack is loaded.
-/

namespace RiskRules

open Json

namespace Pack

theorem impartial_decode : Impartial shape.decode := by
  apply Record.impartial_decode
  · simp only [shape, List.forall_mem_cons]
    refine ⟨?_, ?_, ?_, ?_, ?_, ?_, ?_, fun _ member => absurd member List.not_mem_nil⟩
    all_goals apply Field.isImpartial_of
    case refine_5 => exact impartial_list Rule.impartial_decode
    case refine_6 => exact impartial_list impartial_string
    all_goals exact impartial_string
  · simp only [shape, List.pairwise_cons, List.forall_mem_cons, List.not_mem_nil, false_implies,
      implies_true, List.Pairwise.nil, and_true]
    repeat' apply And.intro
    all_goals exact Field.commute_of fun _ _ _ => rfl

/-- Every text that a pack is loaded from writes a node, and every text that writes an arrangement
of this node is loaded as the same pack. -/
theorem reformatting_keeps {text : String} {pack : Pack} (loaded : load text = .ok pack) :
    (∃ node : Node, node.Writes text) ∧
      ∀ (node arranged : Node) (other : String), node.Writes text → node.Rearranges arranged →
        arranged.Writes other → load other = .ok pack := by
  obtain ⟨read, fits, hashed⟩ := load_eq_ok.mp loaded
  obtain ⟨written, alike⟩ := impartial_decode.readText_rearranged read
  refine ⟨written, ?_⟩
  intro node arranged other writes rearranges writesOther
  have readOther : ofText other = .ok pack :=
    alike node arranged other writes rearranges writesOther
  exact load_eq_ok.mpr ⟨readOther, fits, hashed⟩

/-- Every object of the other text goes from its last member to its first, so the kind of the
mitigation comes after its tags. -/
theorem reformatting_keeps_reversed :
    load sample.render = .ok sample ∧ load sample.toJson.reversed.compact = .ok sample := by
  have loaded : load sample.render = .ok sample :=
    load_render sample_titlesBuilt rfl (sealed_fits _).symm
  have exact : sample.toJson.IsExact :=
    membersExact_append sample.membersExact_contentMembers ⟨trivial, trivial⟩
  have other := (reformatting_keeps loaded).2 _ _ sample.toJson.reversed.compact
    (Value.writes_pretty exact) sample.toJson.rearranges_reversed
    (Value.writes_compact (sample.toJson.isExact_reversed exact))
  exact ⟨loaded, other⟩

end Pack

end RiskRules
