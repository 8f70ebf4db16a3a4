import Mathlib.Data.List.Nodup
import Mathlib.Data.List.Pairwise
import RiskRules.Pack
import RiskRules.Proofs.Rule.Reporting

/-!
Findings and their synthetic ids. An id is a category id and a component id with `@` between them,
and both may themselves hold that character, so distinct category ids do not make the ids distinct.
What keeps them apart is that no category id is another one that goes on after an `@`.
-/

namespace RiskRules

/-! ### Joined ids -/

theorem joined_of_continued {left right first second : String} {more : List Char}
    (longer : left.toList = right.toList ++ more)
    (others : '@' :: second.toList = more ++ '@' :: first.toList) :
    left = right ∧ first = second ∨
      ∃ rest, left = right ++ "@" ++ rest ∧ second = rest ++ "@" ++ first := by
  cases more with
  | nil =>
      simp only [List.nil_append, List.cons.injEq, true_and, List.append_nil] at longer others
      exact Or.inl ⟨String.toList_inj.mp longer, (String.toList_inj.mp others).symm⟩
  | cons mark rest =>
      simp only [List.cons_append, List.cons.injEq] at others
      obtain ⟨rfl, others⟩ := others
      refine Or.inr ⟨String.ofList rest, String.toList_inj.mp ?_, String.toList_inj.mp ?_⟩
      · simp [longer]
      · simp [others]

/-- Two texts with an `@` between them can be split in two ways only if one of the first parts goes
on where the other ends. -/
theorem joined_eq_iff {left right first second : String} :
    left ++ "@" ++ first = right ++ "@" ++ second ↔
      left = right ∧ first = second ∨
      (∃ rest, left = right ++ "@" ++ rest ∧ second = rest ++ "@" ++ first) ∨
      ∃ rest, right = left ++ "@" ++ rest ∧ first = rest ++ "@" ++ second := by
  constructor
  · intro same
    have chars : left.toList ++ '@' :: first.toList = right.toList ++ '@' :: second.toList := by
      simpa using congrArg String.toList same
    -- One first part is the other one and `more`; either that is empty or it starts with the mark.
    rcases List.append_eq_append_iff.mp chars with ⟨more, longer, others⟩ | ⟨more, longer, others⟩
    · rcases joined_of_continued longer others with ⟨rfl, rfl⟩ | continued
      · exact Or.inl ⟨rfl, rfl⟩
      · exact Or.inr (Or.inr continued)
    · rcases joined_of_continued longer others with both | continued
      · exact Or.inl both
      · exact Or.inr (Or.inl continued)
  · rintro (⟨rfl, rfl⟩ | ⟨rest, rfl, rfl⟩ | ⟨rest, rfl, rfl⟩)
    · rfl
    · simp [String.append_assoc]
    · simp [String.append_assoc]

/-! ### Synthetic ids -/

def Rule.syntheticIds (rule : Rule) (model : Model) : List String :=
  (rule.findings model).map (·.syntheticId)

theorem Rule.mem_syntheticIds {rule : Rule} {model : Model} {id : String} :
    id ∈ rule.syntheticIds model ↔ ∃ asset ∈ model.assets, rule.appliesTo asset = true ∧
      id = rule.category.id ++ "@" ++ asset.id := by
  simp only [syntheticIds, findings, List.map_map, List.mem_map, List.mem_filter, and_assoc,
    eq_comm (a := id)]
  rfl

theorem Rule.nodup_syntheticIds (rule : Rule) (model : Model) :
    (rule.syntheticIds model).Nodup := by
  rw [syntheticIds, findings, List.map_map, List.nodup_iff_pairwise_ne, List.pairwise_map]
  apply (model.ascending.filter _).imp
  intro asset second less same
  have ids : asset.id = second.id := by simpa [findingFor] using same
  exact String.lt_irrefl _ (ids ▸ less)

namespace Pack

variable {pack : Pack} {model : Model}

def syntheticIds (pack : Pack) (model : Model) : List String :=
  (pack.evaluate model).flatMap fun entry => entry.2.map (·.syntheticId)

theorem syntheticIds_eq : pack.syntheticIds model = pack.rules.flatMap (·.syntheticIds model) := by
  rw [syntheticIds, evaluate, List.flatMap_map]
  rfl

theorem nodup_syntheticIds (distinct : (pack.rules.map (·.category.id)).Nodup)
    (apart : ∀ rule ∈ pack.rules, ∀ other ∈ pack.rules, ∀ asset ∈ model.assets,
      ∀ second ∈ model.assets, ∀ rest, rule.category.id = other.category.id ++ "@" ++ rest →
        second.id ≠ rest ++ "@" ++ asset.id) :
    (pack.syntheticIds model).Nodup := by
  rw [syntheticIds_eq, List.nodup_flatMap]
  refine ⟨fun rule _ => rule.nodup_syntheticIds model, ?_⟩
  rw [List.nodup_iff_pairwise_ne, List.pairwise_map] at distinct
  apply distinct.imp_of_mem
  intro rule other member otherMember different id ofRule ofOther
  obtain ⟨asset, present, _, rfl⟩ := Rule.mem_syntheticIds.mp ofRule
  obtain ⟨second, otherPresent, _, same⟩ := Rule.mem_syntheticIds.mp ofOther
  rcases joined_eq_iff.mp same with ⟨ids, _⟩ | ⟨rest, ids, others⟩ | ⟨rest, ids, others⟩
  · exact different ids
  · exact apart rule member other otherMember asset present second otherPresent rest ids others
  · exact apart other otherMember rule member second otherPresent asset present rest ids others

theorem disjoint_syntheticIds (distinct : (pack.syntheticIds model).Nodup) {rule other : Rule}
    (member : rule ∈ pack.rules) (otherMember : other ∈ pack.rules) (different : rule ≠ other) :
    (rule.syntheticIds model).Disjoint (other.syntheticIds model) := by
  rw [syntheticIds_eq, List.nodup_flatMap] at distinct
  have symmetric : Std.Symm (Function.onFun List.Disjoint (·.syntheticIds model : Rule → _)) :=
    ⟨fun _ _ apart _ inSecond inFirst => apart inFirst inSecond⟩
  exact distinct.2.forall member otherMember different

def bait (rule other : Rule) (id : String) : Asset :=
  ⟨id, "", rule.supportedTags.tags ++ other.supportedTags.tags, false⟩

theorem appliesTo_bait {rule other : Rule} {id : String}
    (tagged : rule.supportedTags.tags ≠ []) (otherTagged : other.supportedTags.tags ≠ []) :
    rule.appliesTo (bait rule other id) = true ∧ other.appliesTo (bait rule other id) = true := by
  simp only [Rule.appliesTo, bait, Bool.not_false, Bool.true_and]
  exact ⟨Gate.admits_of_subset tagged fun tag found => List.mem_append_left _ found,
    Gate.admits_of_subset otherTagged fun tag found => List.mem_append_right _ found⟩

theorem empty_lt_append_at (rest : String) : "" < rest ++ "@" := by
  rw [String.lt_iff]
  cases chars : (rest ++ "@").toList with
  | nil => simp at chars
  | cons first others => exact List.nil_lt_cons first others

/-- If a category id continues another one, there is a model on which ids are shared. -/
theorem exists_shared (tagged : ∀ rule ∈ pack.rules, rule.supportedTags.tags ≠ [])
    {rule other : Rule} (member : rule ∈ pack.rules) (otherMember : other ∈ pack.rules)
    {rest : String} (ids : rule.category.id = other.category.id ++ "@" ++ rest) :
    ∃ model, ¬(pack.syntheticIds model).Nodup := by
  have different : rule ≠ other := by
    rintro rfl
    have lengths := congrArg String.length ids
    have mark : "@".length = 1 := rfl
    simp only [String.length_append] at lengths
    omega
  have applies := fun id => @appliesTo_bait rule other id (tagged rule member)
    (tagged other otherMember)
  let model : Model := ⟨[bait rule other "", bait rule other (rest ++ "@")],
    by simpa [bait] using empty_lt_append_at rest⟩
  refine ⟨model, fun distinct => ?_⟩
  -- Both rules make the id of `rule` with nothing after its mark.
  refine disjoint_syntheticIds distinct member otherMember different
    (Rule.mem_syntheticIds.mpr ⟨_, List.mem_cons_self, (applies _).1, rfl⟩)
    (Rule.mem_syntheticIds.mpr ⟨_, List.mem_cons_of_mem _ List.mem_cons_self, (applies _).2, ?_⟩)
  simp [bait, ids, String.append_assoc]

end Pack

end RiskRules
