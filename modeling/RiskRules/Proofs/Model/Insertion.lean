import Mathlib.Data.List.Induction
import Mathlib.Data.List.Sort
import RiskRules.Proofs.Rule.Reporting

/-!
Models as they are built, asset by asset. Of all assets with one id only the last one is left, so
neither the order of the others nor the way in which they came can be told from a model.
-/

namespace RiskRules

def Asset.IsLastIn (asset : Asset) (assets : List Asset) : Prop :=
  ∃ before after, assets = before ++ asset :: after ∧ ∀ later ∈ after, later.id ≠ asset.id

theorem Asset.isLastIn_concat {asset last : Asset} {assets : List Asset} :
    asset.IsLastIn (assets ++ [last]) ↔
      asset = last ∨ asset.IsLastIn assets ∧ asset.id ≠ last.id := by
  constructor
  · rintro ⟨before, after, parts, unrepeated⟩
    rcases List.eq_nil_or_concat after with rfl | ⟨others, final, rfl⟩
    · obtain ⟨_, same⟩ := List.append_inj' parts rfl
      exact Or.inl (List.singleton_inj.mp same).symm
    · rw [List.concat_eq_append] at parts unrepeated
      rw [← List.cons_append, ← List.append_assoc] at parts
      obtain ⟨rfl, same⟩ := List.append_inj' parts rfl
      obtain rfl := List.singleton_inj.mp same
      refine Or.inr ⟨⟨before, others, rfl, ?_⟩, ?_⟩
      · exact fun later member => unrepeated later (List.mem_append_left _ member)
      · exact (unrepeated last (List.mem_append_right _ List.mem_cons_self)).symm
  · rintro (rfl | ⟨⟨before, after, rfl, unrepeated⟩, different⟩)
    · exact ⟨assets, [], rfl, fun _ member => absurd member List.not_mem_nil⟩
    · refine ⟨before, after ++ [last], by simp, ?_⟩
      intro later member
      rcases List.mem_append.mp member with earlier | final
      · exact unrepeated later earlier
      · rw [List.mem_singleton.mp final]
        exact different.symm

/-- Where ids do not repeat, every asset is the last one with its id. -/
theorem Asset.isLastIn_of_nodup {asset : Asset} {assets : List Asset}
    (distinct : (assets.map Asset.id).Nodup) : asset.IsLastIn assets ↔ asset ∈ assets := by
  constructor
  · rintro ⟨before, after, rfl, _⟩
    exact List.mem_append_right before List.mem_cons_self
  · intro member
    obtain ⟨before, after, rfl⟩ := List.append_of_mem member
    refine ⟨before, after, rfl, ?_⟩
    rw [List.map_append, List.map_cons] at distinct
    obtain ⟨absent, _⟩ := List.nodup_cons.mp (List.nodup_append.mp distinct).2.1
    exact fun later isLater same => absent (List.mem_map.mpr ⟨later, isLater, same⟩)

namespace Model

/-! ### One insertion -/

theorem filter_insertAsset (asset : Asset) (assets : List Asset) :
    (insertAsset asset assets).filter (·.id ≠ asset.id) = assets.filter (·.id ≠ asset.id) := by
  induction assets with
  | nil => simp [insertAsset]
  | cons first rest ih =>
      rw [insertAsset]
      split
      next less => simp
      next =>
        split
        next same => simp [same]
        next different => rw [List.filter_cons, List.filter_cons, ih]

theorem mem_insertAsset_self (asset : Asset) (assets : List Asset) :
    asset ∈ insertAsset asset assets := by
  induction assets with
  | nil => exact List.mem_cons_self
  | cons first rest ih =>
      rw [insertAsset]
      split
      next less => exact List.mem_cons_self
      next =>
        split
        next same => exact List.mem_cons_self
        next different => exact List.mem_cons_of_mem first ih

theorem mem_assets_insert {model : Model} {asset other : Asset} :
    other ∈ (model.insert asset).assets ↔
      other = asset ∨ other ∈ model.assets ∧ other.id ≠ asset.id := by
  have inserted : asset ∈ (model.insert asset).assets := mem_insertAsset_self asset model.assets
  by_cases same : other.id = asset.id
  · simp only [same, ne_eq, not_true_eq_false, and_false, or_false]
    constructor
    · exact fun member => eq_of_id member inserted same
    · rintro rfl
      exact inserted
  · have kept : other ∈ (model.insert asset).assets ↔ other ∈ model.assets := by
      have filtered := congrArg (other ∈ ·) (filter_insertAsset asset model.assets)
      simpa [List.mem_filter, same, Model.insert] using filtered
    have different : other ≠ asset := fun equal => same (congrArg Asset.id equal)
    simp [kept, different, same]

/-! ### A run of insertions -/

theorem foldl_insert_ofAssets (first inserted : List Asset) :
    inserted.foldl insert (ofAssets first) = ofAssets (first ++ inserted) :=
  List.foldl_append.symm

/-- The assets of a model are the last ones with their ids among those that it is built from. -/
theorem mem_assets_ofAssets {assets : List Asset} {asset : Asset} :
    asset ∈ (ofAssets assets).assets ↔ asset.IsLastIn assets := by
  induction assets using List.reverseRecOn with
  | nil =>
      refine iff_of_false List.not_mem_nil ?_
      rintro ⟨before, after, parts, _⟩
      simp at parts
  | append_singleton assets last ih =>
      have inserted : ofAssets (assets ++ [last]) = (ofAssets assets).insert last :=
        (foldl_insert_ofAssets assets [last]).symm
      rw [inserted, mem_assets_insert, Asset.isLastIn_concat, ih]

theorem eq_of_mem_iff {model second : Model}
    (same : ∀ asset, asset ∈ model.assets ↔ asset ∈ second.assets) : model = second := by
  let precedes : Asset → Asset → Prop := fun asset later => asset.id < later.id
  have irreflexive : Std.Irrefl precedes := ⟨fun asset => String.lt_irrefl asset.id⟩
  have antisymmetric : Std.Antisymm precedes :=
    ⟨fun _ _ less greater => absurd greater (String.lt_asymm less)⟩
  cases model with
  | mk assets ascending =>
      cases second with
      | mk others alsoAscending =>
          obtain rfl : assets = others :=
            List.Pairwise.eq_of_mem_iff (r := precedes) ascending alsoAscending same
          rfl

theorem ofAssets_eq_iff {assets others : List Asset} :
    ofAssets assets = ofAssets others ↔
      ∀ asset : Asset, asset.IsLastIn assets ↔ asset.IsLastIn others := by
  simp only [← mem_assets_ofAssets]
  exact ⟨fun same asset => same ▸ Iff.rfl, eq_of_mem_iff⟩

end Model

theorem Rule.findings_insert (rule : Rule) (model : Model) (asset : Asset) :
    (rule.findings (model.insert asset)).filter (·.componentId ≠ asset.id) =
      (rule.findings model).filter (·.componentId ≠ asset.id) := by
  have located : ((fun finding => decide (finding.componentId ≠ asset.id)) ∘ rule.findingFor) =
      fun second => decide (second.id ≠ asset.id) := rfl
  rw [findings, findings, List.filter_map, List.filter_map, located, List.filter_comm,
    List.filter_comm _ _ model.assets, Model.insert, Model.filter_insertAsset]

/-- A model depends on nothing but the last asset with each id, however its assets came into it: its
ids are those of these assets, each once and in the order of their bytes, each leads to its asset,
and every rule reports the same of it. Where ids do not repeat the order does not count at all. One
more asset changes no finding about another one. -/
theorem Model.last_asset_counts :
    (∀ first inserted other added : List Asset,
      (∀ asset : Asset, asset.IsLastIn (first ++ inserted) ↔ asset.IsLastIn (other ++ added)) →
        let model := inserted.foldl insert (ofAssets first)
        let second := added.foldl insert (ofAssets other)
        model.ids = second.ids ∧
        (model.ids.Pairwise fun id later => Text.encodeUtf8 id < Text.encodeUtf8 later) ∧
        model.ids.Nodup ∧
        (∀ id asset, model.find? id = some asset ↔
          asset.IsLastIn (first ++ inserted) ∧ asset.id = id) ∧
        (∀ id, model.find? id = second.find? id) ∧
        ∀ rule : Rule, rule.findings model = rule.findings second) ∧
    (∀ assets others : List Asset, assets.Perm others → (assets.map Asset.id).Nodup →
      ∀ asset : Asset, asset.IsLastIn assets ↔ asset.IsLastIn others) ∧
    ∀ (model : Model) (asset : Asset) (rule : Rule),
      (rule.findings (model.insert asset)).filter (·.componentId ≠ asset.id) =
        (rule.findings model).filter (·.componentId ≠ asset.id) := by
  refine ⟨?_, ?_, fun model asset rule => rule.findings_insert model asset⟩
  · intro first inserted other added same model second
    have built : model = ofAssets (first ++ inserted) := foldl_insert_ofAssets first inserted
    have equal : model = second := by
      rw [built, ofAssets_eq_iff.mpr same]
      exact (foldl_insert_ofAssets other added).symm
    refine ⟨by rw [equal], List.pairwise_map.mpr model.bytes_ascending, model.nodup_ids, ?_,
      fun id => by rw [equal], fun rule => by rw [equal]⟩
    intro id asset
    rw [find?_eq_some, built, mem_assets_ofAssets]
  · intro assets others permuted distinct asset
    have alsoDistinct := (permuted.map Asset.id).nodup_iff.mp distinct
    rw [Asset.isLastIn_of_nodup distinct, Asset.isLastIn_of_nodup alsoDistinct, permuted.mem_iff]

def Rule.retired : Asset :=
  { controlUnit with outOfScope := true }

theorem Model.last_asset_counts_retired :
    let model := insert (ofAssets [Rule.controlUnit, Rule.gateway]) Rule.retired
    let second := ofAssets [Rule.retired, Rule.gateway]
    model.ids = second.ids ∧ model.find? "ecu" = some Rule.retired ∧
      (∀ rule : Rule, rule.findings model = rule.findings second) ∧
      ∀ asset : Asset, asset.IsLastIn [Rule.gateway, Rule.retired] ↔
        asset.IsLastIn [Rule.retired, Rule.gateway] := by
  obtain ⟨runs, orders, _⟩ := last_asset_counts
  have same : ∀ asset : Asset,
      asset.IsLastIn ([Rule.controlUnit, Rule.gateway] ++ [Rule.retired]) ↔
        asset.IsLastIn ([Rule.retired, Rule.gateway] ++ []) :=
    ofAssets_eq_iff.mp (by decide)
  obtain ⟨ids, _, _, leads, _, findings⟩ := runs _ _ _ _ same
  have last : Rule.retired.IsLastIn ([Rule.controlUnit, Rule.gateway] ++ [Rule.retired]) :=
    Asset.isLastIn_concat.mpr (Or.inl rfl)
  exact ⟨ids, (leads _ _).mpr ⟨last, rfl⟩, findings,
    orders _ _ (List.Perm.swap _ _ _) (by decide)⟩

end RiskRules
