import Mathlib.Data.List.Nodup
import RiskRules.Model
import RiskRules.Proofs.Text.ByteOrder

/-!
Models as sorted maps. An id leads to one asset, and the ids, as they are listed, lead to the assets
in the order of the bytes of their ids.
-/

namespace RiskRules.Model

variable {model : Model}

theorem nodup_ids (model : Model) : model.ids.Nodup := by
  rw [ids, List.nodup_iff_pairwise_ne, List.pairwise_map]
  apply model.ascending.imp
  intro first other less equal
  exact String.lt_irrefl _ (equal ▸ less)

theorem eq_of_id {asset second : Asset} (member : asset ∈ model.assets)
    (otherMember : second ∈ model.assets) (same : asset.id = second.id) : asset = second :=
  List.inj_on_of_nodup_map model.nodup_ids member otherMember same

theorem find?_eq_some {id : String} {asset : Asset} :
    model.find? id = some asset ↔ asset ∈ model.assets ∧ asset.id = id := by
  constructor
  · intro found
    exact ⟨List.mem_of_find?_eq_some found, by simpa using List.find?_some found⟩
  · rintro ⟨member, rfl⟩
    cases search : model.find? asset.id with
    | none => simpa using List.find?_eq_none.mp search asset member
    | some second =>
        have same : second.id = asset.id := by simpa using List.find?_some search
        rw [eq_of_id (List.mem_of_find?_eq_some search) member same]

theorem filter_id {asset : Asset} (member : asset ∈ model.assets) :
    model.assets.filter (·.id = asset.id) = [asset] := by
  have only : ∀ second ∈ model.assets, decide (second.id = asset.id) = decide (second = asset) := by
    intro second otherMember
    rw [decide_eq_decide]
    exact ⟨eq_of_id otherMember member, congrArg Asset.id⟩
  have distinct : model.assets.Nodup := .of_map Asset.id model.nodup_ids
  rw [List.filter_congr only, List.filter_eq, List.count_eq_one_of_mem distinct member]
  rfl

/-- The ids, looked up one after the other, give the assets. -/
theorem filterMap_find?_ids (model : Model) : model.ids.filterMap model.find? = model.assets := by
  have lookups : ∀ asset ∈ model.assets, (model.find? ∘ Asset.id) asset = some asset :=
    fun asset member => find?_eq_some.mpr ⟨member, rfl⟩
  rw [ids, List.filterMap_map, List.filterMap_congr lookups, List.filterMap_some]

theorem bytes_ascending (model : Model) :
    model.assets.Pairwise fun asset later =>
      Text.encodeUtf8 asset.id < Text.encodeUtf8 later.id :=
  model.ascending.imp Text.encodeUtf8_lt

end RiskRules.Model
