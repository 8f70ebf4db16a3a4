import RiskRules.Tags
import RiskRules.Json.Reading

/-!
The model of a system that rules are evaluated against: its technical assets, in ascending order
of their identifiers.
-/

namespace RiskRules

structure Asset where
  id : String
  title : String
  tags : List String
  outOfScope : Bool
  deriving DecidableEq, Repr

structure Model where
  assets : List Asset
  ascending : assets.Pairwise (·.id < ·.id)
  deriving DecidableEq, Repr

namespace Model

def empty : Model := ⟨[], .nil⟩

def insertAsset (asset : Asset) : List Asset → List Asset
  | [] => [asset]
  | first :: rest =>
      if asset.id < first.id then asset :: first :: rest
      else if asset.id = first.id then asset :: rest
      else first :: insertAsset asset rest

theorem mem_of_mem_insertAsset {asset other : Asset} {assets : List Asset}
    (member : other ∈ insertAsset asset assets) : other = asset ∨ other ∈ assets := by
  induction assets with
  | nil => simpa [insertAsset] using member
  | cons first rest ih =>
      simp only [insertAsset] at member
      split at member
      · simpa using member
      · split at member
        · rcases List.mem_cons.mp member with found | found
          · exact Or.inl found
          · exact Or.inr (List.mem_cons_of_mem first found)
        · rcases List.mem_cons.mp member with found | found
          · exact Or.inr (found ▸ List.mem_cons_self)
          · rcases ih found with same | earlier
            · exact Or.inl same
            · exact Or.inr (List.mem_cons_of_mem first earlier)

theorem insertAsset_ascending {asset : Asset} {assets : List Asset}
    (ascending : assets.Pairwise (·.id < ·.id)) :
    (insertAsset asset assets).Pairwise (·.id < ·.id) := by
  induction assets with
  | nil => simp [insertAsset]
  | cons first rest ih =>
      obtain ⟨below, tail⟩ := List.pairwise_cons.mp ascending
      simp only [insertAsset]
      split
      · rename_i less
        refine List.pairwise_cons.mpr ⟨?_, ascending⟩
        intro other member
        rcases List.mem_cons.mp member with found | found
        · exact found ▸ less
        · exact String.lt_trans less (below other found)
      · split
        · rename_i same
          refine List.pairwise_cons.mpr ⟨?_, tail⟩
          intro other member
          exact same ▸ below other member
        · rename_i notLess different
          refine List.pairwise_cons.mpr ⟨?_, ih tail⟩
          intro other member
          rcases mem_of_mem_insertAsset member with found | found
          · subst found
            grind
          · exact below other found

def insert (model : Model) (asset : Asset) : Model :=
  ⟨insertAsset asset model.assets, insertAsset_ascending model.ascending⟩

/-- Of assets with one identifier the last one counts. -/
def ofAssets (assets : List Asset) : Model :=
  assets.foldl insert empty

def ids (model : Model) : List String :=
  model.assets.map Asset.id

def find? (model : Model) (id : String) : Option Asset :=
  model.assets.find? (·.id = id)

end Model

namespace Asset

open Json

def toJson (asset : Asset) : Value :=
  .object [
    ("id", .string asset.id),
    ("title", .string asset.title),
    ("tags", .ofList .string asset.tags),
    ("outOfScope", .bool asset.outOfScope)]

def shape : Record Asset where
  title := "struct TechnicalAsset"
  initial := ⟨"", "", [], false⟩
  fields := [
    .require "id" stringValue fun asset id => { asset with id },
    .allow "title" stringValue fun asset title => { asset with title },
    .allow "tags" (listOf stringValue) fun asset tags => { asset with tags },
    .allow "outOfScope" boolValue fun asset outOfScope => { asset with outOfScope }]

def ofText (text : String) : Reading Asset :=
  readText shape.decode text

end Asset

namespace Model

open Json

def fileShape : Record (List Asset) where
  title := "struct ModelFile"
  initial := []
  fields := [.allow "technicalAssets" (listOf Asset.shape.decode) fun _ assets => assets]

def ofText (text : String) : Reading Model := do
  return ofAssets (← readText fileShape.decode text)

end Model

end RiskRules
