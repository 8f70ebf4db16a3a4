import Mathlib.Data.List.Nodup
import RiskRules.Proofs.Lint
import RiskRules.Proofs.Normalization.Positions
import RiskRules.Proofs.Text.Lowercase

/-!
Names that are hard to tell apart. Where two classes are kept whose names differ in the case of
ASCII letters and in dots and dashes only, they share a category id, and the check of category ids
says so.
-/

namespace RiskRules

def Resembles (left right : Char) : Prop :=
  SameLetter left right ∨ left = '.' ∧ right = '-' ∨ left = '-' ∧ right = '.'

def LookAlike (name other : String) : Prop :=
  List.Forall₂ Resembles name.toList other.toList

/-! ### Slugs -/

/-- Dots have become dashes before letters are lowered, so none is skipped when a sigma is. -/
theorem equalUpToCase_dotsToDashes {name other : String} (alike : LookAlike name other) :
    EqualUpToCase (dotsToDashes name) (dotsToDashes other) := by
  rw [EqualUpToCase, dotsToDashes, dotsToDashes, String.toList_ofList, String.toList_ofList,
    List.forall₂_map_left_iff, List.forall₂_map_right_iff]
  apply alike.imp
  rintro left right (same | ⟨rfl, rfl⟩ | ⟨rfl, rfl⟩)
  · have dots : left = '.' ↔ right = '.' :=
      Text.eq_mark_iff (by unfold Text.IsLetterCode; decide) same
    by_cases dot : left = '.'
    · rw [if_pos dot, if_pos (dots.mp dot)]
      exact .inl rfl
    · rw [if_neg dot, if_neg (dots.not.mp dot)]
      exact same
  · exact .inl rfl
  · exact .inl rfl

theorem slugify_eq {name other : String} (alike : LookAlike name other) :
    slugify name = slugify other :=
  Text.lowercase_eq (equalUpToCase_dotsToDashes alike)

/-! ### Classes that are kept -/

/-- The class stands at the position, and none before it asks for its identifier. -/
structure IsKeptAt (classes : List (String × ThreatClass)) (index : Nat)
    (found : String × ThreatClass) : Prop where
  place : classes[index]? = some found
  owns : isTakenAt classes found.2.candidate.1 index = false

theorem isTakenAt_of_lt {classes : List (String × ThreatClass)} {earlier index : Nat}
    {found : String × ThreatClass} (place : classes[earlier]? = some found)
    (before : earlier < index) : isTakenAt classes found.2.candidate.1 index = true := by
  have asked : (candidates classes)[earlier]? = some found.2.candidate.1 := by
    rw [candidates, List.getElem?_map, place, Option.map_some]
  exact decide_eq_true (List.mem_of_getElem? (List.getElem?_take_of_lt before ▸ asked))

theorem IsKeptAt.candidate_ne {classes : List (String × ThreatClass)} {first second : Nat}
    {one other : String × ThreatClass} (kept : IsKeptAt classes first one)
    (otherKept : IsKeptAt classes second other) (distinct : first ≠ second) :
    one.2.candidate.1 ≠ other.2.candidate.1 := by
  intro same
  rcases Nat.lt_or_gt_of_ne distinct with before | after
  · have taken := isTakenAt_of_lt kept.place before
    rw [same, otherKept.owns] at taken
    cases taken
  · have taken := isTakenAt_of_lt otherKept.place after
    rw [← same, kept.owns] at taken
    cases taken

theorem IsKeptAt.mem_entries {space : String} {groups : List Group} {index : Nat}
    {found : String × ThreatClass} (kept : IsKeptAt (flatten groups) index found) :
    Entry.ofClass space found.1 found.2 ∈ (Normalization.ofGroups space groups).entries := by
  rw [Normalization.entries_eq_selected]
  exact List.mem_map_of_mem (mem_selected.mpr ⟨index, kept.place, by rw [kept.owns]; rfl⟩)

/-! ### The diagnostic about a category id -/

def Diagnostic.isAbout (key : String) (diagnostic : Diagnostic) : Bool :=
  (Text.quotations diagnostic.message).head? = some key

namespace Lint

theorem isAbout_collision (key name : String) (identifiers : List String) :
    (collision name identifiers).isAbout key = decide (name = key) := by
  rw [Diagnostic.isAbout, collision, quotations_collisionMessage, List.head?_cons]
  simp

theorem mem_ownersOf {key identifier : String} {owners : List (String × String)} :
    identifier ∈ ownersOf key owners ↔ (key, identifier) ∈ owners := by
  simp [ownersOf]

/-- A category id with two owners or more is reported, and in one diagnostic. -/
theorem filter_isAbout {normalization : Normalization} {template : Template} {key : String}
    (shared : 1 < (ownersOf key (categoryOwners normalization template)).length) :
    (categoryKeyCollisions normalization template).filter (·.isAbout key) =
      [collision key (ownersOf key (categoryOwners normalization template))] := by
  let owners := categoryOwners normalization template
  let keys := (TagSet.ofList (owners.map (·.1))).tags
  let reported := keys.filter fun name => 1 < (ownersOf name owners).length
  have distinct : reported.Nodup := (TagSet.ofList (owners.map (·.1))).nodup.filter _
  have listed : key ∈ reported := by
    obtain ⟨identifier, owns⟩ := List.exists_mem_of_length_pos (Nat.zero_lt_of_lt shared)
    have present : key ∈ owners.map (·.1) := List.mem_map_of_mem (mem_ownersOf.mp owns)
    exact List.mem_filter.mpr ⟨TagSet.mem_tags_ofList.mpr present, decide_eq_true shared⟩
  have about : ((·.isAbout key) ∘ fun name => collision name (ownersOf name owners)) =
      fun name => decide (name = key) := by
    funext name
    rw [Function.comp_apply, isAbout_collision]
  change (reported.map fun name => collision name (ownersOf name owners)).filter (·.isAbout key) = _
  rw [List.filter_map, about, List.filter_eq, List.count_eq_one_of_mem distinct listed]
  rfl

/-- Two owners with different identifiers are two owners. -/
theorem one_lt_length_ownersOf {key identifier other : String} {owners : List (String × String)}
    (owns : identifier ∈ ownersOf key owners) (alsoOwns : other ∈ ownersOf key owners)
    (different : identifier ≠ other) : 1 < (ownersOf key owners).length := by
  match shape : ownersOf key owners with
  | [] => exact absurd (shape ▸ owns) List.not_mem_nil
  | [only] =>
      rw [shape, List.mem_singleton] at owns alsoOwns
      exact absurd (owns.trans alsoOwns.symm) different
  | _ :: _ :: rest => exact Nat.one_lt_succ_succ rest.length

theorem mem_ownersOf_entry {normalization : Normalization} (template : Template) {entry : Entry}
    (member : entry ∈ normalization.entries) :
    entry.identifier ∈ ownersOf entry.categoryKey (categoryOwners normalization template) :=
  mem_ownersOf.mpr (List.mem_append_left _ (List.mem_map_of_mem member))

/-- Names that look alike never go unnoticed. If two classes are kept whose names differ in ASCII
case and in dots for dashes only, they have one slug and one category id, and while the check is not
disabled its diagnostics about this id are one error, whose message, read back, lists the
identifiers of both. -/
theorem lookalikes_caught (space : String) {groups : List Group} {template : Template}
    (enabled : template.lint.isEnabled "category_key_collision" = true)
    {first second : Nat} (distinct : first ≠ second) {one other : String × ThreatClass}
    (kept : IsKeptAt (flatten groups) first one)
    (otherKept : IsKeptAt (flatten groups) second other)
    (alike : LookAlike one.2.name other.2.name) :
    let normalization := Normalization.ofGroups space groups
    let entry := Entry.ofClass space one.1 one.2
    let twin := Entry.ofClass space other.1 other.2
    entry ∈ normalization.entries ∧ twin ∈ normalization.entries ∧
      entry.identifier ≠ twin.identifier ∧ entry.slug = twin.slug ∧
      entry.categoryKey = twin.categoryKey ∧
      ∃ diagnostic owners,
        ((report normalization template).ofCheck "category_key_collision").filter
          (·.isAbout entry.categoryKey) = [diagnostic] ∧
        diagnostic.severity = .error ∧
        diagnostic.message = collisionMessage entry.categoryKey owners ∧
        Text.quotations diagnostic.message = entry.categoryKey :: owners ∧
        entry.identifier ∈ owners ∧ twin.identifier ∈ owners := by
  intro normalization entry twin
  have member : entry ∈ normalization.entries := kept.mem_entries
  have twinMember : twin ∈ normalization.entries := otherKept.mem_entries
  have different : entry.identifier ≠ twin.identifier := by
    dsimp only [entry, twin, Entry.ofClass]
    exact kept.candidate_ne otherKept distinct
  have slugs : entry.slug = twin.slug := slugify_eq alike
  have keys : entry.categoryKey = twin.categoryKey := congrArg (categoryKey space) slugs
  have owns := mem_ownersOf_entry template member
  have twinOwns := mem_ownersOf_entry template twinMember
  rw [← keys] at twinOwns
  have reported : (report normalization template).ofCheck "category_key_collision" =
      categoryKeyCollisions normalization template :=
    (ofCheck_report .categoryKeyCollision).trans (if_pos enabled)
  let owners := ownersOf entry.categoryKey (categoryOwners normalization template)
  refine ⟨member, twinMember, different, slugs, keys, collision entry.categoryKey owners, owners,
    ?_, rfl, rfl, quotations_collisionMessage _ _, owns, twinOwns⟩
  rw [reported]
  exact filter_isAbout (one_lt_length_ownersOf owns twinOwns different)

/-- The last class has the name of the first but for the case of a letter and a dash for the dot.
In both names the sigma ends its word. -/
def sigmaGroups : List Group :=
  [⟨"G", [⟨"", "AΣ.", ""⟩, ⟨"", "!", ""⟩]⟩, ⟨"H", [⟨"", "aΣ-", ""⟩]⟩]

theorem lookalikes_caught_sigma :
    ∃ diagnostic owners,
      ((report (.ofGroups "ns" sigmaGroups) .automotive).ofCheck "category_key_collision").filter
        (·.isAbout "ns-aς-") = [diagnostic] ∧ diagnostic.severity = .error ∧
      diagnostic.message = collisionMessage "ns-aς-" owners ∧
      Text.quotations diagnostic.message = "ns-aς-" :: owners ∧
      "A" ∈ owners ∧ "a" ∈ owners := by
  have kept : IsKeptAt (flatten sigmaGroups) 0 ("G", ⟨"", "AΣ.", ""⟩) := ⟨rfl, by decide⟩
  have otherKept : IsKeptAt (flatten sigmaGroups) 2 ("H", ⟨"", "aΣ-", ""⟩) := ⟨rfl, by decide⟩
  have alike : LookAlike "AΣ." "aΣ-" :=
    .cons (.inl (.inr (.inl ⟨rfl, rfl⟩))) (.cons (.inl (.inl rfl))
      (.cons (.inr (.inl ⟨rfl, rfl⟩)) .nil))
  have slug : slugify "AΣ." = "aς-" := by decide +kernel
  have key : (Entry.ofClass "ns" "G" ⟨"", "AΣ.", ""⟩).categoryKey = "ns-aς-" := by
    rw [Entry.ofClass, slug]
    rfl
  have identifier : (Entry.ofClass "ns" "G" ⟨"", "AΣ.", ""⟩).identifier = "A" := by decide
  have twin : (Entry.ofClass "ns" "H" ⟨"", "aΣ-", ""⟩).identifier = "a" := by decide
  have enabled : Template.automotive.lint.isEnabled "category_key_collision" = true := by decide
  obtain ⟨_, _, _, _, _, caught⟩ :=
    lookalikes_caught "ns" enabled (by decide) kept otherKept alike
  rw [key, identifier, twin] at caught
  exact caught

end Lint

end RiskRules
