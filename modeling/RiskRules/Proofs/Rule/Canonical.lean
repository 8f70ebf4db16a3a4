import RiskRules.Proofs.Json.Canonical
import RiskRules.Proofs.Pattern
import RiskRules.Proofs.Tags
import RiskRules.Rule.Encoding

/-!
Two rules are the same if the canonical forms of what they are written as are. Members that are
left out leave no ambiguity, and a title is known by its source if it can be made.
-/

namespace RiskRules

open Json Json.Value

theorem TagSet.separates_tagSet (left right : TagSet) : Separates toJson left right := by
  intro same
  exact eq_of_tags (separates_texts left.tags right.tags same)

theorem Pattern.separates_pattern {left right : Pattern} (leftBuilt : left.Built)
    (rightBuilt : right.Built) : Separates toJson left right :=
  fun same => leftBuilt.eq_of_source rightBuilt (separates_string _ _ same)

theorem Mitigation.separates_mitigation (left right : Mitigation) :
    Separates toJson left right := by
  intro same
  have parts := member?_of_canonical same "tags"
  cases left with
  | none =>
      cases right with
      | none => rfl
      | anyTag tags => simp [toJson] at parts
  | anyTag tags =>
      cases right with
      | none => simp [toJson] at parts
      | anyTag others =>
          simp only [toJson, member?_cons, member?_nil] at parts
          rw [separates_texts tags others (Option.some.inj parts)]

namespace Category

@[simp] theorem member?_optionalMember (key name : String) (encode : α → Value)
    (part : Option α) :
    (object (optionalMember name encode part)).member? key =
      if name = key then part.map encode else none := by
  cases part <;> simp [optionalMember]

theorem separates_category (left right : Category) : Separates toJson left right := by
  intro same
  have id := part_eq same "id" .string id (by simp [toJson]) (separates_string _ _)
  have title := part_eq same "title" .string title (by simp [toJson]) (separates_string _ _)
  have description := part_eq same "description" .string description (by simp [toJson])
    (separates_string _ _)
  have impact := part_eq same "impact" .string impact (by simp [toJson]) (separates_string _ _)
  have function := part_eq same "function" nameValue function (by simp [toJson])
    (separates_name _ _)
  have stride := part_eq same "stride" nameValue stride (by simp [toJson]) (separates_name _ _)
  have action := part_eq same "action" .string action (by simp [toJson]) (separates_string _ _)
  have mitigation := part_eq same "mitigation" .string mitigation (by simp [toJson])
    (separates_string _ _)
  have check := part_eq same "check" .string check (by simp [toJson]) (separates_string _ _)
  have cwe := optional_eq same "cwe" (fun number => .ofNat number.toNat) cwe (by simp [toJson])
    separates_word32
  have asvs := optional_eq same "asvs" .string asvs (by simp [toJson]) separates_string
  have cheatSheet := optional_eq same "cheatSheet" .string cheatSheet (by simp [toJson])
    separates_string
  cases left
  cases right
  simp_all

end Category

theorem Rule.separates_rule {left right : Rule} (leftBuilt : left.findingTitle.Built)
    (rightBuilt : right.findingTitle.Built) : Separates toJson left right := by
  intro same
  have identifier := part_eq same "identifier" .string identifier (by simp [toJson])
    (separates_string _ _)
  have category := part_eq same "category" Category.toJson category (by simp [toJson])
    (Category.separates_category _ _)
  have supportedTags := part_eq same "supportedTags" TagSet.toJson supportedTags
    (by simp [toJson]) (TagSet.separates_tagSet _ _)
  have gate := part_eq same "applicability" nameValue gate (by simp [toJson])
    (separates_name _ _)
  have likelihood := part_eq same "likelihood" nameValue likelihood (by simp [toJson])
    (separates_name _ _)
  have impact := part_eq same "impact" nameValue impact (by simp [toJson]) (separates_name _ _)
  have severity := part_eq same "severity" nameValue severity (by simp [toJson])
    (separates_name _ _)
  have breachProbability := part_eq same "dataBreachProbability" nameValue breachProbability
    (by simp [toJson]) (separates_name _ _)
  have findingTitle := part_eq same "findingTitle" Pattern.toJson findingTitle
    (by simp [toJson]) (Pattern.separates_pattern leftBuilt rightBuilt)
  have mitigation := part_eq same "mitigation" Mitigation.toJson mitigation (by simp [toJson])
    (Mitigation.separates_mitigation _ _)
  cases left
  cases right
  simp_all

end RiskRules
