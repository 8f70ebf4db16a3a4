import RiskRules.Rule.Mitigation

/-! The JSON forms of rules and findings. -/

namespace RiskRules

open Json

namespace Pattern

def toJson (pattern : Pattern) : Value :=
  .string pattern.source

def decode : Decoder Pattern := fun room node => do
  match parse (← stringValue room node) with
  | .ok pattern => return pattern
  | .error error => mismatch (.rejected error.message)

end Pattern

namespace TagSet

def toJson (set : TagSet) : Value :=
  .ofList .string set.tags

def decode : Decoder TagSet := fun room node => do
  return .ofList (← listOf stringValue room node)

end TagSet

namespace Category

def optionalMember (name : String) (encode : α → Value) (value : Option α) :
    List (String × Value) :=
  value.toList.map fun value => (name, encode value)

def toJson (category : Category) : Value :=
  .object ([
    ("id", .string category.id),
    ("title", .string category.title),
    ("description", .string category.description),
    ("impact", .string category.impact),
    ("function", nameValue category.function),
    ("stride", nameValue category.stride),
    ("action", .string category.action),
    ("mitigation", .string category.mitigation),
    ("check", .string category.check)]
    ++ optionalMember "cwe" (fun number => .ofNat number.toNat) category.cwe
    ++ optionalMember "asvs" .string category.asvs
    ++ optionalMember "cheatSheet" .string category.cheatSheet)

def shape : Record Category where
  title := "struct RiskCategory"
  initial := {
    id := "", title := "", description := "", impact := "", function := .businessSide,
    stride := .spoofing, action := "", mitigation := "", check := "", cwe := none, asvs := none,
    cheatSheet := none }
  fields := [
    .require "id" stringValue fun category id => { category with id },
    .require "title" stringValue fun category title => { category with title },
    .require "description" stringValue fun category description => { category with description },
    .require "impact" stringValue fun category impact => { category with impact },
    .require "function" enumValue fun category function => { category with function },
    .require "stride" enumValue fun category stride => { category with stride },
    .require "action" stringValue fun category action => { category with action },
    .require "mitigation" stringValue fun category mitigation => { category with mitigation },
    .require "check" stringValue fun category check => { category with check },
    .allow "cwe" (optionOf word32Value) fun category cwe => { category with cwe },
    .allow "asvs" (optionOf stringValue) fun category asvs => { category with asvs },
    .allow "cheatSheet" (optionOf stringValue) fun category cheatSheet =>
      { category with cheatSheet }]

end Category

namespace Rule

def toJson (rule : Rule) : Value :=
  .object [
    ("identifier", .string rule.identifier),
    ("category", rule.category.toJson),
    ("supportedTags", rule.supportedTags.toJson),
    ("applicability", nameValue rule.gate),
    ("likelihood", nameValue rule.likelihood),
    ("impact", nameValue rule.impact),
    ("severity", nameValue rule.severity),
    ("dataBreachProbability", nameValue rule.breachProbability),
    ("findingTitle", rule.findingTitle.toJson),
    ("mitigation", rule.mitigation.toJson)]

def shape : Record Rule where
  title := "struct RuleDescriptor"
  initial := {
    identifier := "", category := Category.shape.initial, supportedTags := .empty, gate := .anyTag,
    likelihood := .unlikely, impact := .low, severity := .low, breachProbability := .improbable,
    findingTitle := ⟨"", []⟩, mitigation := .none }
  fields := [
    .require "identifier" stringValue fun rule identifier => { rule with identifier },
    .require "category" Category.shape.decode fun rule category => { rule with category },
    .require "supportedTags" TagSet.decode fun rule supportedTags => { rule with supportedTags },
    .allow "applicability" enumValue fun rule gate => { rule with gate },
    .require "likelihood" enumValue fun rule likelihood => { rule with likelihood },
    .require "impact" enumValue fun rule impact => { rule with impact },
    .require "severity" enumValue fun rule severity => { rule with severity },
    .require "dataBreachProbability" enumValue fun rule breachProbability =>
      { rule with breachProbability },
    .require "findingTitle" Pattern.decode fun rule findingTitle => { rule with findingTitle },
    .allow "mitigation" Mitigation.decode fun rule mitigation => { rule with mitigation }]

def listOfText (text : String) : Reading (List Rule) :=
  readText (listOf shape.decode) text

end Rule

def Finding.toJson (finding : Finding) : Value :=
  .object [
    ("categoryId", .string finding.categoryId),
    ("severity", nameValue finding.severity),
    ("exploitationLikelihood", nameValue finding.likelihood),
    ("exploitationImpact", nameValue finding.impact),
    ("title", .string finding.title),
    ("mostRelevantComponentId", .string finding.componentId),
    ("dataBreachProbability", nameValue finding.breachProbability),
    ("dataBreachComponentIds", .ofList .string finding.breachComponentIds),
    ("syntheticId", .string finding.syntheticId),
    ("status", nameValue finding.status)]

end RiskRules
