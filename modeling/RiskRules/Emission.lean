import RiskRules.Curated
import RiskRules.Normalization
import RiskRules.Pack
import RiskRules.Template
import RiskRules.Text.CharClass

/-!
Making a pack from normalized entries. A template is checked once; after that every entry gives a
rule, and only two rules with one identifier can keep the pack from being made.
-/

namespace RiskRules

def engineVersion : String := "1.0.0"

inductive EmissionError
  | template (reason : String)
  | pattern (error : PatternError)
  | duplicateIdentifier (identifier : String)
  deriving DecidableEq, Repr

def EmissionError.message : EmissionError → String
  | .template reason => "Template render error: " ++ reason
  | .pattern error => "Template render error: " ++ error.message
  | .duplicateIdentifier identifier =>
      "Template render error: duplicate registry identifier " ++ Text.quoted identifier

structure Emitter where
  template : Template
  description : Pattern
  findingTitle : Pattern
  deriving DecidableEq, Repr

namespace Emitter

def readPattern (source : String) : Except EmissionError Pattern :=
  match Pattern.parse source with
  | .ok pattern => .ok pattern
  | .error error => .error (.pattern error)

/-- A description is made once per category, so it cannot name a component. -/
def checkDescription (description : Pattern) : Except EmissionError Unit :=
  if description.uses .component then
    .error (.template ("descriptionPattern cannot use " ++ Slot.component.placeholder
      ++ " (descriptions are per category, not per component)"))
  else .ok ()

def ofTemplate (template : Template) : Except EmissionError Emitter :=
  if Text.isBlank template.name then .error (.template "namespace must not be empty")
  else if template.supportedTags.all Text.isBlank then
    .error (.template "supportedTags must name at least one tag")
  else do
    let description ← readPattern template.descriptionPattern
    checkDescription description
    let findingTitle ← readPattern template.findingTitle
    return ⟨template, description, findingTitle⟩

/-- Blank tags are left out; padding around others is kept. -/
def tags (emitter : Emitter) : TagSet :=
  .ofList (emitter.template.supportedTags.filter (!Text.isBlank ·))

def rule (emitter : Emitter) (entry : Entry) : Rule where
  identifier := entry.identifier
  category := {
    id := entry.categoryKey
    title := entry.title
    description := emitter.description.render entry.title ""
    impact := emitter.template.impact
    function := emitter.template.function
    stride := emitter.template.stride
    action := emitter.template.action
    mitigation := emitter.template.mitigation
    check := emitter.template.check
    cwe := none
    asvs := none
    cheatSheet := none }
  supportedTags := emitter.tags
  gate := .anyTag
  likelihood := emitter.template.likelihood
  impact := emitter.template.impactLevel
  severity := .rate emitter.template.likelihood emitter.template.impactLevel
  breachProbability := emitter.template.breachProbability
  findingTitle := emitter.findingTitle
  mitigation := .ofTags ((emitter.template.mitigationTags? entry.identifier).getD [])

def rules (emitter : Emitter) (entries : List Entry) : List Rule :=
  entries.map emitter.rule ++ (if emitter.template.includeCurated then Curated.rules else [])

end Emitter

def firstRepeat? (seen : List String) : List String → Option String
  | [] => none
  | text :: rest => if text ∈ seen then some text else firstRepeat? (text :: seen) rest

namespace Emitter

def draft (emitter : Emitter) (entries : List Entry) (catalogDigest : String) : Pack where
  engineVersion := engineVersion
  templateVersion := emitter.template.version
  space := emitter.template.name
  catalogDigest := catalogDigest
  rules := emitter.rules entries
  registry := (emitter.rules entries).map Rule.identifier
  packHash := ""

def emit (emitter : Emitter) (entries : List Entry) (catalogDigest : String) :
    Except EmissionError Pack :=
  match firstRepeat? [] ((emitter.rules entries).map Rule.identifier) with
  | some identifier => .error (.duplicateIdentifier identifier)
  | none => .ok (emitter.draft entries catalogDigest).sealed

end Emitter

end RiskRules
