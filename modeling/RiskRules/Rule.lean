import RiskRules.Risk
import RiskRules.Pattern
import RiskRules.Model

/-!
Risk rules and the findings they report. A rule names the components that it applies to by their
tags, and the findings it makes about them differ only in the component.
-/

namespace RiskRules

structure Category where
  id : String
  title : String
  description : String
  impact : String
  function : RiskFunction
  stride : Stride
  action : String
  mitigation : String
  check : String
  cwe : Option UInt32
  asvs : Option String
  cheatSheet : Option String
  deriving DecidableEq, Repr

inductive Status
  | opened
  | mitigated
  deriving DecidableEq, Repr

inductive Gate
  | anyTag
  | allTags
  deriving DecidableEq, Repr

inductive Mitigation
  | none
  | anyTag (tags : List String)
  deriving DecidableEq, Repr

structure Rule where
  identifier : String
  category : Category
  supportedTags : TagSet
  gate : Gate
  likelihood : Likelihood
  impact : Impact
  severity : Severity
  breachProbability : BreachProbability
  findingTitle : Pattern
  mitigation : Mitigation
  deriving DecidableEq, Repr

structure Finding where
  categoryId : String
  severity : Severity
  likelihood : Likelihood
  impact : Impact
  title : String
  componentId : String
  breachProbability : BreachProbability
  breachComponentIds : List String
  syntheticId : String
  status : Status
  deriving DecidableEq, Repr

instance : Enumeration Status where
  all := [.opened, .mitigated]
  name
    | .opened => "open"
    | .mitigated => "mitigated"
  mem_all := by intro value; cases value <;> decide
  name_injective := by intro left right; cases left <;> cases right <;> decide

instance : Enumeration Gate where
  all := [.anyTag, .allTags]
  name
    | .anyTag => "any-tag"
    | .allTags => "all-tags"
  mem_all := by intro value; cases value <;> decide
  name_injective := by intro left right; cases left <;> cases right <;> decide

def Mitigation.ofTags : List String → Mitigation
  | [] => .none
  | tag :: rest => .anyTag (tag :: rest)

def Mitigation.covers : Mitigation → Asset → Bool
  | .none, _ => false
  | .anyTag tags, asset => carriesAny asset.tags tags

/-- A rule that asks for all of no tags applies to nothing. -/
def Gate.admits : Gate → TagSet → Asset → Bool
  | .anyTag, wanted, asset => carriesAny asset.tags wanted.tags
  | .allTags, wanted, asset => !wanted.tags.isEmpty && wanted.tags.all (carries asset.tags ·)

namespace Rule

def appliesTo (rule : Rule) (asset : Asset) : Bool :=
  !asset.outOfScope && rule.gate.admits rule.supportedTags asset

def findingFor (rule : Rule) (asset : Asset) : Finding where
  categoryId := rule.category.id
  severity := rule.severity
  likelihood := rule.likelihood
  impact := rule.impact
  title := rule.findingTitle.render rule.category.title asset.title
  componentId := asset.id
  breachProbability := rule.breachProbability
  breachComponentIds := [asset.id]
  syntheticId := rule.category.id ++ "@" ++ asset.id
  status := if rule.mitigation.covers asset then .mitigated else .opened

def findings (rule : Rule) (model : Model) : List Finding :=
  (model.assets.filter rule.appliesTo).map rule.findingFor

end Rule

end RiskRules
