import RiskRules.Risk

/-!
Rule templates: what all rules made from one catalog have in common. The built-in template is put
together from the defaults that also stand for what a template file does not say.
-/

namespace RiskRules

structure Override where
  identifier : String
  tags : List String
  deriving DecidableEq, Repr

inductive FailureMode
  | block
  | warn
  | log
  deriving DecidableEq, Repr

instance : Enumeration FailureMode where
  all := [.block, .warn, .log]
  name
    | .block => "block"
    | .warn => "warn"
    | .log => "log"
  mem_all := by intro value; cases value <;> decide
  name_injective := by intro left right; cases left <;> cases right <;> decide

structure LintSettings where
  failureMode : FailureMode
  disabled : List String
  deriving DecidableEq, Repr

def LintSettings.isEnabled (settings : LintSettings) (check : String) : Bool :=
  !settings.disabled.contains check

structure Template where
  name : String
  version : String
  engineMinVersion : String
  supportedTags : List String
  descriptionPattern : String
  findingTitle : String
  impact : String
  function : RiskFunction
  stride : Stride
  action : String
  mitigation : String
  check : String
  likelihood : Likelihood
  impactLevel : Impact
  breachProbability : BreachProbability
  overrides : List Override
  includeCurated : Bool
  lint : LintSettings
  deriving DecidableEq, Repr

/-! ### Defaults -/

def FailureMode.default : FailureMode := .warn

def LintSettings.default : LintSettings where
  failureMode := .warn
  disabled := []

namespace Template

def defaultName : String := "automotive"

def defaultVersion : String := "1.0.0"

def defaultEngineMinVersion : String := "1.0.0"

def defaultSupportedTags : List String := ["automotive"]

def defaultDescriptionPattern : String := "\x7btitle\x7d (Imported from XSAM)"

def defaultFindingTitle : String := "<b>\x7btitle\x7d</b> risk at <b>\x7bcomponent\x7d</b>"

def defaultImpact : String := "Potential impact depending on the specific automotive context."

def defaultFunction : RiskFunction := .businessSide

def defaultStride : Stride := .tampering

def defaultAction : String := "Review automotive standards"

def defaultMitigation : String := "Apply automotive security controls (e.g. UN R155)"

def defaultCheck : String := "Is this threat applicable?"

def defaultLikelihood : Likelihood := .likely

def defaultImpactLevel : Impact := .medium

def defaultBreachProbability : BreachProbability := .probable

/-- Hardware fault injection is covered by tamper protection. -/
def defaultOverrides : List Override :=
  [⟨"TPe006", ["tamper-protection", "hardware-hardening"]⟩]

def automotive : Template where
  name := defaultName
  version := defaultVersion
  engineMinVersion := defaultEngineMinVersion
  supportedTags := defaultSupportedTags
  descriptionPattern := defaultDescriptionPattern
  findingTitle := defaultFindingTitle
  impact := defaultImpact
  function := defaultFunction
  stride := defaultStride
  action := defaultAction
  mitigation := defaultMitigation
  check := defaultCheck
  likelihood := defaultLikelihood
  impactLevel := defaultImpactLevel
  breachProbability := defaultBreachProbability
  overrides := defaultOverrides
  includeCurated := true
  lint := .default

def mitigationTags? (template : Template) (identifier : String) : Option (List String) :=
  (template.overrides.find? (·.identifier = identifier)).map (·.tags)

end Template

end RiskRules
