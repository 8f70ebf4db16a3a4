import RiskRules.Enumeration

/-! The scales on which risks are rated, and how likelihood and impact make a severity. -/

namespace RiskRules

inductive Likelihood
  | unlikely
  | likely
  | veryLikely
  | frequent
  deriving DecidableEq, Repr

inductive Impact
  | low
  | medium
  | high
  | veryHigh
  deriving DecidableEq, Repr

inductive Severity
  | low
  | medium
  | elevated
  | high
  | critical
  deriving DecidableEq, Repr

inductive BreachProbability
  | improbable
  | possible
  | probable
  deriving DecidableEq, Repr

inductive RiskFunction
  | businessSide
  | architecture
  | development
  | operations
  deriving DecidableEq, Repr

inductive Stride
  | spoofing
  | tampering
  | repudiation
  | informationDisclosure
  | denialOfService
  | elevationOfPrivilege
  deriving DecidableEq, Repr

instance : Enumeration Likelihood where
  all := [.unlikely, .likely, .veryLikely, .frequent]
  name
    | .unlikely => "unlikely"
    | .likely => "likely"
    | .veryLikely => "very-likely"
    | .frequent => "frequent"
  mem_all := by intro value; cases value <;> decide
  name_injective := by intro left right; cases left <;> cases right <;> decide

instance : Enumeration Impact where
  all := [.low, .medium, .high, .veryHigh]
  name
    | .low => "low"
    | .medium => "medium"
    | .high => "high"
    | .veryHigh => "very-high"
  mem_all := by intro value; cases value <;> decide
  name_injective := by intro left right; cases left <;> cases right <;> decide

instance : Enumeration Severity where
  all := [.low, .medium, .elevated, .high, .critical]
  name
    | .low => "low"
    | .medium => "medium"
    | .elevated => "elevated"
    | .high => "high"
    | .critical => "critical"
  mem_all := by intro value; cases value <;> decide
  name_injective := by intro left right; cases left <;> cases right <;> decide

instance : Enumeration BreachProbability where
  all := [.improbable, .possible, .probable]
  name
    | .improbable => "improbable"
    | .possible => "possible"
    | .probable => "probable"
  mem_all := by intro value; cases value <;> decide
  name_injective := by intro left right; cases left <;> cases right <;> decide

instance : Enumeration RiskFunction where
  all := [.businessSide, .architecture, .development, .operations]
  name
    | .businessSide => "business-side"
    | .architecture => "architecture"
    | .development => "development"
    | .operations => "operations"
  mem_all := by intro value; cases value <;> decide
  name_injective := by intro left right; cases left <;> cases right <;> decide

instance : Enumeration Stride where
  all := [.spoofing, .tampering, .repudiation, .informationDisclosure, .denialOfService,
    .elevationOfPrivilege]
  name
    | .spoofing => "spoofing"
    | .tampering => "tampering"
    | .repudiation => "repudiation"
    | .informationDisclosure => "information-disclosure"
    | .denialOfService => "denial-of-service"
    | .elevationOfPrivilege => "elevation-of-privilege"
  mem_all := by intro value; cases value <;> decide
  name_injective := by intro left right; cases left <;> cases right <;> decide

def Likelihood.weight : Likelihood → Nat
  | .unlikely => 1
  | .likely => 2
  | .veryLikely => 3
  | .frequent => 4

def Impact.weight : Impact → Nat
  | .low => 1
  | .medium => 2
  | .high => 3
  | .veryHigh => 4

/-- The weights are multiplied and the product, at most 16, is put into one of five bands. -/
def Severity.rate (likelihood : Likelihood) (impact : Impact) : Severity :=
  let score := likelihood.weight * impact.weight
  if score ≤ 1 then .low
  else if score ≤ 3 then .medium
  else if score ≤ 8 then .elevated
  else if score ≤ 12 then .high
  else .critical

end RiskRules
