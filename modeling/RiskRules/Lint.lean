import RiskRules.Curated
import RiskRules.Normalization
import RiskRules.Template
import RiskRules.Text.CharClass

/-!
Checks of a normalized catalog. Normalization drops and falls back silently; the checks make that
visible, and the template decides whether an error stops a compilation.
-/

namespace RiskRules

inductive Check
  | duplicateIdentifier
  | emptyIdentifier
  | categoryKeyCollision
  | identifierFallback
  | emptyTitle
  | unusedOverride
  deriving DecidableEq, Repr

instance : Enumeration Check where
  all := [.duplicateIdentifier, .emptyIdentifier, .categoryKeyCollision, .identifierFallback,
    .emptyTitle, .unusedOverride]
  name
    | .duplicateIdentifier => "duplicate_identifier"
    | .emptyIdentifier => "empty_identifier"
    | .categoryKeyCollision => "category_key_collision"
    | .identifierFallback => "identifier_fallback"
    | .emptyTitle => "empty_title"
    | .unusedOverride => "unused_mitigation_override"
  mem_all := by intro value; cases value <;> decide
  name_injective := by intro left right; cases left <;> cases right <;> decide

inductive DiagnosticSeverity
  | error
  | warning
  | info
  deriving DecidableEq, Repr

instance : Enumeration DiagnosticSeverity where
  all := [.error, .warning, .info]
  name
    | .error => "error"
    | .warning => "warning"
    | .info => "info"
  mem_all := by intro value; cases value <;> decide
  name_injective := by intro left right; cases left <;> cases right <;> decide

structure Diagnostic where
  check : Check
  message : String
  identifier : Option String
  deriving DecidableEq, Repr

structure LintReport where
  passed : Bool
  diagnostics : List Diagnostic
  deriving DecidableEq, Repr

def Check.severity : Check → DiagnosticSeverity
  | .duplicateIdentifier | .emptyIdentifier | .categoryKeyCollision => .error
  | .emptyTitle | .unusedOverride => .warning
  | .identifierFallback => .info

def Check.remedy : Check → String
  | .duplicateIdentifier =>
      "Rename the class so its alphanumeric characters differ from the earlier entry"
  | .emptyIdentifier => "Give the class an alphanumeric name or id"
  | .categoryKeyCollision => "Make the class names differ by more than letter case"
  | .identifierFallback => "Add an alphanumeric name to the class"
  | .emptyTitle => "Set the class title attribute"
  | .unusedOverride => "Remove the override or fix its identifier"

def Diagnostic.severity (diagnostic : Diagnostic) : DiagnosticSeverity :=
  diagnostic.check.severity

namespace Lint

open Text

def duplicateIdentifiers (normalization : Normalization) : List Diagnostic :=
  normalization.dropped.map fun dropped => {
    check := .duplicateIdentifier
    message := "Class " ++ quoted dropped.threat.name ++ " (id " ++ quoted dropped.threat.id
      ++ ") in group " ++ quoted dropped.group ++ " maps to identifier "
      ++ quoted dropped.identifier ++ ", already taken; it was dropped"
    identifier := some dropped.identifier }

def emptyIdentifiers (normalization : Normalization) : List Diagnostic :=
  (normalization.entries.filter (·.identifier.isEmpty)).map fun entry => {
    check := .emptyIdentifier
    message := "Class titled " ++ quoted entry.title
      ++ " has no letters or digits in its name or id"
    identifier := some "" }

def categoryOwners (normalization : Normalization) (template : Template) :
    List (String × String) :=
  normalization.entries.map (fun entry => (entry.categoryKey, entry.identifier))
    ++ (if template.includeCurated then
        Curated.rules.map fun rule => (rule.category.id, rule.identifier)
      else [])

def ownersOf (key : String) (owners : List (String × String)) : List String :=
  (owners.filter (·.1 = key)).map (·.2)

def collisionMessage (key : String) (identifiers : List String) : String :=
  "Category key " ++ quoted key ++ " is shared by rules " ++ quotedList identifiers
    ++ "; their findings would share synthetic ids"

def collision (key : String) (identifiers : List String) : Diagnostic where
  check := .categoryKeyCollision
  message := collisionMessage key identifiers
  identifier := identifiers.head?

/-- One diagnostic for each category id that two rules or more would share, in ascending order. -/
def categoryKeyCollisions (normalization : Normalization) (template : Template) :
    List Diagnostic :=
  let owners := categoryOwners normalization template
  let keys := (TagSet.ofList (owners.map (·.1))).tags
  (keys.filter fun key => 1 < (ownersOf key owners).length).map fun key =>
    collision key (ownersOf key owners)

def identifierFallbacks (normalization : Normalization) : List Diagnostic :=
  (normalization.entries.filter fun entry => entry.source = .id && !entry.identifier.isEmpty).map
    fun entry => {
      check := .identifierFallback
      message := "Identifier " ++ quoted entry.identifier ++ " was derived from the class id"
      identifier := some entry.identifier }

def emptyTitles (normalization : Normalization) : List Diagnostic :=
  (normalization.entries.filter (isBlank ·.title)).map fun entry => {
    check := .emptyTitle
    message := "Rule " ++ quoted entry.identifier ++ " has an empty title"
    identifier := some entry.identifier }

def isUnused (normalization : Normalization) (entry : Override) : Bool :=
  !(normalization.entries.any (·.identifier = entry.identifier))

def unusedOverrides (normalization : Normalization) (template : Template) : List Diagnostic :=
  (template.overrides.filter (isUnused normalization)).map fun entry => {
    check := .unusedOverride
    message := "Mitigation override for " ++ quoted entry.identifier ++ " matches no catalog rule"
    identifier := some entry.identifier }

def diagnose (normalization : Normalization) (template : Template) : Check → List Diagnostic
  | .duplicateIdentifier => duplicateIdentifiers normalization
  | .emptyIdentifier => emptyIdentifiers normalization
  | .categoryKeyCollision => categoryKeyCollisions normalization template
  | .identifierFallback => identifierFallbacks normalization
  | .emptyTitle => emptyTitles normalization
  | .unusedOverride => unusedOverrides normalization template

def diagnostics (normalization : Normalization) (template : Template) : List Diagnostic :=
  ((Enumeration.all : List Check).filter fun check =>
    template.lint.isEnabled (Enumeration.name check)).flatMap (diagnose normalization template)

def hasErrors (diagnostics : List Diagnostic) : Bool :=
  diagnostics.any (·.severity = .error)

def report (normalization : Normalization) (template : Template) : LintReport :=
  let found := diagnostics normalization template
  { passed := !(template.lint.failureMode = .block && hasErrors found), diagnostics := found }

end Lint

def LintReport.hasErrors (report : LintReport) : Bool :=
  Lint.hasErrors report.diagnostics

def LintReport.ofCheck (report : LintReport) (name : String) : List Diagnostic :=
  report.diagnostics.filter (Enumeration.name ·.check = name)

open Json

def Diagnostic.toJson (diagnostic : Diagnostic) : Value :=
  .object [
    ("check", nameValue diagnostic.check),
    ("severity", nameValue diagnostic.severity),
    ("message", .string diagnostic.message),
    ("identifier", .ofOption .string diagnostic.identifier),
    ("remediation", .array [.string diagnostic.check.remedy])]

def LintReport.toJson (report : LintReport) : Value :=
  .object [
    ("passed", .bool report.passed),
    ("diagnostics", .ofList Diagnostic.toJson report.diagnostics)]

end RiskRules
