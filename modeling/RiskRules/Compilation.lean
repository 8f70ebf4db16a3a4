import RiskRules.Catalog.Document
import RiskRules.Emission
import RiskRules.Lint
import RiskRules.Text.Bytes
import RiskRules.Version

/-!
From a catalog document to a sealed pack. A template is checked before the document is looked at;
the document is then read, normalized and linted, and only a report that passes leads to a pack.
-/

namespace RiskRules

structure Inspection where
  groups : Nat
  classes : Nat
  normalization : Normalization
  lint : LintReport
  deriving DecidableEq, Repr

structure Compilation where
  pack : Pack
  inspection : Inspection
  deriving DecidableEq, Repr

inductive CompileError
  | malformedDocument (error : LoadError)
  | badEngineVersion (version : String) (fault : Version.Fault)
  | templateRender (error : EmissionError)
  | engineVersionMismatch (templateVersion required : String)
  | lintFailed (errors : List Diagnostic)
  | files (path : String) (fault : FileFault)
  deriving DecidableEq, Repr

def Diagnostic.summary (diagnostic : Diagnostic) : String :=
  Enumeration.name diagnostic.check ++ ": " ++ diagnostic.message

def CompileError.message : CompileError → String
  | .malformedDocument error => error.message
  | .badEngineVersion version fault =>
      "Template render error: invalid engineMinVersion " ++ Text.quoted version ++ ": "
        ++ fault.message
  | .templateRender error => error.message
  | .engineVersionMismatch templateVersion required =>
      "Template version " ++ templateVersion ++ " requires engine >= " ++ required
        ++ ", current is " ++ engineVersion
  | .lintFailed errors =>
      "Catalog lint failed: " ++ "; ".intercalate (errors.map Diagnostic.summary)
  | .files path fault => "I/O error on " ++ path ++ ": " ++ fault.message

def engine : Version := ⟨1, 0, 0, [], []⟩

theorem ofText_engineVersion : Version.ofText engineVersion = .ok engine := rfl

def Template.checkEngineVersion (template : Template) : Except CompileError Unit :=
  match Version.ofText template.engineMinVersion with
  | .error fault => .error (.badEngineVersion template.engineMinVersion fault)
  | .ok required =>
      if engine.order required = .lt then
        .error (.engineVersionMismatch template.version template.engineMinVersion)
      else .ok ()

def Inspection.ofGroups (template : Template) (groups : List Group) : Inspection :=
  let normalization := Normalization.ofGroups template.name groups
  { groups := groups.length
    classes := groups.foldr (fun group count => group.classes.length + count) 0
    normalization := normalization
    lint := Lint.report normalization template }

def inspect (template : Template) (document : List UInt8) : Except CompileError Inspection :=
  match Catalog.ofBytes document with
  | .error error => .error (.malformedDocument error)
  | .ok groups => .ok (.ofGroups template groups)

def LintReport.errors (report : LintReport) : List Diagnostic :=
  report.diagnostics.filter (·.severity = .error)

def LintReport.check (report : LintReport) : Except CompileError Unit :=
  if report.passed then .ok () else .error (.lintFailed report.errors)

def compile (template : Template) (document : List UInt8) : Except CompileError Compilation := do
  template.checkEngineVersion
  let emitter ← (Emitter.ofTemplate template).mapError .templateRender
  let inspection ← inspect template document
  inspection.lint.check
  let pack ← (emitter.emit inspection.normalization.entries (Digest.sha256Hex document)).mapError
    .templateRender
  return ⟨pack, inspection⟩

open Json

def Inspection.toJson (inspection : Inspection) : Value :=
  .object [
    ("groups", .ofNat inspection.groups),
    ("classes", .ofNat inspection.classes),
    ("normalization", inspection.normalization.toJson),
    ("lint", inspection.lint.toJson)]

end RiskRules
