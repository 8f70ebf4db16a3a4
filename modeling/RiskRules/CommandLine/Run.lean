import RiskRules.CommandLine.Usage
import RiskRules.Compilation.Files

/-!
Running a command. The answer is JSON text; what the program puts together itself has its members
in the order of their keys. A run that fails changes no file.
-/

namespace RiskRules.CommandLine

open Json

inductive ExitStatus
  | success
  | inputFailure
  | compileFailure
  | wrongUsage
  deriving DecidableEq, Repr

def ExitStatus.code : ExitStatus → UInt8
  | .success => 0
  | .inputFailure => 1
  | .compileFailure => 2
  | .wrongUsage => 2

structure Outcome where
  status : ExitStatus
  output : String
  deriving DecidableEq, Repr

def printed (value : Value) : String :=
  value.pretty ++ "\n"

namespace Outcome

def success (value : Value) : Outcome :=
  ⟨.success, printed value⟩

def failure (status : ExitStatus) (message : String) : Outcome :=
  ⟨status, printed (Value.object [
    ("success", .bool false),
    ("error", .string message)]).canonical⟩

def wrongUsage : Outcome := ⟨.wrongUsage, ""⟩

end Outcome

def statusOf : CompileError → ExitStatus
  | .files _ _ => .inputFailure
  | _ => .compileFailure

def compileAnswer (output : String) (compilation : Compilation) : Value :=
  Value.canonical <| .object [
    ("success", .bool true),
    ("output", .string output),
    ("rules", .ofNat compilation.pack.rules.length),
    ("registry", .ofList .string compilation.pack.registry),
    ("packHash", .string compilation.pack.packHash),
    ("dropped", .ofNat compilation.inspection.normalization.dropped.length),
    ("diagnostics", .ofList Diagnostic.toJson compilation.inspection.lint.diagnostics)]

def ruleAnswer (identifier : String) (findings : List Finding) : Value :=
  .object [("identifier", .string identifier), ("findings", .ofList Finding.toJson findings)]

def evaluateAnswer (results : List (String × List Finding)) : Value :=
  Value.canonical <| .object [
    ("success", .bool true),
    ("findings", .ofNat (results.foldr (fun result count => result.2.length + count) 0)),
    ("rules", .ofList (fun result => ruleAnswer result.1 result.2) results)]

def inspectOutcome (template : Template) (document : List UInt8) : Outcome :=
  match RiskRules.inspect template document with
  | .error error => .failure (statusOf error) error.message
  | .ok inspection => .success inspection.toJson

variable {m : Type → Type} [Monad m]

def unreadable (path : String) (fault : FileFault) : Outcome :=
  .failure .inputFailure ("Failed to read " ++ path ++ ": " ++ fault.message)

def templateAt (access : FileAccess m) : Option String → m (Except TemplateError Template)
  | none => return .ok .automotive
  | some path => access.loadTemplate path

def runCompile (access : FileAccess m) (input output : String) (template : Option String) :
    m Outcome := do
  match ← templateAt access template with
  | .error error => return .failure .inputFailure error.message
  | .ok template =>
      match ← access.compileFile template input output with
      | .error error => return .failure (statusOf error) error.message
      | .ok compilation => return .success (compileAnswer output compilation)

def runInspect (access : FileAccess m) (input : String) (template : Option String) :
    m Outcome := do
  match ← templateAt access template with
  | .error error => return .failure .inputFailure error.message
  | .ok template =>
      match ← access.read input with
      | .error fault => return unreadable input fault
      | .ok document => return inspectOutcome template document

def runEvaluate (access : FileAccess m) (rules model : String) : m Outcome := do
  match ← access.readText rules with
  | .error fault => return unreadable rules fault
  | .ok packText =>
      match Pack.load packText with
      | .error error => return .failure .inputFailure error.message
      | .ok pack =>
          match ← access.readText model with
          | .error fault => return unreadable model fault
          | .ok modelText =>
              match Model.ofText modelText with
              | .error error =>
                  return .failure .inputFailure ("Invalid model: " ++ error.message)
              | .ok parsed => return .success (evaluateAnswer (pack.evaluate parsed))

def Command.run (access : FileAccess m) : Command → m Outcome
  | .compile input output template => runCompile access input output template
  | .inspect input template => runInspect access input template
  | .evaluate rules model => runEvaluate access rules model

def run (access : FileAccess m) (arguments : List String) : m Outcome :=
  match Request.ofArguments arguments with
  | .wrong => return .wrongUsage
  | .help => return ⟨.success, ""⟩
  | .run command _ => command.run access

end RiskRules.CommandLine
