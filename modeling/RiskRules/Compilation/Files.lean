import RiskRules.Compilation
import RiskRules.Template.Encoding

/-! Catalogs, templates and packs in files. -/

namespace RiskRules

inductive TemplateError
  | unreadable (path : String) (fault : FileFault)
  | unparsable (path : String) (error : Json.ReadError)
  deriving DecidableEq, Repr

def TemplateError.message : TemplateError → String
  | .unreadable path fault => "Failed to read template " ++ path ++ ": " ++ fault.message
  | .unparsable path error => "Invalid template " ++ path ++ ": " ++ error.message

namespace FileAccess

variable {m : Type → Type} [Monad m]

def loadCatalog (access : FileAccess m) (path : String) : m (Except LoadError (List Group)) := do
  match ← access.read path with
  | .error fault => return .error (.unreadable path fault)
  | .ok document => return Catalog.ofBytes document

def loadTemplate (access : FileAccess m) (path : String) : m (Except TemplateError Template) := do
  match ← access.readText path with
  | .error fault => return .error (.unreadable path fault)
  | .ok text => return (Template.ofText text).mapError (.unparsable path)

def replaceText (access : FileAccess m) (path text : String) : m (Except CompileError Unit) := do
  return (← access.replace path text).mapError (.files path)

def compileFile (access : FileAccess m) (template : Template) (input output : String) :
    m (Except CompileError Compilation) := do
  match ← access.read input with
  | .error fault => return .error (.files input fault)
  | .ok document =>
      match compile template document with
      | .error error => return .error error
      | .ok compilation =>
          match ← access.replaceText output compilation.pack.render with
          | .error error => return .error error
          | .ok () => return .ok compilation

end FileAccess

end RiskRules
