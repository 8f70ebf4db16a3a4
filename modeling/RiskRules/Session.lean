import RiskRules.Compilation
import RiskRules.Template.Encoding
import RiskRules.Text.Rewriting

/-!
A working session: a template, the pack last compiled or loaded, a text that began as that pack's
rendering, and a model to evaluate packs on.
-/

namespace RiskRules

structure Session where
  template : Template
  pack : Option Pack
  text : String
  model : Model
  deriving DecidableEq, Repr

namespace Session

def start (template : Template) : Session :=
  ⟨template, none, "", .empty⟩

def compile (session : Session) (document : List UInt8) :
    Except CompileError (Compilation × Session) := do
  let compilation ← RiskRules.compile session.template document
  let pack := compilation.pack
  return (compilation, { session with pack := some pack, text := pack.render })

def replace (session : Session) (old new : String) : Nat × Session :=
  let (text, count) := Text.replaceAll session.text old new
  (count, { session with text })

def reseal (session : Session) : Json.Reading (Pack × Session) := do
  let pack ← Pack.ofText session.text
  return (pack.sealed, { session with text := pack.sealed.render })

def reload (session : Session) : Except PackError (Pack × Session) := do
  let pack ← Pack.load session.text
  return (pack, { session with pack := some pack })

end Session

end RiskRules
