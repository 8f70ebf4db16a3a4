import RiskRules.Digest.Sha256
import RiskRules.Json.Printer
import RiskRules.Rule.Encoding
import RiskRules.Text.Bytes

/-!
Rule packs: the rules compiled from one catalog, sealed by a digest over everything else in the
pack. A pack is written as indented JSON, and a written pack is only accepted when its registry
and its digest fit its rules.
-/

namespace RiskRules

structure Pack where
  engineVersion : String
  templateVersion : String
  space : String
  catalogDigest : String
  rules : List Rule
  registry : List String
  packHash : String
  deriving DecidableEq, Repr

def textDigest (text : String) : String :=
  Digest.sha256Hex (Text.encodeUtf8 text)

inductive PackError
  | unreadable (error : Json.ReadError)
  | registryMismatch
  | hashMismatch (recorded computed : String)
  deriving DecidableEq, Repr

def PackError.message : PackError → String
  | .unreadable error => "Invalid rule pack: " ++ error.message
  | .registryMismatch => "Rule pack registry does not list its rules in order"
  | .hashMismatch recorded computed =>
      "Rule pack hash mismatch: recorded " ++ recorded ++ ", computed " ++ computed

namespace Pack

open Json

def contentMembers (pack : Pack) : List (String × Value) :=
  [("engineVersion", .string pack.engineVersion),
    ("templateVersion", .string pack.templateVersion),
    ("namespace", .string pack.space),
    ("catalogDigest", .string pack.catalogDigest),
    ("rules", .ofList Rule.toJson pack.rules),
    ("registry", .ofList .string pack.registry)]

def toJson (pack : Pack) : Value :=
  .object (pack.contentMembers ++ [("packHash", .string pack.packHash)])

def canonicalContent (pack : Pack) : String :=
  (Value.object pack.contentMembers).canonicalText

def computedHash (pack : Pack) : String :=
  textDigest pack.canonicalContent

def sealed (pack : Pack) : Pack :=
  { pack with packHash := pack.computedHash }

def render (pack : Pack) : String :=
  pack.toJson.pretty ++ "\n"

def shape : Record Pack where
  title := "struct RulePack"
  initial := ⟨"", "", "", "", [], [], ""⟩
  fields := [
    .require "engineVersion" stringValue fun pack engineVersion => { pack with engineVersion },
    .require "templateVersion" stringValue fun pack templateVersion =>
      { pack with templateVersion },
    .require "namespace" stringValue fun pack space => { pack with space },
    .require "catalogDigest" stringValue fun pack catalogDigest => { pack with catalogDigest },
    .require "rules" (listOf Rule.shape.decode) fun pack rules => { pack with rules },
    .require "registry" (listOf stringValue) fun pack registry => { pack with registry },
    .require "packHash" stringValue fun pack packHash => { pack with packHash }]

def ofText (text : String) : Reading Pack :=
  readText shape.decode text

def registryFits (pack : Pack) : Bool :=
  pack.registry = pack.rules.map Rule.identifier

/-- Reads a pack that fits together: first its registry is checked, then its digest. -/
def load (text : String) : Except PackError Pack :=
  match ofText text with
  | .error error => .error (.unreadable error)
  | .ok pack =>
      if pack.registryFits then
        if pack.computedHash = pack.packHash then .ok pack
        else .error (.hashMismatch pack.packHash pack.computedHash)
      else .error .registryMismatch

def rule? (pack : Pack) (identifier : String) : Option Rule :=
  pack.rules.find? (·.identifier = identifier)

def evaluate (pack : Pack) (model : Model) : List (String × List Finding) :=
  pack.rules.map fun rule => (rule.identifier, rule.findings model)

end Pack

end RiskRules
