import RiskRules.Catalog
import RiskRules.Enumeration
import RiskRules.Json.Reading
import RiskRules.Text.Lowercase

/-!
Entries with stable identifiers, made from the classes of a catalog. The first class that maps to
an identifier owns it; later ones are dropped, but kept on record.
-/

namespace RiskRules

inductive IdentifierSource
  | name
  | id
  deriving DecidableEq, Repr

instance : Enumeration IdentifierSource where
  all := [.name, .id]
  name
    | .name => "name"
    | .id => "id"
  mem_all := by intro value; cases value <;> decide
  name_injective := by intro left right; cases left <;> cases right <;> decide

structure Entry where
  identifier : String
  source : IdentifierSource
  slug : String
  categoryKey : String
  title : String
  group : String
  deriving DecidableEq, Repr

structure Dropped where
  identifier : String
  group : String
  threat : ThreatClass
  deriving DecidableEq, Repr

structure Normalization where
  entries : List Entry
  dropped : List Dropped
  deriving DecidableEq, Repr

def sanitize (text : String) : String :=
  String.ofList (text.toList.filter Char.isAlphanum)

def dotsToDashes (text : String) : String :=
  String.ofList (text.toList.map fun char => if char = '.' then '-' else char)

def slugify (name : String) : String :=
  Text.lowercase (dotsToDashes name)

def categoryKey (space slug : String) : String :=
  space ++ "-" ++ slug

/-- The identifier that a class asks for: its sanitized name, or its sanitized id when the name
has no letters or digits. -/
def ThreatClass.candidate (threat : ThreatClass) : String × IdentifierSource :=
  let fromName := sanitize threat.name
  if fromName.isEmpty then (sanitize threat.id, .id) else (fromName, .name)

def Entry.ofClass (space group : String) (threat : ThreatClass) : Entry where
  identifier := threat.candidate.1
  source := threat.candidate.2
  slug := slugify threat.name
  categoryKey := RiskRules.categoryKey space (slugify threat.name)
  title := threat.title
  group := group

def flatten (groups : List Group) : List (String × ThreatClass) :=
  groups.flatMap fun group => group.classes.map fun threat => (group.name, threat)

namespace Normalization

/-- Classes in turn; `taken` holds the identifiers that earlier classes own. -/
def ofClasses (space : String) (taken : List String) :
    List (String × ThreatClass) → Normalization
  | [] => ⟨[], []⟩
  | (group, threat) :: rest =>
      let identifier := threat.candidate.1
      if identifier ∈ taken then
        let later := ofClasses space taken rest
        { later with dropped := ⟨identifier, group, threat⟩ :: later.dropped }
      else
        let later := ofClasses space (identifier :: taken) rest
        { later with entries := Entry.ofClass space group threat :: later.entries }

def ofGroups (space : String) (groups : List Group) : Normalization :=
  ofClasses space [] (flatten groups)

end Normalization

open Json

def Entry.toJson (entry : Entry) : Value :=
  .object [
    ("identifier", .string entry.identifier),
    ("identifierSource", nameValue entry.source),
    ("slug", .string entry.slug),
    ("categoryKey", .string entry.categoryKey),
    ("title", .string entry.title),
    ("group", .string entry.group)]

def Dropped.toJson (dropped : Dropped) : Value :=
  .object [
    ("identifier", .string dropped.identifier),
    ("group", .string dropped.group),
    ("entry", dropped.threat.toJson)]

def Normalization.toJson (normalization : Normalization) : Value :=
  .object [
    ("entries", .ofList Entry.toJson normalization.entries),
    ("dropped", .ofList Dropped.toJson normalization.dropped)]

end RiskRules
