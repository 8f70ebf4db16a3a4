import RiskRules.Json.Value

/-! Threat catalogs: named groups of threat classes, in document order. -/

namespace RiskRules

structure ThreatClass where
  id : String
  name : String
  title : String
  deriving DecidableEq, Repr

structure Group where
  name : String
  classes : List ThreatClass
  deriving DecidableEq, Repr

def ThreatClass.toJson (threat : ThreatClass) : Json.Value :=
  .object [
    ("rawId", .string threat.id),
    ("rawName", .string threat.name),
    ("rawTitle", .string threat.title)]

def Group.toJson (group : Group) : Json.Value :=
  .object [("name", .string group.name), ("entries", .ofList ThreatClass.toJson group.classes)]

end RiskRules
