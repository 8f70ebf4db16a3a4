import RiskRules.Catalog
import RiskRules.Files
import RiskRules.Text.Bytes
import RiskRules.Xml.Reference

/-!
Catalog documents. Groups are the `ThreatsCatalog` children of the root, and their classes are the
`ThreatClass` children of their `ThreatClasses` children. Everything else is passed over. Reading
stops where the root closes.
-/

namespace RiskRules

inductive DocumentFault
  | markup (fault : Xml.MarkupFault)
  | attributes (fault : Xml.AttributeFault)
  | reference (fault : Xml.ReferenceFault)
  | mismatchedClose (expected found : String)
  | strayClose (name : String)
  | wrongRoot (name : String)
  | endInside (name : String)
  | noRoot
  deriving DecidableEq, Repr

def DocumentFault.message : DocumentFault → String
  | .markup fault => fault.message
  | .attributes fault => fault.message
  | .reference fault => fault.message
  | .mismatchedClose expected found =>
      "ill-formed document: expected `</" ++ expected ++ ">`, but `</" ++ found ++ ">` was found"
  | .strayClose name =>
      "ill-formed document: close tag `</" ++ name ++ ">` does not match any open tag"
  | .wrongRoot name => "expected <RootNodes> root element, found <" ++ name ++ ">"
  | .endInside name => "unexpected end of document inside <" ++ name ++ ">"
  | .noRoot => "document has no root element"

inductive LoadError
  | malformed (fault : DocumentFault)
  | encoding (fault : Text.Utf8Fault)
  | unreadable (path : String) (fault : FileFault)
  deriving DecidableEq, Repr

def LoadError.message : LoadError → String
  | .malformed fault => "Malformed catalog document: " ++ fault.message
  | .encoding fault => "Malformed catalog document: not valid UTF-8 (" ++ fault.message ++ ")"
  | .unreadable path fault => "Failed to read catalog " ++ path ++ ": " ++ fault.message

namespace Catalog

/-- The text of the first attribute with a local name. What comes after it is not looked at, and a
missing attribute reads as empty. -/
def attributeText (name : String) :
    Xml.Feed Xml.Attribute Xml.AttributeFault → Except DocumentFault String
  | .finished => .ok ""
  | .broken cause => .error (.attributes cause)
  | .item given rest =>
      if given.localName = name then given.text.mapError .reference
      else attributeText name rest

def groupOf (tag : Xml.Tag) : Except DocumentFault Group := do
  let name ← attributeText "name" tag.attributes
  return ⟨name, []⟩

def threatOf (tag : Xml.Tag) : Except DocumentFault ThreatClass := do
  let id ← attributeText "id" tag.attributes
  let name ← attributeText "name" tag.attributes
  let title ← attributeText "title" tag.attributes
  return ⟨id, name, title⟩

def addThreat (threat : ThreatClass) : List Group → List Group
  | [] => []
  | group :: earlier => { group with classes := group.classes ++ [threat] } :: earlier

/-- The names of the open elements, innermost first, and the groups so far, last first. -/
structure Progress where
  openNames : List String
  groups : List Group

inductive Outcome
  | unfinished (progress : Progress)
  | complete (groups : List Group)

def afterClose (openNames : List String) (groups : List Group) : Outcome :=
  if openNames.isEmpty then .complete groups.reverse else .unfinished ⟨openNames, groups⟩

namespace Progress

def enter (progress : Progress) (tag : Xml.Tag) : Except DocumentFault (List Group) :=
  match progress.openNames with
  | [] =>
      if tag.localName = "RootNodes" then .ok progress.groups
      else .error (.wrongRoot tag.localName)
  | [_] =>
      if tag.localName = "ThreatsCatalog" then do
        let group ← groupOf tag
        return group :: progress.groups
      else .ok progress.groups
  | [list, group, _] =>
      if Xml.localName group = "ThreatsCatalog" && Xml.localName list = "ThreatClasses"
          && tag.localName = "ThreatClass" then do
        let threat ← threatOf tag
        return addThreat threat progress.groups
      else .ok progress.groups
  | _ => .ok progress.groups

def step (progress : Progress) : Xml.Markup → Except DocumentFault Outcome
  | .other => .ok (.unfinished progress)
  | .start tag => do
      let groups ← progress.enter tag
      return .unfinished ⟨tag.name :: progress.openNames, groups⟩
  | .empty tag => do
      let groups ← progress.enter tag
      return afterClose progress.openNames groups
  | .close name =>
      match progress.openNames with
      | [] => .error (.strayClose name)
      | expected :: outer =>
          if name = expected then .ok (afterClose outer progress.groups)
          else .error (.mismatchedClose expected name)

def ended (progress : Progress) : DocumentFault :=
  match progress.openNames with
  | [] => .noRoot
  | name :: _ => .endInside (Xml.localName name)

end Progress

def groupsFrom (progress : Progress) :
    Xml.Feed Xml.Markup Xml.MarkupFault → Except DocumentFault (List Group)
  | .finished => .error progress.ended
  | .broken cause => .error (.markup cause)
  | .item markup rest =>
      match progress.step markup with
      | .error fault => .error fault
      | .ok (.complete groups) => .ok groups
      | .ok (.unfinished progress) => groupsFrom progress rest

def ofText (document : String) : Except LoadError (List Group) :=
  (groupsFrom ⟨[], []⟩ (Xml.markups document.toList)).mapError .malformed

def ofBytes (document : List UInt8) : Except LoadError (List Group) :=
  match Text.decodeUtf8 document with
  | .error fault => .error (.encoding fault)
  | .ok text => ofText text

end Catalog

end RiskRules
