import RiskRules.Rule

/-!
The JSON form of a mitigation: an object whose member `kind` says which sort it is, or an array
that starts with the kind. The kind may come after the other members, so those are kept until it
is known.
-/

namespace RiskRules.Mitigation

open Json

inductive Kind
  | none
  | anyTag
  deriving DecidableEq, Repr

instance : Enumeration Kind where
  all := [.none, .anyTag]
  name
    | .none => "none"
    | .anyTag => "any-tag"
  mem_all := by intro value; cases value <;> decide
  name_injective := by intro left right; cases left <;> cases right <;> decide

def toJson : Mitigation → Value
  | .none => .object [("kind", nameValue Kind.none)]
  | .anyTag tags => .object [("kind", nameValue Kind.anyTag), ("tags", .ofList .string tags)]

def tagOfValue : Value → Reading String
  | .string text => .ok text
  | value => mismatch (.invalidType value.found "a string")

def tagsOfValue : Value → Reading (List String)
  | .array items => items.mapM tagOfValue
  | value => mismatch (.invalidType value.found "a sequence")

/-- The member `tags`, which must be there once. -/
def tagsOfMembers : Option (List String) → List (String × Value) → Reading (List String)
  | some tags, [] => .ok tags
  | .none, [] => mismatch (.missingField "tags")
  | found, (name, value) :: rest =>
      if name = "tags" then
        if found.isSome then mismatch (.duplicateField "tags")
        else do tagsOfMembers (some (← tagsOfValue value)) rest
      else tagsOfMembers found rest

def ofMembers : Kind → List (String × Value) → Reading Mitigation
  | .none, _ => .ok .none
  | .anyTag, members => do return .anyTag (← tagsOfMembers .none members)

def ofItems : Kind → List Value → Reading Mitigation
  | .none, [] => .ok .none
  | .none, items => mismatch (.invalidLength items.length "0 elements in sequence")
  | .anyTag, [] =>
      mismatch (.invalidLength 0 "struct variant MitigationCheck::AnyTag with 1 element")
  | .anyTag, [item] => do return .anyTag (← tagsOfValue item)
  | .anyTag, item :: rest => do
      let _ ← tagsOfValue item
      mismatch (.invalidLength (rest.length + 1) "1 element in sequence")

def checkNew (kind : Option Kind) (name : String) : Reading Unit :=
  if name = "kind" ∧ kind.isSome then mismatch (.duplicateField "kind") else .ok ()

def readMembers (room : Nat) (kind : Option Kind) :
    List (Literal × Node) → Reading (Option Kind × List (String × Value))
  | [] => .ok (kind, [])
  | (key, node) :: rest => do
      let name ← key.text
      checkNew kind name
      if name = "kind" then readMembers room (some (← variantName room node)) rest
      else do
        let value ← node.value room
        let (kind, others) ← readMembers room kind rest
        return (kind, (name, value) :: others)

def requireKind : Option Kind → Reading Kind
  | some kind => .ok kind
  | .none => mismatch (.missingField "kind")

def decode : Decoder Mitigation
  | room, .object members ending => descend room fun room => do
      let (kind, others) ← readMembers room .none members
      ending.check (checkNew kind)
      ofMembers (← requireKind kind) others
  | room, .array items ending => descend room fun room => do
      match items with
      | [] => do
          ending.check
          mismatch (.missingField "kind")
      | first :: rest => do
          let kind ← variantName room first
          let values ← itemValues room rest
          ending.check
          ofItems kind values
  | _, node => wrongType node "internally tagged enum MitigationCheck"

end RiskRules.Mitigation
