import RiskRules.Json.Number

/-! JSON values and their canonical member order. -/

namespace RiskRules.Json

/-- Members keep the order they were given in, and a key may occur more than once. -/
inductive Value
  | null
  | bool (value : Bool)
  | number (value : Number)
  | string (text : String)
  | array (items : List Value)
  | object (members : List (String × Value))
  deriving Inhabited

namespace Value

def ofNat (number : Nat) : Value :=
  .number (.integer number)

def ofOption (encode : α → Value) : Option α → Value
  | none => .null
  | some value => encode value

def ofList (encode : α → Value) (values : List α) : Value :=
  .array (values.map encode)

def member? (key : String) : Value → Option Value
  | .object members => (members.findRev? (·.1 = key)).map (·.2)
  | _ => none

def insertMember (key : String) (value : Value) :
    List (String × Value) → List (String × Value)
  | [] => [(key, value)]
  | (first, other) :: rest =>
      if key < first then (key, value) :: (first, other) :: rest
      else if key = first then (key, value) :: rest
      else (first, other) :: insertMember key value rest

def sortMembers (members : List (String × Value)) : List (String × Value) :=
  members.foldl (fun sorted (key, value) => insertMember key value sorted) []

mutual

def canonical : Value → Value
  | .array items => .array (canonicalItems items)
  | .object members => .object (sortMembers (canonicalMembers members))
  | .null => .null
  | .bool value => .bool value
  | .number value => .number value
  | .string text => .string text

def canonicalItems : List Value → List Value
  | [] => []
  | item :: rest => canonical item :: canonicalItems rest

def canonicalMembers : List (String × Value) → List (String × Value)
  | [] => []
  | (key, value) :: rest => (key, canonical value) :: canonicalMembers rest

end

end Value

end RiskRules.Json
