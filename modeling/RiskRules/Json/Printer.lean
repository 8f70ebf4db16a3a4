import RiskRules.Json.Value
import RiskRules.Text.Bytes

/-! The two written forms of a JSON value: without any white space, and indented. -/

namespace RiskRules.Json

def escapeControl (char : Char) : List Char :=
  ['\\', 'u', '0', '0', Text.hexDigit (char.toNat / 16), Text.hexDigit (char.toNat % 16)]

def escapeChar (char : Char) : List Char :=
  if char = '"' then ['\\', '"']
  else if char = '\\' then ['\\', '\\']
  else if char = '\x08' then ['\\', 'b']
  else if char = '\x0c' then ['\\', 'f']
  else if char = '\n' then ['\\', 'n']
  else if char = '\r' then ['\\', 'r']
  else if char = '\t' then ['\\', 't']
  else if char.toNat < 0x20 then escapeControl char
  else [char]

def stringText (text : String) : List Char :=
  '"' :: text.toList.flatMap escapeChar ++ ['"']

def boolText (value : Bool) : List Char :=
  if value then ['t', 'r', 'u', 'e'] else ['f', 'a', 'l', 's', 'e']

namespace Value

mutual

def compactChars : Value → List Char
  | .null => ['n', 'u', 'l', 'l']
  | .bool value => boolText value
  | .number value => value.text
  | .string text => stringText text
  | .array items => '[' :: compactItems items ++ [']']
  | .object members => '\x7b' :: compactMembers members ++ ['\x7d']

def compactItems : List Value → List Char
  | [] => []
  | item :: [] => compactChars item
  | item :: next :: rest => compactChars item ++ ',' :: compactItems (next :: rest)

def compactMembers : List (String × Value) → List Char
  | [] => []
  | (key, value) :: [] => stringText key ++ ':' :: compactChars value
  | (key, value) :: next :: rest =>
      stringText key ++ ':' :: compactChars value ++ ',' :: compactMembers (next :: rest)

end

def newLine (level : Nat) : List Char :=
  '\n' :: List.replicate (2 * level) ' '

mutual

def prettyChars (level : Nat) : Value → List Char
  | .null => ['n', 'u', 'l', 'l']
  | .bool value => boolText value
  | .number value => value.text
  | .string text => stringText text
  | .array [] => ['[', ']']
  | .array (item :: rest) => '[' :: prettyItems (level + 1) (item :: rest) ++ newLine level ++ [']']
  | .object [] => ['\x7b', '\x7d']
  | .object (member :: rest) =>
      '\x7b' :: prettyMembers (level + 1) (member :: rest) ++ newLine level ++ ['\x7d']

def prettyItems (level : Nat) : List Value → List Char
  | [] => []
  | item :: [] => newLine level ++ prettyChars level item
  | item :: next :: rest =>
      newLine level ++ prettyChars level item ++ ',' :: prettyItems level (next :: rest)

def prettyMembers (level : Nat) : List (String × Value) → List Char
  | [] => []
  | (key, value) :: [] => newLine level ++ stringText key ++ ':' :: ' ' :: prettyChars level value
  | (key, value) :: next :: rest =>
      newLine level ++ stringText key ++ ':' :: ' ' :: prettyChars level value
        ++ ',' :: prettyMembers level (next :: rest)

end

def compact (value : Value) : String :=
  String.ofList value.compactChars

def pretty (value : Value) : String :=
  String.ofList (value.prettyChars 0)

def canonicalText (value : Value) : String :=
  value.canonical.compact

end Value

end RiskRules.Json
