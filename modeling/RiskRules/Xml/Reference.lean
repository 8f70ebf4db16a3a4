import RiskRules.Text.Bytes
import RiskRules.Xml.Attribute

/-!
References in attribute values: five entities have names, and every character has its number.
Places in a value are counted in UTF-8 bytes.
-/

namespace RiskRules.Xml

inductive CharacterFault
  | signed
  | noDigits
  | notDigit
  | tooLarge
  | notCharacter (code : Nat)
  | null
  deriving DecidableEq, Repr

def CharacterFault.message : CharacterFault → String
  | .signed => "unexpected number sign"
  | .noDigits => "cannot parse integer from empty string"
  | .notDigit => "invalid digit found in string"
  | .tooLarge => "number too large to fit in target type"
  | .notCharacter code => "`" ++ toString code ++ "` is not a valid codepoint"
  | .null => "0x0 character is not permitted in XML"

inductive ReferenceFault
  | unclosed (start stop : Nat)
  | unknownEntity (start stop : Nat) (name : String)
  | character (fault : CharacterFault)
  deriving DecidableEq, Repr

def ReferenceFault.message : ReferenceFault → String
  | .unclosed start stop =>
      "Error while escaping character at range " ++ toString start ++ ".." ++ toString stop
        ++ ": Cannot find ';' after '&'"
  | .unknownEntity start stop name =>
      "at " ++ toString start ++ ".." ++ toString stop ++ ": unrecognized entity `" ++ name ++ "`"
  | .character fault => "invalid character reference: " ++ fault.message

def digitValue? (base : Nat) (char : Char) : Option Nat :=
  match Text.hexValue? char with
  | some digit => if digit < base then some digit else none
  | none => none

/-- Digits are taken from the left; the number has to fit into 32 bits after each of them. -/
def codeFrom (base code : Nat) : List Char → Except CharacterFault Nat
  | [] => .ok code
  | char :: rest =>
      match digitValue? base char with
      | none => .error .notDigit
      | some digit =>
          if base * code + digit < 0x100000000 then codeFrom base (base * code + digit) rest
          else .error .tooLarge

def codeOf (base : Nat) : List Char → Except CharacterFault Nat
  | [] => .error .noDigits
  | '+' :: _ => .error .signed
  | '-' :: _ => .error .signed
  | digits => codeFrom base 0 digits

def characterOf (body : List Char) : Except CharacterFault Char := do
  let code ← match body with
    | 'x' :: digits => codeOf 16 digits
    | digits => codeOf 10 digits
  if code = 0 then .error .null
  else if code.isValidChar then .ok (Char.ofNat code)
  else .error (.notCharacter code)

def entity? (name : List Char) : Option Char :=
  [("lt", '<'), ("gt", '>'), ("amp", '&'), ("apos", '\''), ("quot", '"')].lookup
    (String.ofList name)

def reference (start : Nat) : List Char → Except ReferenceFault Char
  | '#' :: body =>
      match characterOf body with
      | .error cause => .error (.character cause)
      | .ok char => .ok char
  | name =>
      match entity? name with
      | some char => .ok char
      | none => .error (.unknownEntity start (start + byteLength name) (String.ofList name))

/-- The value from `position` on, which is where `text` stands in it. A reference runs to the next
semicolon, and no other may begin before. -/
def resolveFrom (position : Nat) (text : List Char) : Except ReferenceFault (List Char) :=
  match text with
  | [] => .ok []
  | char :: rest =>
      if char = '&' then
        match _closed : rest.dropWhile fun next => next ≠ '&' && next ≠ ';' with
        | ';' :: more => do
            let body := rest.takeWhile fun next => next ≠ '&' && next ≠ ';'
            let resolved ← reference (position + 1) body
            let tail ← resolveFrom (position + 2 + byteLength body) more
            return resolved :: tail
        | _ => .error (.unclosed position (position + byteLength text))
      else do
        let tail ← resolveFrom (position + char.utf8Size) rest
        return char :: tail
termination_by text.length
decreasing_by
  · have bound := length_dropWhile_le (fun next => next ≠ '&' && next ≠ ';') rest
    rw [_closed, List.length_cons] at bound
    simp only [List.length_cons]
    omega
  · simp

def Attribute.text (given : Attribute) : Except ReferenceFault String :=
  (resolveFrom 0 given.value).map String.ofList

end RiskRules.Xml
