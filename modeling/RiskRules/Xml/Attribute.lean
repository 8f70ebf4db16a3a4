import RiskRules.Xml.Markup

/-!
The attributes of a tag, read from left to right. Places in a tag are counted in UTF-8 bytes from
the beginning of the element's name.
-/

namespace RiskRules.Xml

def byteLength (text : List Char) : Nat :=
  text.foldr (fun char size => char.utf8Size + size) 0

structure Attribute where
  name : String
  value : List Char
  deriving DecidableEq, Repr

def Attribute.localName (given : Attribute) : String :=
  Xml.localName given.name

inductive AttributeFault
  | noEquals (position : Nat)
  | duplicated (position previous : Nat)
  | noValue (position : Nat)
  | unquoted (position : Nat)
  | unclosedQuote (position : Nat) (mark : Char)
  deriving DecidableEq, Repr

def AttributeFault.position : AttributeFault → Nat
  | .noEquals position => position
  | .duplicated position _ => position
  | .noValue position => position
  | .unquoted position => position
  | .unclosedQuote position _ => position

def AttributeFault.cause : AttributeFault → String
  | .noEquals _ => "attribute key must be directly followed by `=` or space"
  | .duplicated _ previous =>
      "duplicated attribute, previous declaration at position " ++ toString previous
  | .noValue _ => "`=` must be followed by an attribute value"
  | .unquoted _ => "attribute value must be enclosed in `\"` or `'`"
  | .unclosedQuote _ mark =>
      "missing closing quote `" ++ String.singleton mark ++ "` in attribute value"

def AttributeFault.message (fault : AttributeFault) : String :=
  "position " ++ toString fault.position ++ ": " ++ fault.cause

def quotedValue (position : Nat) (text : List Char) :
    Except AttributeFault (List Char × List Char) :=
  match text with
  | [] => .error (.noValue position)
  | mark :: body =>
      if mark = '"' || mark = '\'' then
        match body.dropWhile (· ≠ mark) with
        | [] => .error (.unclosedQuote (position + byteLength text) mark)
        | _ :: rest => .ok (body.takeWhile (· ≠ mark), rest)
      else .error (.unquoted position)

/-- The attribute at the start of a text that does not begin with a blank, and what follows it.
`seen` holds the names before it and their places. A name is at least one character long, so it may
begin with the equals sign. -/
def oneAttribute (seen : List (String × Nat)) (position : Nat) (first : Char) (more : List Char) :
    Except AttributeFault (Attribute × List Char) :=
  let name := first :: more.takeWhile fun char => char ≠ '=' && !isBlank char
  let after := (more.dropWhile fun char => char ≠ '=' && !isBlank char).dropWhile isBlank
  let stop := position + byteLength (first :: more)
  match after with
  | '=' :: text =>
      match seen.lookup (String.ofList name) with
      | some previous => .error (.duplicated position previous)
      | none =>
          let text := text.dropWhile isBlank
          (quotedValue (stop - byteLength text) text).map fun (value, rest) =>
            (⟨String.ofList name, value⟩, rest)
  | _ => .error (.noEquals (stop - byteLength after))

theorem quotedValue_length {position : Nat} {text value rest : List Char}
    (found : quotedValue position text = .ok (value, rest)) : rest.length < text.length := by
  unfold quotedValue at found
  split at found
  · simp at found
  · rename_i mark body
    split at found
    · split at found
      · simp at found
      · rename_i rest' closed
        simp only [Except.ok.injEq, Prod.mk.injEq] at found
        have bound := length_dropWhile_le (fun char => decide (char ≠ mark)) body
        rw [closed, List.length_cons] at bound
        rw [← found.2, List.length_cons]
        omega
    · simp at found

theorem oneAttribute_length {seen : List (String × Nat)} {position : Nat} {first : Char}
    {more rest : List Char} {given : Attribute}
    (found : oneAttribute seen position first more = .ok (given, rest)) :
    rest.length ≤ more.length := by
  unfold oneAttribute at found
  simp only at found
  split at found
  · rename_i text equals
    split at found
    · simp at found
    · generalize start : position + byteLength (first :: more) - _ = place at found
      cases quoted : quotedValue place (text.dropWhile isBlank) with
      | error cause => simp [quoted, Except.map] at found
      | ok result =>
          obtain ⟨value, tail⟩ := result
          simp only [quoted, Except.map, Except.ok.injEq, Prod.mk.injEq] at found
          have shorter := quotedValue_length quoted
          have blanks := length_dropWhile_le isBlank text
          have outer := length_dropWhile_le isBlank
            (more.dropWhile fun char => char ≠ '=' && !isBlank char)
          have inner := length_dropWhile_le (fun char => char ≠ '=' && !isBlank char) more
          rw [equals, List.length_cons] at outer
          rw [← found.2]
          omega
  · simp at found

def attributesFrom (seen : List (String × Nat)) (position : Nat) (text : List Char) :
    Feed Attribute AttributeFault :=
  match _begun : text.dropWhile isBlank with
  | [] => .finished
  | first :: more =>
      let start := position + byteLength text - byteLength (first :: more)
      match _found : oneAttribute seen start first more with
      | .error cause => .broken cause
      | .ok (given, rest) =>
          .item given <|
            attributesFrom (seen ++ [(given.name, start)])
              (position + byteLength text - byteLength rest) rest
termination_by text.length
decreasing_by
  have shorter := oneAttribute_length _found
  have bound := length_dropWhile_le isBlank text
  rw [_begun, List.length_cons] at bound
  omega

def Tag.attributes (tag : Tag) : Feed Attribute AttributeFault :=
  attributesFrom [] (byteLength tag.name.toList) tag.attributeText

end RiskRules.Xml
