import RiskRules.Json.Outline
import RiskRules.Json.Error
import RiskRules.Json.Value
import RiskRules.Enumeration

/-!
Reading the outline of a JSON text as a value of some kind. Reading goes from left to right, so a
fault of kind is reported before a fault of syntax that comes later in the text.
-/

namespace RiskRules.Json

abbrev Reading (α : Type) := Except ReadError α

def malformed (error : SyntaxError) : Reading α :=
  .error (.malformed error)

def mismatch (error : DataError) : Reading α :=
  .error (.mismatch error)

def StringFault.error : StringFault → SyntaxError
  | .endOfText => .endInString
  | .controlChar => .controlChar
  | .unknownEscape => .invalidEscape
  | .badDigits => .invalidEscape

def StringFault.errorInPair : Option StringFault → SyntaxError
  | some .endOfText => .endInString
  | some .badDigits => .invalidEscape
  | _ => .unexpectedEndOfEscape

def ValueFault.error : ValueFault → SyntaxError
  | .endOfText => .endInValue
  | .misspelled => .expectedWord
  | .wordCutShort => .endInValue
  | .badNumber => .invalidNumber
  | .numberCutShort => .endInValue
  | .noValue => .expectedValue

def isHighSurrogate (code : Nat) : Bool :=
  decide (0xD800 ≤ code) && decide (code ≤ 0xDBFF)

def isLowSurrogate (code : Nat) : Bool :=
  decide (0xDC00 ≤ code) && decide (code ≤ 0xDFFF)

def surrogatePair (high low : Nat) : Char :=
  Char.ofNat (0x10000 + (high - 0xD800) * 0x400 + (low - 0xDC00))

/-- The characters of a string, with surrogate pairs joined; `done` holds those before, last
first. -/
def joinPieces (fault : Option StringFault) (done : List Char) :
    List Piece → Except SyntaxError (List Char)
  | [] => match fault with
      | none => .ok done.reverse
      | some fault => .error fault.error
  | .char char :: rest => joinPieces fault (char :: done) rest
  | .unit code :: rest =>
      if isLowSurrogate code then .error .loneSurrogate
      else if isHighSurrogate code then
        match rest with
        | [] => .error (StringFault.errorInPair fault)
        | .char _ :: _ => .error .unexpectedEndOfEscape
        | .unit low :: rest =>
            if isLowSurrogate low then joinPieces fault (surrogatePair code low :: done) rest
            else .error .loneSurrogate
      else joinPieces fault (Char.ofNat code :: done) rest

def Literal.text (literal : Literal) : Reading String :=
  match joinPieces literal.fault [] literal.pieces with
  | .ok chars => .ok (String.ofList chars)
  | .error error => malformed error

def Numeral.read (numeral : Numeral) : Reading Number :=
  match numeral.value with
  | some number => .ok number
  | none => malformed .numberOutOfRange

def startingRoom : Nat := 128

def descend (room : Nat) (inside : Nat → Reading α) : Reading α :=
  if room ≤ 1 then malformed .tooDeep else inside (room - 1)

def ArrayEnding.check : ArrayEnding → Reading Unit
  | .closed => .ok ()
  | .endOfText => malformed .endInArray
  | .noSeparator => malformed .expectedItemEnd
  | .danglingComma => malformed .trailingComma
  | .endAfterComma => malformed .endInValue

def colonError (atEnd : Bool) : SyntaxError :=
  if atEnd then .endInObject else .expectedColon

def ObjectEnding.check (onKey : String → Reading Unit) : ObjectEnding → Reading Unit
  | .closed => .ok ()
  | .endOfText => malformed .endInObject
  | .noSeparator => malformed .expectedMemberEnd
  | .danglingComma => malformed .trailingComma
  | .endAfterComma => malformed .endInValue
  | .notKey => malformed .keyNotString
  | .noColon key atEnd => do
      onKey (← key.text)
      malformed (colonError atEnd)

/-! ### Values that do not matter

What stands under an unknown key is only checked for its syntax. Nothing in it is too deep, no
number too large and no surrogate alone. -/

def Literal.skip (literal : Literal) : Reading Unit :=
  match literal.fault with
  | none => .ok ()
  | some fault => malformed fault.error

def ValueFault.skipError : ValueFault → SyntaxError
  | .numberCutShort => .invalidNumber
  | fault => fault.error

def ArrayEnding.skip : ArrayEnding → Reading Unit
  | .danglingComma => malformed .expectedValue
  | ending => ending.check

def ObjectEnding.skip : ObjectEnding → Reading Unit
  | .danglingComma => malformed .keyNotString
  | .endAfterComma => malformed .endInObject
  | .noColon key atEnd => do
      key.skip
      malformed (colonError atEnd)
  | ending => ending.check fun _ => .ok ()

mutual

def Node.skip : Node → Reading Unit
  | .array items ending => do
      skipItems items
      ending.skip
  | .object members ending => do
      skipMembers members
      ending.skip
  | .string literal => literal.skip
  | .fault cause => malformed cause.skipError
  | .null => .ok ()
  | .bool _ => .ok ()
  | .number _ => .ok ()

def skipItems : List Node → Reading Unit
  | [] => .ok ()
  | item :: rest => do
      item.skip
      skipItems rest

def skipMembers : List (Literal × Node) → Reading Unit
  | [] => .ok ()
  | (key, node) :: rest => do
      key.skip
      node.skip
      skipMembers rest

end

/-! ### Values of any kind -/

mutual

def Node.value (room : Nat) : Node → Reading Value
  | .null => .ok .null
  | .bool value => .ok (.bool value)
  | .number numeral => do return .number (← numeral.read)
  | .string literal => do return .string (← literal.text)
  | .array items ending => descend room fun room => do
      let values ← itemValues room items
      ending.check
      return .array values
  | .object members ending => descend room fun room => do
      let values ← memberValues room members
      ending.check fun _ => .ok ()
      return .object values
  | .fault cause => malformed cause.error

def itemValues (room : Nat) : List Node → Reading (List Value)
  | [] => .ok []
  | item :: rest => do
      let value ← item.value room
      return value :: (← itemValues room rest)

def memberValues (room : Nat) : List (Literal × Node) → Reading (List (String × Value))
  | [] => .ok []
  | (key, node) :: rest => do
      let name ← key.text
      let value ← node.value room
      return (name, value) :: (← memberValues room rest)

end

/-! ### Values of a given kind -/

/-- Reads a node where `room` levels of nesting are left. -/
abbrev Decoder (α : Type) := (room : Nat) → Node → Reading α

def Number.found : Number → Found
  | .integer value => .integer value
  | .float bits => .float bits

def Value.found : Value → Found
  | .null => .null
  | .bool value => .bool value
  | .number numeric => numeric.found
  | .string text => .string text
  | .array _ => .sequence
  | .object _ => .map

/-- What a node shows when it is not of the expected kind: its own value, or of a container only
that it is one. -/
def Node.found : Node → Reading Found
  | .null => .ok .null
  | .bool value => .ok (.bool value)
  | .number numeral => do return (← numeral.read).found
  | .string literal => do return .string (← literal.text)
  | .array _ _ => .ok .sequence
  | .object _ _ => .ok .map
  | .fault cause => malformed cause.error

def wrongType (node : Node) (expected : String) : Reading α := do
  mismatch (.invalidType (← node.found) expected)

def stringValue : Decoder String
  | _, .string literal => literal.text
  | _, node => wrongType node "a string"

def boolValue : Decoder Bool
  | _, .bool value => .ok value
  | _, node => wrongType node "a boolean"

def nullValue : Decoder Unit
  | _, .null => .ok ()
  | _, node => wrongType node "unit"

def word32Value : Decoder UInt32
  | _, .number numeral => do
      match ← numeral.read with
      | .integer value =>
          if 0 ≤ value ∧ value < 0x100000000 then .ok (.ofNat value.toNat)
          else mismatch (.invalidValue (.integer value) "u32")
      | number => mismatch (.invalidType number.found "u32")
  | _, node => wrongType node "u32"

def optionOf (decode : Decoder α) : Decoder (Option α)
  | _, .null => .ok none
  | room, node => do return some (← decode room node)

def listOf (decode : Decoder α) : Decoder (List α)
  | room, .array items ending => descend room fun room => do
      let values ← items.mapM (decode room)
      ending.check
      return values
  | _, node => wrongType node "a sequence"

def nameValue [Enumeration α] (value : α) : Value :=
  .string (Enumeration.name value)

def namedVariant [Enumeration α] (name : String) : Reading α :=
  match Enumeration.ofName? name with
  | some value => .ok value
  | none => mismatch (.unknownVariant name ((Enumeration.all : List α).map Enumeration.name))

def variantName [Enumeration α] : Decoder α
  | _, .string literal => do namedVariant (← literal.text)
  | _, node => wrongType node "variant identifier"

/-- A variant is given by its name, or by an object whose only member has that name and no
value. -/
def enumValue [Enumeration α] : Decoder α
  | _, .string literal => do namedVariant (← literal.text)
  | room, .object members ending => descend room fun room =>
      match members, ending with
      | (key, node) :: rest, ending => do
          let value ← namedVariant (← key.text)
          nullValue room node
          match rest, ending with
          | [], .closed => return value
          | [], .endOfText => malformed .endInObject
          | _, _ => malformed .expectedValue
      | [], .noColon key atEnd => do
          let _ : α ← namedVariant (← key.text)
          malformed (colonError atEnd)
      | [], .notKey => malformed .keyNotString
      | [], .endOfText => malformed .endInObject
      | [], _ => malformed .expectedValue
  | _, .fault .endOfText => malformed .endInValue
  | _, _ => malformed .expectedValue

/-! ### Records -/

structure Field (α : Type) where
  name : String
  /-- A field that is not required keeps its initial value when it is left out. -/
  required : Bool
  read : Nat → Node → α → Reading α

def Field.of (name : String) (required : Bool) (decode : Decoder β) (set : α → β → α) :
    Field α where
  name
  required
  read room node record := do return set record (← decode room node)

def Field.require (name : String) (decode : Decoder β) (set : α → β → α) : Field α :=
  .of name true decode set

def Field.allow (name : String) (decode : Decoder β) (set : α → β → α) : Field α :=
  .of name false decode set

/-- A record is an object, or an array of its fields in order. -/
structure Record (α : Type) where
  title : String
  initial : α
  fields : List (Field α)

namespace Record

def field? (shape : Record α) (name : String) : Option (Field α) :=
  shape.fields.find? (·.name = name)

def checkNew (shape : Record α) (seen : List String) (name : String) : Reading Unit :=
  if (shape.field? name).isSome ∧ name ∈ seen then mismatch (.duplicateField name) else .ok ()

def readMember (shape : Record α) (room : Nat) (seen : List String) (name : String) (node : Node)
    (record : α) : Reading α := do
  shape.checkNew seen name
  match shape.field? name with
  | some field => field.read room node record
  | none => do
      node.skip
      return record

def readMembers (shape : Record α) (room : Nat) (seen : List String) (record : α) :
    List (Literal × Node) → Reading (α × List String)
  | [] => .ok (record, seen)
  | (key, node) :: rest => do
      let name ← key.text
      let record ← shape.readMember room seen name node record
      readMembers shape room (name :: seen) record rest

def checkComplete (shape : Record α) (seen : List String) : Reading Unit :=
  match shape.fields.find? fun field => field.required && !seen.contains field.name with
  | some field => mismatch (.missingField field.name)
  | none => .ok ()

def expectedLength (shape : Record α) : String :=
  let count := shape.fields.length
  shape.title ++ s!" with {count} " ++ (if count = 1 then "element" else "elements")

def checkArrayEnd : List Node → ArrayEnding → Reading Unit
  | [], .closed => .ok ()
  | [], .endOfText => malformed .endInArray
  | [], .danglingComma => malformed .trailingComma
  | _, _ => malformed .trailingChars

def readItems (shape : Record α) (room : Nat) (ending : ArrayEnding) (index : Nat) (record : α) :
    List (Field α) → List Node → Reading α
  | [], items => do
      checkArrayEnd items ending
      return record
  | field :: fields, [] => do
      ending.check
      if field.required then mismatch (.invalidLength index shape.expectedLength)
      else readItems shape room ending (index + 1) record fields []
  | field :: fields, item :: items => do
      let record ← field.read room item record
      readItems shape room ending (index + 1) record fields items

def decode (shape : Record α) : Decoder α
  | room, .object members ending => descend room fun room => do
      let (record, seen) ← shape.readMembers room [] shape.initial members
      ending.check (shape.checkNew seen)
      shape.checkComplete seen
      return record
  | room, .array items ending => descend room fun room =>
      shape.readItems room ending 0 shape.initial shape.fields items
  | _, node => wrongType node shape.title

end Record

def readText (decode : Decoder α) (text : String) : Reading α := do
  let outline := Outline.ofText text
  let value ← decode startingRoom outline.root
  if outline.surplus then malformed .trailingChars else return value

def Value.ofText (text : String) : Reading Value :=
  readText Node.value text

end RiskRules.Json
