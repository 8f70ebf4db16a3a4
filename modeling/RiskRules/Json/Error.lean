import RiskRules.Json.Number
import RiskRules.Text.Quoted
import RiskRules.Text.Rewriting

/-! Why a JSON text cannot be read as a value of some kind. -/

namespace RiskRules.Json

inductive SyntaxError
  | endInArray
  | endInObject
  | endInString
  | endInValue
  | expectedColon
  | expectedItemEnd
  | expectedMemberEnd
  | expectedWord
  | expectedValue
  | invalidEscape
  | invalidNumber
  | numberOutOfRange
  | controlChar
  | keyNotString
  | loneSurrogate
  | trailingComma
  | trailingChars
  | unexpectedEndOfEscape
  | tooDeep
  deriving DecidableEq, Repr

inductive Found
  | null
  | bool (value : Bool)
  | integer (value : Int)
  | float (bits : UInt64)
  | string (text : String)
  | sequence
  | map
  deriving DecidableEq, Repr

inductive DataError
  | missingField (name : String)
  | duplicateField (name : String)
  | unknownVariant (name : String) (expected : List String)
  | invalidType (found : Found) (expected : String)
  | invalidValue (found : Found) (expected : String)
  | invalidLength (length : Nat) (expected : String)
  | rejected (message : String)
  deriving DecidableEq, Repr

inductive ReadError
  | malformed (error : SyntaxError)
  | mismatch (error : DataError)
  deriving DecidableEq, Repr

def SyntaxError.isEarlyEnd : SyntaxError → Bool
  | .endInArray | .endInObject | .endInString | .endInValue => true
  | _ => false

def SyntaxError.message : SyntaxError → String
  | .endInArray => "EOF while parsing a list"
  | .endInObject => "EOF while parsing an object"
  | .endInString => "EOF while parsing a string"
  | .endInValue => "EOF while parsing a value"
  | .expectedColon => "expected `:`"
  | .expectedItemEnd => "expected `,` or `]`"
  | .expectedMemberEnd => "expected `,` or `\x7d`"
  | .expectedWord => "expected ident"
  | .expectedValue => "expected value"
  | .invalidEscape => "invalid escape"
  | .invalidNumber => "invalid number"
  | .numberOutOfRange => "number out of range"
  | .controlChar => "control character (\\u0000-\\u001F) found while parsing a string"
  | .keyNotString => "key must be a string"
  | .loneSurrogate => "lone leading surrogate in hex escape"
  | .trailingComma => "trailing comma"
  | .trailingChars => "trailing characters"
  | .unexpectedEndOfEscape => "unexpected end of hex escape"
  | .tooDeep => "recursion limit exceeded"

def inTicks (text : String) : String :=
  "`" ++ text ++ "`"

def Found.describe : Found → String
  | .null => "null"
  | .bool value => "boolean " ++ inTicks (if value then "true" else "false")
  | .integer value => "integer " ++ inTicks (String.ofList (Number.integer value).text)
  | .float bits => "floating point " ++ inTicks (String.ofList (Number.float bits).text)
  | .string text => "string " ++ Text.quoted text
  | .sequence => "sequence"
  | .map => "map"

def describeChoices : List String → String
  | [first, second] => inTicks first ++ " or " ++ inTicks second
  | names => "one of " ++ ", ".intercalate (names.map inTicks)

def DataError.message : DataError → String
  | .missingField name => "missing field " ++ inTicks name
  | .duplicateField name => "duplicate field " ++ inTicks name
  | .unknownVariant name expected =>
      "unknown variant " ++ inTicks name ++ ", expected " ++ describeChoices expected
  | .invalidType found expected => "invalid type: " ++ found.describe ++ ", expected " ++ expected
  | .invalidValue found expected => "invalid value: " ++ found.describe ++ ", expected " ++ expected
  | .invalidLength length expected => s!"invalid length {length}, expected " ++ expected
  | .rejected message => message

def ReadError.description : ReadError → String
  | .malformed error => error.message
  | .mismatch error => error.message

/-- What is wrong and not where, so a place is left out even if the text itself names it. -/
def ReadError.message (error : ReadError) : String :=
  Text.withoutPlaces error.description

def ReadError.category : ReadError → String
  | .malformed error => if error.isEarlyEnd then "eof" else "syntax"
  | .mismatch _ => "data"

end RiskRules.Json
