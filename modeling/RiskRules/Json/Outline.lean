import RiskRules.Json.Token

/-!
The nesting of a JSON text, as far as the text goes well. A container records how it ends, and the
last branch of the tree may end in a fault. Whoever reads the tree from left to right meets every
fault where the text has it, so a reader that wants something else there can say so first.
-/

namespace RiskRules.Json

inductive ArrayEnding
  | closed
  | endOfText
  | noSeparator
  | danglingComma
  | endAfterComma
  deriving DecidableEq, Repr

inductive ObjectEnding
  | closed
  | endOfText
  | noSeparator
  | danglingComma
  | endAfterComma
  | notKey
  | noColon (key : Literal) (atEnd : Bool)
  deriving DecidableEq, Repr

inductive Node
  | null
  | bool (value : Bool)
  | number (numeral : Numeral)
  | string (literal : Literal)
  | array (items : List Node) (ending : ArrayEnding)
  | object (members : List (Literal × Node)) (ending : ObjectEnding)
  | fault (fault : ValueFault)

structure Outline where
  root : Node
  surplus : Bool

inductive Frame
  | array (items : List Node)
  | object (members : List (Literal × Node)) (key : Literal)

inductive Progress
  | value (frames : List Frame)
  | firstItem (frames : List Frame)
  | nextItem (items : List Node) (frames : List Frame)
  | afterItem (items : List Node) (frames : List Frame)
  | firstKey (frames : List Frame)
  | nextKey (members : List (Literal × Node)) (frames : List Frame)
  | afterKey (members : List (Literal × Node)) (key : Literal) (frames : List Frame)
  | afterMember (members : List (Literal × Node)) (frames : List Frame)
  | complete (root : Node)
  | stopped (outline : Outline)

namespace Progress

def deliver (node : Node) : List Frame → Progress
  | [] => .complete node
  | .array items :: frames => .afterItem (node :: items) frames
  | .object members key :: frames => .afterMember ((key, node) :: members) frames

def enclose (node : Node) : List Frame → Node
  | [] => node
  | .array items :: frames => enclose (.array (node :: items).reverse .endOfText) frames
  | .object members key :: frames =>
      enclose (.object ((key, node) :: members).reverse .endOfText) frames

def stop (node : Node) (frames : List Frame) : Progress :=
  .stopped ⟨enclose node frames, false⟩

def stopArray (items : List Node) (ending : ArrayEnding) (frames : List Frame) : Progress :=
  stop (.array items.reverse ending) frames

def stopObject (members : List (Literal × Node)) (ending : ObjectEnding) (frames : List Frame) :
    Progress :=
  stop (.object members.reverse ending) frames

def beginValue (frames : List Frame) : Token → Progress
  | .null => deliver .null frames
  | .bool truth => deliver (.bool truth) frames
  | .number numeral => deliver (.number numeral) frames
  | .string literal => deliver (.string literal) frames
  | .openArray => .firstItem frames
  | .openObject => .firstKey frames
  | .fault fault => stop (.fault fault) frames
  | .closeArray | .closeObject | .comma | .colon => stop (.fault .noValue) frames

def step : Progress → Token → Progress
  | .value frames, token => beginValue frames token
  | .firstItem frames, .closeArray => deliver (.array [] .closed) frames
  | .firstItem frames, token => beginValue (.array [] :: frames) token
  | .nextItem items frames, .closeArray => stopArray items .danglingComma frames
  | .nextItem items frames, token => beginValue (.array items :: frames) token
  | .afterItem items frames, .comma => .nextItem items frames
  | .afterItem items frames, .closeArray => deliver (.array items.reverse .closed) frames
  | .afterItem items frames, _ => stopArray items .noSeparator frames
  | .firstKey frames, .string key => .afterKey [] key frames
  | .firstKey frames, .closeObject => deliver (.object [] .closed) frames
  | .firstKey frames, _ => stopObject [] .notKey frames
  | .nextKey members frames, .string key => .afterKey members key frames
  | .nextKey members frames, .closeObject => stopObject members .danglingComma frames
  | .nextKey members frames, _ => stopObject members .notKey frames
  | .afterKey members key frames, .colon => .value (.object members key :: frames)
  | .afterKey members key frames, _ => stopObject members (.noColon key false) frames
  | .afterMember members frames, .comma => .nextKey members frames
  | .afterMember members frames, .closeObject => deliver (.object members.reverse .closed) frames
  | .afterMember members frames, _ => stopObject members .noSeparator frames
  | .complete root, _ => .stopped ⟨root, true⟩
  | .stopped outline, _ => .stopped outline

def finish : Progress → Outline
  | .value frames => ⟨enclose (.fault .endOfText) frames, false⟩
  | .firstItem frames => ⟨enclose (.array [] .endOfText) frames, false⟩
  | .nextItem items frames => ⟨enclose (.array items.reverse .endAfterComma) frames, false⟩
  | .afterItem items frames => ⟨enclose (.array items.reverse .endOfText) frames, false⟩
  | .firstKey frames => ⟨enclose (.object [] .endOfText) frames, false⟩
  | .nextKey members frames => ⟨enclose (.object members.reverse .endAfterComma) frames, false⟩
  | .afterKey members key frames =>
      ⟨enclose (.object members.reverse (.noColon key true)) frames, false⟩
  | .afterMember members frames => ⟨enclose (.object members.reverse .endOfText) frames, false⟩
  | .complete root => ⟨root, false⟩
  | .stopped outline => outline

end Progress

def Outline.ofTokens (tokens : List Token) : Outline :=
  (tokens.foldl Progress.step (.value [])).finish

def Outline.ofText (text : String) : Outline :=
  .ofTokens (tokens text.toList)

end RiskRules.Json
