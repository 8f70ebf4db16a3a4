import RiskRules.Text.Quoted

/-!
Text patterns such as `<b>{title}</b> at {component}`. A name in braces is a slot that
is filled in later; a doubled brace stands for the brace itself.
-/

namespace RiskRules

inductive Slot
  | title
  | component
  deriving DecidableEq, Repr

def Slot.name : Slot → String
  | .title => "title"
  | .component => "component"

def Slot.ofName? (name : List Char) : Option Slot :=
  if name = Slot.title.name.toList then some .title
  else if name = Slot.component.name.toList then some .component
  else none

def Slot.placeholder (slot : Slot) : String :=
  "\x7b" ++ slot.name ++ "\x7d"

inductive Segment
  | literal (text : List Char)
  | slot (slot : Slot)
  deriving DecidableEq, Repr

structure Pattern where
  source : String
  segments : List Segment
  deriving DecidableEq, Repr

inductive PatternError
  | unterminated (pattern : String)
  | unmatchedClose (pattern : String)
  | unknownSlot (name pattern : String)
  deriving DecidableEq, Repr

def PatternError.message : PatternError → String
  | .unterminated pattern => "unterminated placeholder in pattern " ++ Text.quoted pattern
  | .unmatchedClose pattern => "unmatched '\x7d' in pattern " ++ Text.quoted pattern
  | .unknownSlot name pattern =>
      "unknown placeholder \x7b" ++ name ++ "\x7d in pattern " ++ Text.quoted pattern

namespace Pattern

def flush (literal : List Char) (done : List Segment) : List Segment :=
  if literal.isEmpty then done else .literal literal.reverse :: done

/-- The segments of the rest of `source`. `done` holds the segments so far, last first, and
`literal` the characters of the run being read; inside a placeholder `name` holds those of its
name. -/
def readSegments (source : String) (done : List Segment) (literal : List Char) :
    (name : Option (List Char)) → List Char → Except PatternError (List Segment)
  | none, [] => .ok (flush literal done).reverse
  | some _, [] => .error (.unterminated source)
  | some name, '\x7d' :: rest =>
      match Slot.ofName? name.reverse with
      | some slot => readSegments source (.slot slot :: flush literal done) [] none rest
      | none => .error (.unknownSlot (String.ofList name.reverse) source)
  | some name, char :: rest => readSegments source done literal (some (char :: name)) rest
  | none, '\x7b' :: '\x7b' :: rest => readSegments source done ('\x7b' :: literal) none rest
  | none, '\x7d' :: '\x7d' :: rest => readSegments source done ('\x7d' :: literal) none rest
  | none, '\x7b' :: rest => readSegments source done literal (some []) rest
  | none, '\x7d' :: _ => .error (.unmatchedClose source)
  | none, char :: rest => readSegments source done (char :: literal) none rest

def parse (source : String) : Except PatternError Pattern :=
  (readSegments source [] [] none source.toList).map fun segments => ⟨source, segments⟩

def escape (text : List Char) : List Char :=
  text.flatMap fun char => if char = '\x7b' ∨ char = '\x7d' then [char, char] else [char]

def aroundComponent (before after : String) : Pattern where
  source := String.ofList (escape before.toList) ++ Slot.component.placeholder
    ++ String.ofList (escape after.toList)
  segments := (flush before.toList.reverse []) ++ .slot .component :: flush after.toList.reverse []

def uses (pattern : Pattern) (slot : Slot) : Bool :=
  pattern.segments.any (· = .slot slot)

def Segment.fill (title component : String) : Segment → List Char
  | .literal text => text
  | .slot .title => title.toList
  | .slot .component => component.toList

/-- Slot values are inserted as they are and never read as a pattern again. -/
def render (pattern : Pattern) (title component : String) : String :=
  String.ofList (pattern.segments.flatMap (Segment.fill title component))

end Pattern

end RiskRules
