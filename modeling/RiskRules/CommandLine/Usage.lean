import RiskRules.Enumeration

/-!
What may stand on the command line: one command, with its options in any order. An option's value
follows it as the next argument, or stands in the same argument.
-/

namespace RiskRules.CommandLine

inductive CommandName
  | compile
  | inspect
  | evaluate
  deriving DecidableEq, Repr

instance : Enumeration CommandName where
  all := [.compile, .inspect, .evaluate]
  name
    | .compile => "compile"
    | .inspect => "inspect"
    | .evaluate => "evaluate"
  mem_all := by intro value; cases value <;> decide
  name_injective := by intro left right; cases left <;> cases right <;> decide

inductive PathOption
  | input
  | output
  | template
  | rules
  | model
  deriving DecidableEq, Repr

instance : Enumeration PathOption where
  all := [.input, .output, .template, .rules, .model]
  name
    | .input => "input"
    | .output => "output"
    | .template => "template"
    | .rules => "rules"
    | .model => "model"
  mem_all := by intro value; cases value <;> decide
  name_injective := by intro left right; cases left <;> cases right <;> decide

def PathOption.letter : PathOption → Char
  | .input => 'i'
  | .output => 'o'
  | .template => 't'
  | .rules => 'r'
  | .model => 'm'

def CommandName.options : CommandName → List PathOption
  | .compile => [.input, .output, .template]
  | .inspect => [.input, .template]
  | .evaluate => [.rules, .model]

inductive Command
  | compile (input output : String) (template : Option String)
  | inspect (input : String) (template : Option String)
  | evaluate (rules model : String)
  deriving DecidableEq, Repr

inductive Request
  | run (command : Command) (verbose : Bool)
  | help
  | wrong
  deriving DecidableEq, Repr

structure Given where
  paths : List (PathOption × String)
  verbose : Bool
  deriving DecidableEq, Repr

namespace Given

def none : Given := ⟨[], false⟩

def path? (given : Given) (option : PathOption) : Option String :=
  given.paths.lookup option

def addPath (given : Given) (option : PathOption) (path : String) : Option Given :=
  if path = "" || (given.path? option).isSome then .none
  else some { given with paths := given.paths ++ [(option, path)] }

def addVerbose (given : Given) : Option Given :=
  if given.verbose then .none else some { given with verbose := true }

end Given

inductive Effect
  | settled (given : Given)
  | awaits (option : PathOption) (given : Given)
  | help
  | wrong
  deriving DecidableEq, Repr

def Effect.ofGiven? : Option Given → Effect
  | some given => .settled given
  | none => .wrong

/-- The letters of an argument with one dash. An option that takes a path takes what is left, and
an equals sign may stand before it. -/
def readLetters (options : List PathOption) (given : Given) : List Char → Effect
  | [] => .settled given
  | 'h' :: _ => .help
  | 'v' :: rest =>
      match given.addVerbose with
      | some given => readLetters options given rest
      | none => .wrong
  | letter :: rest =>
      match options.find? (·.letter = letter) with
      | none => .wrong
      | some option =>
          match rest with
          | [] => .awaits option given
          | '=' :: path => .ofGiven? (given.addPath option (String.ofList path))
          | path => .ofGiven? (given.addPath option (String.ofList path))

def readWord (options : List PathOption) (given : Given) (text : List Char) : Effect :=
  let word := String.ofList (text.takeWhile (· ≠ '='))
  match text.dropWhile (· ≠ '=') with
  | [] =>
      if word = "help" then .help
      else if word = "verbose" then .ofGiven? given.addVerbose
      else match options.find? (Enumeration.name · = word) with
        | some option => .awaits option given
        | none => .wrong
  | _ :: path =>
      match options.find? (Enumeration.name · = word) with
      | some option => .ofGiven? (given.addPath option (String.ofList path))
      | none => .wrong

def readArgument (options : List PathOption) (given : Given) (argument : String) : Effect :=
  match argument.toList with
  | '-' :: '-' :: text => readWord options given text
  | '-' :: letter :: rest => readLetters options given (letter :: rest)
  | _ => .wrong

def isPath (argument : String) : Bool :=
  argument = "-" || !(['-'].isPrefixOf argument.toList)

def commandOf (given : Given) : CommandName → Option Command
  | .compile => some <| .compile
      ((given.path? .input).getD "input/threat_catalog.xsam")
      ((given.path? .output).getD "generated/automotive_rules.json")
      (given.path? .template)
  | .inspect => some <| .inspect
      ((given.path? .input).getD "input/threat_catalog.xsam")
      (given.path? .template)
  | .evaluate => do return .evaluate (← given.path? .rules) (← given.path? .model)

def requestOf (given : Given) (outerVerbose : Bool) (name : CommandName) : Request :=
  match commandOf given name with
  | some command => .run command (given.verbose || outerVerbose)
  | none => .wrong

def readOptions (outerVerbose : Bool) (name : CommandName) (given : Given) :
    List String → Request
  | [] => requestOf given outerVerbose name
  | argument :: rest =>
      if argument = "--" then
        if rest.isEmpty then requestOf given outerVerbose name else .wrong
      else match readArgument name.options given argument with
        | .help => .help
        | .wrong => .wrong
        | .settled given => readOptions outerVerbose name given rest
        | .awaits option given =>
            match rest with
            | [] => .wrong
            | path :: rest =>
                match if isPath path then given.addPath option path else none with
                | some given => readOptions outerVerbose name given rest
                | none => .wrong

def readHelp : List String → Request
  | [] => .help
  | [topic] =>
      if topic = "help" || (Enumeration.ofName? topic : Option CommandName).isSome then .help
      else .wrong
  | _ => .wrong

def readFrom (given : Given) : List String → Request
  | [] => .wrong
  | argument :: rest =>
      match Enumeration.ofName? argument with
      | some name => readOptions given.verbose name .none rest
      | none =>
          if argument = "help" then readHelp rest
          else match readArgument [] given argument with
            | .help => .help
            | .settled given => readFrom given rest
            | _ => .wrong

def Request.ofArguments (arguments : List String) : Request :=
  readFrom .none arguments

end RiskRules.CommandLine
