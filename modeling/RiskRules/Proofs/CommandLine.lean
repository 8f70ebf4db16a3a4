import RiskRules.Proofs.CommandLine.Answers
import RiskRules.Proofs.Compilation.Files

/-!
What the exit code of a run says, and what it leaves behind; and that a compilation and the
evaluations after it, which share nothing but a file, say what the rules compiled say.
-/

namespace RiskRules.CommandLine

open Files Action Json

/-! ### Looking at files -/

section

variable (system : System) (files : Files)

def look (path : String) : Except FileFault (List UInt8) :=
  ((system.access.read path).run files).1

def lookText (path : String) : Except FileFault String :=
  (look system files path).bind textOfBytes

def chosen (template : Option String) : Except TemplateError Template :=
  ((templateAt system.access template).run files).1

theorem run_read (path : String) :
    (system.access.read path).run files = (look system files path, files) := by
  rw [look, run_access_read]
  rcases (system.read_meets path).result with ⟨_, _, run, _, rfl⟩ | ⟨_, _, run, rfl⟩
  · rw [run]
  · rw [run]

theorem run_readText (path : String) :
    (system.access.readText path).run files = (lookText system files path, files) := by
  rw [FileAccess.readText, run_bind, run_read]
  rfl

theorem run_templateAt (template : Option String) :
    (templateAt system.access template).run files = (chosen system files template, files) := by
  rw [chosen]
  cases template with
  | none => rfl
  | some path =>
      rw [templateAt, FileAccess.loadTemplate, run_bind, run_readText]
      cases lookText system files path with
      | error fault => rfl
      | ok text => rfl

theorem run_runCompile (input output : String) (template : Option String) :
    (runCompile system.access input output template).run files =
      match chosen system files template with
      | .error error => (.failure .inputFailure error.message, files)
      | .ok template =>
          match (system.access.compileFile template input output).run files with
          | (.error error, after) => (.failure (statusOf error) error.message, after)
          | (.ok compilation, after) => (.success (compileAnswer output compilation), after) := by
  rw [runCompile, run_bind, run_templateAt]
  cases chosen system files template with
  | error error => rfl
  | ok template =>
      simp only [run_bind]
      rcases (system.access.compileFile template input output).run files with ⟨_ | _, after⟩
      · rfl
      · rfl

theorem run_runInspect (input : String) (template : Option String) :
    (runInspect system.access input template).run files =
      (match chosen system files template with
      | .error error => .failure .inputFailure error.message
      | .ok template =>
          match look system files input with
          | .error fault => unreadable input fault
          | .ok document => inspectOutcome template document, files) := by
  rw [runInspect, run_bind, run_templateAt]
  cases chosen system files template with
  | error error => rfl
  | ok template =>
      simp only [run_bind, run_read]
      cases look system files input with
      | error fault => rfl
      | ok document => rfl

theorem run_runEvaluate (rules model : String) :
    (runEvaluate system.access rules model).run files =
      (match lookText system files rules with
      | .error fault => unreadable rules fault
      | .ok packText =>
          match Pack.load packText with
          | .error error => .failure .inputFailure error.message
          | .ok pack =>
              match lookText system files model with
              | .error fault => unreadable model fault
              | .ok modelText =>
                  match Model.ofText modelText with
                  | .error error => .failure .inputFailure ("Invalid model: " ++ error.message)
                  | .ok parsed => .success (evaluateAnswer (pack.evaluate parsed)), files) := by
  rw [runEvaluate, run_bind, run_readText]
  cases lookText system files rules with
  | error fault => rfl
  | ok packText =>
      simp only
      cases Pack.load packText with
      | error error => rfl
      | ok pack =>
          simp only [run_bind, run_readText]
          cases lookText system files model with
          | error fault => rfl
          | ok modelText =>
              simp only
              cases Model.ofText modelText with
              | error error => rfl
              | ok parsed => rfl

end

/-! ### Exit codes -/

section

variable (system : System) (files : Files)

def Succeeds : Command → Prop
  | .compile input output template => ∃ chosenTemplate compilation,
      chosen system files template = .ok chosenTemplate ∧
        ((system.access.compileFile chosenTemplate input output).run files).1 = .ok compilation
  | .inspect input template => ∃ chosenTemplate document inspection,
      chosen system files template = .ok chosenTemplate ∧
        look system files input = .ok document ∧
        RiskRules.inspect chosenTemplate document = .ok inspection
  | .evaluate rules model => ∃ packText pack modelText parsed,
      lookText system files rules = .ok packText ∧ Pack.load packText = .ok pack ∧
        lookText system files model = .ok modelText ∧ Model.ofText modelText = .ok parsed

/-- Compiling or inspecting goes wrong, and not because of a file. -/
def Refuses : Command → Prop
  | .compile input output template => ∃ chosenTemplate error,
      chosen system files template = .ok chosenTemplate ∧
        ((system.access.compileFile chosenTemplate input output).run files).1 = .error error ∧
        ∀ path fault, error ≠ .files path fault
  | .inspect input template => ∃ chosenTemplate document error,
      chosen system files template = .ok chosenTemplate ∧
        look system files input = .ok document ∧
        RiskRules.inspect chosenTemplate document = .error error ∧
        ∀ path fault, error ≠ .files path fault
  | .evaluate _ _ => False

end

structure Judges (system : System) (files : Files) (command : Command) (status : ExitStatus) :
    Prop where
  success : status = .success ↔ Succeeds system files command
  refusal : status = .compileFailure ↔ Refuses system files command
  usage : status ≠ .wrongUsage

namespace Judges

variable {system : System} {files : Files} {command : Command} {status : ExitStatus}

theorem succeeded (succeeds : Succeeds system files command)
    (accepted : ¬Refuses system files command) : Judges system files command .success :=
  ⟨iff_of_true rfl succeeds, iff_of_false nofun accepted, nofun⟩

theorem failed (fails : ¬Succeeds system files command)
    (accepted : ¬Refuses system files command) : Judges system files command .inputFailure :=
  ⟨iff_of_false nofun fails, iff_of_false nofun accepted, nofun⟩

theorem refused {error : CompileError} (fails : ¬Succeeds system files command)
    (refuses : Refuses system files command ↔ ∀ path fault, error ≠ .files path fault) :
    Judges system files command (statusOf error) := by
  cases error with
  | files path fault =>
      refine failed fails ?_
      intro refusal
      exact refuses.mp refusal path fault rfl
  | _ => exact ⟨iff_of_false nofun fails, iff_of_true rfl (refuses.mpr nofun), nofun⟩

theorem code_zero (judges : Judges system files command status) :
    status.code = 0 ↔ Succeeds system files command := by
  rw [← judges.success]
  cases status <;> decide

theorem code_two (judges : Judges system files command status) :
    status.code = 2 ↔ Refuses system files command := by
  rw [← judges.refusal]
  have usage := judges.usage
  cases status with
  | wrongUsage => contradiction
  | _ => decide

theorem code_one (judges : Judges system files command status) :
    status.code = 1 ↔ ¬Succeeds system files command ∧ ¬Refuses system files command := by
  rw [← judges.success, ← judges.refusal]
  have usage := judges.usage
  cases status with
  | wrongUsage => contradiction
  | _ => decide

end Judges

theorem judges_compile (system : System) (files : Files) (input output : String)
    (template : Option String) :
    Judges system files (.compile input output template)
      ((runCompile system.access input output template).run files).1.status := by
  rw [run_runCompile]
  cases used : chosen system files template with
  | error error => exact .failed (by simp [Succeeds, used]) (by simp [Refuses, used])
  | ok chosenTemplate =>
      simp only
      rcases ends : (system.access.compileFile chosenTemplate input output).run files with
        ⟨error | compilation, after⟩
      · exact .refused (by simp [Succeeds, used, ends]) (by simp [Refuses, used, ends])
      · exact .succeeded (by simp [Succeeds, used, ends]) (by simp [Refuses, used, ends])

theorem judges_inspect (system : System) (files : Files) (input : String)
    (template : Option String) :
    Judges system files (.inspect input template)
      ((runInspect system.access input template).run files).1.status := by
  rw [run_runInspect]
  cases used : chosen system files template with
  | error error => exact .failed (by simp [Succeeds, used]) (by simp [Refuses, used])
  | ok chosenTemplate =>
      simp only
      cases read : look system files input with
      | error fault => exact .failed (by simp [Succeeds, read]) (by simp [Refuses, read])
      | ok document =>
          simp only [inspectOutcome]
          cases seen : RiskRules.inspect chosenTemplate document with
          | error error =>
              exact .refused (by simp [Succeeds, used, read, seen])
                (by simp [Refuses, used, read, seen])
          | ok inspection =>
              exact .succeeded (by simp [Succeeds, used, read, seen])
                (by simp [Refuses, used, read, seen])

theorem judges_evaluate (system : System) (files : Files) (rules model : String) :
    Judges system files (.evaluate rules model)
      ((runEvaluate system.access rules model).run files).1.status := by
  rw [run_runEvaluate]
  cases readRules : lookText system files rules with
  | error fault => exact .failed (by simp [Succeeds, readRules]) id
  | ok packText =>
      simp only
      cases loaded : Pack.load packText with
      | error error => exact .failed (by simp [Succeeds, readRules, loaded]) id
      | ok pack =>
          simp only
          cases readModel : lookText system files model with
          | error fault => exact .failed (by simp [Succeeds, readModel]) id
          | ok modelText =>
              simp only
              cases parses : Model.ofText modelText with
              | error error => exact .failed (by simp [Succeeds, readModel, parses]) id
              | ok parsed =>
                  exact .succeeded ⟨packText, pack, modelText, parsed, readRules, loaded,
                    readModel, parses⟩ id

theorem run_of_request {system : System} {files : Files} {arguments : List String}
    {command : Command} {verbose : Bool}
    (asked : Request.ofArguments arguments = .run command verbose) :
    (run system.access arguments).run files = (command.run system.access).run files := by
  rw [run, asked]

theorem judges_run {system : System} {files : Files} {arguments : List String}
    {command : Command} {verbose : Bool}
    (asked : Request.ofArguments arguments = .run command verbose) :
    Judges system files command ((run system.access arguments).run files).1.status := by
  rw [run_of_request asked]
  cases command with
  | compile input output template => exact judges_compile system files input output template
  | inspect input template => exact judges_inspect system files input template
  | evaluate rules model => exact judges_evaluate system files rules model

/-! ### What a run leaves behind -/

theorem kept_of_inspect (system : System) (files : Files) (input : String)
    (template : Option String) :
    ((runInspect system.access input template).run files).2 = files := by
  rw [run_runInspect]

theorem kept_of_evaluate (system : System) (files : Files) (rules model : String) :
    ((runEvaluate system.access rules model).run files).2 = files := by
  rw [run_runEvaluate]

theorem kept_of_compile (system : System) (files : Files) (input output : String)
    (template : Option String) :
    ((runCompile system.access input output template).run files).1.status.code ≠ 0 →
      ((runCompile system.access input output template).run files).2.file? = files.file? := by
  rw [run_runCompile]
  cases chosen system files template with
  | error error =>
      intro _
      rfl
  | ok chosenTemplate =>
      simp only
      have ends := compiledFile system files chosenTemplate input output
      generalize (system.access.compileFile chosenTemplate input output).run files = result
        at ends ⊢
      intro unsuccessful
      cases ends with
      | unread => rfl
      | refused => rfl
      | unwritten _ _ grown => exact grown.1
      | written => exact absurd rfl unsuccessful

theorem kept_of_run {system : System} {files : Files} {arguments : List String}
    (unsuccessful : ((run system.access arguments).run files).1.status.code ≠ 0) :
    ((run system.access arguments).run files).2.file? = files.file? := by
  cases asked : Request.ofArguments arguments with
  | wrong =>
      rw [run, asked]
      rfl
  | help =>
      rw [run, asked]
      rfl
  | run command verbose =>
      rw [run_of_request asked] at unsuccessful ⊢
      cases command with
      | compile input output template =>
          exact kept_of_compile system files input output template unsuccessful
      | inspect input template => exact congrArg file? (kept_of_inspect system files input template)
      | evaluate rules model => exact congrArg file? (kept_of_evaluate system files rules model)

/-! ### A compilation and the evaluations after it -/

theorem look_plain (files : Files) (path : String) : look plain files path = files.read path :=
  congrArg Prod.fst (run_plain_read files path)

theorem code_failure_ne_zero (error : CompileError) (message : String) :
    (Outcome.failure (statusOf error) message).status.code ≠ 0 := by
  cases error with
  | files path fault => exact nofun
  | _ => exact nofun

theorem compiled_of_success {files after : Files} {input output : String}
    {template : Option String} {outcome : Outcome}
    (ran : (runCompile Files.access input output template).run files = (outcome, after))
    (successful : outcome.status.code = 0) :
    ∃ chosenTemplate document compilation,
      chosen plain files template = .ok chosenTemplate ∧ files.read input = .ok document ∧
        compile chosenTemplate document = .ok compilation ∧
        outcome = .success (compileAnswer output compilation) ∧
        Replaced files output (Text.encodeUtf8 compilation.pack.render) after := by
  rw [Files.access, run_runCompile] at ran
  cases used : chosen plain files template with
  | error error =>
      rw [used] at ran
      cases ran
      cases successful
  | ok chosenTemplate =>
      simp only [used] at ran
      have ends := compiledFile plain files chosenTemplate input output
      generalize (plain.access.compileFile chosenTemplate input output).run files = result
        at ends ran
      cases ends with
      | written read compiled replaced =>
          cases ran
          exact ⟨chosenTemplate, _, _, rfl, read, compiled, rfl, replaced⟩
      | _ =>
          cases ran
          exact absurd successful (code_failure_ne_zero _ _)

def Describes (files : Files) (path : String) (model : Model) : Prop :=
  ∃ bytes text, files.read path = .ok bytes ∧ Text.decodeUtf8 bytes = .ok text ∧
    Model.ofText text = .ok model

theorem textOfBytes_eq_ok {bytes : List UInt8} {text : String} :
    textOfBytes bytes = .ok text ↔ Text.decodeUtf8 bytes = .ok text :=
  mapError_eq_ok

theorem describes_iff {files : Files} {path : String} {model : Model} :
    Describes files path model ↔
      ∃ text, lookText plain files path = .ok text ∧ Model.ofText text = .ok model := by
  rw [lookText, look_plain]
  cases read : files.read path with
  | error fault => simp [Describes, read, Except.bind]
  | ok bytes => simp [Describes, read, Except.bind, textOfBytes_eq_ok]

theorem run_evaluate_of_pack {files : Files} {rules model : String} {pack : Pack}
    (read : files.read rules = .ok (Text.encodeUtf8 pack.render))
    (loads : Pack.load pack.render = .ok pack) :
    (((runEvaluate Files.access rules model).run files).1.status.code = 0 ↔
      ∃ parsed, Describes files model parsed) ∧
    ∀ parsed, Describes files model parsed →
      ((runEvaluate Files.access rules model).run files).1 =
        .success (evaluateAnswer (pack.evaluate parsed)) := by
  have readText : lookText plain files rules = .ok pack.render := by
    rw [lookText, look_plain, read]
    exact textOfBytes_eq_ok.mpr (Text.decodeUtf8_encodeUtf8 pack.render)
  constructor
  · rw [Files.access, (judges_evaluate plain files rules model).code_zero]
    constructor
    · rintro ⟨_, _, modelText, parsed, -, -, readModel, parses⟩
      exact ⟨parsed, describes_iff.mpr ⟨modelText, readModel, parses⟩⟩
    · rintro ⟨parsed, describes⟩
      obtain ⟨modelText, readModel, parses⟩ := describes_iff.mp describes
      exact ⟨_, pack, modelText, parsed, readText, loads, readModel, parses⟩
  · intro parsed describes
    obtain ⟨modelText, readModel, parses⟩ := describes_iff.mp describes
    rw [Files.access, run_runEvaluate]
    simp only [readText, loads, readModel, parses]

/-- After a compilation that succeeds, an evaluation of the pack succeeds on exactly the files that
describe a model. Read back, what the compilation prints lists the rules compiled, and what the
evaluation prints holds for each of them, in this order, its identifier and what it finds, with the
number of all findings. The exit code tells apart what went wrong, and a run that fails or does not
compile changes no file. -/
theorem runs_agree :
    (∀ files after arguments input output template verbose outcome,
      Request.ofArguments arguments = .run (.compile input output template) verbose →
      (run Files.access arguments).run files = (outcome, after) → outcome.status.code = 0 →
      ∃ chosenTemplate document compilation,
        chosen plain files template = .ok chosenTemplate ∧ files.read input = .ok document ∧
        compile chosenTemplate document = .ok compilation ∧
        Listing.ofText outcome.output = .ok {
          success := true
          output
          rules := compilation.pack.rules.length
          registry := compilation.pack.rules.map Rule.identifier
          packHash := compilation.pack.packHash
          dropped := compilation.inspection.normalization.dropped.length } ∧
        Replaced files output (Text.encodeUtf8 compilation.pack.render) after ∧
        ∀ evaluation model quiet,
          Request.ofArguments evaluation = .run (.evaluate output model) quiet →
          (((run Files.access evaluation).run after).1.status.code = 0 ↔
            ∃ parsed, Describes after model parsed) ∧
          ∀ parsed, Describes after model parsed →
            Report.ofText ((run Files.access evaluation).run after).1.output = .ok {
              success := true
              findings :=
                (compilation.pack.rules.map fun rule => (rule.findings parsed).length).sum
              rules := compilation.pack.rules.map fun rule =>
                ⟨rule.identifier, rule.findings parsed⟩ }) ∧
    (∀ system files arguments command verbose,
      Request.ofArguments arguments = .run command verbose →
      (((run system.access arguments).run files).1.status.code = 0 ↔
        Succeeds system files command) ∧
      (((run system.access arguments).run files).1.status.code = 2 ↔
        Refuses system files command) ∧
      (((run system.access arguments).run files).1.status.code = 1 ↔
        ¬Succeeds system files command ∧ ¬Refuses system files command)) ∧
    ∀ (system : System) files arguments,
      (((run system.access arguments).run files).1.status.code ≠ 0 →
        ((run system.access arguments).run files).2.file? = files.file?) ∧
      ∀ command verbose, Request.ofArguments arguments = .run command verbose →
        (∀ input output template, command ≠ .compile input output template) →
        ((run system.access arguments).run files).2 = files := by
  refine ⟨?_, ?_, ?_⟩
  · intro files after arguments input output template verbose outcome asked ran successful
    have compiling : (runCompile Files.access input output template).run files =
        (outcome, after) := by
      rw [← ran, Files.access, run_of_request asked]
      rfl
    obtain ⟨chosenTemplate, document, compilation, used, read, compiled, rfl, replaced⟩ :=
      compiled_of_success compiling successful
    have loads := load_render_of_compile compiled
    have registry : compilation.pack.registry = compilation.pack.rules.map Rule.identifier :=
      (Pack.load_eq_ok.mp loads).2.1
    refine ⟨chosenTemplate, document, compilation, used, read, compiled, ?_, replaced, ?_⟩
    · rw [← registry]
      exact ofText_compileAnswer output compilation
    · intro evaluation model quiet askedToo
      have evaluating : (run Files.access evaluation).run after =
          (runEvaluate Files.access output model).run after := by
        rw [Files.access, run_of_request askedToo]
        rfl
      obtain ⟨exits, reports⟩ := @run_evaluate_of_pack after output model _ replaced.1 loads
      rw [evaluating]
      refine ⟨exits, ?_⟩
      intro parsed describes
      have printed := ofText_evaluateAnswer (compilation.pack.evaluate parsed)
      rw [Pack.evaluate, List.map_map, List.map_map] at printed
      rw [reports parsed describes]
      exact printed
  · intro system files arguments command verbose asked
    have judges : Judges system files command _ := judges_run asked
    exact ⟨judges.code_zero, judges.code_two, judges.code_one⟩
  · intro system files arguments
    refine ⟨kept_of_run, ?_⟩
    intro command verbose asked notCompile
    rw [run_of_request asked]
    cases command with
    | compile input output template => exact absurd rfl (notCompile input output template)
    | inspect input template => exact kept_of_inspect system files input template
    | evaluate rules model => exact kept_of_evaluate system files rules model

def emptyModel : List Char :=
  ['\x7b', '\x7d']

def desk (document : List UInt8) : Files :=
  ⟨[(["catalog"], .file document), (["model"], .file (Text.asciiBytes emptyModel))]⟩

theorem writable_desk (document : List UInt8) : (desk document).Writable "rules" := by
  refine ⟨rfl, by decide, "rules", ["rules"], rfl, by decide, by decide, rfl, ?_⟩
  intro isFolder
  cases isFolder

theorem describes_desk {document bytes : List UInt8} {after : Files}
    (replaced : Replaced (desk document) "rules" bytes after) :
    Describes after "model" .empty := by
  obtain ⟨_, target, resolved, others⟩ := replaced
  have named : after.resolve (Path.parts "rules") = .ok ["rules"] := rfl
  obtain rfl : ["rules"] = target := Except.ok.inj (named.symm.trans resolved)
  have different : ["model"] ≠ ["rules"] := by
    decide
  have there : after.file? ["model"] = some (Text.asciiBytes emptyModel) := by
    rw [others, Function.update_of_ne different]
    rfl
  have read : after.read "model" = .ok (Text.asciiBytes emptyModel) :=
    read_of_resolve rfl (by decide) rfl (content?_of_file? there)
  have ascii : ∀ char ∈ emptyModel, char.toNat < 0x80 := by
    simp [emptyModel]
  have parses : Model.ofText (String.ofList emptyModel) = .ok .empty := by
    cbv
  exact ⟨_, _, read, Text.decodeUtf8_ascii ascii, parses⟩

theorem runs_agree_desk : ∃ document outcome after listing report,
    (run Files.access ["compile", "-i", "catalog", "-o", "rules"]).run (desk document) =
        (outcome, after) ∧
      outcome.status.code = 0 ∧
      ((run Files.access ["evaluate", "-r", "rules", "-m", "model"]).run after).1.status.code =
        0 ∧
      Listing.ofText outcome.output = .ok listing ∧
      Report.ofText
        ((run Files.access ["evaluate", "-r", "rules", "-m", "model"]).run after).1.output =
          .ok report ∧
      report.rules.map RuleReport.identifier = listing.registry := by
  obtain ⟨_, compilation, compiled, _⟩ := compile_twins
  generalize Text.asciiBytes twins = document at compiled
  have asked : Request.ofArguments ["compile", "-i", "catalog", "-o", "rules"] =
      .run (.compile "catalog" "rules" none) false := by
    rfl
  have askedToo : Request.ofArguments ["evaluate", "-r", "rules", "-m", "model"] =
      .run (.evaluate "rules" "model") false := by
    rfl
  obtain ⟨agree, codes, _⟩ := runs_agree
  have read : (desk document).read "catalog" = .ok document := rfl
  have made := compileFile_of_writable (writable_desk document) .automotive "catalog"
  simp only [read, compiled] at made
  have successful := (codes plain (desk document) _ _ _ asked).1.mpr
    ⟨.automotive, compilation, rfl, made⟩
  rw [← Files.access] at successful
  rcases ran : (run Files.access ["compile", "-i", "catalog", "-o", "rules"]).run
    (desk document) with ⟨outcome, after⟩
  rw [ran] at successful
  obtain ⟨_, _, _, _, _, _, listed, replaced, evaluations⟩ :=
    agree _ _ _ _ _ _ _ _ asked ran successful
  obtain ⟨exits, reported⟩ := evaluations _ _ _ askedToo
  have describes := describes_desk replaced
  refine ⟨document, outcome, after, _, _, ran, successful, exits.mpr ⟨.empty, describes⟩, listed,
    reported _ describes, ?_⟩
  rw [List.map_map]
  rfl

end RiskRules.CommandLine
