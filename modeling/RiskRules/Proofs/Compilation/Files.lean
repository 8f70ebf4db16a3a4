import RiskRules.Compilation.Files
import RiskRules.Proofs.Files.Writing
import RiskRules.Proofs.Findings
import RiskRules.Proofs.Pack.RoundTrip

/-!
Compiling from one file into another. Either the whole pack is in its file and can be loaded again,
or every file is as it was, also when the catalog itself is to be replaced.
-/

namespace RiskRules

open Files Action

theorem load_render_of_compile {template : Template} {document : List UInt8}
    {compilation : Compilation} (compiled : compile template document = .ok compilation) :
    Pack.load compilation.pack.render = .ok compilation.pack := by
  obtain ⟨_, emitter, groups, accepted, _, _, _, emitted⟩ := compile_eq_ok.mp compiled
  exact Emitter.load_render_of_emit accepted emitted

theorem run_bind {α β : Type} (action : StateM Files α) (next : α → StateM Files β)
    (files : Files) :
    (action >>= next).run files = (next (action.run files).1).run (action.run files).2 :=
  rfl

section

variable (system : System) (files : Files)

theorem run_access_read (path : String) :
    (system.access.read path).run files = (system.read path).run.run files :=
  rfl

theorem run_access_replace (path text : String) :
    (system.access.replace path text).run files =
      (system.write path (Text.encodeUtf8 text)).run.run files :=
  rfl

theorem run_compileFile (template : Template) (input output : String) :
    (system.access.compileFile template input output).run files =
      match (system.read input).run.run files with
      | (.error fault, after) => (.error (.files input fault), after)
      | (.ok document, after) =>
          match compile template document with
          | .error error => (.error error, after)
          | .ok compilation =>
              match (system.write output
                  (Text.encodeUtf8 compilation.pack.render)).run.run after with
              | (.error fault, last) => (.error (.files output fault), last)
              | (.ok (), last) => (.ok compilation, last) := by
  rw [FileAccess.compileFile, run_bind, run_access_read]
  rcases (system.read input).run.run files with ⟨fault | document, after⟩
  · rfl
  · simp only
    cases compile template document with
    | error error => rfl
    | ok compilation =>
        simp only [run_bind, FileAccess.replaceText, run_access_replace]
        rcases (system.write output _).run.run after with ⟨fault | ⟨⟩, last⟩
        · rfl
        · rfl

end

inductive CompiledFile (system : System) (files : Files) (template : Template)
    (input output : String) : Except CompileError Compilation × Files → Prop
  | unread {fault : FileFault}
      (unreadable : ((system.access.read input).run files).1 = .error fault) :
      CompiledFile system files template input output (.error (.files input fault), files)
  | refused {document : List UInt8} {error : CompileError}
      (read : files.read input = .ok document)
      (refused : compile template document = .error error) :
      CompiledFile system files template input output (.error error, files)
  | unwritten {document : List UInt8} {compilation : Compilation} {fault : FileFault}
      {after : Files} (read : files.read input = .ok document)
      (compiled : compile template document = .ok compilation) (grown : Grown files after) :
      CompiledFile system files template input output (.error (.files output fault), after)
  | written {document : List UInt8} {compilation : Compilation} {after : Files}
      (read : files.read input = .ok document)
      (compiled : compile template document = .ok compilation)
      (replaced : Replaced files output (Text.encodeUtf8 compilation.pack.render) after) :
      CompiledFile system files template input output (.ok compilation, after)

theorem compiledFile (system : System) (files : Files) (template : Template)
    (input output : String) : CompiledFile system files template input output
      ((system.access.compileFile template input output).run files) := by
  rw [run_compileFile]
  rcases (system.read_meets input).result with
    ⟨document, _, run, read, rfl⟩ | ⟨fault, files, run, rfl⟩
  · rw [run]
    simp only
    cases made : compile template document with
    | error error => exact .refused read made
    | ok compilation =>
        simp only
        rcases (system.write_meets output _).result with
          ⟨_, after, run, replaced, _⟩ | ⟨fault, after, run, grown⟩
        · rw [run]
          exact .written read made replaced
        · rw [run]
          exact .unwritten read made grown
  · rw [run]
    exact .unread (congrArg Prod.fst run)

theorem run_plain_read (files : Files) (path : String) :
    (Files.access.read path).run files = (files.read path, files) := by
  rw [Files.access, run_access_read]
  rcases (read_plain path).result with ⟨bytes, _, run, read, rfl⟩ | ⟨fault, _, run, read, rfl⟩
  · rw [run, read]
  · rw [run, read]

theorem compileFile_of_writable {files : Files} {output : String} (writable : files.Writable output)
    (template : Template) (input : String) :
    ((Files.access.compileFile template input output).run files).1 =
      match files.read input with
      | .error fault => .error (.files input fault)
      | .ok document => compile template document := by
  rw [Files.access, run_compileFile, ← run_access_read, ← Files.access, run_plain_read]
  cases files.read input with
  | error fault => rfl
  | ok document =>
      simp only
      cases compile template document with
      | error error => rfl
      | ok compilation =>
          simp only
          rcases (write_plain writable _).result with ⟨_, after, run, _⟩ | ⟨_, _, _, impossible⟩
          · rw [run]
          · cases impossible

/-- Whatever else the system refuses, a compilation either leaves the whole pack in the file it is
for, from where it can be loaded again, and all other files alone, or it fails and leaves all files
alone. Where nothing stands in the way, it fails only if reading or compiling does. -/
theorem compileFile_atomic (system : System) (files : Files) (template : Template)
    (input output : String) :
    (∀ compilation after, (system.access.compileFile template input output).run files =
        (.ok compilation, after) →
      (∃ document, files.read input = .ok document ∧
        compile template document = .ok compilation) ∧
      Replaced files output (Text.encodeUtf8 compilation.pack.render) after ∧
      Pack.load compilation.pack.render = .ok compilation.pack) ∧
    (∀ error after, (system.access.compileFile template input output).run files =
        (.error error, after) →
      after.file? = files.file? ∧
      ((∃ fault, error = .files input fault ∧
          ((system.access.read input).run files).1 = .error fault) ∨
        (∃ document, files.read input = .ok document ∧
          compile template document = .error error) ∨
        ∃ fault document compilation, error = .files output fault ∧
          files.read input = .ok document ∧ compile template document = .ok compilation)) ∧
    (files.Writable output →
      ((Files.access.compileFile template input output).run files).1 =
        match files.read input with
        | .error fault => .error (.files input fault)
        | .ok document => compile template document) := by
  have ends := compiledFile system files template input output
  refine ⟨?_, ?_, ?_⟩
  · intro compilation after result
    rw [result] at ends
    cases ends with
    | written read compiled replaced =>
        exact ⟨⟨_, read, compiled⟩, replaced, load_render_of_compile compiled⟩
  · intro error after result
    rw [result] at ends
    cases ends with
    | unread unreadable => exact ⟨rfl, .inl ⟨_, rfl, unreadable⟩⟩
    | refused read refused => exact ⟨rfl, .inr (.inl ⟨_, read, refused⟩)⟩
    | unwritten read compiled grown =>
        exact ⟨grown.1, .inr (.inr ⟨_, _, _, rfl, read, compiled⟩)⟩
  · intro writable
    exact compileFile_of_writable writable template input

def inPlace (document : List UInt8) : Files :=
  ⟨[(["catalog"], .file document), (["notes"], .file [1])]⟩

theorem writable_inPlace (document : List UInt8) : (inPlace document).Writable "catalog" := by
  refine ⟨rfl, by decide, "catalog", ["catalog"], rfl, by decide, by decide, rfl, ?_⟩
  intro isFolder
  cases isFolder

theorem compileFile_atomic_inPlace : ∃ document compilation after,
    (Files.access.compileFile .automotive "catalog" "catalog").run (inPlace document) =
        (.ok compilation, after) ∧
      after.read "catalog" = .ok (Text.encodeUtf8 compilation.pack.render) ∧
      after.file? ["notes"] = some [1] := by
  obtain ⟨_, compilation, compiled, _⟩ := compile_twins
  generalize Text.asciiBytes twins = document at compiled
  have facts := compileFile_atomic plain (inPlace document) .automotive "catalog" "catalog"
  have made := facts.2.2 (writable_inPlace document)
  have read : (inPlace document).read "catalog" = .ok document := rfl
  simp only [read, compiled] at made
  rcases run : (Files.access.compileFile .automotive "catalog" "catalog").run (inPlace document)
    with ⟨result, after⟩
  rw [run] at made
  obtain rfl := made
  obtain ⟨_, ⟨found, target, resolved, others⟩, _⟩ := facts.1 compilation after run
  have named : after.resolve (Path.parts "catalog") = .ok ["catalog"] := rfl
  obtain rfl : ["catalog"] = target := Except.ok.inj (named.symm.trans resolved)
  refine ⟨document, compilation, after, run, found, ?_⟩
  have different : ["notes"] ≠ ["catalog"] := by
    decide
  rw [others, Function.update_of_ne different]
  rfl

end RiskRules
