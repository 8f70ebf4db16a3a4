import RiskRules.Proofs.Compilation.Blocking

/-!
What the lint settings of a template decide: whether a compilation fails for the errors of its
report, and nothing about the pack that it makes.
-/

namespace RiskRules

def Template.withPolicy (template : Template) (lint : LintSettings) (engineMinVersion : String) :
    Template :=
  { template with lint, engineMinVersion }

section

variable {template : Template} {emitter : Emitter} {document : List UInt8}
  {errors : List Diagnostic}

namespace Emitter

theorem ofTemplate_withPolicy (accepted : ofTemplate template = .ok emitter) (lint : LintSettings)
    (engineMinVersion : String) :
    ofTemplate (template.withPolicy lint engineMinVersion) =
      .ok { emitter with template := template.withPolicy lint engineMinVersion } := by
  obtain ⟨_, checked⟩ := ofTemplate_eq_ok.mp accepted
  exact ofTemplate_eq_ok.mpr ⟨rfl, checked⟩

theorem emit_withPolicy (lint : LintSettings) (engineMinVersion : String) (entries : List Entry)
    (digest : String) :
    emit { emitter with template := emitter.template.withPolicy lint engineMinVersion } entries
      digest = emitter.emit entries digest :=
  rfl

end Emitter

theorem pack_withPolicy {compilation other : Compilation} (lint : LintSettings)
    (engineMinVersion : String) (compiled : compile template document = .ok compilation)
    (otherCompiled : compile (template.withPolicy lint engineMinVersion) document = .ok other) :
    other.pack = compilation.pack := by
  obtain ⟨_, emitter, groups, accepted, read, inspected, _, emitted⟩ := compile_eq_ok.mp compiled
  obtain ⟨_, otherEmitter, otherGroups, otherAccepted, otherRead, otherInspected, _,
    otherEmitted⟩ := compile_eq_ok.mp otherCompiled
  obtain rfl : otherGroups = groups := Except.ok.inj (otherRead.symm.trans read)
  obtain rfl := Except.ok.inj
    (otherAccepted.symm.trans (Emitter.ofTemplate_withPolicy accepted lint engineMinVersion))
  obtain ⟨rfl, _⟩ := Emitter.ofTemplate_eq_ok.mp accepted
  -- The entries are made with the name of the template, which is the same in both.
  rw [otherInspected, Emitter.emit_withPolicy] at otherEmitted
  rw [inspected] at emitted
  exact Except.ok.inj (otherEmitted.symm.trans emitted)

theorem Lint.passed_of_lenient {normalization : Normalization}
    (lenient : template.lint.failureMode ≠ .block) :
    (report normalization template).passed = true := by
  simp [report, lenient]

/-- A compilation that fails for the errors of its report had nothing else to fail for. -/
theorem exists_of_lintFailed (failed : compile template document = .error (.lintFailed errors)) :
    ∃ emitter groups, template.checkEngineVersion = .ok () ∧
      Emitter.ofTemplate template = .ok emitter ∧ Catalog.ofBytes document = .ok groups ∧
      (Inspection.ofGroups template groups).lint.passed = false ∧
      errors = (Inspection.ofGroups template groups).lint.errors := by
  rcases template.fault_or_accepted with ⟨error, fault⟩ | ⟨emitter, current, accepted⟩
  · cases (fault.compile document).symm.trans failed
    exact fault.blamesTemplate.elim
  · cases read : Catalog.ofBytes document with
    | error malformed =>
        cases (compile_of_malformed current accepted read).symm.trans failed
    | ok groups =>
        rw [compile_of_groups current accepted read] at failed
        split at failed
        next => cases failed
        next refused =>
          cases failed
          exact ⟨emitter, groups, current, accepted, rfl, Bool.eq_false_iff.mpr refused, rfl⟩

end

/-- The lint settings and the version of the engine that a template asks for show in no pack. Only
the blocking mode makes a compilation fail for errors of the catalog, and the message then lists
every error that the report has under another mode, in its order. -/
theorem policy_apart (template : Template) (document : List UInt8) :
    (∀ lint engineMinVersion compilation other,
      compile template document = .ok compilation →
      compile (template.withPolicy lint engineMinVersion) document = .ok other →
        other.pack = compilation.pack ∧ other.pack.render = compilation.pack.render) ∧
    (template.lint.failureMode ≠ .block →
      ∀ errors, compile template document ≠ .error (.lintFailed errors)) ∧
    ∀ errors, compile template document = .error (.lintFailed errors) →
      template.lint.failureMode = .block ∧
      ∃ compilation, compile { template with lint.failureMode := .warn } document =
          .ok compilation ∧
        errors ≠ [] ∧
        errors = compilation.inspection.lint.diagnostics.filter (·.severity = .error) ∧
        (CompileError.lintFailed errors).message = "Catalog lint failed: " ++ "; ".intercalate
          (errors.map fun error => Enumeration.name error.check ++ ": " ++ error.message) := by
  have blocks : ∀ errors, compile template document = .error (.lintFailed errors) →
      template.lint.failureMode = .block := by
    intro errors failed
    obtain ⟨_, _, _, _, _, refused, _⟩ := exists_of_lintFailed failed
    by_contra lenient
    exact Bool.eq_false_iff.mp refused (Lint.passed_of_lenient lenient)
  refine ⟨?_, fun lenient errors failed => lenient (blocks errors failed), ?_⟩
  · intro lint engineMinVersion compilation other compiled otherCompiled
    have same := pack_withPolicy lint engineMinVersion compiled otherCompiled
    exact ⟨same, by rw [same]⟩
  · intro errors failed
    obtain ⟨emitter, groups, current, accepted, read, refused, rfl⟩ := exists_of_lintFailed failed
    refine ⟨blocks _ failed, ?_⟩
    let lenient : Template := { template with lint.failureMode := .warn }
    have lenientAccepted := Emitter.ofTemplate_withPolicy accepted lenient.lint
      template.engineMinVersion
    have compiled := @compile_of_groups lenient _ current lenientAccepted _ _ read
    have passed : (Inspection.ofGroups lenient groups).lint.passed = true :=
      Lint.passed_of_lenient (by simp [lenient])
    rw [if_pos passed] at compiled
    exact ⟨_, compiled, Lint.errors_ne_nil_of_failed refused, rfl, rfl⟩

def echoes : List Char :=
  "<RootNodes>".toList ++ "<ThreatsCatalog>".toList ++ "<ThreatClasses>".toList ++
    "<ThreatClass name='A'/>".toList ++ "<ThreatClass name='A'/>".toList ++
    "</ThreatClasses>".toList ++ "</ThreatsCatalog>".toList ++ "</RootNodes>".toList

def echoGroups : List Group :=
  [⟨"", [⟨"", "A", ""⟩, ⟨"", "A", ""⟩]⟩]

theorem ofBytes_echoes : Catalog.ofBytes (Text.asciiBytes echoes) = .ok echoGroups := by
  have ascii : echoes.all (·.toNat < 0x80) = true := by
    cbv
  rw [Catalog.ofBytes_ascii ascii, Catalog.ofText, String.toList_ofList]
  cbv

theorem exists_strict : ∃ emitter, Emitter.ofTemplate .strict = .ok emitter :=
  ⟨_, rfl⟩

theorem exists_compile_strict :
    ∃ compilation, compile .strict (Text.asciiBytes twins) = .ok compilation := by
  obtain ⟨emitter, accepted⟩ := exists_strict
  have passed : (Inspection.ofGroups .strict twinGroups).lint.passed = true :=
    (passed_iff_admits rfl (by decide)).mpr Template.strict_admits
  exact ⟨_, (compile_of_groups rfl accepted ofBytes_twins).trans (if_pos passed)⟩

theorem exists_lintFailed :
    ∃ errors, compile .strict (Text.asciiBytes echoes) = .error (.lintFailed errors) := by
  obtain ⟨emitter, accepted⟩ := exists_strict
  have refused : ¬(Inspection.ofGroups .strict echoGroups).lint.passed = true := by
    intro passed
    have admitted := (passed_iff_admits rfl (by decide)).mp passed
    exact absurd admitted.identifiersApart (by decide)
  exact ⟨_, (compile_of_groups rfl accepted ofBytes_echoes).trans (if_neg refused)⟩

/-- The blocking template makes the pack of the built-in one, and where it fails it lists the errors
that are only reported under another mode. -/
theorem policy_apart_strict :
    (∃ compilation other, compile .automotive (Text.asciiBytes twins) = .ok compilation ∧
      compile .strict (Text.asciiBytes twins) = .ok other ∧
      other.pack.render = compilation.pack.render) ∧
    (∀ errors, compile .automotive (Text.asciiBytes echoes) ≠ .error (.lintFailed errors)) ∧
    ∃ errors compilation,
      compile .strict (Text.asciiBytes echoes) = .error (.lintFailed errors) ∧
      compile { Template.strict with lint.failureMode := .warn } (Text.asciiBytes echoes) =
        .ok compilation ∧
      errors ≠ [] ∧
      errors = compilation.inspection.lint.diagnostics.filter (·.severity = .error) := by
  refine ⟨?_, (policy_apart .automotive _).2.1 (by decide), ?_⟩
  · obtain ⟨_, compilation, compiled, _⟩ := compile_twins
    obtain ⟨other, otherCompiled⟩ := exists_compile_strict
    obtain ⟨apart, _⟩ := policy_apart .automotive (Text.asciiBytes twins)
    exact ⟨compilation, other, compiled, otherCompiled,
      (apart Template.strict.lint Template.strict.engineMinVersion _ _ compiled otherCompiled).2⟩
  · obtain ⟨errors, failed⟩ := exists_lintFailed
    obtain ⟨_, compilation, compiled, some, listed, _⟩ :=
      (policy_apart .strict (Text.asciiBytes echoes)).2.2 errors failed
    exact ⟨errors, compilation, failed, compiled, some, listed⟩

end RiskRules
