import RiskRules.Compilation
import RiskRules.Proofs.Emission

/-! When a compilation succeeds, and what it then gives. -/

namespace RiskRules

theorem mapError_eq_ok {result : Except ε α} {wrap : ε → δ} {value : α} :
    result.mapError wrap = .ok value ↔ result = .ok value := by
  cases result <;> simp [Except.mapError]

theorem inspect_eq_ok {template : Template} {document : List UInt8} {inspection : Inspection} :
    inspect template document = .ok inspection ↔
      ∃ groups, Catalog.ofBytes document = .ok groups ∧ inspection = .ofGroups template groups := by
  rw [inspect]
  cases Catalog.ofBytes document with
  | error error => simp
  | ok groups => simp [eq_comm]

theorem LintReport.check_eq_ok {report : LintReport} {done : Unit} :
    report.check = .ok done ↔ report.passed = true := by
  rw [check]
  split
  next passed => simp [passed]
  next failed => simp [failed]

/-- A compilation succeeds if and only if the engine is new enough, the template is accepted, the
document can be read, its report passes and the pack is emitted. -/
theorem compile_eq_ok {template : Template} {document : List UInt8} {compilation : Compilation} :
    compile template document = .ok compilation ↔
      template.checkEngineVersion = .ok () ∧
      ∃ emitter groups, Emitter.ofTemplate template = .ok emitter ∧
        Catalog.ofBytes document = .ok groups ∧
        compilation.inspection = .ofGroups template groups ∧
        compilation.inspection.lint.passed = true ∧
        emitter.emit compilation.inspection.normalization.entries (Digest.sha256Hex document) =
          .ok compilation.pack := by
  simp only [compile, bind_eq_ok, mapError_eq_ok, inspect_eq_ok, LintReport.check_eq_ok]
  constructor
  · rintro ⟨_, current, emitter, accepted, inspection, ⟨groups, read, rfl⟩, _, passed, pack,
      emitted, same⟩
    cases same
    exact ⟨current, emitter, groups, accepted, read, rfl, passed, emitted⟩
  · rintro ⟨current, emitter, groups, accepted, read, inspected, passed, emitted⟩
    exact ⟨(), current, emitter, accepted, compilation.inspection, ⟨groups, read, inspected⟩, (),
      passed, compilation.pack, emitted, rfl⟩

end RiskRules
