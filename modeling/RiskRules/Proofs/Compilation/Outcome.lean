import RiskRules.Proofs.Compilation
import RiskRules.Proofs.Findings
import RiskRules.Proofs.Normalization

/-!
What a compilation answers. A template is at fault for every document or for none, and once it is
not, only the document's own text and its report can keep a pack from being made: identifiers taken
from a catalog are distinct and have no mark of a curated rule in them, so emission never fails.
-/

namespace RiskRules

/-! ### Identifiers of a pack -/

theorem Curated.marked : ∀ rule ∈ Curated.rules, '/' ∈ rule.identifier.toList := by
  decide

namespace Emitter

variable (emitter : Emitter) (space : String) (groups : List Group)

theorem nodup_identifiers_rules :
    ((emitter.rules (Normalization.ofGroups space groups).entries).map Rule.identifier).Nodup := by
  refine nodup_rules_iff.mpr ⟨Normalization.nodup_identifiers, ?_⟩
  intro _ entry member rule ruleMember same
  -- The mark of the curated rule would have to be a letter or a digit.
  have mark : '/' ∈ entry.identifier.toList := same ▸ Curated.marked rule ruleMember
  exact absurd (Normalization.isAlphanum_of_mem_identifier member mark) (by decide)

theorem emit_ofGroups (digest : String) :
    emitter.emit (Normalization.ofGroups space groups).entries digest =
      .ok (emitter.draft (Normalization.ofGroups space groups).entries digest).sealed :=
  emit_eq_ok.mpr ⟨nodup_identifiers_rules emitter space groups, rfl⟩

end Emitter

/-! ### Templates at fault -/

def CompileError.BlamesTemplate : CompileError → Prop
  | .badEngineVersion _ _ | .templateRender _ | .engineVersionMismatch _ _ => True
  | .malformedDocument _ | .lintFailed _ | .files _ _ => False

inductive Template.Fault (template : Template) : CompileError → Prop
  | version {fault : Version.Fault}
      (unreadable : Version.ofText template.engineMinVersion = .error fault) :
      Fault template (.badEngineVersion template.engineMinVersion fault)
  | engine {required : Version}
      (read : Version.ofText template.engineMinVersion = .ok required)
      (newer : RiskRules.engine.order required = .lt) :
      Fault template (.engineVersionMismatch template.version template.engineMinVersion)
  | emission {required : Version} {cause : EmissionError}
      (read : Version.ofText template.engineMinVersion = .ok required)
      (current : RiskRules.engine.order required ≠ .lt)
      (refused : Emitter.ofTemplate template = .error cause) :
      Fault template (.templateRender cause)

namespace Template

variable {template : Template} {error : CompileError}

theorem Fault.blamesTemplate (fault : template.Fault error) : error.BlamesTemplate := by
  cases fault <;> trivial

theorem checkEngineVersion_eq_ok :
    template.checkEngineVersion = .ok () ↔
      ∃ required, Version.ofText template.engineMinVersion = .ok required ∧
        engine.order required ≠ .lt := by
  rw [checkEngineVersion]
  cases Version.ofText template.engineMinVersion with
  | error fault => simp
  | ok required => by_cases newer : engine.order required = .lt <;> simp [newer]

theorem Fault.compile (fault : template.Fault error) (document : List UInt8) :
    compile template document = .error error := by
  cases fault with
  | version unreadable =>
      rw [RiskRules.compile, checkEngineVersion, unreadable]
      rfl
  | engine read newer =>
      rw [RiskRules.compile, checkEngineVersion, read]
      simp only [newer, if_true]
      rfl
  | emission read current refused =>
      rw [RiskRules.compile, checkEngineVersion_eq_ok.mpr ⟨_, read, current⟩, refused]
      rfl

/-- A template is at fault, or it is accepted. -/
theorem fault_or_accepted (template : Template) :
    (∃ error, template.Fault error) ∨
      ∃ emitter, template.checkEngineVersion = .ok () ∧
        Emitter.ofTemplate template = .ok emitter := by
  cases read : Version.ofText template.engineMinVersion with
  | error fault => exact .inl ⟨_, .version read⟩
  | ok required =>
      by_cases newer : engine.order required = .lt
      · exact .inl ⟨_, .engine read newer⟩
      · cases made : Emitter.ofTemplate template with
        | error cause => exact .inl ⟨_, .emission read newer made⟩
        | ok emitter =>
            exact .inr ⟨emitter, checkEngineVersion_eq_ok.mpr ⟨required, read, newer⟩, rfl⟩

end Template

/-! ### Documents that are compiled -/

section

variable {template : Template} {emitter : Emitter}

theorem Inspection.classes_ofGroups (template : Template) (groups : List Group) :
    (ofGroups template groups).classes =
      (ofGroups template groups).normalization.entries.length +
        (ofGroups template groups).normalization.dropped.length := by
  have counted : (flatten groups).length = (ofGroups template groups).classes := by
    simp [flatten, List.length_flatMap, ofGroups, List.sum_eq_foldr, List.foldr_map]
  exact counted.symm.trans Normalization.length_entries_add_length_dropped.symm

theorem compile_of_malformed (current : template.checkEngineVersion = .ok ())
    (accepted : Emitter.ofTemplate template = .ok emitter) {document : List UInt8}
    {error : LoadError} (malformed : Catalog.ofBytes document = .error error) :
    compile template document = .error (.malformedDocument error) := by
  rw [compile, current, accepted, inspect, malformed]
  rfl

theorem compile_of_groups (current : template.checkEngineVersion = .ok ())
    (accepted : Emitter.ofTemplate template = .ok emitter) {document : List UInt8}
    {groups : List Group} (read : Catalog.ofBytes document = .ok groups) :
    compile template document =
      if (Inspection.ofGroups template groups).lint.passed then
        .ok ⟨(emitter.draft (Normalization.ofGroups template.name groups).entries
          (Digest.sha256Hex document)).sealed, .ofGroups template groups⟩
      else .error (.lintFailed (Inspection.ofGroups template groups).lint.errors) := by
  have emitted := emitter.emit_ofGroups template.name groups (Digest.sha256Hex document)
  rw [compile, current, accepted, inspect, read]
  change ((Inspection.ofGroups template groups).lint.check >>= fun _ =>
    (emitter.emit (Normalization.ofGroups template.name groups).entries
      (Digest.sha256Hex document)).mapError CompileError.templateRender >>= fun pack =>
        Except.ok (Compilation.mk pack (.ofGroups template groups))) = _
  rw [emitted, LintReport.check]
  split
  · rfl
  · rfl

end

/-- What a compilation answers. It lays a failure to the template exactly when the template is at
fault, and then every document fails in the same way; that a rule's identifier occurs twice is
never the reason. With a template that is not at fault, a document fails because it cannot be read
or else because its report does not pass; otherwise the pack is the one emitted from its entries. -/
theorem compile_outcome (template : Template) :
    (∀ document error, compile template document = .error error ∧ error.BlamesTemplate ↔
      template.Fault error) ∧
    (∀ document identifier,
      compile template document ≠ .error (.templateRender (.duplicateIdentifier identifier))) ∧
    ∀ emitter, template.checkEngineVersion = .ok () → Emitter.ofTemplate template = .ok emitter →
      ∀ document,
        (∀ error, compile template document = .error (.malformedDocument error) ↔
          Catalog.ofBytes document = .error error) ∧
        ∀ groups, Catalog.ofBytes document = .ok groups →
          ∃ inspection pack,
            inspect template document = .ok inspection ∧
            inspection.normalization = .ofGroups template.name groups ∧
            inspection.classes = inspection.normalization.entries.length +
              inspection.normalization.dropped.length ∧
            emitter.emit inspection.normalization.entries (Digest.sha256Hex document) =
              .ok pack ∧
            compile template document =
              if inspection.lint.passed then .ok ⟨pack, inspection⟩
              else .error (.lintFailed inspection.lint.errors) := by
  have blamed : ∀ document error,
      compile template document = .error error ∧ error.BlamesTemplate ↔ template.Fault error := by
    intro document error
    refine ⟨?_, fun fault => ⟨fault.compile document, fault.blamesTemplate⟩⟩
    rintro ⟨failed, blames⟩
    rcases template.fault_or_accepted with ⟨cause, fault⟩ | ⟨emitter, current, accepted⟩
    · cases (fault.compile document).symm.trans failed
      exact fault
    · cases read : Catalog.ofBytes document with
      | error malformed =>
          cases (compile_of_malformed current accepted read).symm.trans failed
          exact blames.elim
      | ok groups =>
          rw [compile_of_groups current accepted read] at failed
          split at failed
          · cases failed
          · cases failed
            exact blames.elim
  refine ⟨blamed, ?_, ?_⟩
  · intro document identifier failed
    cases (blamed document _).mp ⟨failed, trivial⟩ with
    | emission _ _ refused => exact Emitter.ofTemplate_ne_duplicateIdentifier refused
  · intro emitter current accepted document
    constructor
    · intro error
      refine ⟨fun failed => ?_, compile_of_malformed current accepted⟩
      cases read : Catalog.ofBytes document with
      | error malformed =>
          cases (compile_of_malformed current accepted read).symm.trans failed
          rfl
      | ok groups =>
          rw [compile_of_groups current accepted read] at failed
          split at failed
          · cases failed
          · cases failed
    · intro groups read
      exact ⟨.ofGroups template groups, _, inspect_eq_ok.mpr ⟨groups, read, rfl⟩, rfl,
        Inspection.classes_ofGroups template groups,
        emitter.emit_ofGroups template.name groups _, compile_of_groups current accepted read⟩

def Template.ahead : Template :=
  { Template.automotive with engineMinVersion := "1.0.1" }

theorem Template.ahead_fault :
    ahead.Fault (.engineVersionMismatch "1.0.0" "1.0.1") :=
  .engine (show Version.ofText "1.0.1" = .ok ⟨1, 0, 1, [], []⟩ from rfl) rfl

theorem ofBytes_nil : Catalog.ofBytes [] = .error (.malformed .noRoot) := by
  cbv

/-- A template that asks for a later engine compiles nothing; the built-in one compiles the
document of two classes, and finds no root in an empty document. -/
theorem compile_outcome_twins :
    (∀ document, compile .ahead document = .error (.engineVersionMismatch "1.0.0" "1.0.1")) ∧
    compile .automotive [] = .error (.malformedDocument (.malformed .noRoot)) ∧
    ∃ compilation, compile .automotive (Text.asciiBytes twins) = .ok compilation ∧
      compilation.inspection.classes = 2 ∧
      compilation.inspection.normalization = ⟨twinEntries, []⟩ := by
  obtain ⟨emitter, accepted⟩ := Emitter.exists_automotive
  have answers := (compile_outcome .automotive).2.2 emitter rfl accepted
  refine ⟨fun document => (((compile_outcome .ahead).1 document _).mpr Template.ahead_fault).1,
    ((answers []).1 _).mpr ofBytes_nil, ?_⟩
  obtain ⟨inspection, pack, inspected, normalized, counted, _, compiled⟩ :=
    (answers (Text.asciiBytes twins)).2 twinGroups ofBytes_twins
  obtain ⟨groups, _, rfl⟩ := inspect_eq_ok.mp inspected
  rw [normalization_twins] at normalized
  have passed : (Inspection.ofGroups .automotive groups).lint.passed = true := rfl
  rw [passed, if_pos rfl] at compiled
  refine ⟨_, compiled, ?_, normalized⟩
  rw [counted, normalized]
  rfl

end RiskRules
