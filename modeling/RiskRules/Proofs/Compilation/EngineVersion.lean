import RiskRules.Proofs.Compilation.Outcome
import RiskRules.Proofs.Version.Grammar

/-!
Which templates ask for a later engine. Versions of higher precedence do, and so does the engine's
own version as soon as build metadata is added to it: the check goes by the total order of versions,
in which metadata counts.
-/

namespace RiskRules

variable {template : Template} {version : Version} {asked required : String}

theorem engine_plain : engine.Plain :=
  Version.plain_of_ofText ofText_engineVersion

theorem engine_order_eq_lt_iff (plain : version.Plain) :
    engine.order version = .lt ↔
      engine.Precedes version ∨ version.bare = engine ∧ version ≠ engine := by
  have metadata : version.bare = engine → (version.build ≠ [] ↔ version ≠ engine) := by
    intro same
    rw [← same]
    cases version
    simp [Version.bare]
  rw [Version.order_eq_lt_iff engine_plain plain rfl, eq_comm (a := engine.bare)]
  exact or_congr_right (and_congr_right metadata)

/-! ### The check -/

theorem Template.checkEngineVersion_eq_mismatch_iff
    (read : Version.ofText template.engineMinVersion = .ok version) :
    template.checkEngineVersion = .error (.engineVersionMismatch asked required) ↔
      engine.order version = .lt ∧ asked = template.version ∧
        required = template.engineMinVersion := by
  rw [checkEngineVersion, read]
  by_cases newer : engine.order version = .lt
  · simp [newer, eq_comm]
  · simp [newer]

/-- Nothing else in a compilation answers that a later engine is needed. -/
theorem compile_eq_mismatch_iff {document : List UInt8} :
    compile template document = .error (.engineVersionMismatch asked required) ↔
      template.checkEngineVersion = .error (.engineVersionMismatch asked required) := by
  cases checked : template.checkEngineVersion with
  | error error =>
      rw [compile, checked]
      constructor
      · intro failed
        cases failed
        rfl
      · intro failed
        cases failed
        rfl
  | ok _ =>
      refine iff_of_false (fun failed => ?_) fun failed => (by cases failed)
      cases accepted : Emitter.ofTemplate template with
      | error cause =>
          rw [compile, checked, accepted] at failed
          cases failed
      | ok emitter =>
          cases read : Catalog.ofBytes document with
          | error malformed =>
              rw [compile_of_malformed checked accepted read] at failed
              cases failed
          | ok groups =>
              rw [compile_of_groups checked accepted read] at failed
              split at failed
              next => cases failed
              next => cases failed

/-! ### Build metadata -/

def Template.asking (template : Template) (text : String) : Template :=
  { template with engineMinVersion := text }

theorem Template.checkEngineVersion_asking {text : String}
    (read : Version.ofText text = .ok version) :
    (template.asking text).checkEngineVersion = .ok () ↔ engine.order version ≠ .lt := by
  rw [checkEngineVersion_eq_ok]
  refine ⟨fun ⟨_, same, current⟩ => ?_, fun current => ⟨version, read, current⟩⟩
  cases same.symm.trans read
  exact current

theorem engine_precedes_bare : engine.Precedes version.bare ↔ engine.Precedes version :=
  Iff.rfl

theorem not_engine_precedes (same : version.bare = engine) : ¬engine.Precedes version := by
  rw [← engine_precedes_bare, same]
  simp [engine, Version.Precedes, Version.PrereleasePrecedes]

/-- A template is refused for asking for a later engine exactly when the version it asks for has a
higher precedence than the engine's, or is the engine's with build metadata. So metadata makes no
difference to the check, unless it is what tells the version from the engine's own. -/
theorem engine_gate (template : Template) :
    (∀ version, Version.ofText template.engineMinVersion = .ok version →
      ∀ document asked required,
        compile template document = .error (.engineVersionMismatch asked required) ↔
          (engine.Precedes version ∨ version.bare = engine ∧ version ≠ engine) ∧
            asked = template.version ∧ required = template.engineMinVersion) ∧
    ∀ text first second version other, '+' ∉ text.toList →
      Version.ofText (Version.withMetadata text first) = .ok version →
      Version.ofText (Version.withMetadata text second) = .ok other →
      (((template.asking (Version.withMetadata text first)).checkEngineVersion = .ok () ↔
          (template.asking (Version.withMetadata text second)).checkEngineVersion = .ok ()) ↔
        version.bare ≠ engine ∨ (first = none ↔ second = none)) := by
  constructor
  · intro version read document asked required
    rw [compile_eq_mismatch_iff, Template.checkEngineVersion_eq_mismatch_iff read,
      engine_order_eq_lt_iff (Version.plain_of_ofText read)]
  · intro text first second version other unmarked read otherRead
    obtain ⟨bareRead, build⟩ := Version.ofText_withMetadata unmarked read
    obtain ⟨otherBareRead, otherBuild⟩ := Version.ofText_withMetadata unmarked otherRead
    have same : version.bare = other.bare := Except.ok.inj (bareRead.symm.trans otherBareRead)
    have precedes : engine.Precedes version ↔ engine.Precedes other := by
      rw [← engine_precedes_bare, same, engine_precedes_bare]
    rw [Template.checkEngineVersion_asking read, Template.checkEngineVersion_asking otherRead,
      not_iff_not, Version.order_eq_lt_iff engine_plain (Version.plain_of_ofText read) rfl,
      Version.order_eq_lt_iff engine_plain (Version.plain_of_ofText otherRead) rfl, precedes, ← same,
      ← build, ← otherBuild]
    by_cases own : version.bare = engine
    · have notNewer : ¬engine.Precedes other := by
        rw [← precedes]
        exact not_engine_precedes own
      have isOwn : engine.bare = version.bare := own.symm
      simp only [notNewer, isOwn, own, false_or, true_and, not_true, ne_eq, not_iff_not]
    · have isOther : engine.bare ≠ version.bare := Ne.symm own
      simp [own, isOther]

theorem ofText_stamped : Version.ofText "1.0.0+x" = .ok ⟨1, 0, 0, [], [['x']]⟩ :=
  rfl

theorem ofText_older : Version.ofText "0.9.0" = .ok ⟨0, 9, 0, [], []⟩ :=
  rfl

/-- The engine's own version with build metadata is refused. Of an older version it is accepted with
metadata and without. -/
theorem engine_gate_stamped :
    (∀ document, compile (Template.automotive.asking "1.0.0+x") document =
      .error (.engineVersionMismatch "1.0.0" "1.0.0+x")) ∧
    ((Template.automotive.asking "0.9.0+x").checkEngineVersion = .ok () ↔
      (Template.automotive.asking "0.9.0").checkEngineVersion = .ok ()) := by
  constructor
  · intro document
    have gate := (engine_gate (Template.automotive.asking "1.0.0+x")).1 _ ofText_stamped document
    exact (gate _ _).mpr ⟨.inr ⟨rfl, by decide⟩, rfl, rfl⟩
  · have stamped : Version.ofText (Version.withMetadata "0.9.0" (some "x")) =
        .ok ⟨0, 9, 0, [], [['x']]⟩ := rfl
    exact ((engine_gate .automotive).2 "0.9.0" (some "x") none _ _ (by decide) stamped
      ofText_older).mpr (.inl (by decide))

/-- Metadata does decide, though it has no part in the precedence of versions. -/
theorem engine_gate_metadata :
    (¬∀ template version document, Version.ofText template.engineMinVersion = .ok version →
      ((∃ asked required,
          compile template document = .error (.engineVersionMismatch asked required)) ↔
        engine.Precedes version)) ∧
    ¬((Template.automotive.asking "1.0.0+x").checkEngineVersion = .ok () ↔
      (Template.automotive.asking "1.0.0").checkEngineVersion = .ok ()) := by
  have refused : (Template.automotive.asking "1.0.0+x").checkEngineVersion =
      .error (.engineVersionMismatch "1.0.0" "1.0.0+x") := rfl
  constructor
  · intro gate
    have higher := (gate (Template.automotive.asking "1.0.0+x") _ [] ofText_stamped).mp
      ⟨_, _, compile_eq_mismatch_iff.mpr refused⟩
    exact not_engine_precedes rfl higher
  · intro same
    have accepted : (Template.automotive.asking "1.0.0").checkEngineVersion = .ok () := rfl
    rw [same.mpr accepted] at refused
    cases refused

end RiskRules
