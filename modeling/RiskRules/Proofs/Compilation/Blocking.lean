import RiskRules.Proofs.Compilation.Outcome

/-!
The blocking mode. With none of the three checks for errors disabled, a catalog is compiled if and
only if no class would get lost in the pack: each has an identifier and a category id of its own.
The pack then has a rule for every class.
-/

namespace RiskRules

def categoryKeys (space : String) (classes : List (String × ThreatClass)) : List String :=
  classes.map fun found => categoryKey space (slugify found.2.name)

/-- The classes of a catalog can all become rules that are told apart from each other, and from the
curated rules if the pack is to have them. -/
structure Template.Admits (template : Template) (groups : List Group) : Prop where
  named : ∀ identifier ∈ candidates (flatten groups), identifier ≠ ""
  identifiersApart : (candidates (flatten groups)).Nodup
  categoriesApart : (categoryKeys template.name (flatten groups)).Nodup
  curatedApart : template.includeCurated = true →
    ∀ rule ∈ Curated.rules, rule.category.id ∉ categoryKeys template.name (flatten groups)

theorem Lint.errors_ne_nil_of_failed {normalization : Normalization} {template : Template}
    (failed : (report normalization template).passed = false) :
    (report normalization template).errors ≠ [] := by
  have severe : hasErrors (diagnostics normalization template) = true := by
    simp only [report, Bool.not_eq_false', Bool.and_eq_true] at failed
    exact failed.2
  obtain ⟨diagnostic, member, error⟩ := List.any_eq_true.mp severe
  exact List.ne_nil_of_mem (List.mem_filter.mpr ⟨member, error⟩)

theorem Curated.nodup_categoryIds : (Curated.rules.map (·.category.id)).Nodup := by
  decide

section

variable {template : Template} {groups : List Group}

theorem Normalization.dropped_ofGroups_eq_nil_iff {space : String} :
    (ofGroups space groups).dropped = [] ↔ (candidates (flatten groups)).Nodup := by
  rw [ofGroups, dropped_eq_nil_iff]
  simp

theorem Normalization.entries_ofGroups {space : String}
    (kept : (ofGroups space groups).dropped = []) :
    (ofGroups space groups).entries =
      (flatten groups).map fun found => Entry.ofClass space found.1 found.2 :=
  entries_of_dropped_eq_nil kept

theorem Lint.categoryIds_of_kept
    (kept : (Normalization.ofGroups template.name groups).dropped = []) :
    (categoryOwners (Normalization.ofGroups template.name groups) template).map (·.1) =
      categoryKeys template.name (flatten groups) ++
        (if template.includeCurated then Curated.rules.map (·.category.id) else []) := by
  rw [categoryOwners, Normalization.entries_ofGroups kept, List.map_append, List.map_map,
    List.map_map]
  split
  · rw [List.map_map]
    rfl
  · rfl

theorem Lint.collisions_eq_nil_of_kept
    (kept : (Normalization.ofGroups template.name groups).dropped = []) :
    categoryKeyCollisions (Normalization.ofGroups template.name groups) template = [] ↔
      (categoryKeys template.name (flatten groups)).Nodup ∧
        (template.includeCurated = true →
          ∀ rule ∈ Curated.rules,
            rule.category.id ∉ categoryKeys template.name (flatten groups)) := by
  rw [categoryKeyCollisions_eq_nil_iff, categoryIds_of_kept kept, List.nodup_append']
  split
  next curated =>
    simp only [Curated.nodup_categoryIds, true_and, curated, forall_const]
    constructor
    · rintro ⟨distinct, apart⟩
      exact ⟨distinct, fun rule member repeated =>
        apart repeated (List.mem_map_of_mem member)⟩
    · rintro ⟨distinct, apart⟩
      refine ⟨distinct, fun key ofClass ofRule => ?_⟩
      obtain ⟨rule, member, rfl⟩ := List.mem_map.mp ofRule
      exact apart rule member ofClass
  next plain => simp [plain]

theorem Lint.emptyIdentifiers_eq_nil_of_kept
    (kept : (Normalization.ofGroups template.name groups).dropped = []) :
    emptyIdentifiers (Normalization.ofGroups template.name groups) = [] ↔
      ∀ identifier ∈ candidates (flatten groups), identifier ≠ "" := by
  rw [emptyIdentifiers_eq_nil_iff, Normalization.entries_ofGroups kept, candidates,
    List.forall_mem_map, List.forall_mem_map]
  rfl

variable (blocks : template.lint.failureMode = .block)
  (enabled : ∀ name ∈ ["duplicate_identifier", "empty_identifier", "category_key_collision"],
    name ∉ template.lint.disabled)

include blocks enabled

/-- The report under the blocking mode speaks for the catalog. -/
theorem passed_iff_admits :
    (Inspection.ofGroups template groups).lint.passed = true ↔ template.Admits groups := by
  rw [Inspection.ofGroups, Lint.passed_report_of_block blocks]
  have on : ∀ check : Check, check.severity = .error →
      template.lint.isEnabled (Enumeration.name check) = true := by
    intro check severe
    have listed : Enumeration.name check ∈
        ["duplicate_identifier", "empty_identifier", "category_key_collision"] := by
      cases check <;> first | decide | cases severe
    simpa [LintSettings.isEnabled] using enabled _ listed
  constructor
  · intro silent
    have kept := Lint.duplicateIdentifiers_eq_nil_iff.mp
      (silent .duplicateIdentifier rfl (on _ rfl))
    obtain ⟨apart, curatedApart⟩ := (Lint.collisions_eq_nil_of_kept kept).mp
      (silent .categoryKeyCollision rfl (on _ rfl))
    exact {
      named := (Lint.emptyIdentifiers_eq_nil_of_kept kept).mp
        (silent .emptyIdentifier rfl (on _ rfl))
      identifiersApart := Normalization.dropped_ofGroups_eq_nil_iff.mp kept
      categoriesApart := apart
      curatedApart := curatedApart }
  · intro admitted check severe _
    have kept : (Normalization.ofGroups template.name groups).dropped = [] :=
      Normalization.dropped_ofGroups_eq_nil_iff.mpr admitted.identifiersApart
    cases check with
    | duplicateIdentifier => exact Lint.duplicateIdentifiers_eq_nil_iff.mpr kept
    | emptyIdentifier => exact (Lint.emptyIdentifiers_eq_nil_of_kept kept).mpr admitted.named
    | categoryKeyCollision =>
        exact (Lint.collisions_eq_nil_of_kept kept).mpr
          ⟨admitted.categoriesApart, admitted.curatedApart⟩
    | identifierFallback => cases severe
    | emptyTitle => cases severe
    | unusedOverride => cases severe

end

/-- Under the blocking mode a document is compiled if and only if its classes can all become rules,
and then they all do, in document order and with nothing dropped. A document that can be read and
is not compiled fails for the errors of its report. -/
theorem blocking_exact (template : Template) (emitter : Emitter) (document : List UInt8)
    (current : template.checkEngineVersion = .ok ())
    (accepted : Emitter.ofTemplate template = .ok emitter)
    (blocks : template.lint.failureMode = .block)
    (enabled : ∀ name ∈ ["duplicate_identifier", "empty_identifier", "category_key_collision"],
      name ∉ template.lint.disabled) :
    ((∃ compilation, compile template document = .ok compilation) ↔
      ∃ groups, Catalog.ofBytes document = .ok groups ∧ template.Admits groups) ∧
    ∀ groups, Catalog.ofBytes document = .ok groups →
      (∀ compilation, compile template document = .ok compilation →
        compilation.inspection.normalization.dropped = [] ∧
        compilation.pack.rules =
          (flatten groups).map (fun found =>
            emitter.rule (.ofClass template.name found.1 found.2)) ++
              (if template.includeCurated then Curated.rules else [])) ∧
      (¬template.Admits groups →
        ∃ errors, errors ≠ [] ∧ compile template document = .error (.lintFailed errors)) := by
  have unchanged : emitter.template = template := (Emitter.ofTemplate_eq_ok.mp accepted).1
  have admits := fun groups => @passed_iff_admits template groups blocks enabled
  constructor
  · constructor
    · rintro ⟨compilation, compiled⟩
      obtain ⟨_, _, groups, _, read, inspected, passed, _⟩ := compile_eq_ok.mp compiled
      rw [inspected] at passed
      exact ⟨groups, read, (admits groups).mp passed⟩
    · rintro ⟨groups, read, admitted⟩
      rw [compile_of_groups current accepted read, if_pos ((admits groups).mpr admitted)]
      exact ⟨_, rfl⟩
  · intro groups read
    rw [compile_of_groups current accepted read]
    constructor
    · intro compilation compiled
      split at compiled
      next passed =>
        cases compiled
        have kept : (Normalization.ofGroups template.name groups).dropped = [] :=
          Normalization.dropped_ofGroups_eq_nil_iff.mpr ((admits groups).mp passed).identifiersApart
        refine ⟨kept, ?_⟩
        change emitter.rules (Normalization.ofGroups template.name groups).entries = _
        rw [Emitter.rules, Normalization.entries_ofGroups kept, unchanged, List.map_map]
        rfl
      next => cases compiled
    · intro refused
      have failed : (Inspection.ofGroups template groups).lint.passed = false :=
        Bool.eq_false_iff.mpr fun passed => refused ((admits groups).mp passed)
      refine ⟨_, Lint.errors_ne_nil_of_failed failed, ?_⟩
      rw [failed]
      rfl

def Template.strict : Template :=
  { Template.automotive with lint := ⟨.block, ["empty_title"]⟩ }

theorem Template.strict_admits : strict.Admits twinGroups where
  named := by decide
  identifiersApart := by decide
  categoriesApart := by decide
  curatedApart := fun _ => by decide

theorem blocking_exact_twins : ∃ emitter compilation,
    Emitter.ofTemplate .strict = .ok emitter ∧
      compile .strict (Text.asciiBytes twins) = .ok compilation ∧
      compilation.inspection.normalization.dropped = [] ∧
      compilation.pack.rules =
        [emitter.rule shortTwin, emitter.rule longTwin] ++ Curated.rules := by
  obtain ⟨emitter, accepted⟩ : ∃ emitter, Emitter.ofTemplate .strict = .ok emitter := ⟨_, rfl⟩
  obtain ⟨compiles, keeps⟩ := blocking_exact .strict emitter (Text.asciiBytes twins) rfl accepted
    rfl (by decide)
  obtain ⟨compilation, compiled⟩ :=
    compiles.mpr ⟨twinGroups, ofBytes_twins, Template.strict_admits⟩
  obtain ⟨kept, rules⟩ := (keeps twinGroups ofBytes_twins).1 compilation compiled
  refine ⟨emitter, compilation, accepted, compiled, kept, ?_⟩
  rw [rules]
  rfl

end RiskRules
