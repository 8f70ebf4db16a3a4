import Mathlib.Data.List.Nodup
import RiskRules.Lint
import RiskRules.Proofs.Tags
import RiskRules.Proofs.Text.Quoted

/-!
What the checks of a catalog find. A report holds the diagnostics of every check that is not
disabled, and no check speaks for another. Under the blocking mode it passes if and only if the
checks of severity `error` that are not disabled find nothing.
-/

namespace RiskRules

namespace Lint

variable {normalization : Normalization} {template : Template}

theorem check_of_mem_diagnose {check : Check} {diagnostic : Diagnostic}
    (member : diagnostic ∈ diagnose normalization template check) : diagnostic.check = check := by
  cases check <;>
    · obtain ⟨_, _, rfl⟩ := List.mem_map.mp member
      rfl

theorem filter_diagnose (check other : Check) :
    (diagnose normalization template other).filter
        (Enumeration.name ·.check = Enumeration.name check) =
      if other = check then diagnose normalization template other else [] := by
  by_cases same : other = check
  · rw [if_pos same, List.filter_eq_self]
    intro diagnostic member
    rw [check_of_mem_diagnose member, same]
    simp
  · rw [if_neg same, List.filter_eq_nil_iff]
    intro diagnostic member
    rw [check_of_mem_diagnose member]
    simpa using fun names => same (Enumeration.name_injective other check names)

theorem flatMap_diagnose_one {check : Check} {checks : List Check} (distinct : checks.Nodup) :
    checks.flatMap (fun other =>
        if other = check then diagnose normalization template other else []) =
      if check ∈ checks then diagnose normalization template check else [] := by
  induction checks with
  | nil => rfl
  | cons first rest ih =>
      obtain ⟨absent, distinctRest⟩ := List.nodup_cons.mp distinct
      rw [List.flatMap_cons, ih distinctRest]
      by_cases same : first = check
      · subst same
        simp [absent]
      · simp [same, Ne.symm same]

theorem ofCheck_report (check : Check) :
    (report normalization template).ofCheck (Enumeration.name check) =
      if template.lint.isEnabled (Enumeration.name check) then
        diagnose normalization template check
      else [] := by
  have distinct : (Enumeration.all : List Check).Nodup := by decide
  rw [LintReport.ofCheck, report, diagnostics, List.filter_flatMap]
  simp only [filter_diagnose]
  rw [flatMap_diagnose_one (distinct.filter _)]
  simp [Enumeration.mem_all]

theorem hasErrors_diagnostics_eq_false_iff :
    hasErrors (diagnostics normalization template) = false ↔
      ∀ check : Check, check.severity = .error →
        template.lint.isEnabled (Enumeration.name check) = true →
        diagnose normalization template check = [] := by
  rw [hasErrors, List.any_eq_false]
  constructor
  · intro harmless check severe enabled
    rw [List.eq_nil_iff_forall_not_mem]
    intro diagnostic member
    apply harmless diagnostic
    · exact List.mem_flatMap.mpr
        ⟨check, List.mem_filter.mpr ⟨Enumeration.mem_all check, enabled⟩, member⟩
    · simp [Diagnostic.severity, check_of_mem_diagnose member, severe]
  · intro silent diagnostic member severe
    obtain ⟨check, selected, found⟩ := List.mem_flatMap.mp member
    have own : diagnostic.check = check := check_of_mem_diagnose found
    rw [Diagnostic.severity, own, decide_eq_true_eq] at severe
    rw [silent check severe (List.mem_filter.mp selected).2] at found
    cases found

theorem passed_report_of_block (blocks : template.lint.failureMode = .block) :
    (report normalization template).passed = true ↔
      ∀ check : Check, check.severity = .error →
        template.lint.isEnabled (Enumeration.name check) = true →
        diagnose normalization template check = [] := by
  rw [← hasErrors_diagnostics_eq_false_iff]
  simp [report, blocks]

theorem duplicateIdentifiers_eq_nil_iff :
    duplicateIdentifiers normalization = [] ↔ normalization.dropped = [] :=
  List.map_eq_nil_iff

theorem emptyIdentifiers_eq_nil_iff :
    emptyIdentifiers normalization = [] ↔
      ∀ entry ∈ normalization.entries, entry.identifier ≠ "" := by
  simp [emptyIdentifiers, List.filter_eq_nil_iff]

theorem length_ownersOf (key : String) (owners : List (String × String)) :
    (ownersOf key owners).length = (owners.map (·.1)).count key := by
  induction owners with
  | nil => rfl
  | cons owner owners ih =>
      simp only [ownersOf, List.length_map] at ih
      by_cases same : owner.1 = key <;> simp [ownersOf, same, ih]

/-- No category id is reported as shared if and only if the ids of all rules that the pack will
have are distinct. -/
theorem categoryKeyCollisions_eq_nil_iff :
    categoryKeyCollisions normalization template = [] ↔
      ((categoryOwners normalization template).map (·.1)).Nodup := by
  rw [List.nodup_iff_count_le_one, categoryKeyCollisions]
  simp only [List.map_eq_nil_iff, List.filter_eq_nil_iff, TagSet.mem_tags_ofList, length_ownersOf,
    decide_eq_true_eq, Nat.not_lt]
  constructor
  · intro single key
    by_cases member : key ∈ (categoryOwners normalization template).map (·.1)
    · exact single key member
    · rw [List.count_eq_zero.mpr member]
      exact Nat.zero_le 1
  · intro single key _
    exact single key

/-- Read back, the message about a shared category id names this id and then each rule. -/
theorem quotations_collisionMessage (key : String) (identifiers : List String) :
    Text.quotations (collisionMessage key identifiers) = key :: identifiers := by
  have lead : '"' ∉ "Category key ".toList := by decide
  have middle : '"' ∉ " is shared by rules ".toList := by decide
  have close : '"' ∉ "; their findings would share synthetic ids".toList := by decide
  simp only [Text.quotations, collisionMessage, String.toList_append, List.append_assoc]
  rw [Text.quotationsFrom_plain lead, Text.quotationsFrom_quoted, Text.quotationsFrom_plain middle,
    Text.quotationsFrom_quotedList, ← List.append_nil (String.toList _),
    Text.quotationsFrom_plain close, Text.quotationsFrom, List.append_nil]

end Lint

end RiskRules
