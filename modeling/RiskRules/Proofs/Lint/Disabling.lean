import RiskRules.Proofs.Lint

/-!
Disabled checks. Leaving checks out takes their diagnostics from the report and does nothing else:
no check looks at the list of those left out, and none speaks under another one's name.
-/

namespace RiskRules

def Template.disabling (template : Template) (names : List String) : Template :=
  { template with lint.disabled := names }

namespace Lint

variable {normalization : Normalization} {template : Template} {names others : List String}

theorem isEnabled_disabling {name : String} :
    (template.disabling names).lint.isEnabled name = true ↔ name ∉ names := by
  simp [Template.disabling, LintSettings.isEnabled]

theorem diagnose_disabling (check : Check) :
    diagnose normalization (template.disabling names) check =
      diagnose normalization template check := by
  cases check <;> rfl

/-- Dropping checks before they are asked, or what they say afterwards, comes to the same. -/
theorem filter_flatMap_diagnose (kept : Check → Bool) (checks : List Check) :
    (checks.flatMap (diagnose normalization template)).filter (kept ·.check) =
      (checks.filter kept).flatMap (diagnose normalization template) := by
  induction checks with
  | nil => rfl
  | cons check rest ih =>
      rw [List.flatMap_cons, List.filter_append, ih]
      by_cases keep : kept check = true
      · have own : (diagnose normalization template check).filter (kept ·.check) =
            diagnose normalization template check := by
          rw [List.filter_eq_self]
          intro diagnostic member
          rw [check_of_mem_diagnose member, keep]
        rw [own, List.filter_cons_of_pos keep, List.flatMap_cons]
      · have none : (diagnose normalization template check).filter (kept ·.check) = [] := by
          rw [List.filter_eq_nil_iff]
          intro diagnostic member
          rw [check_of_mem_diagnose member]
          exact keep
        rw [none, List.filter_cons_of_neg keep, List.nil_append]

theorem diagnostics_disabling :
    diagnostics normalization (template.disabling names) =
      ((Enumeration.all : List Check).flatMap (diagnose normalization template)).filter
        (Enumeration.name ·.check ∉ names) := by
  have enabled : (fun check : Check =>
      (template.disabling names).lint.isEnabled (Enumeration.name check)) =
      fun check => decide (Enumeration.name check ∉ names) := by
    funext check
    rw [Bool.eq_iff_iff, isEnabled_disabling, decide_eq_true_eq]
  have same : diagnose normalization (template.disabling names) =
      diagnose normalization template := funext diagnose_disabling
  rw [diagnostics, enabled, same,
    filter_flatMap_diagnose (fun check => decide (Enumeration.name check ∉ names))]

theorem diagnostics_disabling_eq_filter :
    diagnostics normalization (template.disabling names) =
      (diagnostics normalization (template.disabling [])).filter
        (Enumeration.name ·.check ∉ names) := by
  rw [diagnostics_disabling, diagnostics_disabling, List.filter_filter]
  simp

/-- Only whether a check is named counts. -/
theorem report_disabling_congr
    (same : ∀ check : Check, Enumeration.name check ∈ others ↔ Enumeration.name check ∈ names) :
    report normalization (template.disabling others) =
      report normalization (template.disabling names) := by
  have diagnostics : diagnostics normalization (template.disabling others) =
      diagnostics normalization (template.disabling names) := by
    simp only [diagnostics_disabling, same]
  rw [report, report, diagnostics]
  rfl

theorem diagnostics_sublist (more : names ⊆ others) :
    (diagnostics normalization (template.disabling others)).Sublist
      (diagnostics normalization (template.disabling names)) := by
  rw [diagnostics_disabling, diagnostics_disabling]
  apply List.monotone_filter_right
  intro diagnostic unnamed
  rw [decide_eq_true_eq] at unnamed ⊢
  exact fun named => unnamed (more named)

theorem passed_report_iff :
    (report normalization template).passed = true ↔
      template.lint.failureMode ≠ .block ∨
        ∀ diagnostic ∈ (report normalization template).diagnostics,
          diagnostic.severity ≠ .error := by
  rw [report]
  simp only [Bool.not_eq_true', Bool.and_eq_false_iff, decide_eq_false_iff_not, hasErrors,
    List.any_eq_false, decide_eq_true_eq, ne_eq]

/-- Disabling checks takes their diagnostics from the report and leaves all others in their order.
Only names of checks count, whatever others are listed and however often. With more checks disabled
the report has no further diagnostic and does not come to fail, and it passes unless the mode is to
block and an error is left. -/
theorem disabling_filters (normalization : Normalization) (template : Template)
    (names : List String) :
    let full := report normalization (template.disabling [])
    let rest := report normalization (template.disabling names)
    rest.diagnostics = full.diagnostics.filter (Enumeration.name ·.check ∉ names) ∧
    (∀ others, (∀ check : Check, Enumeration.name check ∈ others ↔ Enumeration.name check ∈ names) →
      report normalization (template.disabling others) = rest) ∧
    (∀ more, names ⊆ more →
      let fewer := report normalization (template.disabling more)
      fewer.diagnostics.Sublist rest.diagnostics ∧
        (rest.passed = true → fewer.passed = true)) ∧
    (rest.passed = true ↔ template.lint.failureMode ≠ .block ∨
      ∀ diagnostic ∈ rest.diagnostics, diagnostic.severity ≠ .error) := by
  refine ⟨diagnostics_disabling_eq_filter, fun others => report_disabling_congr, ?_,
    passed_report_iff⟩
  intro more within
  have sublist := @diagnostics_sublist normalization template _ _ within
  refine ⟨sublist, fun passed => passed_report_iff.mpr ?_⟩
  rcases passed_report_iff.mp passed with lenient | harmless
  · exact .inl lenient
  · exact .inr fun diagnostic member => harmless diagnostic (sublist.subset member)

def untitled : Normalization where
  entries := [⟨"A", .name, "a", "automotive-a", "", "G"⟩]
  dropped := [⟨"A", "G", "2", "A", "t"⟩]

def blocking : Template :=
  { Template.automotive with lint.failureMode := .block }

/-- The class that was dropped makes the report fail until that check is disabled. The name
`spelling` is that of no check. -/
theorem disabling_filters_untitled :
    let full := report untitled (blocking.disabling [])
    let rest := report untitled (blocking.disabling ["duplicate_identifier"])
    full.passed = false ∧ rest.passed = true ∧
    rest.diagnostics = full.diagnostics.filter
      (Enumeration.name ·.check ∉ ["duplicate_identifier"]) ∧
    report untitled (blocking.disabling ["spelling", "duplicate_identifier"]) = rest ∧
    (report untitled (blocking.disabling ["empty_title", "duplicate_identifier"])).passed =
      true := by
  obtain ⟨filtered, unknown, more, _⟩ :=
    disabling_filters untitled blocking ["duplicate_identifier"]
  have rest : (report untitled (blocking.disabling ["duplicate_identifier"])).passed = true := by
    decide
  refine ⟨by decide, rest, filtered, unknown _ (fun check => ?_), (more _ ?_).2 rest⟩
  · cases check <;> decide
  · exact List.subset_cons_self "empty_title" ["duplicate_identifier"]

end Lint

end RiskRules
