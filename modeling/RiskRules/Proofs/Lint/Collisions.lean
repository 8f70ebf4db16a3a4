import Mathlib.Data.List.Forall2
import RiskRules.Proofs.Emission
import RiskRules.Proofs.Lint
import RiskRules.Proofs.Text.ByteOrder

/-!
Shared category ids. The check looks at entries before there are any rules; what it reports are
nevertheless the category ids that several rules of the pack will have, each with these rules.
-/

namespace RiskRules.Lint

/-! ### Rules that share a category id -/

def sharing (key : String) (rules : List Rule) : List Rule :=
  rules.filter (·.category.id = key)

/-- The diagnostic names the first of the rules with a category id. Its message quotes this id and
after it the identifiers of all these rules, in the order of the pack. -/
structure Reports (rules : List Rule) (key : String) (diagnostic : Diagnostic) : Prop where
  check : diagnostic.check = .categoryKeyCollision
  identifier : ∃ first others, sharing key rules = first :: others ∧
    diagnostic.identifier = some first.identifier
  message : diagnostic.message = collisionMessage key ((sharing key rules).map Rule.identifier)
  quotes : Text.quotations diagnostic.message = key :: (sharing key rules).map Rule.identifier

/-- The owners that the check looks at are the rules that the entries lead to. -/
theorem categoryOwners_eq (emitter : Emitter) (normalization : Normalization) :
    categoryOwners normalization emitter.template =
      (emitter.rules normalization.entries).map fun rule =>
        (rule.category.id, rule.identifier) := by
  rw [Emitter.rules, categoryOwners, List.map_append, List.map_map]
  split
  · rfl
  · rfl

theorem ownersOf_eq (key : String) (rules : List Rule) :
    ownersOf key (rules.map fun rule => (rule.category.id, rule.identifier)) =
      (sharing key rules).map Rule.identifier := by
  rw [ownersOf, List.filter_map, List.map_map]
  rfl

/-! ### What the check reports -/

section

variable (emitter : Emitter) (normalization : Normalization)

def sharedKeys (rules : List Rule) : List String :=
  (TagSet.ofList (rules.map (·.category.id))).tags.filter fun key => 1 < (sharing key rules).length

theorem sharedKeys_ascending (rules : List Rule) :
    (sharedKeys rules).Pairwise fun key later => Text.encodeUtf8 key < Text.encodeUtf8 later :=
  ((TagSet.ascending _).imp Text.encodeUtf8_lt).filter _

theorem mem_sharedKeys {key : String} {rules : List Rule} :
    key ∈ sharedKeys rules ↔ 2 ≤ (sharing key rules).length := by
  rw [sharedKeys, List.mem_filter, TagSet.mem_tags_ofList, decide_eq_true_eq]
  apply and_iff_right_of_imp
  intro shared
  obtain ⟨rule, member⟩ := List.exists_mem_of_length_pos (Nat.zero_lt_of_lt shared)
  obtain ⟨present, owns⟩ := List.mem_filter.mp member
  exact List.mem_map.mpr ⟨rule, present, of_decide_eq_true owns⟩

theorem forall₂_reports :
    List.Forall₂ (Reports (emitter.rules normalization.entries))
      (sharedKeys (emitter.rules normalization.entries))
      (diagnose normalization emitter.template .categoryKeyCollision) := by
  rw [diagnose, categoryKeyCollisions]
  simp only [categoryOwners_eq, ownersOf_eq, List.length_map, List.map_map]
  refine List.forall₂_map_right_iff.mpr (List.forall₂_same.mpr ?_)
  intro key shared
  obtain ⟨first, others, owners⟩ := List.exists_cons_of_length_pos
    (Nat.zero_lt_of_lt (mem_sharedKeys.mp shared))
  exact ⟨rfl, ⟨first, others, owners, by rw [owners]; rfl⟩, rfl, quotations_collisionMessage key _⟩

theorem diagnose_collision_eq_nil_iff :
    diagnose normalization emitter.template .categoryKeyCollision = [] ↔
      ((emitter.rules normalization.entries).map (·.category.id)).Nodup := by
  rw [diagnose, categoryKeyCollisions_eq_nil_iff, categoryOwners_eq, List.map_map]
  rfl

/-- The check of category ids tells of the rules that emission makes, whatever the template and the
entries. In the order of their bytes it reports the category ids that two rules or more have, each
in one diagnostic that names the first of these rules and whose message, read back, lists them all.
While the check is not disabled, a report without such a diagnostic is the same as a pack whose
rules have distinct ids. -/
theorem collisions_exact :
    (∃ keys : List String,
      (keys.Pairwise fun key later => Text.encodeUtf8 key < Text.encodeUtf8 later) ∧
      (∀ key, key ∈ keys ↔
        2 ≤ ((emitter.rules normalization.entries).filter (·.category.id = key)).length) ∧
      List.Forall₂ (Reports (emitter.rules normalization.entries)) keys
        (diagnose normalization emitter.template .categoryKeyCollision)) ∧
    (emitter.template.lint.isEnabled "category_key_collision" = true →
      let reported :=
        (report normalization emitter.template).ofCheck "category_key_collision"
      reported = diagnose normalization emitter.template .categoryKeyCollision ∧
      (reported = [] ↔ ((emitter.rules normalization.entries).map (·.category.id)).Nodup) ∧
      ∀ digest pack, emitter.emit normalization.entries digest = .ok pack →
        (reported = [] ↔ (pack.rules.map (·.category.id)).Nodup)) := by
  refine ⟨⟨_, sharedKeys_ascending _, fun key => mem_sharedKeys,
    forall₂_reports emitter normalization⟩, ?_⟩
  intro enabled reported
  have found : reported = diagnose normalization emitter.template .categoryKeyCollision :=
    (ofCheck_report .categoryKeyCollision).trans (if_pos enabled)
  have silent := found ▸ diagnose_collision_eq_nil_iff emitter normalization
  refine ⟨found, silent, ?_⟩
  intro digest pack emitted
  rw [Emitter.rules_of_emit emitted]
  exact silent

end

def lacking : Template :=
  { Template.automotive with name := "missing" }

def namesake : Entry :=
  ⟨"InputValidation", .name, "input-validation", "missing-input-validation", "", ""⟩

theorem collisions_exact_namesake : ∃ emitter pack,
    Emitter.ofTemplate lacking = .ok emitter ∧ emitter.emit [namesake] "" = .ok pack ∧
      ¬(pack.rules.map (·.category.id)).Nodup ∧
      ∃ keys, "missing-input-validation" ∈ keys ∧ List.Forall₂ (Reports pack.rules) keys
        ((report ⟨[namesake], []⟩ lacking).ofCheck "category_key_collision") := by
  obtain ⟨emitter, accepted⟩ : ∃ emitter, Emitter.ofTemplate lacking = .ok emitter := ⟨_, rfl⟩
  have unchanged : emitter.template = lacking := (Emitter.ofTemplate_eq_ok.mp accepted).1
  have rules : emitter.rules [namesake] = emitter.rule namesake :: Curated.rules := by
    rw [Emitter.rules, unchanged]
    rfl
  have distinct : ((emitter.rules [namesake]).map Rule.identifier).Nodup := by
    rw [rules, List.map_cons]
    exact show ("InputValidation" :: Curated.rules.map Rule.identifier).Nodup by decide
  have repeated : ¬((emitter.rules [namesake]).map (·.category.id)).Nodup := by
    rw [rules, List.map_cons]
    exact show ¬("missing-input-validation" :: Curated.rules.map (·.category.id)).Nodup by decide
  have pair : 2 ≤ ((emitter.rules [namesake]).filter
      (·.category.id = "missing-input-validation")).length := by
    have shares : (emitter.rule namesake).category.id = "missing-input-validation" := rfl
    rw [rules, List.filter_cons, if_pos (decide_eq_true shares), List.length_cons]
    decide
  obtain ⟨⟨keys, _, shared, reports⟩, enabled⟩ := collisions_exact emitter ⟨[namesake], []⟩
  obtain ⟨found, _, _⟩ := enabled (by rw [unchanged]; decide)
  obtain ⟨pack, emitted⟩ := Emitter.exists_emit_iff.mpr distinct
  refine ⟨emitter, pack, accepted, emitted, ?_, keys, (shared _).mpr pair, ?_⟩
  · rw [Emitter.rules_of_emit emitted]
    exact repeated
  · rw [Emitter.rules_of_emit emitted, ← unchanged, found]
    exact reports

end RiskRules.Lint
