import RiskRules.Emission
import RiskRules.Proofs.Json.Reading
import RiskRules.Proofs.Normalization
import RiskRules.Proofs.Pattern
import RiskRules.Proofs.Tags

/-!
When a template is accepted and when a pack is emitted, and what the pack is then. Only a repeated
identifier keeps an accepted template from making a pack.
-/

namespace RiskRules

theorem firstRepeat?_eq_none {seen texts : List String} :
    firstRepeat? seen texts = none ↔ texts.Nodup ∧ ∀ text ∈ texts, text ∉ seen := by
  induction texts generalizing seen with
  | nil => simp [firstRepeat?]
  | cons first rest ih =>
      rw [firstRepeat?, nodup_unseen_cons]
      split
      next repeated => simp [repeated]
      next unseen => simp [ih, unseen]

/-- The text that is found is the first one to stand earlier in the list, or among `seen`. -/
theorem firstRepeat?_eq_some {seen texts : List String} {text : String} :
    firstRepeat? seen texts = some text ↔
      ∃ earlier later, texts = earlier ++ text :: later ∧
        (earlier.Nodup ∧ ∀ other ∈ earlier, other ∉ seen) ∧ (text ∈ earlier ∨ text ∈ seen) := by
  induction texts generalizing seen with
  | nil => simp [firstRepeat?]
  | cons first rest ih =>
      rw [firstRepeat?]
      split
      next repeated =>
        constructor
        · intro found
          cases found
          exact ⟨[], rest, rfl, by simp, Or.inr repeated⟩
        · rintro ⟨earlier, later, parts, ⟨_, unseen⟩, _⟩
          cases earlier with
          | nil =>
              cases parts
              rfl
          | cons other earlier =>
              cases parts
              exact absurd repeated (unseen first List.mem_cons_self)
      next fresh =>
        rw [ih]
        constructor
        · rintro ⟨earlier, later, rfl, unrepeated, before⟩
          refine ⟨first :: earlier, later, rfl, nodup_unseen_cons.mpr ⟨fresh, unrepeated⟩, ?_⟩
          rw [List.mem_cons] at before ⊢
          tauto
        · rintro ⟨earlier, later, parts, unrepeated, before⟩
          cases earlier with
          | nil =>
              cases parts
              exact absurd (before.resolve_left List.not_mem_nil) fresh
          | cons other earlier =>
              cases parts
              refine ⟨earlier, later, rfl, (nodup_unseen_cons.mp unrepeated).2, ?_⟩
              rw [List.mem_cons] at before ⊢
              tauto

theorem Curated.nodup_identifiers : (Curated.rules.map Rule.identifier).Nodup := by
  decide

theorem Curated.supportedTags_ne_nil : ∀ rule ∈ Curated.rules, rule.supportedTags.tags ≠ [] := by
  decide

namespace Emitter

theorem readPattern_eq_ok {source : String} {pattern : Pattern} :
    readPattern source = .ok pattern ↔ Pattern.parse source = .ok pattern := by
  rw [readPattern]
  cases Pattern.parse source with
  | ok read => simp
  | error error => simp

theorem ofTemplate_eq_ok {template : Template} {emitter : Emitter} :
    ofTemplate template = .ok emitter ↔
      emitter.template = template ∧ Text.isBlank template.name = false ∧
        template.supportedTags.all Text.isBlank = false ∧
        Pattern.parse template.descriptionPattern = .ok emitter.description ∧
        emitter.description.uses .component = false ∧
        Pattern.parse template.findingTitle = .ok emitter.findingTitle := by
  unfold ofTemplate
  by_cases blankName : Text.isBlank template.name = true
  · simp [blankName]
  by_cases blankTags : template.supportedTags.all Text.isBlank = true
  · simp [blankName, blankTags]
  rw [if_neg blankName, if_neg blankTags]
  simp only [Bool.not_eq_true] at blankName blankTags
  simp only [bind_eq_ok, readPattern_eq_ok, blankName, blankTags, true_and]
  constructor
  · rintro ⟨description, described, _, checked, title, titled, made⟩
    cases made
    refine ⟨rfl, described, ?_, titled⟩
    simp only [checkDescription] at checked
    split at checked
    · cases checked
    next unused => simpa using unused
  · rintro ⟨rfl, described, unused, titled⟩
    refine ⟨emitter.description, described, (), ?_, emitter.findingTitle, titled, rfl⟩
    simp [checkDescription, unused]

theorem pattern_of_readPattern {source : String} {cause : EmissionError}
    (refused : readPattern source = .error cause) : ∃ error, cause = .pattern error := by
  rw [readPattern] at refused
  split at refused
  · cases refused
  · cases refused
    exact ⟨_, rfl⟩

/-- That identifiers repeat is nothing a template is refused for. -/
theorem ofTemplate_ne_duplicateIdentifier {template : Template} {identifier : String} :
    ofTemplate template ≠ .error (.duplicateIdentifier identifier) := by
  intro refused
  unfold ofTemplate at refused
  split at refused
  · cases refused
  split at refused
  · cases refused
  cases described : readPattern template.descriptionPattern with
  | error cause =>
      obtain ⟨_, rfl⟩ := pattern_of_readPattern described
      rw [described] at refused
      cases refused
  | ok description =>
      rw [described] at refused
      change (checkDescription description >>= fun _ => _) = _ at refused
      rw [checkDescription] at refused
      split at refused
      · cases refused
      cases titled : readPattern template.findingTitle with
      | error cause =>
          obtain ⟨_, rfl⟩ := pattern_of_readPattern titled
          rw [titled] at refused
          cases refused
      | ok title =>
          rw [titled] at refused
          cases refused

theorem mem_tags {emitter : Emitter} {tag : String} :
    tag ∈ emitter.tags.tags ↔ tag ∈ emitter.template.supportedTags ∧ Text.isBlank tag = false := by
  rw [tags, TagSet.mem_tags_ofList, List.mem_filter, Bool.not_eq_true']

/-- The check of the whole list leaves each rule a tag, though blank ones are dropped again. -/
theorem supportedTags_ne_nil {template : Template} {emitter : Emitter} {entries : List Entry}
    (accepted : ofTemplate template = .ok emitter) :
    ∀ rule ∈ emitter.rules entries, rule.supportedTags.tags ≠ [] := by
  obtain ⟨rfl, _, named, _⟩ := ofTemplate_eq_ok.mp accepted
  intro rule member
  rcases List.mem_append.mp member with made | curated
  · obtain ⟨entry, _, rfl⟩ := List.mem_map.mp made
    obtain ⟨tag, given, visible⟩ := List.all_eq_false.mp named
    exact List.ne_nil_of_mem (mem_tags.mpr ⟨given, by simpa using visible⟩)
  · split at curated
    · exact Curated.supportedTags_ne_nil rule curated
    · exact absurd curated List.not_mem_nil

section

variable {emitter : Emitter} {entries : List Entry} {digest : String} {pack : Pack}

theorem emit_eq_ok :
    emitter.emit entries digest = .ok pack ↔
      ((emitter.rules entries).map Rule.identifier).Nodup ∧
        pack = (emitter.draft entries digest).sealed := by
  have unrepeated := @firstRepeat?_eq_none [] ((emitter.rules entries).map Rule.identifier)
  simp only [List.not_mem_nil, not_false_eq_true, implies_true, and_true] at unrepeated
  rw [emit, ← unrepeated]
  split
  next identifier repeated => simp [repeated]
  next none => simp [none, eq_comm]

theorem exists_emit_iff :
    (∃ pack, emitter.emit entries digest = .ok pack) ↔
      ((emitter.rules entries).map Rule.identifier).Nodup := by
  constructor
  · rintro ⟨pack, emitted⟩
    exact (emit_eq_ok.mp emitted).1
  · intro distinct
    exact ⟨_, emit_eq_ok.mpr ⟨distinct, rfl⟩⟩

theorem rules_of_emit (emitted : emitter.emit entries digest = .ok pack) :
    pack.rules = emitter.rules entries := by
  rw [(emit_eq_ok.mp emitted).2]
  rfl

theorem registry_of_emit (emitted : emitter.emit entries digest = .ok pack) :
    pack.registry = pack.rules.map Rule.identifier := by
  rw [(emit_eq_ok.mp emitted).2]
  rfl

theorem packHash_of_emit (emitted : emitter.emit entries digest = .ok pack) :
    pack.packHash = pack.computedHash := by
  rw [(emit_eq_ok.mp emitted).2]
  rfl

/-- What keeps a pack from being made is the first rule with an identifier of an earlier one. -/
theorem emit_eq_error {error : EmissionError} :
    emitter.emit entries digest = .error error ↔
      ∃ earlier rule later, emitter.rules entries = earlier ++ rule :: later ∧
        (earlier.map Rule.identifier).Nodup ∧ rule.identifier ∈ earlier.map Rule.identifier ∧
        error = .duplicateIdentifier rule.identifier := by
  have found := @firstRepeat?_eq_some [] ((emitter.rules entries).map Rule.identifier)
  simp only [List.not_mem_nil, not_false_eq_true, implies_true, and_true, or_false] at found
  rw [emit]
  constructor
  · intro failed
    split at failed
    next identifier repeated =>
      cases failed
      obtain ⟨_, _, parts, distinct, before⟩ := found.mp repeated
      obtain ⟨earlier, _, rules, rfl, more⟩ := List.map_eq_append_iff.mp parts
      obtain ⟨rule, later, rfl, rfl, rfl⟩ := List.map_eq_cons_iff.mp more
      exact ⟨earlier, rule, later, rules, distinct, before, rfl⟩
    next none => cases failed
  · rintro ⟨earlier, rule, later, rules, distinct, before, rfl⟩
    have repeated := found.mpr ⟨earlier.map Rule.identifier, later.map Rule.identifier,
      by rw [rules, List.map_append, List.map_cons], distinct, before⟩
    rw [repeated]

theorem nodup_rules_iff :
    ((emitter.rules entries).map Rule.identifier).Nodup ↔
      (entries.map Entry.identifier).Nodup ∧
        (emitter.template.includeCurated = true →
          ∀ entry ∈ entries, ∀ rule ∈ Curated.rules, entry.identifier ≠ rule.identifier) := by
  have identifiers : Rule.identifier ∘ emitter.rule = Entry.identifier := rfl
  rw [rules, List.map_append, List.map_map, identifiers]
  by_cases included : emitter.template.includeCurated = true
  · rw [if_pos included, List.nodup_append]
    simp only [included, forall_const, Curated.nodup_identifiers, true_and, List.forall_mem_map]
  · simp [included]

end

theorem exists_automotive : ∃ emitter, ofTemplate .automotive = .ok emitter :=
  ⟨_, rfl⟩

theorem exists_emit_automotive :
    ∃ emitter pack, ofTemplate .automotive = .ok emitter ∧ emitter.emit [] "" = .ok pack := by
  obtain ⟨emitter, accepted⟩ := exists_automotive
  have distinct : ((emitter.rules []).map Rule.identifier).Nodup :=
    nodup_rules_iff.mpr ⟨List.nodup_nil, fun _ _ => nofun⟩
  exact ⟨emitter, _, accepted, emit_eq_ok.mpr ⟨distinct, rfl⟩⟩

end Emitter

end RiskRules
