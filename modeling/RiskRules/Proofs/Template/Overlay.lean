import RiskRules.Proofs.Json.Partial
import RiskRules.Template.Encoding

/-!
Template files say only what they change. The object that has some of a template's members, in any
order and among others that no template has, is read as the automotive template with these fields
set, and the object of the settings for checks likewise.
-/

namespace RiskRules

open Json Json.Record

namespace Override

theorem decodes_override (entry : Override) : Decodes shape.decode 2 entry.toJson entry := by
  apply decodes_object
  · exact .set rfl (decodes_string entry.identifier) <|
      .set rfl (decodes_texts entry.tags) <| .nil _
  · simp
  · simp [shape, Field.require, Field.of]

theorem impartial_decode : Impartial shape.decode := by
  apply Record.impartial_decode
  · simp only [shape, List.forall_mem_cons]
    exact ⟨Field.isImpartial_of impartial_string,
      Field.isImpartial_of (impartial_list impartial_string),
      fun _ member => absurd member List.not_mem_nil⟩
  · simp only [shape, List.pairwise_cons, List.forall_mem_cons, List.not_mem_nil, false_implies,
      implies_true, List.Pairwise.nil, and_true]
    exact Field.commute_of fun _ _ _ => rfl

end Override

/-! ### What each member of a written template is read as -/

theorem reads_text (text : String) (depth : Nat) :
    Reads stringValue depth (Node.ofValue (.string text)).Rearranges text :=
  impartial_string.reads (decodes_string text)

theorem reads_name [Enumeration α] (value : α) (depth : Nat) :
    Reads enumValue depth (Node.ofValue (nameValue value)).Rearranges value :=
  impartial_enum.reads (decodes_name value)

theorem reads_truth (value : Bool) (depth : Nat) :
    Reads boolValue depth (Node.ofValue (.bool value)).Rearranges value :=
  impartial_bool.reads (decodes_bool value)

theorem reads_texts (texts : List String) (depth : Nat) :
    Reads (listOf stringValue) (depth + 1) (Node.ofValue (.ofList .string texts)).Rearranges
      texts :=
  ((impartial_list impartial_string).reads (decodes_texts texts)).mono (by omega)

theorem reads_overrides (overrides : List Override) :
    Reads (listOf Override.shape.decode) 3
      (Node.ofValue (.ofList Override.toJson overrides)).Rearranges overrides :=
  (impartial_list Override.impartial_decode).reads
    (decodes_list fun entry _ => entry.decodes_override)

/-! ### Settings for checks -/

namespace LintSettings

def overlay (base settings : LintSettings) (given : String → Bool) : LintSettings where
  failureMode := if given "failureMode" then settings.failureMode else base.failureMode
  disabled := if given "disabled" then settings.disabled else base.disabled

def Gives (settings : LintSettings) (given : String → Bool) : Node → Prop :=
  Node.Holds settings.toJson.expected given

/-- Settings that say nothing are the default ones. -/
theorem initial_shape : shape.initial = .default := rfl

theorem accepts_expected (settings : LintSettings) (given : String → Bool) :
    Accepts shape 1 shape.initial (settings.toJson.expected.filter (given ·.1))
      (LintSettings.default.overlay settings given) := by
  rw [initial_shape]
  exact .pick LintSettings.default.failureMode rfl (reads_name _ _) rfl <|
    .pick LintSettings.default.disabled rfl (reads_texts _ _) rfl <| .nil _

theorem reads_gives (settings : LintSettings) (given : String → Bool) :
    Reads shape.decode 2 (settings.Gives given) (LintSettings.default.overlay settings given) := by
  apply reads_holds (settings.accepts_expected given)
  · simp [Value.expected, toJson, Value.members]
  · simp [shape, Field.allow, Field.of]
  · simp only [shape, List.pairwise_cons, List.forall_mem_cons, List.not_mem_nil, false_implies,
      implies_true, List.Pairwise.nil, and_true]
    exact Field.commute_of fun _ _ _ => rfl
  · rfl

end LintSettings

/-! ### Templates -/

namespace Template

def overlay (base template : Template) (given : String → Bool) : Template where
  name := if given "namespace" then template.name else base.name
  version := if given "templateVersion" then template.version else base.version
  engineMinVersion :=
    if given "engineMinVersion" then template.engineMinVersion else base.engineMinVersion
  supportedTags := if given "supportedTags" then template.supportedTags else base.supportedTags
  descriptionPattern :=
    if given "descriptionPattern" then template.descriptionPattern else base.descriptionPattern
  findingTitle := if given "findingTitle" then template.findingTitle else base.findingTitle
  impact := if given "impact" then template.impact else base.impact
  function := if given "function" then template.function else base.function
  stride := if given "stride" then template.stride else base.stride
  action := if given "action" then template.action else base.action
  mitigation := if given "mitigation" then template.mitigation else base.mitigation
  check := if given "check" then template.check else base.check
  likelihood := if given "likelihood" then template.likelihood else base.likelihood
  impactLevel := if given "impactLevel" then template.impactLevel else base.impactLevel
  breachProbability :=
    if given "dataBreachProbability" then template.breachProbability else base.breachProbability
  overrides := if given "mitigationOverrides" then template.overrides else base.overrides
  includeCurated := if given "includeCurated" then template.includeCurated else base.includeCurated
  lint := if given "lint" then template.lint else base.lint

/-- The members of a written template, of whose settings for checks only those given need be
there. -/
def expected (template : Template) (givenLint : String → Bool) : List Expected :=
  template.toJson.expected.map fun member =>
    (member.1, if member.1 = "lint" then template.lint.Gives givenLint else member.2)

def Gives (template : Template) (givenLint given : String → Bool) : Node → Prop :=
  Node.Holds (template.expected givenLint) given

/-- A file that says nothing describes the automotive template. -/
theorem initial_shape : shape.initial = automotive := rfl

theorem accepts_expected (template : Template) (givenLint given : String → Bool) :
    Accepts shape 3 shape.initial ((template.expected givenLint).filter (given ·.1))
      (automotive.overlay
        { template with lint := LintSettings.default.overlay template.lint givenLint } given) := by
  simp only [expected, Value.expected, toJson, Value.members, List.map_cons, List.map_nil,
    String.reduceEq, if_true, if_false, initial_shape]
  exact .pick automotive.name rfl (reads_text _ _) rfl <|
    .pick automotive.version rfl (reads_text _ _) rfl <|
    .pick automotive.engineMinVersion rfl (reads_text _ _) rfl <|
    .pick automotive.supportedTags rfl (reads_texts _ _) rfl <|
    .pick automotive.descriptionPattern rfl (reads_text _ _) rfl <|
    .pick automotive.findingTitle rfl (reads_text _ _) rfl <|
    .pick automotive.impact rfl (reads_text _ _) rfl <|
    .pick automotive.function rfl (reads_name _ _) rfl <|
    .pick automotive.stride rfl (reads_name _ _) rfl <|
    .pick automotive.action rfl (reads_text _ _) rfl <|
    .pick automotive.mitigation rfl (reads_text _ _) rfl <|
    .pick automotive.check rfl (reads_text _ _) rfl <|
    .pick automotive.likelihood rfl (reads_name _ _) rfl <|
    .pick automotive.impactLevel rfl (reads_name _ _) rfl <|
    .pick automotive.breachProbability rfl (reads_name _ _) rfl <|
    .pick automotive.overrides rfl (reads_overrides _) rfl <|
    .pick automotive.includeCurated rfl (reads_truth _ _) rfl <|
    .pick automotive.lint rfl ((template.lint.reads_gives givenLint).mono (by decide)) rfl <|
    .nil _

theorem reads_gives (template : Template) (givenLint given : String → Bool) :
    Reads shape.decode 4 (template.Gives givenLint given)
      (automotive.overlay
        { template with lint := LintSettings.default.overlay template.lint givenLint } given) := by
  apply reads_holds (template.accepts_expected givenLint given)
  · simp [expected, Value.expected, toJson, Value.members]
  · simp [shape, Field.allow, Field.of]
  · simp only [shape, List.pairwise_cons, List.forall_mem_cons, List.not_mem_nil, false_implies,
      implies_true, List.Pairwise.nil, and_true]
    repeat' apply And.intro
    all_goals exact Field.commute_of fun _ _ _ => rfl
  · rfl

theorem isExact_toJson (template : Template) : template.toJson.IsExact := by
  have overrides : (Value.ofList Override.toJson template.overrides).IsExact :=
    itemsExact_map fun entry _ => ⟨trivial, isExact_texts entry.tags, trivial⟩
  have lint : template.lint.toJson.IsExact :=
    ⟨trivial, isExact_texts template.lint.disabled, trivial⟩
  exact ⟨trivial, trivial, trivial, isExact_texts template.supportedTags, trivial, trivial, trivial,
    trivial, trivial, trivial, trivial, trivial, trivial, trivial, trivial, overrides, trivial,
    lint, trivial⟩

/-- The settings for checks as they are written are those with all their members. -/
theorem admits_expected (template : Template) :
    List.Forall₂ Expected.Admits (template.expected fun _ => true) template.toJson.members := by
  have lint : template.lint.Gives (fun _ => true) (.ofValue template.lint.toJson) :=
    Node.holds_part template.lint.toJson.admits_expected fun _ => true
  simp only [expected, Value.expected, List.map_map, List.forall₂_map_left_iff, List.forall₂_same]
  intro member found
  refine ⟨rfl, ?_⟩
  by_cases isLint : member.1 = "lint"
  · obtain ⟨name, value⟩ := member
    obtain rfl : name = "lint" := isLint
    obtain rfl : value = template.lint.toJson := by
      simpa [toJson, Value.members] using found
    exact lint
  · simp only [Function.comp_apply, if_neg isLint]
    exact member.2.rearranges_self

theorem ofText_part (template : Template) (given : String → Bool) {text : String}
    (writes : (Node.ofValue (template.toJson.part given)).Writes text) :
    ofText text = .ok (automotive.overlay template given) :=
  (template.reads_gives (fun _ => true) given).readText (by decide)
    (Node.holds_part template.admits_expected given) writes

/-- Whatever some of a template's members are given as, among which the settings for checks may
again be given in part, the template that is read has these fields, and all its others are as in the
automotive template. With none of the fields given it is the automotive template, and with all of
them the one that was written. -/
theorem overlays_defaults (template : Template) (givenLint given : String → Bool) :
    (∀ (node : Node) (text : String), template.Gives givenLint given node → node.Writes text →
      ofText text = .ok (automotive.overlay
        { template with lint := LintSettings.default.overlay template.lint givenLint } given)) ∧
    (∀ (node : Node) (text : String), template.lint.Gives givenLint node → node.Writes text →
      readText LintSettings.shape.decode text =
        .ok (LintSettings.default.overlay template.lint givenLint)) ∧
    ofText (template.toJson.part given).compact = .ok (automotive.overlay template given) ∧
    (automotive.overlay template fun _ => false) = automotive ∧
    (automotive.overlay template fun _ => true) = template ∧
    (LintSettings.default.overlay template.lint fun _ => false) = .default ∧
    (LintSettings.default.overlay template.lint fun _ => true) = template.lint ∧
    ofText template.toJson.compact = .ok template ∧
    ofText (template.toJson.pretty ++ "\n") = .ok template := by
  have exact := template.isExact_toJson
  refine ⟨?_, ?_, ?_, rfl, rfl, rfl, rfl, ?_, ?_⟩
  · intro node text gives writes
    exact (template.reads_gives givenLint given).readText (by decide) gives writes
  · intro node text gives writes
    exact (template.lint.reads_gives givenLint).readText (by decide) gives writes
  · exact template.ofText_part given (Value.writes_compact (Value.isExact_part exact given))
  · exact template.ofText_part (fun _ => true) (Value.writes_compact exact)
  · exact template.ofText_part (fun _ => true) (Value.writes_pretty exact)

def railway : Template :=
  { automotive with name := "railway", version := "2.0.0", lint := ⟨.block, ["empty_title"]⟩ }

def railwayLint : Value :=
  .object [("comment", .null), ("disabled", .ofList .string ["empty_title"])]

def railwayFile : Value :=
  .object [("comment", .array [.bool true]), ("lint", railwayLint),
    ("namespace", .string "railway")]

theorem railwayLint_gives :
    railway.lint.Gives (fun name => name = "disabled") (.ofValue railwayLint) := by
  have each : List.Forall₂ Expected.Meets
      (railway.lint.toJson.expected.filter fun member => member.1 = "disabled")
      (nodesOfMembers [("disabled", .ofList .string ["empty_title"])]) :=
    .cons ⟨rfl, Value.rearranges_self _⟩ .nil
  have foreign : ∀ member ∈ nodesOfMembers [("comment", .null)],
      ∃ name ∉ railway.lint.toJson.expected.map (·.1), member.1.text = .ok name := by
    intro member found
    obtain rfl := List.mem_singleton.mp found
    exact ⟨"comment", by decide, rfl⟩
  exact .object each foreign (List.Perm.swap _ _ _)

theorem railwayFile_gives :
    railway.Gives (fun name => name = "disabled") (fun name => name ∈ ["namespace", "lint"])
      (.ofValue railwayFile) := by
  have each : List.Forall₂ Expected.Meets
      ((railway.expected fun name => name = "disabled").filter
        fun member => member.1 ∈ ["namespace", "lint"])
      (nodesOfMembers [("namespace", .string "railway"), ("lint", railwayLint)]) :=
    .cons ⟨rfl, Value.rearranges_self _⟩ (.cons ⟨rfl, railwayLint_gives⟩ .nil)
  have foreign : ∀ member ∈ nodesOfMembers [("comment", .array [.bool true])],
      ∃ name ∉ (railway.expected fun name => name = "disabled").map (·.1),
        member.1.text = .ok name := by
    intro member found
    obtain rfl := List.mem_singleton.mp found
    exact ⟨"comment", by decide, rfl⟩
  exact .object each foreign (List.reverse_perm _).symm

theorem overlays_defaults_railway :
    railway.Gives (fun name => name = "disabled") (fun name => name ∈ ["namespace", "lint"])
      (.ofValue railwayFile) ∧
    (Node.ofValue railwayFile).Writes railwayFile.compact ∧
    ofText railwayFile.compact = .ok { automotive with
      name := "railway", lint := ⟨.warn, ["empty_title"]⟩ } ∧
    railway.lint.Gives (fun name => name = "disabled") (.ofValue railwayLint) ∧
    (Node.ofValue railwayLint).Writes railwayLint.compact ∧
    readText LintSettings.shape.decode railwayLint.compact = .ok ⟨.warn, ["empty_title"]⟩ := by
  obtain ⟨file, lint, _⟩ := overlays_defaults railway (fun name => name = "disabled")
    fun name => name ∈ ["namespace", "lint"]
  have exactLint : railwayLint.IsExact := ⟨trivial, isExact_texts _, trivial⟩
  have writes : (Node.ofValue railwayFile).Writes railwayFile.compact :=
    Value.writes_compact ⟨⟨trivial, trivial⟩, exactLint, trivial, trivial⟩
  have writesLint : (Node.ofValue railwayLint).Writes railwayLint.compact :=
    Value.writes_compact exactLint
  exact ⟨railwayFile_gives, writes, file _ _ railwayFile_gives writes, railwayLint_gives,
    writesLint, lint _ _ railwayLint_gives writesLint⟩

end Template

end RiskRules
