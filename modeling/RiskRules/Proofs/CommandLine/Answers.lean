import RiskRules.CommandLine.Run
import RiskRules.Proofs.Json.Agreement
import RiskRules.Proofs.Json.Record

/-!
What runs print, read back. The answers of compilations and evaluations are read like all other
records: members are told by their keys, and those without a field are skipped. Counts have no
bound, so they are read as natural numbers: beyond 64 bits, what is read as any value would be a
floating-point number.
-/

namespace RiskRules

namespace Json

/-! ### Values in canonical order -/

namespace Value

theorem canonical_ofList {α : Type} (encode : α → Value) (values : List α) :
    (ofList encode values).canonical = ofList (fun value => (encode value).canonical) values := by
  rw [ofList, canonical, canonicalItems_eq_map, List.map_map]
  rfl

theorem canonical_object (members : List (String × Value)) :
    (object members).canonical =
      object (sortMembers (members.map fun member => (member.1, member.2.canonical))) := by
  rw [canonical, canonicalMembers_eq_map]

theorem canonical_texts (texts : List String) :
    (ofList .string texts).canonical = ofList .string texts :=
  canonical_ofList .string texts

theorem NoFloats.canonical {value : Value} (whole : value.NoFloats) : value.canonical.NoFloats := by
  induction value using byParts with
  | array items ih =>
      have each := noFloats_array.mp whole
      rw [Value.canonical, canonicalItems_eq_map]
      refine noFloats_array.mpr (List.forall_mem_map.mpr ?_)
      exact fun item found => ih item found (each item found)
  | object members ih =>
      have each := noFloats_object.mp whole
      refine noFloats_object.mpr ?_
      intro member found
      obtain ⟨original, isMember, rfl⟩ := exists_of_mem_sorted found
      exact ih original isMember (each original isMember)
  | _ => exact whole

@[simp] theorem noFloats_null : null.NoFloats := nofun

@[simp] theorem noFloats_bool (value : Bool) : (bool value).NoFloats := nofun

@[simp] theorem noFloats_string (text : String) : (string text).NoFloats := nofun

@[simp] theorem noFloats_ofNat (number : Nat) : (ofNat number).NoFloats := nofun

@[simp] theorem noFloats_ofList {α : Type} {encode : α → Value} {values : List α} :
    (ofList encode values).NoFloats ↔ ∀ value ∈ values, (encode value).NoFloats := by
  rw [ofList, noFloats_array, List.forall_mem_map]

end Value

/-! ### Counts -/

/-- A whole number that is not negative, of any size. -/
def countValue : Decoder Nat
  | _, .number numeral =>
      if numeral.isWhole ∧ ¬numeral.negative then
        .ok (numeral.whole.foldl (fun total digit => total * 10 + digit) 0)
      else wrongType (.number numeral) "a count"
  | _, node => wrongType node "a count"

theorem decodes_count {depth : Nat} (count : Nat) :
    Decodes countValue depth (.ofNat count) count := by
  intro room _
  have whole : (Numeral.ofInt count).isWhole = true ∧ ¬(Numeral.ofInt count).negative = true := by
    simp [Numeral.ofInt, Numeral.isWhole]
  rw [Value.ofNat, Node.ofValue, Number.numeral, countValue, if_pos whole]
  exact congrArg Except.ok (foldl_digitsOfNat count)

end Json

open Json Json.Record

/-! ### Findings -/

namespace Finding

def shape : Record Finding where
  title := "struct Finding"
  initial := {
    categoryId := "", severity := .low, likelihood := .unlikely, impact := .low, title := "",
    componentId := "", breachProbability := .improbable, breachComponentIds := [],
    syntheticId := "", status := .opened }
  fields := [
    .require "categoryId" stringValue fun finding categoryId => { finding with categoryId },
    .require "severity" enumValue fun finding severity => { finding with severity },
    .require "exploitationLikelihood" enumValue fun finding likelihood =>
      { finding with likelihood },
    .require "exploitationImpact" enumValue fun finding impact => { finding with impact },
    .require "title" stringValue fun finding title => { finding with title },
    .require "mostRelevantComponentId" stringValue fun finding componentId =>
      { finding with componentId },
    .require "dataBreachProbability" enumValue fun finding breachProbability =>
      { finding with breachProbability },
    .require "dataBreachComponentIds" (listOf stringValue) fun finding breachComponentIds =>
      { finding with breachComponentIds },
    .require "syntheticId" stringValue fun finding syntheticId => { finding with syntheticId },
    .require "status" enumValue fun finding status => { finding with status }]

theorem canonical_toJson (finding : Finding) : finding.toJson.canonical = .object [
    ("categoryId", .string finding.categoryId),
    ("dataBreachComponentIds", .ofList .string finding.breachComponentIds),
    ("dataBreachProbability", nameValue finding.breachProbability),
    ("exploitationImpact", nameValue finding.impact),
    ("exploitationLikelihood", nameValue finding.likelihood),
    ("mostRelevantComponentId", .string finding.componentId),
    ("severity", nameValue finding.severity),
    ("status", nameValue finding.status),
    ("syntheticId", .string finding.syntheticId),
    ("title", .string finding.title)] := by
  simp only [toJson, Value.canonical_object, List.map_cons, List.map_nil, Value.canonical_texts]
  rfl

theorem decodes_finding (finding : Finding) :
    Decodes shape.decode 2 finding.toJson.canonical finding := by
  rw [canonical_toJson]
  apply decodes_object
  · exact .set rfl (decodes_string finding.categoryId) <|
      .set rfl (decodes_texts finding.breachComponentIds) <|
      .set rfl (decodes_name finding.breachProbability) <|
      .set rfl (decodes_name finding.impact) <|
      .set rfl (decodes_name finding.likelihood) <|
      .set rfl (decodes_string finding.componentId) <|
      .set rfl (decodes_name finding.severity) <|
      .set rfl (decodes_name finding.status) <|
      .set rfl (decodes_string finding.syntheticId) <|
      .set rfl (decodes_string finding.title) <| .nil _
  · simp
  · simp [shape, Field.require, Field.of]

theorem noFloats_toJson (finding : Finding) : finding.toJson.NoFloats := by
  simp [toJson, Value.noFloats_object, nameValue]

end Finding

namespace CommandLine

/-! ### Answers of evaluations -/

structure RuleReport where
  identifier : String
  findings : List Finding

def RuleReport.shape : Record RuleReport where
  title := "struct RuleFindings"
  initial := ⟨"", []⟩
  fields := [
    .require "identifier" stringValue fun report identifier => { report with identifier },
    .require "findings" (listOf Finding.shape.decode) fun report findings =>
      { report with findings }]

structure Report where
  success : Bool
  findings : Nat
  rules : List RuleReport

namespace Report

def shape : Record Report where
  title := "a report"
  initial := ⟨false, 0, []⟩
  fields := [
    .require "success" boolValue fun report success => { report with success },
    .require "findings" countValue fun report findings => { report with findings },
    .require "rules" (listOf RuleReport.shape.decode) fun report rules => { report with rules }]

def ofText (text : String) : Reading Report :=
  readText shape.decode text

end Report

theorem decodes_ruleAnswer (identifier : String) (findings : List Finding) :
    Decodes RuleReport.shape.decode 4 (ruleAnswer identifier findings).canonical
      ⟨identifier, findings⟩ := by
  have sorted : (ruleAnswer identifier findings).canonical = .object [
      ("findings", .ofList (fun finding => finding.toJson.canonical) findings),
      ("identifier", .string identifier)] := by
    simp only [ruleAnswer, Value.canonical_object, List.map_cons, List.map_nil,
      Value.canonical_ofList]
    rfl
  rw [sorted]
  apply decodes_object
  · exact .set rfl (decodes_list fun finding _ => finding.decodes_finding) <|
      .set rfl (decodes_string identifier) <| .nil _
  · simp
  · simp [RuleReport.shape, Field.require, Field.of]

theorem decodes_evaluateAnswer (results : List (String × List Finding)) :
    Decodes Report.shape.decode 6 (evaluateAnswer results) {
      success := true
      findings := (results.map fun result => result.2.length).sum
      rules := results.map fun result => ⟨result.1, result.2⟩ } := by
  have total : results.foldr (fun result count => result.2.length + count) 0 =
      (results.map fun result => result.2.length).sum := by
    rw [List.sum, List.foldr_map]
  have sorted : evaluateAnswer results = .object [
      ("findings", .ofNat (results.map fun result => result.2.length).sum),
      ("rules", .ofList (fun report : RuleReport =>
        (ruleAnswer report.identifier report.findings).canonical)
          (results.map fun result => ⟨result.1, result.2⟩)),
      ("success", .bool true)] := by
    simp only [evaluateAnswer, Value.canonical_object, List.map_cons, List.map_nil,
      Value.canonical_ofList, total]
    rw [Value.ofList, Value.ofList, List.map_map]
    rfl
  rw [sorted]
  apply decodes_object
  · exact .set rfl (decodes_count _) <|
      .set rfl (decodes_list fun report _ =>
        decodes_ruleAnswer report.identifier report.findings) <|
      .set rfl (decodes_bool true) <| .nil _
  · simp
  · simp [Report.shape, Field.require, Field.of]

theorem noFloats_evaluateAnswer (results : List (String × List Finding)) :
    (evaluateAnswer results).NoFloats := by
  apply Value.NoFloats.canonical
  simp [ruleAnswer, Value.noFloats_object, Finding.noFloats_toJson]

/-- What an evaluation prints is read back as its findings, rule by rule. -/
theorem ofText_evaluateAnswer (results : List (String × List Finding)) :
    Report.ofText (printed (evaluateAnswer results)) = .ok {
      success := true
      findings := (results.map fun result => result.2.length).sum
      rules := results.map fun result => ⟨result.1, result.2⟩ } :=
  readText_pretty (decodes_evaluateAnswer results) (noFloats_evaluateAnswer results) (by decide)

/-! ### Answers of compilations -/

structure Listing where
  success : Bool
  output : String
  rules : Nat
  registry : List String
  packHash : String
  dropped : Nat

namespace Listing

def shape : Record Listing where
  title := "a listing"
  initial := ⟨false, "", 0, [], "", 0⟩
  fields := [
    .require "success" boolValue fun listing success => { listing with success },
    .require "output" stringValue fun listing output => { listing with output },
    .require "rules" countValue fun listing rules => { listing with rules },
    .require "registry" (listOf stringValue) fun listing registry => { listing with registry },
    .require "packHash" stringValue fun listing packHash => { listing with packHash },
    .require "dropped" countValue fun listing dropped => { listing with dropped }]

def ofText (text : String) : Reading Listing :=
  readText shape.decode text

end Listing

theorem decodes_compileAnswer (output : String) (compilation : Compilation) :
    Decodes Listing.shape.decode 2 (compileAnswer output compilation) {
      success := true
      output
      rules := compilation.pack.rules.length
      registry := compilation.pack.registry
      packHash := compilation.pack.packHash
      dropped := compilation.inspection.normalization.dropped.length } := by
  let diagnostics : Value := .ofList (fun diagnostic => diagnostic.toJson.canonical)
    compilation.inspection.lint.diagnostics
  have sorted : compileAnswer output compilation = .object [
      ("diagnostics", diagnostics),
      ("dropped", .ofNat compilation.inspection.normalization.dropped.length),
      ("output", .string output),
      ("packHash", .string compilation.pack.packHash),
      ("registry", .ofList .string compilation.pack.registry),
      ("rules", .ofNat compilation.pack.rules.length),
      ("success", .bool true)] := by
    simp only [compileAnswer, Value.canonical_object, List.map_cons, List.map_nil,
      Value.canonical_ofList]
    rfl
  rw [sorted]
  apply decodes_object
  · exact .skip rfl <| .set rfl (decodes_count _) <|
      .set rfl (decodes_string output) <|
      .set rfl (decodes_string compilation.pack.packHash) <|
      .set rfl (decodes_texts compilation.pack.registry) <|
      .set rfl (decodes_count _) <|
      .set rfl (decodes_bool true) <| .nil _
  · simp
  · simp [Listing.shape, Field.require, Field.of]

theorem noFloats_compileAnswer (output : String) (compilation : Compilation) :
    (compileAnswer output compilation).NoFloats := by
  have noFloats_toJson (diagnostic : Diagnostic) : diagnostic.toJson.NoFloats := by
    cases identified : diagnostic.identifier <;>
      simp [Diagnostic.toJson, Value.noFloats_object, Value.noFloats_array, Value.ofOption,
        nameValue, identified]
  apply Value.NoFloats.canonical
  simp [Value.noFloats_object, noFloats_toJson]

/-- What a compilation prints is read back as what it has made. -/
theorem ofText_compileAnswer (output : String) (compilation : Compilation) :
    Listing.ofText (printed (compileAnswer output compilation)) = .ok {
      success := true
      output
      rules := compilation.pack.rules.length
      registry := compilation.pack.registry
      packHash := compilation.pack.packHash
      dropped := compilation.inspection.normalization.dropped.length } :=
  readText_pretty (decodes_compileAnswer output compilation)
    (noFloats_compileAnswer output compilation) (by decide)

end CommandLine

end RiskRules
