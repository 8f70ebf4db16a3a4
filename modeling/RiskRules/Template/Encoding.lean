import RiskRules.Template
import RiskRules.Json.Reading

/-! The JSON form of templates. -/

namespace RiskRules

open Json

namespace Override

def toJson (entry : Override) : Value :=
  .object [("identifier", .string entry.identifier), ("tags", .ofList .string entry.tags)]

def shape : Record Override where
  title := "struct MitigationOverride"
  initial := ⟨"", []⟩
  fields := [
    .require "identifier" stringValue fun entry identifier => { entry with identifier },
    .require "tags" (listOf stringValue) fun entry tags => { entry with tags }]

end Override

namespace LintSettings

def toJson (settings : LintSettings) : Value :=
  .object [
    ("failureMode", nameValue settings.failureMode),
    ("disabled", .ofList .string settings.disabled)]

def shape : Record LintSettings where
  title := "struct LintConfig"
  initial := { failureMode := .default, disabled := [] }
  fields := [
    .allow "failureMode" enumValue fun settings failureMode => { settings with failureMode },
    .allow "disabled" (listOf stringValue) fun settings disabled => { settings with disabled }]

end LintSettings

namespace Template

def toJson (template : Template) : Value :=
  .object [
    ("namespace", .string template.name),
    ("templateVersion", .string template.version),
    ("engineMinVersion", .string template.engineMinVersion),
    ("supportedTags", .ofList .string template.supportedTags),
    ("descriptionPattern", .string template.descriptionPattern),
    ("findingTitle", .string template.findingTitle),
    ("impact", .string template.impact),
    ("function", nameValue template.function),
    ("stride", nameValue template.stride),
    ("action", .string template.action),
    ("mitigation", .string template.mitigation),
    ("check", .string template.check),
    ("likelihood", nameValue template.likelihood),
    ("impactLevel", nameValue template.impactLevel),
    ("dataBreachProbability", nameValue template.breachProbability),
    ("mitigationOverrides", .ofList Override.toJson template.overrides),
    ("includeCurated", .bool template.includeCurated),
    ("lint", template.lint.toJson)]

def shape : Record Template where
  title := "struct RuleTemplate"
  initial := {
    name := defaultName, version := defaultVersion, engineMinVersion := defaultEngineMinVersion,
    supportedTags := defaultSupportedTags, descriptionPattern := defaultDescriptionPattern,
    findingTitle := defaultFindingTitle, impact := defaultImpact, function := defaultFunction,
    stride := defaultStride, action := defaultAction, mitigation := defaultMitigation,
    check := defaultCheck, likelihood := defaultLikelihood, impactLevel := defaultImpactLevel,
    breachProbability := defaultBreachProbability, overrides := defaultOverrides,
    includeCurated := true, lint := .default }
  fields := [
    .allow "namespace" stringValue fun template name => { template with name },
    .allow "templateVersion" stringValue fun template version => { template with version },
    .allow "engineMinVersion" stringValue fun template engineMinVersion =>
      { template with engineMinVersion },
    .allow "supportedTags" (listOf stringValue) fun template supportedTags =>
      { template with supportedTags },
    .allow "descriptionPattern" stringValue fun template descriptionPattern =>
      { template with descriptionPattern },
    .allow "findingTitle" stringValue fun template findingTitle => { template with findingTitle },
    .allow "impact" stringValue fun template impact => { template with impact },
    .allow "function" enumValue fun template function => { template with function },
    .allow "stride" enumValue fun template stride => { template with stride },
    .allow "action" stringValue fun template action => { template with action },
    .allow "mitigation" stringValue fun template mitigation => { template with mitigation },
    .allow "check" stringValue fun template check => { template with check },
    .allow "likelihood" enumValue fun template likelihood => { template with likelihood },
    .allow "impactLevel" enumValue fun template impactLevel => { template with impactLevel },
    .allow "dataBreachProbability" enumValue fun template breachProbability =>
      { template with breachProbability },
    .allow "mitigationOverrides" (listOf Override.shape.decode) fun template overrides =>
      { template with overrides },
    .allow "includeCurated" boolValue fun template includeCurated =>
      { template with includeCurated },
    .allow "lint" LintSettings.shape.decode fun template lint => { template with lint }]

def ofText (text : String) : Reading Template :=
  readText shape.decode text

end Template

end RiskRules
