import RiskRules.Proofs.Rule.Encoding
import RiskRules.Pack

/-!
Loading a written pack. A pack whose titles can be made is read from its rendering as it is, and
every pack that is read has such titles; what is left of loading are the checks of the registry and
of the digest. Nothing here depends on which digest is taken.
-/

namespace RiskRules.Pack

open Json Json.Record

def TitlesBuilt (pack : Pack) : Prop :=
  ∀ rule ∈ pack.rules, rule.findingTitle.Built

theorem TitlesBuilt.of_rules {pack other : Pack} (built : other.TitlesBuilt)
    (same : pack.rules = other.rules) : pack.TitlesBuilt := by
  intro rule member
  exact built rule (same ▸ member)

theorem decodes_pack {pack : Pack} (built : pack.TitlesBuilt) :
    Decodes shape.decode 5 pack.toJson pack := by
  have rules : Decodes (listOf Rule.shape.decode) 4 (.ofList Rule.toJson pack.rules) pack.rules :=
    decodes_list fun rule member => Rule.decodes_rule (built rule member)
  have registry := (decodes_texts pack.registry).mono (show 1 ≤ 4 by decide)
  apply decodes_object
  · exact .set rfl (decodes_string pack.engineVersion) <|
      .set rfl (decodes_string pack.templateVersion) <|
      .set rfl (decodes_string pack.space) <|
      .set rfl (decodes_string pack.catalogDigest) <|
      .set rfl rules <| .set rfl registry <|
      .set rfl (decodes_string pack.packHash) <| .nil _
  · simp [contentMembers]
  · simp [contentMembers, shape, Field.require, Field.of]

theorem membersExact_contentMembers (pack : Pack) : membersExact pack.contentMembers :=
  ⟨trivial, trivial, trivial, trivial, itemsExact_map fun rule _ => rule.isExact_toJson,
    isExact_texts pack.registry, trivial⟩

theorem ofText_render {pack : Pack} (built : pack.TitlesBuilt) : ofText pack.render = .ok pack := by
  have exact : pack.toJson.IsExact :=
    membersExact_append pack.membersExact_contentMembers ⟨trivial, trivial⟩
  exact readText_pretty (decodes_pack built) exact.noFloats (by decide)

theorem titlesBuilt_of_decode {room : Nat} {node : Node} {pack : Pack}
    (read : shape.decode room node = .ok pack) : pack.TitlesBuilt := by
  have initial : shape.initial.TitlesBuilt := fun rule member => absurd member List.not_mem_nil
  refine @decode_keeps _ shape TitlesBuilt initial ?_ _ _ _ read
  simp only [shape, List.mem_cons, List.not_mem_nil, or_false, forall_eq_or_imp, forall_eq]
  refine ⟨?_, ?_, ?_, ?_, ?_, ?_, ?_⟩
  -- Only the field of the rules has to do with titles.
  case refine_5 =>
    refine Field.keeps_of fun _ _ rules _ read _ => ?_
    exact forall_of_listOf (fun _ _ _ readRule => Rule.built_of_decode readRule) read
  all_goals exact Field.keeps_of fun _ _ _ _ _ holds => holds

theorem titlesBuilt_of_ofText {text : String} {pack : Pack} (read : ofText text = .ok pack) :
    pack.TitlesBuilt := by
  simp only [ofText, readText, bind_eq_ok] at read
  obtain ⟨result, decoded, ended⟩ := read
  split at ended
  · cases ended
  · cases ended
    exact titlesBuilt_of_decode decoded

section

variable (digest : List UInt8 → List UInt8)

def hashWith (pack : Pack) : String :=
  Text.hexOfBytes (digest (Text.encodeUtf8 pack.canonicalContent))

def loadWith (text : String) : Except PackError Pack :=
  match ofText text with
  | .error error => .error (.unreadable error)
  | .ok pack =>
      if pack.registryFits then
        if pack.hashWith digest = pack.packHash then .ok pack
        else .error (.hashMismatch pack.packHash (pack.hashWith digest))
      else .error .registryMismatch

theorem hashWith_sha256 (pack : Pack) : pack.hashWith Digest.sha256 = pack.computedHash := rfl

theorem loadWith_sha256 : loadWith Digest.sha256 = load := rfl

variable {digest}

theorem loadWith_eq_ok {text : String} {pack : Pack} :
    loadWith digest text = .ok pack ↔
      ofText text = .ok pack ∧ pack.registry = pack.rules.map Rule.identifier ∧
        pack.hashWith digest = pack.packHash := by
  rw [loadWith]
  cases read : ofText text with
  | error error => simp
  | ok found =>
      by_cases fits : found.registry = found.rules.map Rule.identifier
      · by_cases hashed : found.hashWith digest = found.packHash
        · simp only [registryFits, fits, decide_true, if_true, hashed, Except.ok.injEq]
          constructor
          · rintro rfl
            exact ⟨rfl, fits, hashed⟩
          · exact fun ⟨same, _⟩ => same
        · simp only [registryFits, fits, decide_true, if_true, hashed, if_false, reduceCtorEq,
            Except.ok.injEq, false_iff]
          rintro ⟨rfl, _, equal⟩
          exact hashed equal
      · simp only [registryFits, fits, decide_false, Bool.false_eq_true, if_false, reduceCtorEq,
          Except.ok.injEq, false_iff]
        rintro ⟨rfl, listed, _⟩
        exact fits listed

theorem loadWith_eq_hashMismatch {text : String} {pack : Pack} (read : ofText text = .ok pack)
    (fits : pack.registry = pack.rules.map Rule.identifier)
    (altered : pack.hashWith digest ≠ pack.packHash) :
    loadWith digest text = .error (.hashMismatch pack.packHash (pack.hashWith digest)) := by
  simp only [loadWith, read, registryFits, decide_eq_true fits, if_true, if_neg altered]

theorem loadWith_render {pack : Pack} (built : pack.TitlesBuilt)
    (fits : pack.registry = pack.rules.map Rule.identifier)
    (hashed : pack.hashWith digest = pack.packHash) : loadWith digest pack.render = .ok pack :=
  loadWith_eq_ok.mpr ⟨ofText_render built, fits, hashed⟩

end

theorem load_eq_ok {text : String} {pack : Pack} :
    load text = .ok pack ↔
      ofText text = .ok pack ∧ pack.registry = pack.rules.map Rule.identifier ∧
        pack.computedHash = pack.packHash := by
  rw [← hashWith_sha256, ← loadWith_sha256]
  exact loadWith_eq_ok

theorem sealed_fits (pack : Pack) : pack.sealed.packHash = pack.sealed.computedHash := rfl

theorem load_render {pack : Pack} (built : pack.TitlesBuilt)
    (fits : pack.registry = pack.rules.map Rule.identifier)
    (hashed : pack.computedHash = pack.packHash) : load pack.render = .ok pack :=
  loadWith_render built fits hashed

end RiskRules.Pack
