import RiskRules.Proofs.Json.Record
import RiskRules.Proofs.Pattern
import RiskRules.Proofs.Tags
import RiskRules.Rule.Encoding

/-!
Reading the written form of a rule gives the rule back, if its title is a pattern that can be made.
-/

namespace RiskRules

open Json Json.Record

namespace TagSet

theorem decodes_tagSet (set : TagSet) : Decodes decode 1 set.toJson set := by
  intro room enough
  rw [decode, toJson, decodes_texts set.tags room enough]
  exact congrArg Except.ok (ofList_tags set)

end TagSet

theorem Pattern.decodes_pattern {depth : Nat} {pattern : Pattern} (built : pattern.Built) :
    Decodes decode depth pattern.toJson pattern := by
  intro room enough
  rw [decode, toJson, decodes_string pattern.source room enough]
  simp only [bind, Except.bind, built.parse_source]
  rfl

namespace Mitigation

theorem tagsOfValue_texts (tags : List String) :
    tagsOfValue (.ofList .string tags) = .ok tags := by
  induction tags with
  | nil => rfl
  | cons tag rest ih =>
      simp only [Value.ofList, tagsOfValue] at ih
      simp only [Value.ofList, tagsOfValue, List.map_cons, List.mapM_cons, ih]
      rfl

theorem readMembers_kind (room : Nat) (kind : Kind) (rest : List (String × Value)) :
    readMembers room .none (nodesOfMembers (("kind", nameValue kind) :: rest)) =
      readMembers room (some kind) (nodesOfMembers rest) := by
  simp only [nodesOfMembers, readMembers, Literal.text_ofText, variantName_name room kind]
  rfl

theorem readMembers_tags {room : Nat} (enough : 1 < room) (kind : Kind) (tags : List String) :
    readMembers room (some kind) (nodesOfMembers [("tags", .ofList .string tags)]) =
      .ok (some kind, [("tags", .ofList .string tags)]) := by
  have value := Node.value_ofValue _ (isExact_texts tags) (by rwa [depth_texts])
  simp only [nodesOfMembers, readMembers, Literal.text_ofText, value]
  rfl

theorem decodes_mitigation (mitigation : Mitigation) :
    Decodes decode 2 mitigation.toJson mitigation := by
  intro room enough
  have entered := fun {γ : Type} (inside : Nat → Reading γ) =>
    descend_of_room (show 1 < room by omega) inside
  cases mitigation with
  | none =>
      rw [toJson, Node.ofValue, decode, entered, readMembers_kind]
      rfl
  | anyTag tags =>
      have found : tagsOfMembers .none [("tags", .ofList .string tags)] = .ok tags := by
        simp only [tagsOfMembers, tagsOfValue_texts]
        rfl
      rw [toJson, Node.ofValue, decode, entered, readMembers_kind,
        readMembers_tags (by omega)]
      simp only [bind, Except.bind, ObjectEnding.check, requireKind, ofMembers, found]
      rfl

end Mitigation

namespace Category

theorem fills_optionalMember {shape : Record α} {depth : Nat} {name : String} {required : Bool}
    {decode : Decoder β} {assign : α → Option β → α} {encode : β → Value} {record result : α}
    (part : Option β) (found : shape.field? name = some (.of name required (optionOf decode) assign))
    (decodes : ∀ value, Decodes decode depth (encode value) value)
    (present : ∀ value, encode value ≠ .null) (absent : assign record none = record)
    (assigned : assign record part = result) :
    Fills shape depth record (optionalMember name encode part) result := by
  subst assigned
  cases part with
  | none =>
      rw [absent]
      exact .nil record
  | some value => exact .set found (decodes_some (decodes value) (present value)) (.nil _)

theorem decodes_category (category : Category) :
    Decodes shape.decode 1 category.toJson category := by
  apply decodes_object
  · refine .append { category with cheatSheet := none }
      (.append { category with asvs := none, cheatSheet := none }
        (.append { category with cwe := none, asvs := none, cheatSheet := none } ?_ ?_) ?_) ?_
    · exact .set rfl (decodes_string category.id) <| .set rfl (decodes_string category.title) <|
        .set rfl (decodes_string category.description) <|
        .set rfl (decodes_string category.impact) <| .set rfl (decodes_name category.function) <|
        .set rfl (decodes_name category.stride) <| .set rfl (decodes_string category.action) <|
        .set rfl (decodes_string category.mitigation) <|
        .set rfl (decodes_string category.check) <| .nil _
    · exact fills_optionalMember category.cwe rfl decodes_word32 (by simp [Value.ofNat]) rfl rfl
    · exact fills_optionalMember category.asvs rfl decodes_string (by simp) rfl rfl
    · exact fills_optionalMember category.cheatSheet rfl decodes_string (by simp) rfl rfl
  · cases category.cwe <;> cases category.asvs <;> cases category.cheatSheet <;>
      simp [optionalMember]
  · cases category.cwe <;> cases category.asvs <;> cases category.cheatSheet <;>
      simp [optionalMember, shape, Field.require, Field.allow, Field.of]

end Category

theorem Rule.decodes_rule {rule : Rule} (built : rule.findingTitle.Built) :
    Decodes shape.decode 3 rule.toJson rule := by
  apply decodes_object
  · exact .set rfl (decodes_string rule.identifier) <|
      .set rfl ((Category.decodes_category rule.category).mono (by decide)) <|
      .set rfl ((TagSet.decodes_tagSet rule.supportedTags).mono (by decide)) <|
      .set rfl (decodes_name rule.gate) <|
      .set rfl (decodes_name rule.likelihood) <|
      .set rfl (decodes_name rule.impact) <|
      .set rfl (decodes_name rule.severity) <|
      .set rfl (decodes_name rule.breachProbability) <|
      .set rfl (Pattern.decodes_pattern built) <|
      .set rfl (Mitigation.decodes_mitigation rule.mitigation) <| .nil _
  · simp
  · simp [shape, Field.require, Field.allow, Field.of]

theorem Category.membersExact_optionalMember {name : String} {encode : β → Value}
    (part : Option β) (exact : ∀ value, (encode value).IsExact) :
    membersExact (optionalMember name encode part) := by
  cases part with
  | none => trivial
  | some value => exact ⟨exact value, trivial⟩

theorem Category.isExact_toJson (category : Category) : category.toJson.IsExact := by
  have word : ∀ number : UInt32, (Value.ofNat number.toNat).IsExact := fun number =>
    isExact_natCast (Nat.lt_trans number.toNat_lt (by decide))
  refine membersExact_append (membersExact_append (membersExact_append ?_
    (membersExact_optionalMember category.cwe word))
    (membersExact_optionalMember category.asvs fun _ => trivial))
    (membersExact_optionalMember category.cheatSheet fun _ => trivial)
  simp [membersExact, nameValue, Value.IsExact]

theorem Mitigation.isExact_toJson (mitigation : Mitigation) : mitigation.toJson.IsExact := by
  cases mitigation with
  | none => exact ⟨trivial, trivial⟩
  | anyTag tags => exact ⟨trivial, isExact_texts tags, trivial⟩

theorem Rule.isExact_toJson (rule : Rule) : rule.toJson.IsExact :=
  ⟨trivial, rule.category.isExact_toJson, isExact_texts rule.supportedTags.tags, trivial, trivial,
    trivial, trivial, trivial, trivial, rule.mitigation.isExact_toJson, trivial⟩

/-! ### Whatever is read as a rule has a title that can be made -/

theorem Pattern.built_of_decode {room : Nat} {node : Node} {pattern : Pattern}
    (read : decode room node = .ok pattern) : pattern.Built := by
  simp only [decode, bind_eq_ok] at read
  obtain ⟨source, _, parsed⟩ := read
  split at parsed
  next pattern found =>
    cases parsed
    exact .parsed found
  next => cases parsed

theorem Rule.built_of_decode {room : Nat} {node : Node} {rule : Rule}
    (read : shape.decode room node = .ok rule) : rule.findingTitle.Built := by
  have initial : shape.initial.findingTitle.Built :=
    .parsed (show Pattern.parse "" = .ok shape.initial.findingTitle from rfl)
  refine @decode_keeps _ shape (fun rule => rule.findingTitle.Built) initial ?_ _ _ _ read
  simp only [shape, List.mem_cons, List.not_mem_nil, or_false, forall_eq_or_imp, forall_eq]
  refine ⟨?_, ?_, ?_, ?_, ?_, ?_, ?_, ?_, ?_, ?_⟩
  case refine_9 => exact Field.keeps_of fun _ _ _ _ read _ => Pattern.built_of_decode read
  all_goals exact Field.keeps_of fun _ _ _ _ _ holds => holds

end RiskRules
