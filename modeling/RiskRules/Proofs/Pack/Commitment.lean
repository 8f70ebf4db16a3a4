import RiskRules.Proofs.Pack.RoundTrip
import RiskRules.Proofs.Rule.Canonical
import RiskRules.Proofs.Text.Bytes

/-!
What the digest of a pack commits to: its whole content. The text that is digested is that of no
other content, so two loaded packs with one digest are the same or show a collision, and a pack
under another digest than its own is refused.
-/

namespace RiskRules.Pack

open Json Json.Value

def content (pack : Pack) : Value :=
  .object pack.contentMembers

def SameContent (left right : Pack) : Prop :=
  left.engineVersion = right.engineVersion ∧ left.templateVersion = right.templateVersion ∧
    left.space = right.space ∧ left.catalogDigest = right.catalogDigest ∧
    left.rules = right.rules ∧ left.registry = right.registry

theorem SameContent.eq {left right : Pack} (same : left.SameContent right)
    (hashed : left.packHash = right.packHash) : left = right := by
  obtain ⟨engineVersion, templateVersion, space, catalogDigest, rules, registry⟩ := same
  cases left
  cases right
  simp_all

theorem SameContent.content_eq {left right : Pack} (same : left.SameContent right) :
    left.content = right.content := by
  obtain ⟨engineVersion, templateVersion, space, catalogDigest, rules, registry⟩ := same
  simp only [content, contentMembers, engineVersion, templateVersion, space, catalogDigest, rules,
    registry]

theorem sameContent_of_canonical {left right : Pack} (leftBuilt : left.TitlesBuilt)
    (rightBuilt : right.TitlesBuilt)
    (same : left.content.canonical = right.content.canonical) : left.SameContent right := by
  have rules : Separates (ofList Rule.toJson) left.rules right.rules :=
    separates_list fun rule member other found =>
      Rule.separates_rule (leftBuilt rule member) (rightBuilt other found)
  refine ⟨?_, ?_, ?_, ?_, ?_, ?_⟩
  · exact part_eq same "engineVersion" .string engineVersion (by simp [content, contentMembers])
      (separates_string _ _)
  · exact part_eq same "templateVersion" .string templateVersion (by simp [content, contentMembers])
      (separates_string _ _)
  · exact part_eq same "namespace" .string space (by simp [content, contentMembers])
      (separates_string _ _)
  · exact part_eq same "catalogDigest" .string catalogDigest (by simp [content, contentMembers])
      (separates_string _ _)
  · exact part_eq same "rules" (ofList Rule.toJson) Pack.rules (by simp [content, contentMembers]) rules
  · exact part_eq same "registry" (ofList .string) registry (by simp [content, contentMembers])
      (separates_texts _ _)

theorem canonicalContent_eq_iff {left right : Pack} (leftBuilt : left.TitlesBuilt)
    (rightBuilt : right.TitlesBuilt) :
    left.canonicalContent = right.canonicalContent ↔ left.SameContent right := by
  have texts : left.canonicalContent = right.canonicalContent ↔
      left.content.canonical = right.content.canonical :=
    canonicalText_eq_iff left.membersExact_contentMembers right.membersExact_contentMembers
  rw [texts]
  constructor
  · exact sameContent_of_canonical leftBuilt rightBuilt
  · intro same
    rw [same.content_eq]

section

variable {digest : List UInt8 → List UInt8}

theorem collides_of_loadWith {first second : String} {left right : Pack}
    (leftLoaded : loadWith digest first = .ok left)
    (rightLoaded : loadWith digest second = .ok right) (hashed : left.packHash = right.packHash)
    (different : left ≠ right) :
    Text.encodeUtf8 left.canonicalContent ≠ Text.encodeUtf8 right.canonicalContent ∧
      digest (Text.encodeUtf8 left.canonicalContent) =
        digest (Text.encodeUtf8 right.canonicalContent) := by
  obtain ⟨leftRead, _, leftHashed⟩ := loadWith_eq_ok.mp leftLoaded
  obtain ⟨rightRead, _, rightHashed⟩ := loadWith_eq_ok.mp rightLoaded
  have digits : left.hashWith digest = right.hashWith digest := by
    rw [leftHashed, rightHashed, hashed]
  refine ⟨?_, Text.hexOfBytes_injective digits⟩
  -- One content under one hash would be one pack.
  intro bytes
  have content := (canonicalContent_eq_iff (titlesBuilt_of_ofText leftRead)
    (titlesBuilt_of_ofText rightRead)).mp (Text.encodeUtf8_injective bytes)
  exact different (content.eq hashed)

theorem loadWith_altered {text other : String} {pack : Pack}
    (loaded : loadWith digest text = .ok pack) (altered : other ≠ pack.packHash) :
    loadWith digest (render { pack with packHash := other }) =
      .error (.hashMismatch other pack.packHash) := by
  obtain ⟨read, fits, hashed⟩ := loadWith_eq_ok.mp loaded
  have content : hashWith digest { pack with packHash := other } = pack.packHash := hashed
  have built : TitlesBuilt { pack with packHash := other } :=
    (titlesBuilt_of_ofText read).of_rules rfl
  have refused := @loadWith_eq_hashMismatch digest _ _ (ofText_render built) fits fun same =>
    altered (same.symm.trans content)
  rw [refused, content]

end

/-- The digest commits to the whole content of a pack, whichever function of bytes it is. -/
theorem hash_commits :
    (∀ left right : Pack, left.TitlesBuilt → right.TitlesBuilt →
      (left.canonicalContent = right.canonicalContent ↔
        left.engineVersion = right.engineVersion ∧ left.templateVersion = right.templateVersion ∧
          left.space = right.space ∧ left.catalogDigest = right.catalogDigest ∧
          left.rules = right.rules ∧ left.registry = right.registry)) ∧
    loadWith Digest.sha256 = load ∧
    ∀ digest : List UInt8 → List UInt8,
      (∀ (first second : String) (left right : Pack), loadWith digest first = .ok left →
        loadWith digest second = .ok right → left.packHash = right.packHash →
          left = right ∨
            left.canonicalContent ≠ right.canonicalContent ∧
              Text.encodeUtf8 left.canonicalContent ≠ Text.encodeUtf8 right.canonicalContent ∧
              digest (Text.encodeUtf8 left.canonicalContent) =
                digest (Text.encodeUtf8 right.canonicalContent)) ∧
      (∀ (text other : String) (pack : Pack), loadWith digest text = .ok pack →
        other ≠ pack.packHash →
          loadWith digest (render { pack with packHash := other }) =
            .error (.hashMismatch other pack.packHash)) := by
  refine ⟨?_, loadWith_sha256, fun digest => ⟨?_, ?_⟩⟩
  · intro left right leftBuilt rightBuilt
    exact canonicalContent_eq_iff leftBuilt rightBuilt
  · intro first second left right leftLoaded rightLoaded hashed
    by_cases same : left = right
    · exact Or.inl same
    · obtain ⟨distinct, equal⟩ := collides_of_loadWith leftLoaded rightLoaded hashed same
      exact Or.inr ⟨fun texts => distinct (by rw [texts]), distinct, equal⟩
  · intro text other pack loaded altered
    exact loadWith_altered loaded altered

theorem hash_commits_sample :
    sample.canonicalContent ≠ canonicalContent { sample with catalogDigest := "" } ∧
      loadWith Digest.sha256 (render { sample with packHash := sample.packHash ++ "0" }) =
        .error (.hashMismatch (sample.packHash ++ "0") sample.packHash) ∧
      Text.encodeUtf8 (canonicalContent { sample with packHash := "" }) ≠
        Text.encodeUtf8 (canonicalContent { sample with catalogDigest := "", packHash := "" }) := by
  obtain ⟨contents, _, anyDigest⟩ := hash_commits
  have different : sample.catalogDigest ≠ "" := by decide
  have longer : sample.packHash ++ "0" ≠ sample.packHash := by
    intro same
    have lengths := congrArg String.length same
    simp at lengths
  have loaded : loadWith Digest.sha256 sample.render = .ok sample :=
    loadWith_render sample_titlesBuilt rfl (sealed_fits _).symm
  have first := @loadWith_render (fun _ => []) { sample with packHash := "" }
    (sample_titlesBuilt.of_rules rfl) rfl rfl
  have second := @loadWith_render (fun _ => [])
    { sample with catalogDigest := "", packHash := "" } (sample_titlesBuilt.of_rules rfl) rfl rfl
  refine ⟨?_, (anyDigest _).2 _ _ _ loaded longer, ?_⟩
  · intro same
    have agree := (contents sample { sample with catalogDigest := "" } sample_titlesBuilt
      (sample_titlesBuilt.of_rules rfl)).mp same
    exact different agree.2.2.2.1
  · rcases (anyDigest _).1 _ _ _ _ first second rfl with same | collision
    · exact absurd (congrArg catalogDigest same) different
    · exact collision.2.1

end RiskRules.Pack
