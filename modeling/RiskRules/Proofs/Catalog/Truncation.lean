import RiskRules.Proofs.Catalog.Acceptance
import RiskRules.Proofs.Text.Bytes

/-!
Catalogs that are cut off. Reading needs the end of the root, and a document has only one place
where its root ends, so nothing that lacks this end is a catalog.
-/

namespace RiskRules.Catalog

open Xml

def EndsAtRoot (document : String) : Prop :=
  ∃ markup, Rooted (fun _ _ => True) markup ∧ Yields document.toList markup []

theorem eq_nil_of_ofText {document : String} {groups : List Group} {before more : List Char}
    (ends : EndsAtRoot document) (whole : document.toList = before ++ more)
    (accepted : ofText (String.ofList before) = .ok groups) : more = [] := by
  obtain ⟨markup, rooted, yields⟩ := ends
  obtain ⟨markupBefore, rest, rootedBefore, yieldsBefore⟩ := rooted_of_ofText accepted
  rw [String.toList_ofList] at yieldsBefore
  have yieldsWhole : Yields document.toList markupBefore (rest ++ more) := by
    rw [whole]
    exact yieldsBefore.append more
  obtain ⟨_, same⟩ := rootedBefore.unique yieldsWhole rooted yields
  exact (List.append_eq_nil_iff.mp same).2

theorem exists_malformed_of_before {document : String} {before : List Char}
    (ends : EndsAtRoot document) (isPart : before <+: document.toList)
    (proper : before ≠ document.toList) :
    ∃ fault, ofText (String.ofList before) = .error (.malformed fault) := by
  obtain ⟨more, whole⟩ := isPart
  cases read : ofText (String.ofList before) with
  | error error =>
      obtain ⟨fault, rfl⟩ := exists_malformed_of_ofText read
      exact ⟨fault, rfl⟩
  | ok groups =>
      have nothing := eq_nil_of_ofText ends whole.symm read
      rw [nothing, List.append_nil] at whole
      exact absurd whole proper

theorem refused_of_bytesBefore {document : String} {before : List UInt8}
    (ends : EndsAtRoot document) (isPart : before <+: Text.encodeUtf8 document)
    (proper : before ≠ Text.encodeUtf8 document) :
    (∃ fault, ofBytes before = .error (.malformed fault)) ∨
      ∃ fault, ofBytes before = .error (.encoding fault) := by
  obtain ⟨more, whole⟩ := isPart
  rw [ofBytes]
  cases read : Text.decodeUtf8 before with
  | error fault => exact .inr ⟨fault, rfl⟩
  | ok piece =>
      have readWhole : Text.decodeUtf8 (before ++ more) = .ok document := by
        rw [whole, Text.decodeUtf8_encodeUtf8]
      obtain ⟨tail, parted, nothing⟩ := Text.exists_of_decodeUtf8 read readWhole
      have properText : piece.toList ≠ document.toList := by
        intro same
        rw [← same, List.self_eq_append_right] at parted
        rw [nothing parted, List.append_nil] at whole
        exact proper whole
      have refused := exists_malformed_of_before ends ⟨tail, parted.symm⟩ properText
      rw [String.ofList_toList] at refused
      exact .inl refused

theorem compile_ne_ok {template : Template} {document : List UInt8} {error : LoadError}
    (refused : ofBytes document = .error error) (compilation : Compilation) :
    compile template document ≠ .ok compilation := by
  intro compiled
  obtain ⟨_, _, groups, _, read, _⟩ := compile_eq_ok.mp compiled
  rw [refused] at read
  cases read

theorem endsAtRoot_of_refused {document : String} {groups : List Group}
    (accepted : ofText document = .ok groups)
    (refused : ∀ before, before <+: document.toList → before ≠ document.toList →
      ∃ fault, ofText (String.ofList before) = .error (.malformed fault)) :
    EndsAtRoot document := by
  obtain ⟨markup, rest, rooted, yields⟩ := rooted_of_ofText accepted
  obtain ⟨taken, whole, goesOn⟩ := yields.taken
  by_cases nothing : rest = []
  · subst nothing
    exact ⟨markup, rooted.mono fun _ _ _ => trivial, yields⟩
  · have proper : taken ≠ document.toList := by
      intro same
      rw [← same, List.self_eq_append_right] at whole
      exact nothing whole
    obtain ⟨fault, read⟩ := refused taken ⟨rest, whole.symm⟩ proper
    have yieldsTaken : Yields (String.ofList taken).toList markup [] := by
      rw [String.toList_ofList]
      simpa only [List.append_nil] using goesOn []
    obtain ⟨groupsTaken, reads⟩ := exists_ofText_of_rooted rooted
    rw [reads _ [] yieldsTaken] at read
    cases read

/-- A catalog ends at its root exactly when nothing shorter that it begins with is a catalog. Then
it may be cut between characters or inside one, and no pack comes of what is left. -/
theorem truncated_refused {document : String} {groups : List Group}
    (accepted : ofText document = .ok groups) :
    (EndsAtRoot document ↔
      ∀ before, before <+: document.toList → before ≠ document.toList →
        ∃ fault, ofText (String.ofList before) = .error (.malformed fault)) ∧
    (EndsAtRoot document →
      ∀ before, before <+: Text.encodeUtf8 document → before ≠ Text.encodeUtf8 document →
        ((∃ fault, ofBytes before = .error (.malformed fault)) ∨
          ∃ fault, ofBytes before = .error (.encoding fault)) ∧
        ∀ template compilation, compile template before ≠ .ok compilation) := by
  refine ⟨⟨?_, endsAtRoot_of_refused accepted⟩, ?_⟩
  · intro ends before isPart proper
    exact exists_malformed_of_before ends isPart proper
  · intro ends before isPart proper
    have refused := refused_of_bytesBefore ends isPart proper
    refine ⟨refused, ?_⟩
    intro template compilation
    rcases refused with ⟨fault, refused⟩ | ⟨fault, refused⟩
    · exact compile_ne_ok refused compilation
    · exact compile_ne_ok refused compilation

def accented : String := "<RootNodes><ThreatsCatalog name='é'/></RootNodes>"

theorem endsAtRoot_accented : EndsAtRoot accented :=
  ⟨_, .around trivial (.empty trivial .done),
    .opened (by rfl) <| .opened (by rfl) <| .opened (by rfl) (.done _)⟩

theorem truncated_refused_accented :
    ofText accented = .ok [⟨"é", []⟩] ∧ EndsAtRoot accented ∧
      (∃ fault, ofText (String.ofList "<RootNodes><Threats".toList) = .error (.malformed fault)) ∧
      ∀ template compilation,
        compile template ((Text.encodeUtf8 accented).take 34) ≠ .ok compilation := by
  have accepted : ofText accented = .ok [⟨"é", []⟩] := by
    cbv
  have inside : (Text.encodeUtf8 accented).take 34 ≠ Text.encodeUtf8 accented := by
    rw [Text.encodeUtf8_eq]
    decide
  have facts := truncated_refused accepted
  refine ⟨accepted, endsAtRoot_accented, ?_, ?_⟩
  · exact facts.1.mp endsAtRoot_accented _ (by decide) (by decide)
  · exact (facts.2 endsAtRoot_accented _ (List.take_prefix 34 _) inside).2

end RiskRules.Catalog
