import RiskRules.Proofs.Catalog.Query
import RiskRules.Proofs.Compilation
import RiskRules.Proofs.Xml.AttributeList
import RiskRules.Proofs.Xml.Nesting

/-!
Which documents are catalogs. Up to the end of the root element the tags have to nest and match, and
the elements that count need attributes that can be read as far as they are asked for. What stands
after the root, and after the last attribute asked for, is not looked at, so a document may be
accepted although it is not well formed.
-/

namespace RiskRules.Catalog

open Xml

/-! ### What is asked of elements -/

theorem exists_attributeText_iff {name : String} {feed : Feed Attribute AttributeFault} :
    (∃ text, attributeText name feed = .ok text) ↔
      ∃ given rest, feed = Feed.prepend given rest ∧ Found name given rest := by
  induction feed with
  | finished =>
      have absent : ∀ one ∈ ([] : List Attribute), one.localName ≠ name :=
        fun _ member => absurd member List.not_mem_nil
      exact ⟨fun _ => ⟨[], .finished, rfl, .missing absent⟩, fun _ => ⟨"", rfl⟩⟩
  | broken cause =>
      constructor
      · rintro ⟨text, read⟩
        cases read
      · rintro ⟨given, rest, same, found⟩
        cases found with
        | missing => cases given <;> cases same
        | @present before => cases before <;> cases same
  | item first later ih =>
      rw [attributeText]
      by_cases named : first.localName = name
      · rw [if_pos named, exists_found_of_named named]
        simp only [mapError_eq_ok]
      · rw [if_neg named, exists_found_of_passed named, ih]

theorem exists_attributeText_tag_iff {name : String} {tag : Tag} :
    (∃ text, attributeText name tag.attributes = .ok text) ↔ tag.SoundTo name := by
  rw [exists_attributeText_iff]
  constructor
  · rintro ⟨given, rest, same, found⟩
    exact ⟨given, rest, same, (names_of_attributesFrom same).1, found⟩
  · rintro ⟨given, rest, same, _, found⟩
    exact ⟨given, rest, same, found⟩

def wanted (openNames : List String) (tag : Tag) : List String :=
  match openNames with
  | [_] => if tag.localName = "ThreatsCatalog" then ["name"] else []
  | [list, group, _] =>
      if localName group = "ThreatsCatalog" ∧ localName list = "ThreatClasses" ∧
          tag.localName = "ThreatClass" then ["id", "name", "title"]
      else []
  | _ => []

def Legible (openNames : List String) (tag : Tag) : Prop :=
  (openNames = [] → tag.localName = "RootNodes") ∧ ∀ name ∈ wanted openNames tag, tag.SoundTo name

theorem exists_groupOf_iff {tag : Tag} :
    (∃ group, groupOf tag = .ok group) ↔ tag.SoundTo "name" := by
  rw [← exists_attributeText_tag_iff]
  simp only [groupOf, bind_eq_ok]
  constructor
  · rintro ⟨_, name, read, _⟩
    exact ⟨name, read⟩
  · rintro ⟨name, read⟩
    exact ⟨_, name, read, rfl⟩

theorem exists_threatOf_iff {tag : Tag} :
    (∃ threat, threatOf tag = .ok threat) ↔
      tag.SoundTo "id" ∧ tag.SoundTo "name" ∧ tag.SoundTo "title" := by
  simp only [← exists_attributeText_tag_iff, threatOf, bind_eq_ok]
  constructor
  · rintro ⟨_, id, readId, name, readName, title, readTitle, _⟩
    exact ⟨⟨id, readId⟩, ⟨name, readName⟩, title, readTitle⟩
  · rintro ⟨⟨id, readId⟩, ⟨name, readName⟩, title, readTitle⟩
    exact ⟨_, id, readId, name, readName, title, readTitle, rfl⟩

theorem exists_bind_ok_iff {ε α β : Type} {result : Except ε α} {next : α → β} :
    (∃ entered, (do let value ← result; return next value : Except ε β) = .ok entered) ↔
      ∃ value, result = .ok value := by
  cases result with
  | error cause =>
      constructor
      · rintro ⟨_, read⟩
        cases read
      · rintro ⟨_, read⟩
        cases read
  | ok value => exact ⟨fun _ => ⟨value, rfl⟩, fun _ => ⟨next value, rfl⟩⟩

theorem exists_enter_iff {openNames : List String} {tag : Tag} {groups : List Group} :
    (∃ entered, (⟨openNames, groups⟩ : Progress).enter tag = .ok entered) ↔
      Legible openNames tag := by
  match openNames with
  | [] =>
      by_cases named : tag.localName = "RootNodes" <;>
        simp [Progress.enter, Legible, wanted, named]
  | [_] =>
      by_cases named : tag.localName = "ThreatsCatalog"
      · simp only [Progress.enter, named, if_true, exists_bind_ok_iff, exists_groupOf_iff]
        simp [Legible, wanted, named]
      · simp [Progress.enter, Legible, wanted, named]
  | [_, _] => simp [Progress.enter, Legible, wanted]
  | [list, group, _] =>
      by_cases counts : localName group = "ThreatsCatalog" ∧ localName list = "ThreatClasses" ∧
          tag.localName = "ThreatClass"
      · obtain ⟨ofGroup, ofList, named⟩ := counts
        simp only [Progress.enter, ofGroup, ofList, named, decide_true, Bool.and_self, if_true,
          exists_bind_ok_iff, exists_threatOf_iff]
        simp [Legible, wanted, ofGroup, ofList, named]
      · have idle : ¬(decide (localName group = "ThreatsCatalog") &&
            decide (localName list = "ThreatClasses") &&
            decide (tag.localName = "ThreatClass")) = true := by
          simpa [and_assoc] using counts
        simp [Progress.enter, idle, Legible, wanted, counts]
  | _ :: _ :: _ :: _ :: _ => simp [Progress.enter, Legible, wanted]

/-! ### Reading as far as the end of the root -/

inductive Levels (fits : List String → Tag → Prop) : List String → List Markup → Prop
  | done : Levels fits [] []
  | level {name : String} {outer : List String} {inner later : List Markup}
      (inside : Nested fits (name :: outer) inner) (outside : Levels fits outer later) :
      Levels fits (name :: outer) (inner ++ .close name :: later)

section

variable {openNames : List String} {groups result : List Group}
  {feed : Feed Markup MarkupFault}

theorem start_of_groupsFrom {tag : Tag}
    (read : groupsFrom ⟨openNames, groups⟩ (.item (.start tag) feed) = .ok result) :
    Legible openNames tag ∧
      ∃ entered, groupsFrom ⟨tag.name :: openNames, entered⟩ feed = .ok result := by
  cases enters : (⟨openNames, groups⟩ : Progress).enter tag with
  | error fault =>
      rw [groupsFrom_refused (by rw [Progress.step, enters]; rfl)] at read
      cases read
  | ok entered =>
      rw [groupsFrom_start enters] at read
      exact ⟨exists_enter_iff.mp ⟨entered, enters⟩, entered, read⟩

theorem empty_of_groupsFrom {tag : Tag}
    (read : groupsFrom ⟨openNames, groups⟩ (.item (.empty tag) feed) = .ok result) :
    Legible openNames tag ∧
      (openNames ≠ [] → ∃ entered, groupsFrom ⟨openNames, entered⟩ feed = .ok result) := by
  cases enters : (⟨openNames, groups⟩ : Progress).enter tag with
  | error fault =>
      rw [groupsFrom_refused (by rw [Progress.step, enters]; rfl)] at read
      cases read
  | ok entered =>
      refine ⟨exists_enter_iff.mp ⟨entered, enters⟩, ?_⟩
      intro opened
      rw [groupsFrom_empty opened enters] at read
      exact ⟨entered, read⟩

theorem close_of_groupsFrom {name found : String}
    (read : groupsFrom ⟨name :: openNames, groups⟩ (.item (.close found) feed) = .ok result) :
    found = name ∧ (openNames ≠ [] → groupsFrom ⟨openNames, groups⟩ feed = .ok result) := by
  by_cases same : found = name
  · subst same
    refine ⟨rfl, ?_⟩
    intro opened
    rwa [groupsFrom_close opened] at read
  · have refused : (⟨name :: openNames, groups⟩ : Progress).step (.close found) =
        .error (.mismatchedClose name found) := if_neg same
    rw [groupsFrom_refused refused] at read
    cases read

theorem levels_of_groupsFrom (opened : openNames ≠ [])
    (read : groupsFrom ⟨openNames, groups⟩ feed = .ok result) :
    ∃ markup rest, feed = Feed.prepend markup rest ∧ Levels Legible openNames markup := by
  induction feed generalizing openNames groups with
  | finished => cases read
  | broken cause => cases read
  | item piece later ih =>
      obtain ⟨name, outer, rfl⟩ := List.exists_cons_of_ne_nil opened
      cases piece with
      | other =>
          rw [groupsFrom_unfinished rfl] at read
          obtain ⟨markup, rest, rfl, levels⟩ := ih opened read
          cases levels with
          | @level _ _ inner further inside outside =>
              exact ⟨.other :: inner ++ .close name :: further, rest, rfl,
                .level (.other inside) outside⟩
      | start tag =>
          obtain ⟨fit, entered, goesOn⟩ := start_of_groupsFrom read
          obtain ⟨markup, rest, rfl, levels⟩ := ih (List.cons_ne_nil _ _) goesOn
          cases levels with
          | @level _ _ inner _ inside outside =>
              cases outside with
              | @level _ _ innerToo further insideToo outside =>
                  refine ⟨_, rest, ?_, .level (.around fit inside insideToo) outside⟩
                  simp [Feed.prepend_cons, Feed.prepend_append]
      | empty tag =>
          obtain ⟨fit, goesOn⟩ := empty_of_groupsFrom read
          obtain ⟨entered, goesOn⟩ := goesOn opened
          obtain ⟨markup, rest, rfl, levels⟩ := ih opened goesOn
          cases levels with
          | @level _ _ inner further inside outside =>
              exact ⟨.empty tag :: inner ++ .close name :: further, rest, rfl,
                .level (.empty fit inside) outside⟩
      | close found =>
          obtain ⟨rfl, goesOn⟩ := close_of_groupsFrom read
          by_cases last : outer = []
          · subst last
            exact ⟨[.close found], later, rfl, .level .done .done⟩
          · obtain ⟨markup, rest, rfl, levels⟩ := ih last (goesOn last)
            exact ⟨.close found :: markup, rest, rfl, .level .done levels⟩

theorem rooted_of_groupsFrom (read : groupsFrom ⟨[], groups⟩ feed = .ok result) :
    ∃ markup rest, feed = Feed.prepend markup rest ∧ Rooted Legible markup := by
  induction feed with
  | finished => cases read
  | broken cause => cases read
  | item piece later ih =>
      cases piece with
      | other =>
          rw [groupsFrom_unfinished rfl] at read
          obtain ⟨markup, rest, rfl, rooted⟩ := ih read
          exact ⟨.other :: markup, rest, rfl, .other rooted⟩
      | start tag =>
          obtain ⟨fit, entered, goesOn⟩ := start_of_groupsFrom read
          obtain ⟨markup, rest, rfl, levels⟩ := levels_of_groupsFrom (List.cons_ne_nil _ _) goesOn
          cases levels with
          | level inside outside =>
              cases outside
              exact ⟨_, rest, rfl, .around fit inside⟩
      | empty tag => exact ⟨[.empty tag], later, rfl, .empty (empty_of_groupsFrom read).1⟩
      | close found =>
          rw [groupsFrom_refused rfl] at read
          cases read

theorem groupsFrom_nested {markup : List Markup} (nested : Nested Legible openNames markup)
    (opened : openNames ≠ []) (groups : List Group) :
    ∃ after, ∀ rest, groupsFrom ⟨openNames, groups⟩ (Feed.prepend markup rest) =
      groupsFrom ⟨openNames, after⟩ rest := by
  induction nested generalizing groups with
  | done => exact ⟨groups, fun _ => rfl⟩
  | other _ ih =>
      obtain ⟨after, reads⟩ := ih opened groups
      refine ⟨after, ?_⟩
      intro rest
      rw [Feed.prepend_cons, groupsFrom_unfinished rfl]
      exact reads rest
  | empty fit _ ih =>
      obtain ⟨entered, enters⟩ := exists_enter_iff.mpr fit
      obtain ⟨after, reads⟩ := ih opened entered
      refine ⟨after, ?_⟩
      intro rest
      rw [Feed.prepend_cons, groupsFrom_empty opened enters, reads]
  | @around openNames tag inner markup fit _ _ ihInside ih =>
      obtain ⟨entered, enters⟩ := exists_enter_iff.mpr fit
      obtain ⟨inside, readsInside⟩ := ihInside (List.cons_ne_nil _ _) entered
      obtain ⟨after, reads⟩ := ih opened inside
      refine ⟨after, ?_⟩
      intro rest
      rw [List.cons_append, Feed.prepend_cons, Feed.prepend_append, Feed.prepend_cons,
        groupsFrom_start enters, readsInside, groupsFrom_close opened, reads]

theorem groupsFrom_rooted {markup : List Markup} (rooted : Rooted Legible markup)
    (groups : List Group) :
    ∃ result, ∀ rest, groupsFrom ⟨[], groups⟩ (Feed.prepend markup rest) = .ok result := by
  induction rooted with
  | other _ ih =>
      obtain ⟨result, reads⟩ := ih
      refine ⟨result, ?_⟩
      intro rest
      rw [Feed.prepend_cons, groupsFrom_unfinished rfl]
      exact reads rest
  | empty fit =>
      obtain ⟨entered, enters⟩ := exists_enter_iff.mpr fit
      exact ⟨entered.reverse, fun _ => groupsFrom_complete (step_empty enters)⟩
  | @around tag inner fit inside =>
      obtain ⟨entered, enters⟩ := exists_enter_iff.mpr fit
      obtain ⟨after, reads⟩ := groupsFrom_nested inside (List.cons_ne_nil _ _) entered
      refine ⟨after.reverse, ?_⟩
      intro rest
      rw [List.cons_append, Feed.prepend_cons, Feed.prepend_append, Feed.prepend_cons,
        groupsFrom_start enters, reads, groupsFrom_complete (step_close tag.name)]

end

/-! ### Documents -/

theorem ofText_eq_ok_iff {document : String} {groups : List Group} :
    ofText document = .ok groups ↔
      groupsFrom ⟨[], []⟩ (markups document.toList) = .ok groups :=
  mapError_eq_ok

theorem rooted_of_ofText {document : String} {groups : List Group}
    (accepted : ofText document = .ok groups) :
    ∃ markup rest, Rooted Legible markup ∧ Yields document.toList markup rest := by
  obtain ⟨markup, feed, read, rooted⟩ := rooted_of_groupsFrom (ofText_eq_ok_iff.mp accepted)
  obtain ⟨rest, yields, _⟩ := Yields.exists_of_markups read
  exact ⟨markup, rest, rooted, yields⟩

theorem exists_ofText_of_rooted {markup : List Markup} (rooted : Rooted Legible markup) :
    ∃ groups, ∀ document rest, Yields document.toList markup rest →
      ofText document = .ok groups := by
  obtain ⟨groups, reads⟩ := groupsFrom_rooted rooted []
  refine ⟨groups, ?_⟩
  intro document rest yields
  rw [ofText_eq_ok_iff, yields.markups]
  exact reads (markups rest)

theorem exists_malformed_of_ofText {document : String} {error : LoadError}
    (refused : ofText document = .error error) : ∃ fault, error = .malformed fault := by
  rw [ofText] at refused
  cases read : groupsFrom ⟨[], []⟩ (markups document.toList) with
  | error fault =>
      rw [read] at refused
      cases refused
      exact ⟨fault, rfl⟩
  | ok groups =>
      rw [read] at refused
      cases refused

/-- A document is accepted exactly when its markup goes well as far as the end of the root: the tags
nest and match, the root has its name, and every group and class can be read as far as it is asked.
What stands after the root changes nothing. -/
theorem accepted_iff (document : String) :
    (∀ error, ofText document = .error error → ∃ fault, error = .malformed fault) ∧
    ((∃ groups, ofText document = .ok groups) ↔
      ∃ markup rest, Rooted Legible markup ∧ Yields document.toList markup rest) ∧
    ∀ markup before rest, Rooted Legible markup → document.toList = before ++ rest →
      Yields (before ++ rest) markup rest →
        ∀ other, ofText (String.ofList (before ++ other)) = ofText document := by
  refine ⟨fun error refused => exists_malformed_of_ofText refused, ?_, ?_⟩
  · constructor
    · rintro ⟨groups, accepted⟩
      exact rooted_of_ofText accepted
    · rintro ⟨markup, rest, rooted, yields⟩
      obtain ⟨groups, reads⟩ := exists_ofText_of_rooted rooted
      exact ⟨groups, reads document rest yields⟩
  · intro markup before rest rooted whole yields other
    obtain ⟨groups, reads⟩ := exists_ofText_of_rooted rooted
    obtain ⟨taken, parted, goesOn⟩ := yields.taken
    obtain rfl := List.append_cancel_right parted
    have goesOnThere : Yields (String.ofList (before ++ other)).toList markup other := by
      rw [String.toList_ofList]
      exact goesOn other
    rw [reads document rest (whole ▸ yields), reads _ other goesOnThere]

/-! ### Well-formed catalogs -/

inductive Trailing : List Char → Prop
  | done : Trailing []
  | blank {char : Char} {rest : List Char} (blank : isBlank char = true) (later : Trailing rest) :
      Trailing (char :: rest)
  | comment {body rest : List Char} (found : nextMarkup ('!' :: '-' :: body) = .ok (.other, rest))
      (later : Trailing rest) : Trailing ('<' :: '!' :: '-' :: body)
  | instruction {body rest : List Char} (found : nextMarkup ('?' :: body) = .ok (.other, rest))
      (later : Trailing rest) : Trailing ('<' :: '?' :: body)

/-- The tags nest and match around one root, nothing of weight comes after it, and every group and
class has a sound list of attributes. -/
def WellFormed (document : String) : Prop :=
  ∃ markup rest, Rooted (fun openNames tag => wanted openNames tag ≠ [] → tag.Sound) markup ∧
    Yields document.toList markup rest ∧ Trailing rest

def surplus : String := "<RootNodes/></RootNodes>"

def renamed : String := "<RootNodes><ThreatsCatalog name='G' name='H'/></RootNodes>"

def surplusMarkup : List Markup := [.empty ⟨"RootNodes", []⟩]

def renamedTag : Tag := ⟨"ThreatsCatalog", " name='G' name='H'".toList⟩

def renamedMarkup : List Markup :=
  .start ⟨"RootNodes", []⟩ :: [.empty renamedTag] ++ [.close "RootNodes"]

theorem yields_surplus : Yields surplus.toList surplusMarkup "</RootNodes>".toList :=
  .opened (by rfl) (.done _)

theorem yields_renamed : Yields renamed.toList renamedMarkup [] :=
  .opened (by rfl) <| .opened (by rfl) <| .opened (by rfl) (.done _)

theorem attributes_renamedTag :
    renamedTag.attributes = .item ⟨"name", ['G']⟩ (.broken (.duplicated 24 15)) := by
  cbv

theorem not_sound_renamedTag : ¬renamedTag.Sound := by
  rintro ⟨given, read, _⟩
  rw [attributes_renamedTag] at read
  match given, read with
  | [], read => cases read
  | [_], read => cases read
  | _ :: _ :: _, read => cases read

theorem rooted_surplus : Rooted Legible surplusMarkup :=
  .empty ⟨fun _ => by decide, fun _ member => absurd member List.not_mem_nil⟩

theorem accepted_iff_surplus :
    Rooted Legible surplusMarkup ∧
      Yields surplus.toList surplusMarkup "</RootNodes>".toList ∧
      (∃ groups, ofText surplus = .ok groups) ∧ ofText "<RootNodes/><" = ofText surplus := by
  have facts := accepted_iff surplus
  exact ⟨rooted_surplus, yields_surplus, facts.2.1.mpr ⟨_, _, rooted_surplus, yields_surplus⟩,
    facts.2.2 _ "<RootNodes/>".toList _ rooted_surplus rfl yields_surplus "<".toList⟩

/-- Neither what stands after the root nor what stands after the last attribute asked for keeps a
document from being accepted. -/
theorem accepted_illFormed :
    (ofText surplus = .ok [] ∧ ¬WellFormed surplus) ∧
      ofText renamed = .ok [⟨"G", []⟩] ∧ ¬WellFormed renamed := by
  refine ⟨⟨by cbv, ?_⟩, by cbv, ?_⟩
  · rintro ⟨markup, rest, rooted, yields, trailing⟩
    obtain ⟨_, rfl⟩ := rooted.unique yields rooted_surplus yields_surplus
    cases trailing with
    | blank blank => exact absurd blank (by decide)
  · rintro ⟨markup, rest, rooted, yields, _⟩
    have rootedToo : Rooted (fun _ _ => True) renamedMarkup :=
      .around trivial (.empty trivial .done)
    obtain ⟨rfl, _⟩ := rooted.unique yields rootedToo yields_renamed
    generalize whole : renamedMarkup = markup at rooted
    cases rooted with
    | other => cases whole
    | empty => cases whole
    | @around tag inner _ inside =>
        obtain ⟨same, ends⟩ := List.cons.inj whole
        cases same
        obtain rfl : [.empty renamedTag] = inner := List.append_cancel_right ends
        cases inside with
        | empty fit => exact not_sound_renamedTag (fit (by decide))

end RiskRules.Catalog
