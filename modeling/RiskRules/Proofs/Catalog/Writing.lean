import RiskRules.Proofs.Catalog.Query
import RiskRules.Proofs.Text.Bytes
import RiskRules.Proofs.Xml.Writing

/-!
Writing catalogs. Every list of groups has a document in every layout, and reading the document
gives these groups, whatever the texts in them hold.
-/

namespace RiskRules.Catalog

open Xml

/-! ### The tree of a catalog -/

def threatElement (threat : ThreatClass) : Element :=
  ⟨"ThreatClass", [("id", threat.id), ("name", threat.name), ("title", threat.title)], []⟩

def classList (threats : List ThreatClass) : Element :=
  ⟨"ThreatClasses", [], threats.map threatElement⟩

def groupElement (group : Group) : Element :=
  ⟨"ThreatsCatalog", [("name", group.name)], [classList group.classes]⟩

def rootElement (groups : List Group) : Element :=
  ⟨"RootNodes", [], groups.map groupElement⟩

/-- When all children have the name that is asked for, none is left out. -/
theorem childrenNamed_map {α : Type} {build : α → Element} {name : String}
    (named : ∀ item, (build item).localName = name) (parent : String)
    (attributes : List (String × String)) (items : List α) :
    (⟨parent, attributes, items.map build⟩ : Element).childrenNamed name = items.map build := by
  rw [Element.childrenNamed, List.filter_eq_self]
  intro child member
  obtain ⟨item, _, rfl⟩ := List.mem_map.mp member
  exact decide_eq_true (named item)

theorem threatAt_threatElement (threat : ThreatClass) :
    threatAt (threatElement threat) = threat := by
  have ids : localName "id" = "id" := by decide
  have names : localName "name" = "name" := by decide
  have titles : localName "title" = "title" := by decide
  simp [threatAt, threatElement, Element.value, List.find?, ids, names, titles]

theorem threatsIn_classList (threats : List ThreatClass) :
    threatsIn (classList threats) = threats := by
  have named : ∀ threat, (threatElement threat).localName = "ThreatClass" := fun _ =>
    show localName "ThreatClass" = _ by decide
  rw [threatsIn, classList, childrenNamed_map named, List.map_map]
  exact List.map_id'' threatAt_threatElement threats

theorem groupAt_groupElement (group : Group) : groupAt (groupElement group) = group := by
  have named : ∀ threats, (classList threats).localName = "ThreatClasses" := fun _ =>
    show localName "ThreatClasses" = _ by decide
  have names : localName "name" = "name" := by decide
  have lists : (groupElement group).childrenNamed "ThreatClasses" = [classList group.classes] :=
    childrenNamed_map named _ _ [group.classes]
  rw [groupAt, lists]
  simp [threatsIn_classList, Element.value, groupElement, names]

theorem groupsIn_rootElement (groups : List Group) : groupsIn (rootElement groups) = groups := by
  have named : ∀ group, (groupElement group).localName = "ThreatsCatalog" := fun _ =>
    show localName "ThreatsCatalog" = _ by decide
  rw [groupsIn, rootElement, childrenNamed_map named, List.map_map]
  exact List.map_id'' groupAt_groupElement groups

/-! ### Its names can stand in tags -/

theorem writable_threatElement (threat : ThreatClass) : (threatElement threat).Writable := by
  refine .intro ⟨show isName "ThreatClass" = true by decide, ?_, ?_⟩ ?_
  · simp only [threatElement, List.forall_mem_cons]
    exact ⟨by decide, by decide, by decide, fun _ member => absurd member List.not_mem_nil⟩
  · exact show ["id", "name", "title"].Nodup by decide
  · exact fun _ member => absurd member List.not_mem_nil

theorem writable_classList (threats : List ThreatClass) : (classList threats).Writable := by
  refine .intro ⟨show isName "ThreatClasses" = true by decide, ?_, List.nodup_nil⟩ ?_
  · exact fun _ member => absurd member List.not_mem_nil
  · intro child member
    obtain ⟨threat, _, rfl⟩ := List.mem_map.mp member
    exact writable_threatElement threat

theorem writable_groupElement (group : Group) : (groupElement group).Writable := by
  refine .intro ⟨show isName "ThreatsCatalog" = true by decide, ?_, List.pairwise_singleton _ _⟩ ?_
  · intro given member
    rw [List.mem_singleton.mp member]
    exact show isName "name" = true by decide
  · intro child member
    rw [List.mem_singleton.mp member]
    exact writable_classList group.classes

theorem writable_rootElement (groups : List Group) : (rootElement groups).Writable := by
  refine .intro ⟨show isName "RootNodes" = true by decide, ?_, List.nodup_nil⟩ ?_
  · exact fun _ member => absurd member List.not_mem_nil
  · intro child member
    obtain ⟨group, _, rfl⟩ := List.mem_map.mp member
    exact writable_groupElement group

/-! ### The document of a catalog -/

def write (layout : Layout) (groups : List Group) : String :=
  String.ofList ((rootElement groups).write layout 0 ++ layout.gap 0)

theorem ofText_of_writable {root : Element} (writable : root.Writable) (layout : Layout)
    (named : root.localName = "RootNodes") (after : List Char) :
    ofText (String.ofList (root.write layout 0 ++ after)) = .ok (groupsIn root) := by
  obtain ⟨markup, delivered, read⟩ := writable.reads layout 0
  rw [ofText, String.toList_ofList, read, groupsFrom_root delivered, if_pos named]
  rfl

/-- A catalog is read back as it was written, as a text and as the bytes of the text. -/
theorem read_write (layout : Layout) (groups : List Group) :
    ofText (write layout groups) = .ok groups ∧
      ofBytes (Text.encodeUtf8 (write layout groups)) = .ok groups := by
  have named : (rootElement groups).localName = "RootNodes" :=
    show localName "RootNodes" = _ by decide
  have text : ofText (write layout groups) = .ok groups := by
    rw [write, ofText_of_writable (writable_rootElement groups) layout named,
      groupsIn_rootElement]
  refine ⟨text, ?_⟩
  rw [ofBytes, Text.decodeUtf8_encodeUtf8]
  exact text

def indented : Layout where
  gap depth := '\n' :: List.replicate (2 * depth) ' '
  gap_plain depth member := by
    cases member with
    | tail _ blank => cases List.eq_of_mem_replicate blank
  single name := name = "ThreatClass"

example : write indented [⟨"G", [⟨"1", "<id>", "\""⟩]⟩] =
    "<RootNodes>\n  <ThreatsCatalog name=\"G\">\n    <ThreatClasses>\n" ++
      "      <ThreatClass id=\"1\" name=\"&lt;id&gt;\" title=\"&quot;\"/>\n" ++
      "    </ThreatClasses>\n  </ThreatsCatalog>\n</RootNodes>\n" := by
  decide +kernel

end RiskRules.Catalog
