import Mathlib
import RiskRules.Catalog.Document
import RiskRules.Proofs.Xml.Element

/-!
A catalog as a query on the tree of its document. Reading goes through the markup once, with the
names of the open elements on a stack; what it finds is the groups below the root, each with the
classes below its class lists, and nothing else in the tree has a part in it.
-/

namespace RiskRules.Catalog

open Xml

/-! ### The query -/

def threatAt (element : Element) : ThreatClass :=
  ⟨element.value "id", element.value "name", element.value "title"⟩

def threatsIn (list : Element) : List ThreatClass :=
  (list.childrenNamed "ThreatClass").map threatAt

def groupAt (element : Element) : Group :=
  ⟨element.value "name", (element.childrenNamed "ThreatClasses").flatMap threatsIn⟩

def groupsIn (root : Element) : List Group :=
  (root.childrenNamed "ThreatsCatalog").map groupAt

/-! ### What one tag gives -/

theorem attributeText_of_resolved {feed : Feed Attribute AttributeFault}
    {attributes : List (String × String)} (resolved : resolved? feed = some attributes)
    (name : String) :
    attributeText name feed =
      .ok (((attributes.find? fun given => localName given.1 = name).map (·.2)).getD "") := by
  induction feed generalizing attributes with
  | finished =>
      cases resolved
      rfl
  | broken cause => cases resolved
  | item given rest ih =>
      obtain ⟨text, others, read, more, rfl⟩ := resolved?_item resolved
      rw [attributeText]
      by_cases wanted : given.localName = name
      · have found : localName given.name = name := wanted
        simp [wanted, found, read, Except.mapError]
      · have passed : localName given.name ≠ name := wanted
        simp [wanted, passed, ih more]

variable {tag : Tag} {element : Element}

theorem threatOf_of_spells (spelled : tag.Spells element) :
    threatOf tag = .ok (threatAt element) := by
  simp only [threatOf, attributeText_of_resolved spelled.attributes]
  rfl

theorem groupOf_of_spells (spelled : tag.Spells element) :
    groupOf tag = .ok ⟨element.value "name", []⟩ := by
  simp only [groupOf, attributeText_of_resolved spelled.attributes]
  rfl

/-! ### One piece of markup -/

variable {openNames : List String} {groups entered : List Group}
  {rest : Feed Markup MarkupFault}

theorem groupsFrom_unfinished {progress next : Progress} {markup : Markup}
    (stepped : progress.step markup = .ok (.unfinished next)) :
    groupsFrom progress (.item markup rest) = groupsFrom next rest := by
  rw [groupsFrom, stepped]

theorem groupsFrom_complete {progress : Progress} {markup : Markup}
    (stepped : progress.step markup = .ok (.complete groups)) :
    groupsFrom progress (.item markup rest) = .ok groups := by
  rw [groupsFrom, stepped]

theorem groupsFrom_refused {progress : Progress} {markup : Markup} {fault : DocumentFault}
    (stepped : progress.step markup = .error fault) :
    groupsFrom progress (.item markup rest) = .error fault := by
  rw [groupsFrom, stepped]

theorem step_start (enters : (⟨openNames, groups⟩ : Progress).enter tag = .ok entered) :
    (⟨openNames, groups⟩ : Progress).step (.start tag) =
      .ok (.unfinished ⟨tag.name :: openNames, entered⟩) := by
  rw [Progress.step, enters]
  rfl

theorem step_empty (enters : (⟨openNames, groups⟩ : Progress).enter tag = .ok entered) :
    (⟨openNames, groups⟩ : Progress).step (.empty tag) =
      .ok (afterClose openNames entered) := by
  rw [Progress.step, enters]
  rfl

theorem step_close (name : String) :
    (⟨name :: openNames, groups⟩ : Progress).step (.close name) =
      .ok (afterClose openNames groups) := by
  simp [Progress.step]

theorem afterClose_inside (opened : openNames ≠ []) :
    afterClose openNames groups = .unfinished ⟨openNames, groups⟩ := by
  simp [afterClose, opened]

theorem groupsFrom_start (enters : (⟨openNames, groups⟩ : Progress).enter tag = .ok entered) :
    groupsFrom ⟨openNames, groups⟩ (.item (.start tag) rest) =
      groupsFrom ⟨tag.name :: openNames, entered⟩ rest :=
  groupsFrom_unfinished (step_start enters)

theorem groupsFrom_empty (opened : openNames ≠ [])
    (enters : (⟨openNames, groups⟩ : Progress).enter tag = .ok entered) :
    groupsFrom ⟨openNames, groups⟩ (.item (.empty tag) rest) =
      groupsFrom ⟨openNames, entered⟩ rest :=
  groupsFrom_unfinished (by rw [step_empty enters, afterClose_inside opened])

theorem groupsFrom_close (opened : openNames ≠ []) (name : String) :
    groupsFrom ⟨name :: openNames, groups⟩ (.item (.close name) rest) =
      groupsFrom ⟨openNames, groups⟩ rest :=
  groupsFrom_unfinished (by rw [step_close, afterClose_inside opened])

/-! ### The elements of one level -/

/-- If at one place in the tree opening an element does `before`, and its children do `within`,
then a list of elements there does both for each element in turn. -/
theorem groupsFrom_elements (opened : openNames ≠ [])
    {before within : Element → List Group → List Group}
    (enters : ∀ tag element groups, tag.Spells element →
      (⟨openNames, groups⟩ : Progress).enter tag = .ok (before element groups))
    (inside : ∀ element markup groups rest, Delivers element.children markup →
      groupsFrom ⟨element.name :: openNames, groups⟩ (Feed.prepend markup rest) =
        groupsFrom ⟨element.name :: openNames, within element groups⟩ rest)
    {elements : List Element} {markup : List Markup} (delivered : Delivers elements markup)
    (groups : List Group) (rest : Feed Markup MarkupFault) :
    groupsFrom ⟨openNames, groups⟩ (Feed.prepend markup rest) =
      groupsFrom ⟨openNames,
        elements.foldl (fun groups element => within element (before element groups)) groups⟩
        rest := by
  induction delivered generalizing groups with
  | done => rfl
  | other _ ih =>
      rw [Feed.prepend_cons, groupsFrom_unfinished rfl]
      exact ih groups
  | @empty tag element elements markup spelled childless _ ih =>
      -- The children of an element without any do nothing, whatever comes after them.
      have idle := inside element [] (before element groups)
        (.item (.close element.name) (Feed.prepend markup rest)) (childless ▸ .done)
      rw [Feed.prepend_nil, groupsFrom_close opened, groupsFrom_close opened] at idle
      rw [Feed.prepend_cons, groupsFrom_empty opened (enters tag element groups spelled), idle, ih]
      rfl
  | @around tag element elements inner markup spelled children _ _ ih =>
      rw [List.cons_append, Feed.prepend_cons, Feed.prepend_append, Feed.prepend_cons,
        groupsFrom_start (enters tag element groups spelled), spelled.name,
        inside element inner _ _ children, groupsFrom_close opened, ih]
      rfl

/-! ### Where nothing counts -/

def Inert (openNames : List String) : Prop :=
  ∀ names tag groups, (⟨names ++ openNames, groups⟩ : Progress).enter tag = .ok groups

theorem Inert.enter (inert : Inert openNames) (tag : Tag) (groups : List Group) :
    (⟨openNames, groups⟩ : Progress).enter tag = .ok groups :=
  inert [] tag groups

theorem Inert.cons (inert : Inert openNames) (name : String) : Inert (name :: openNames) := by
  intro names tag groups
  have deeper := inert (names ++ [name]) tag groups
  rwa [List.append_assoc] at deeper

theorem enter_of_deep (deep : 4 ≤ openNames.length) (tag : Tag) (groups : List Group) :
    (⟨openNames, groups⟩ : Progress).enter tag = .ok groups := by
  match openNames, deep with
  | _ :: _ :: _ :: _ :: _, _ => rfl

theorem inert_of_deep (deep : 4 ≤ openNames.length) : Inert openNames := by
  intro names tag groups
  apply enter_of_deep
  rw [List.length_append]
  omega

theorem inert_of_list {list group root : String}
    (stray : ¬(localName group = "ThreatsCatalog" ∧ localName list = "ThreatClasses")) :
    Inert [list, group, root] := by
  intro names tag groups
  cases names with
  | nil =>
      exact if_neg (by simpa using fun ofGroup ofList => absurd ⟨ofGroup, ofList⟩ stray)
  | cons name names => exact enter_of_deep (by simp) tag groups

theorem inert_of_group {group root : String} (stray : localName group ≠ "ThreatsCatalog") :
    Inert [group, root] := by
  intro names tag groups
  cases names with
  | nil => rfl
  | cons name names =>
      have inner := @inert_of_list name group root fun both => stray both.1
      cases List.eq_nil_or_concat names with
      | inl none =>
          subst none
          exact inner [] tag groups
      | inr more =>
          obtain ⟨others, last, rfl⟩ := more
          exact enter_of_deep (by simp) tag groups

theorem groupsFrom_inert {elements : List Element} {markup : List Markup}
    (delivered : Delivers elements markup) (opened : openNames ≠ []) (inert : Inert openNames)
    (groups : List Group) (rest : Feed Markup MarkupFault) :
    groupsFrom ⟨openNames, groups⟩ (Feed.prepend markup rest) =
      groupsFrom ⟨openNames, groups⟩ rest := by
  induction delivered generalizing openNames rest with
  | done => rfl
  | other _ ih =>
      rw [Feed.prepend_cons, groupsFrom_unfinished rfl]
      exact ih opened inert rest
  | @empty tag element elements markup _ _ _ ih =>
      rw [Feed.prepend_cons, groupsFrom_empty opened (inert.enter tag groups), ih opened inert]
  | @around tag element elements inner markup spelled _ _ ihInside ih =>
      rw [List.cons_append, Feed.prepend_cons, Feed.prepend_append, Feed.prepend_cons,
        groupsFrom_start (inert.enter tag groups), spelled.name,
        ihInside (List.cons_ne_nil _ _) (inert.cons _), groupsFrom_close opened, ih opened inert]

/-! ### The three levels of a catalog -/

def addThreats (threats : List ThreatClass) : List Group → List Group
  | [] => []
  | group :: earlier => { group with classes := group.classes ++ threats } :: earlier

theorem addThreats_nil (groups : List Group) : addThreats [] groups = groups := by
  cases groups with
  | nil => rfl
  | cons group earlier => simp [addThreats]

theorem addThreats_singleton (threat : ThreatClass) (groups : List Group) :
    addThreats [threat] groups = addThreat threat groups := by
  cases groups <;> rfl

theorem foldl_addThreats (pick : Element → List ThreatClass) (elements : List Element)
    (groups : List Group) :
    elements.foldl (fun groups element => addThreats (pick element) groups) groups =
      addThreats (elements.flatMap pick) groups := by
  induction elements generalizing groups with
  | nil => exact (addThreats_nil groups).symm
  | cons element elements ih =>
      rw [List.foldl_cons, ih]
      cases groups with
      | nil => rfl
      | cons group earlier => simp [addThreats, List.append_assoc]

theorem flatMap_named {α : Type} (name : String) (pick : Element → List α)
    (elements : List Element) :
    elements.flatMap (fun element => if element.localName = name then pick element else []) =
      (elements.filter (·.localName = name)).flatMap pick := by
  induction elements with
  | nil => rfl
  | cons element elements ih =>
      by_cases named : element.localName = name <;> simp [named, ih]

theorem groupsFrom_classes {list group root : String}
    (ofGroup : localName group = "ThreatsCatalog") (ofList : localName list = "ThreatClasses")
    {element : Element} {markup : List Markup} (delivered : Delivers element.children markup)
    (groups : List Group) (rest : Feed Markup MarkupFault) :
    groupsFrom ⟨[list, group, root], groups⟩ (Feed.prepend markup rest) =
      groupsFrom ⟨[list, group, root], addThreats (threatsIn element) groups⟩ rest := by
  have enters : ∀ tag child groups, tag.Spells child →
      (⟨[list, group, root], groups⟩ : Progress).enter tag =
        .ok (addThreats
          (if child.localName = "ThreatClass" then [threatAt child] else []) groups) := by
    intro tag child groups spelled
    rw [Progress.enter, spelled.localName]
    by_cases named : child.localName = "ThreatClass"
    · simp [ofGroup, ofList, named, threatOf_of_spells spelled, addThreats_singleton, bind,
        Except.bind, pure, Except.pure]
    · simp [named, addThreats_nil]
  rw [groupsFrom_elements (List.cons_ne_nil _ _) enters
    (fun _ _ groups rest inner => groupsFrom_inert inner (List.cons_ne_nil _ _)
      (inert_of_deep (by simp)) groups rest) delivered, foldl_addThreats, flatMap_named,
    ← List.map_eq_flatMap]
  rfl

theorem groupsFrom_lists {group root : String} (ofGroup : localName group = "ThreatsCatalog")
    {element : Element} {markup : List Markup} (delivered : Delivers element.children markup)
    (groups : List Group) (rest : Feed Markup MarkupFault) :
    groupsFrom ⟨[group, root], groups⟩ (Feed.prepend markup rest) =
      groupsFrom ⟨[group, root],
        addThreats ((element.childrenNamed "ThreatClasses").flatMap threatsIn) groups⟩ rest := by
  have inside : ∀ child markup groups rest, Delivers child.children markup →
      groupsFrom ⟨[child.name, group, root], groups⟩ (Feed.prepend markup rest) =
        groupsFrom ⟨[child.name, group, root],
          addThreats (if child.localName = "ThreatClasses" then threatsIn child else []) groups⟩
          rest := by
    intro child markup groups rest inner
    by_cases named : child.localName = "ThreatClasses"
    · rw [if_pos named]
      exact groupsFrom_classes ofGroup named inner groups rest
    · rw [if_neg named, addThreats_nil]
      exact groupsFrom_inert inner (List.cons_ne_nil _ _)
        (inert_of_list fun both => named both.2) groups rest
  rw [groupsFrom_elements (List.cons_ne_nil _ _) (fun _ _ _ _ => rfl) inside delivered,
    foldl_addThreats, flatMap_named]
  rfl

def openGroup (element : Element) (groups : List Group) : List Group :=
  if element.localName = "ThreatsCatalog" then ⟨element.value "name", []⟩ :: groups else groups

def fillGroup (element : Element) (groups : List Group) : List Group :=
  if element.localName = "ThreatsCatalog" then
    addThreats ((element.childrenNamed "ThreatClasses").flatMap threatsIn) groups
  else groups

theorem fillGroup_openGroup (element : Element) (groups : List Group) :
    fillGroup element (openGroup element groups) =
      if element.localName = "ThreatsCatalog" then groupAt element :: groups else groups := by
  by_cases named : element.localName = "ThreatsCatalog" <;>
    simp [fillGroup, openGroup, named, addThreats, groupAt]

theorem foldl_groups (elements : List Element) (groups : List Group) :
    elements.foldl (fun groups element => fillGroup element (openGroup element groups)) groups =
      ((elements.filter (·.localName = "ThreatsCatalog")).map groupAt).reverse ++ groups := by
  induction elements generalizing groups with
  | nil => rfl
  | cons element elements ih =>
      rw [List.foldl_cons, fillGroup_openGroup, ih]
      by_cases named : element.localName = "ThreatsCatalog" <;> simp [named]

theorem groupsFrom_groups (root : Element) {markup : List Markup}
    (delivered : Delivers root.children markup) (rest : Feed Markup MarkupFault) :
    groupsFrom ⟨[root.name], []⟩ (Feed.prepend markup rest) =
      groupsFrom ⟨[root.name], (groupsIn root).reverse⟩ rest := by
  have enters : ∀ tag child groups, tag.Spells child →
      (⟨[root.name], groups⟩ : Progress).enter tag = .ok (openGroup child groups) := by
    intro tag child groups spelled
    rw [Progress.enter, spelled.localName, openGroup]
    by_cases named : child.localName = "ThreatsCatalog"
    · simp [named, groupOf_of_spells spelled, bind, Except.bind, pure, Except.pure]
    · simp [named]
  have inside : ∀ (child : Element) markup groups rest, Delivers child.children markup →
      groupsFrom ⟨[child.name, root.name], groups⟩ (Feed.prepend markup rest) =
        groupsFrom ⟨[child.name, root.name], fillGroup child groups⟩ rest := by
    intro child markup groups rest inner
    rw [fillGroup]
    by_cases named : child.localName = "ThreatsCatalog"
    · rw [if_pos named]
      exact groupsFrom_lists named inner groups rest
    · rw [if_neg named]
      exact groupsFrom_inert inner (List.cons_ne_nil _ _) (inert_of_group named) groups rest
  rw [groupsFrom_elements (List.cons_ne_nil _ _) enters inside delivered, foldl_groups,
    List.append_nil]
  rfl

/-! ### Documents -/

theorem enter_root (spelled : tag.Spells element) :
    (⟨[], []⟩ : Progress).enter tag =
      if element.localName = "RootNodes" then .ok []
      else .error (.wrongRoot element.localName) := by
  rw [Progress.enter, spelled.localName]

/-- What stands before the root is passed over, and what stands after it is not looked at. -/
theorem groupsFrom_root {root : Element} {markup : List Markup}
    (delivered : Delivers [root] markup) (rest : Feed Markup MarkupFault) :
    groupsFrom ⟨[], []⟩ (Feed.prepend markup rest) =
      if root.localName = "RootNodes" then .ok (groupsIn root)
      else .error (.wrongRoot root.localName) := by
  generalize elements : [root] = document at delivered
  induction delivered with
  | done => cases elements
  | other _ ih =>
      rw [Feed.prepend_cons, groupsFrom_unfinished rfl]
      exact ih elements
  | @empty tag element others markup spelled childless _ _ =>
      cases elements
      have entered := enter_root spelled
      rw [Feed.prepend_cons]
      split
      next named =>
        have none : groupsIn root = [] := by simp [groupsIn, Element.childrenNamed, childless]
        rw [if_pos named] at entered
        rw [groupsFrom_complete (step_empty entered), none, List.reverse_nil]
      next other =>
        rw [if_neg other] at entered
        exact groupsFrom_refused (by rw [Progress.step, entered]; rfl)
  | @around tag element others inner markup spelled inside _ _ _ =>
      cases elements
      have entered := enter_root spelled
      rw [List.cons_append, Feed.prepend_cons, Feed.prepend_append, Feed.prepend_cons]
      split
      next named =>
        rw [if_pos named] at entered
        rw [groupsFrom_start entered, spelled.name, groupsFrom_groups root inside,
          groupsFrom_complete (step_close root.name), List.reverse_reverse]
      next other =>
        rw [if_neg other] at entered
        exact groupsFrom_refused (by rw [Progress.step, entered]; rfl)

/-- Reading a document is asking its tree. Whatever stands in the tree beside the root's groups,
their class lists and the classes in these changes nothing, and neither does anything around the
root; only the root's own name can make the document fail. -/
theorem ofText_eq_query (document : String) (root : Element) (markup : List Markup)
    (rest : Feed Markup MarkupFault) (delivered : Delivers [root] markup)
    (read : markups document.toList = Feed.prepend markup rest) :
    ofText document =
      if root.localName = "RootNodes" then .ok (groupsIn root)
      else .error (.malformed (.wrongRoot root.localName)) := by
  rw [ofText, read, groupsFrom_root delivered]
  split <;> rfl

/-! ### A document with look-alikes -/

def lookalikes : List Char :=
  ["<?xml?>", "<x:RootNodes>text", "<ThreatClass id='a'/>", "<t:ThreatsCatalog name='G &amp; H'>",
    "<ThreatClasses/>", "<Notes>", "<ThreatClasses/>", "</Notes>", "<!-- <ThreatClass/> -->",
    "<ThreatClasses>", "<ThreatClass l:id='1' id='2' title='&#x3E;'>", "</ThreatClass>",
    "</ThreatClasses>", "</t:ThreatsCatalog>", "</x:RootNodes>", "<"].flatMap String.toList

def lookalikeRoot : Element :=
  ⟨"x:RootNodes", [], [⟨"ThreatClass", [("id", "a")], []⟩,
    ⟨"t:ThreatsCatalog", [("name", "G & H")], [⟨"ThreatClasses", [], []⟩,
      ⟨"Notes", [], [⟨"ThreatClasses", [], []⟩]⟩,
      ⟨"ThreatClasses", [], [⟨"ThreatClass", [("l:id", "1"), ("id", "2"), ("title", ">")], []⟩]⟩]⟩]⟩

def paired (tag : Tag) (inner later : List Markup) : List Markup :=
  .start tag :: inner ++ .close tag.name :: later

def lookalikeMarkup : List Markup :=
  .other :: paired ⟨"x:RootNodes", []⟩
    (.empty ⟨"ThreatClass", " id='a'".toList⟩ ::
      paired ⟨"t:ThreatsCatalog", " name='G &amp; H'".toList⟩
        (.empty ⟨"ThreatClasses", []⟩ ::
          paired ⟨"Notes", []⟩ [.empty ⟨"ThreatClasses", []⟩]
            (.other :: paired ⟨"ThreatClasses", []⟩
              (paired ⟨"ThreatClass", " l:id='1' id='2' title='&#x3E;'".toList⟩ [] []) []))
        [])
    []

theorem delivers_lookalikes : Delivers [lookalikeRoot] lookalikeMarkup :=
  .other (.around ⟨rfl, by cbv⟩
    (.empty ⟨rfl, by cbv⟩ rfl
      (.around ⟨rfl, by cbv⟩
        (.empty ⟨rfl, by cbv⟩ rfl
          (.around ⟨rfl, by cbv⟩ (.empty ⟨rfl, by cbv⟩ rfl .done)
            (.other (.around ⟨rfl, by cbv⟩ (.around ⟨rfl, by cbv⟩ .done .done) .done))))
        .done))
    .done)

set_option maxRecDepth 2000 in
theorem markups_lookalikes : markups lookalikes =
    Feed.prepend lookalikeMarkup (.broken .unclosedTag) := by
  cbv

theorem ofText_eq_query_lookalikes :
    Delivers [lookalikeRoot] lookalikeMarkup ∧
      markups lookalikes = Feed.prepend lookalikeMarkup (.broken .unclosedTag) ∧
      ofText (String.ofList lookalikes) = .ok [⟨"G & H", [⟨"1", "", ">"⟩]⟩] := by
  refine ⟨delivers_lookalikes, markups_lookalikes, ?_⟩
  have read : markups (String.ofList lookalikes).toList = _ :=
    (congrArg markups String.toList_ofList).trans markups_lookalikes
  rw [ofText_eq_query _ lookalikeRoot lookalikeMarkup _ delivers_lookalikes read,
    if_pos (by decide)]
  exact congrArg Except.ok (by decide)

end RiskRules.Catalog
