import RiskRules.Proofs.Catalog.Acceptance
import RiskRules.Proofs.Xml.Namespace

/-!
Namespace declarations in catalogs. Attributes are told apart by their local names alone, and that
of a declaration is the prefix that it declares. So a declaration can be taken for an attribute of a
group or a class, where no such attribute stands before it; anywhere else it changes nothing.
-/

namespace RiskRules.Catalog

open Xml

/-! ### What is read of the attributes -/

def SeenBesides (name : String) (seen other : List (String × Nat)) : Prop :=
  ∀ each, each ≠ name → seen.lookup each = none → other.lookup each = none

section

variable {word name : String} {seen other : List (String × Nat)} {position place : Nat}
  {text lead before after inserted : List Char} {one : Attribute} {given : List Attribute}
  {result : String}

theorem SeenBesides.concat (besides : SeenBesides name seen other) (added : String)
    (start startToo : Nat) :
    SeenBesides name (seen ++ [(added, start)]) (other ++ [(added, startToo)]) := by
  intro each differs absent
  rw [lookup_concat_eq_none] at absent ⊢
  exact ⟨besides each differs absent.1, absent.2⟩

theorem SeenBesides.add (besides : SeenBesides name seen other) (start : Nat) :
    SeenBesides name seen (other ++ [(name, start)]) :=
  fun each differs absent => lookup_concat_eq_none.mpr ⟨besides each differs absent, differs⟩

/-- Reading goes on as before where one more name has been seen that does not come again. -/
theorem attributeText_of_seen (besides : SeenBesides name seen other)
    (leadBlank : ∀ char ∈ lead, isBlank char = true)
    (fresh : ∀ each ∈ (attributesFrom seen position (lead ++ text)).items, each.name ≠ name)
    (read : attributeText word (attributesFrom seen position (lead ++ text)) = .ok result) :
    attributeText word (attributesFrom other place text) = .ok result := by
  generalize same : attributesFrom seen position (lead ++ text) = feed at fresh read
  induction feed generalizing seen other position place lead text with
  | finished =>
      have blank := (List.forall_mem_append.mp (blank_of_attributesFrom same)).2
      rw [attributesFrom_blank blank]
      exact read
  | broken cause => cases read
  | item first rest ih =>
      obtain ⟨more, start, next, starts, isFresh, rfl⟩ := starts_of_attributesFrom same
      rw [Feed.items, List.forall_mem_cons] at fresh
      obtain ⟨startToo, nextToo, readToo⟩ := exists_attributesFrom_of_starts
        (starts.unblank leadBlank) (besides _ fresh.1 isFresh) place
      rw [readToo]
      rw [attributeText] at read ⊢
      by_cases named : first.localName = word
      · rw [if_pos named] at read ⊢
        exact read
      · rw [if_neg named] at read ⊢
        exact ih (besides.concat _ _ _) (fun _ member => absurd member List.not_mem_nil) rfl
          fresh.2 read

/-- An attribute with a new name that is put into a list is what is found there, if it is the first
one with the local name that is looked for. Otherwise the same is found as before. -/
theorem attributeText_insert (lists : Lists before given) (starts : Starts inserted one [])
    (besides : SeenBesides one.name seen other) (isNew : other.lookup one.name = none)
    (fresh : ∀ each ∈ (attributesFrom seen position (before ++ after)).items,
      each.name ≠ one.name)
    (read : attributeText word (attributesFrom seen position (before ++ after)) = .ok result) :
    attributeText word (attributesFrom other place (before ++ (inserted ++ after))) =
      if one.localName = word ∧ ∀ each ∈ given, each.localName ≠ word then
        one.text.mapError .reference
      else .ok result := by
  induction lists generalizing seen other position place with
  | @done text blank =>
      obtain ⟨start, next, readToo⟩ :=
        exists_attributesFrom_of_starts ((starts.append after).blank blank) isNew place
      rw [readToo, attributeText]
      by_cases named : one.localName = word
      · simp [named]
      · rw [if_neg named, if_neg fun both => named both.1]
        exact attributeText_of_seen (besides.add start) blank fresh read
  | @next text rest first others startsFirst _ ih =>
      have startsHere := startsFirst.append after
      cases same : attributesFrom seen position (text ++ after) with
      | finished => exact absurd (blank_of_attributesFrom same) startsHere.not_blank
      | broken cause =>
          rw [same] at read
          cases read
      | item found feed =>
          obtain ⟨more, start, next, startsFound, isFresh, rfl⟩ := starts_of_attributesFrom same
          obtain ⟨rfl, rfl⟩ := startsHere.unique startsFound
          rw [same] at fresh read
          rw [Feed.items, List.forall_mem_cons] at fresh
          obtain ⟨startToo, nextToo, readToo⟩ := exists_attributesFrom_of_starts
            (startsFirst.append (inserted ++ after)) (besides _ fresh.1 isFresh) place
          rw [readToo]
          rw [attributeText] at read ⊢
          by_cases named : first.localName = word
          · rw [if_pos named] at read ⊢
            rw [if_neg fun both => both.2 first List.mem_cons_self named]
            exact read
          · have isNewToo : (other ++ [(first.name, startToo)]).lookup one.name = none :=
              lookup_concat_eq_none.mpr ⟨isNew, Ne.symm fresh.1⟩
            rw [if_neg named] at read ⊢
            rw [ih (besides.concat _ _ _) isNewToo fresh.2 read]
            simp only [List.forall_mem_cons, named, ne_eq, not_false_eq_true, true_and]

end

/-! ### What an element means -/

section

variable {tag other : Tag} {openNames : List String} {groups entered : List Group}

theorem groupOf_congr {group : Group}
    (reads : ∀ text, attributeText "name" tag.attributes = .ok text →
      attributeText "name" other.attributes = .ok text)
    (read : groupOf tag = .ok group) : groupOf other = .ok group := by
  rw [groupOf, bind_eq_ok] at read ⊢
  obtain ⟨name, readName, same⟩ := read
  exact ⟨name, reads name readName, same⟩

theorem threatOf_congr {threat : ThreatClass}
    (reads : ∀ word ∈ ["id", "name", "title"], ∀ text,
      attributeText word tag.attributes = .ok text →
        attributeText word other.attributes = .ok text)
    (read : threatOf tag = .ok threat) : threatOf other = .ok threat := by
  simp only [List.forall_mem_cons] at reads
  obtain ⟨readsId, readsName, readsTitle, _⟩ := reads
  simp only [threatOf, bind_eq_ok] at read ⊢
  obtain ⟨id, readId, name, readName, title, readTitle, same⟩ := read
  exact ⟨id, readsId id readId, name, readsName name readName, title, readsTitle title readTitle,
    same⟩

/-- Only the attributes that are asked of an element count. -/
theorem enter_congr (sameName : other.name = tag.name)
    (reads : ∀ word ∈ wanted openNames tag, ∀ text,
      attributeText word tag.attributes = .ok text →
        attributeText word other.attributes = .ok text)
    (enters : (⟨openNames, groups⟩ : Progress).enter tag = .ok entered) :
    (⟨openNames, groups⟩ : Progress).enter other = .ok entered := by
  have sameLocal : other.localName = tag.localName := congrArg Xml.localName sameName
  match openNames with
  | [] => simpa only [Progress.enter, sameLocal] using enters
  | [_] =>
      by_cases named : tag.localName = "ThreatsCatalog"
      · simp only [Progress.enter, sameLocal, named, if_true, bind_eq_ok] at enters ⊢
        obtain ⟨group, read, same⟩ := enters
        exact ⟨group, groupOf_congr (reads "name" (by simp [wanted, named])) read, same⟩
      · simpa only [Progress.enter, sameLocal, named, if_false] using enters
  | [_, _] => exact enters
  | [list, group, root] =>
      by_cases counts : localName group = "ThreatsCatalog" ∧ localName list = "ThreatClasses" ∧
          tag.localName = "ThreatClass"
      · have asked : wanted [list, group, root] tag = ["id", "name", "title"] := if_pos counts
        rw [asked] at reads
        obtain ⟨ofGroup, ofList, named⟩ := counts
        simp only [Progress.enter, sameLocal, ofGroup, ofList, named, decide_true, Bool.and_self,
          if_true, bind_eq_ok] at enters ⊢
        obtain ⟨threat, read, same⟩ := enters
        exact ⟨threat, threatOf_congr reads read, same⟩
      · have idle : (decide (localName group = "ThreatsCatalog") &&
            decide (localName list = "ThreatClasses") &&
            decide (tag.localName = "ThreatClass")) = false := by
          simpa [and_assoc] using counts
        simpa only [Progress.enter, sameLocal, idle, Bool.false_eq_true, if_false] using enters
  | _ :: _ :: _ :: _ :: _ => exact enters

end

/-! ### Documents -/

def Progress.after (progress : Progress) : List Markup → Option Progress
  | [] => some progress
  | markup :: later =>
      match progress.step markup with
      | .ok (.unfinished next) => next.after later
      | _ => none

section

variable {progress next : Progress} {markup : List Markup}

theorem groupsFrom_after (reached : progress.after markup = some next)
    (feed : Feed Markup MarkupFault) :
    groupsFrom progress (Feed.prepend markup feed) = groupsFrom next feed := by
  induction markup generalizing progress with
  | nil =>
      cases reached
      rfl
  | cons piece later ih =>
      rw [Progress.after] at reached
      split at reached
      next middle stepped => rw [Feed.prepend_cons, groupsFrom_unfinished stepped, ih reached]
      next => cases reached

theorem groupsFrom_of_ended (ended : progress.after markup = none)
    (feed other : Feed Markup MarkupFault) :
    groupsFrom progress (Feed.prepend markup feed) =
      groupsFrom progress (Feed.prepend markup other) := by
  induction markup generalizing progress with
  | nil => cases ended
  | cons piece later ih =>
      rw [Progress.after] at ended
      rw [Feed.prepend_cons, Feed.prepend_cons]
      cases stepped : progress.step piece with
      | error fault => rw [groupsFrom_refused stepped, groupsFrom_refused stepped]
      | ok outcome =>
          cases outcome with
          | complete groups => rw [groupsFrom_complete stepped, groupsFrom_complete stepped]
          | unfinished middle =>
              rw [stepped] at ended
              rw [groupsFrom_unfinished stepped, groupsFrom_unfinished stepped, ih ended]

end

section

variable {tag other : Tag} {piece changed : Markup} {ending : List Char} {progress : Progress}
  {feed : Feed Markup MarkupFault} {result : List Group}

theorem exists_enter_of_groupsFrom (ofTag : piece.OfTag tag ending)
    (read : groupsFrom progress (.item piece feed) = .ok result) :
    ∃ entered, progress.enter tag = .ok entered := by
  cases ofTag with
  | start => exact exists_enter_iff.mpr (start_of_groupsFrom read).1
  | empty => exact exists_enter_iff.mpr (empty_of_groupsFrom read).1

theorem groupsFrom_tag_congr (ofTag : piece.OfTag tag ending)
    (ofOther : changed.OfTag other ending) (sameName : other.name = tag.name)
    (enters : ∀ entered, progress.enter tag = .ok entered → progress.enter other = .ok entered)
    (read : groupsFrom progress (.item piece feed) = .ok result) :
    groupsFrom progress (.item changed feed) = .ok result := by
  obtain ⟨entered, enter⟩ := exists_enter_of_groupsFrom ofTag read
  have enterToo := enters entered enter
  cases ofTag with
  | start =>
      cases ofOther
      rw [groupsFrom_start enter] at read
      rw [groupsFrom_start enterToo, sameName]
      exact read
  | empty =>
      cases ofOther
      rw [groupsFrom, step_empty enter] at read
      rw [groupsFrom, step_empty enterToo]
      exact read

end

theorem attributeText_declared {tag : Tag} {given : List Attribute} {before after uri : List Char}
    {label word text : String} (parted : tag.attributeText = before ++ after)
    (lists : Lists before given) (inLabel : ∀ char ∈ label.toList, isNameChar char = true)
    (unclosed : '"' ∉ uri) (isNew : ∀ one ∈ tag.attributes.items, one.name ≠ "xmlns:" ++ label)
    (read : attributeText word tag.attributes = .ok text) :
    attributeText word (Tag.attributes ⟨tag.name, before ++ (writeNamespace label uri ++ after)⟩) =
      if label = word ∧ ∀ each ∈ given, each.localName ≠ word then
        (namespaceAttribute label uri).text.mapError .reference
      else .ok text := by
  have starts := starts_writeNamespace inLabel unclosed
  rw [Tag.attributes, parted] at isNew read
  rw [Tag.attributes, attributeText_insert lists starts (fun _ _ absent => absent) rfl isNew read,
    localName_namespaceAttribute]

/-- The declaration of the prefix at this place is read as an attribute that is asked for: a group
is asked for its name, a class for its id, its name and its title. It is the first one that has this
local name. -/
def Mistaken (markup : List Markup) (tag : Tag) (given : List Attribute) (label : String) : Prop :=
  ∃ progress, (⟨[], []⟩ : Progress).after markup = some progress ∧
    label ∈ wanted progress.openNames tag ∧ ∀ one ∈ given, one.localName ≠ label

/-- A declaration of a new prefix can be put between any two attributes of any element, and the
document has the same groups as before, unless the declaration is mistaken for an attribute. Then
its uri is what is read as the value of this attribute. -/
theorem declaration_inert {document : String} {groups : List Group}
    (accepted : ofText document = .ok groups) {markup : List Markup} {tag : Tag}
    {given : List Attribute} {front back : List Char} (whole : document.toList = front ++ back)
    (place : Place markup tag given front back) {label : String} {uri : List Char}
    (inLabel : ∀ char ∈ label.toList, isNameChar char = true) (unclosed : '"' ∉ uri)
    (isNew : ∀ one ∈ tag.attributes.items, one.name ≠ "xmlns:" ++ label) :
    (¬Mistaken markup tag given label →
      ofText (String.ofList (front ++ (writeNamespace label uri ++ back))) = .ok groups) ∧
    (Mistaken markup tag given label →
      ∀ before after, tag.attributeText = before ++ after → Lists before given →
        attributeText label
            (Tag.attributes ⟨tag.name, before ++ (writeNamespace label uri ++ after)⟩) =
          (namespaceAttribute label uri).text.mapError .reference) := by
  obtain ⟨before, after, ending, piece, changed, rest, parted, lists, ofTag, ofOther, yields,
    yieldsToo⟩ := place.insert (insertable_writeNamespace inLabel unclosed)
  rw [ofText_eq_ok_iff, whole, yields.markups, Feed.prepend_append] at accepted
  constructor
  · intro apart
    rw [ofText_eq_ok_iff, String.toList_ofList, yieldsToo.markups, Feed.prepend_append]
    cases reached : (⟨[], []⟩ : Progress).after markup with
    | none =>
        rw [groupsFrom_of_ended reached _ (Feed.prepend [piece] (markups rest))]
        exact accepted
    | some progress =>
        rw [groupsFrom_after reached] at accepted ⊢
        refine groupsFrom_tag_congr ofTag ofOther rfl (fun entered => ?_) accepted
        refine enter_congr rfl (fun word asked text read => ?_)
        rw [attributeText_declared parted lists inLabel unclosed isNew read, if_neg]
        rintro ⟨rfl, absent⟩
        exact apart ⟨progress, reached, asked, absent⟩
  · rintro ⟨progress, reached, asked, absent⟩ before after parted lists
    rw [groupsFrom_after reached] at accepted
    obtain ⟨entered, enter⟩ := exists_enter_of_groupsFrom ofTag accepted
    have sound := (exists_enter_iff.mp ⟨entered, enter⟩).2 label asked
    obtain ⟨text, read⟩ := exists_attributeText_tag_iff.mpr sound
    rw [attributeText_declared parted lists inLabel unclosed isNew read, if_pos ⟨rfl, absent⟩]

def grouped : String := "<RootNodes><ThreatsCatalog name='G'/></RootNodes>"

def groupTag : Tag := ⟨"ThreatsCatalog", " name='G'".toList⟩

def groupName : Attribute := ⟨"name", ['G']⟩

theorem starts_groupName : Starts " name='G'".toList groupName [] := by
  have blank : ∀ char ∈ [' '], isBlank char = true := by simp [isBlank]
  have named : ∀ char ∈ ['a', 'm', 'e'], char ≠ '=' ∧ isBlank char = false := by simp [isBlank]
  have none : ∀ char ∈ ([] : List Char), isBlank char = true := by simp
  have starts : Starts ([' '] ++ 'n' :: (['a', 'm', 'e'] ++ ([] ++ '=' :: ([] ++ '\'' ::
      (['G'] ++ '\'' :: []))))) ⟨String.ofList ('n' :: ['a', 'm', 'e']), ['G']⟩ [] :=
    .intro blank (by rfl) named none none (.inr rfl) (by simp)
  exact starts

theorem yields_grouped : Yields grouped.toList ([.start ⟨"RootNodes", []⟩] ++ [.empty groupTag])
    "</RootNodes>".toList :=
  .opened (by rfl) <| .opened (by rfl) (.done _)

/-- Between the name of the group's tag and its attribute. -/
theorem place_before : Place [.start ⟨"RootNodes", []⟩] groupTag []
    "<RootNodes><ThreatsCatalog".toList " name='G'/></RootNodes>".toList := by
  have place : Place [.start ⟨"RootNodes", []⟩] groupTag []
      ("<RootNodes>".toList ++ '<' :: (groupTag.name.toList ++ []))
      (" name='G'".toList ++ ['/'] ++ '>' :: "</RootNodes>".toList) :=
    .intro .empty rfl (.done (by simp)) rfl yields_grouped
  exact place

/-- Behind the attribute. -/
theorem place_behind : Place [.start ⟨"RootNodes", []⟩] groupTag [groupName]
    "<RootNodes><ThreatsCatalog name='G'".toList "/></RootNodes>".toList := by
  have place : Place [.start ⟨"RootNodes", []⟩] groupTag [groupName]
      ("<RootNodes>".toList ++ '<' :: (groupTag.name.toList ++ " name='G'".toList))
      ([] ++ ['/'] ++ '>' :: "</RootNodes>".toList) :=
    .intro .empty rfl (.next starts_groupName (.done (by simp))) rfl yields_grouped
  exact place

theorem attributes_groupTag : groupTag.attributes = .item groupName .finished := by
  cbv

theorem isNew_groupTag : ∀ one ∈ groupTag.attributes.items, one.name ≠ "xmlns:" ++ "name" := by
  rw [attributes_groupTag]
  simp [Feed.items, groupName]

theorem ofText_grouped : ofText grouped = .ok [⟨"G", []⟩] := by
  cbv

theorem mistaken_before : Mistaken [.start ⟨"RootNodes", []⟩] groupTag [] "name" :=
  ⟨⟨["RootNodes"], []⟩, rfl, List.mem_cons_self, by simp⟩

theorem not_mistaken_behind :
    ¬Mistaken [.start ⟨"RootNodes", []⟩] groupTag [groupName] "name" := by
  rintro ⟨_, _, _, absent⟩
  exact absent groupName List.mem_cons_self rfl

theorem declaration_inert_grouped :
    ofText (String.ofList ("<RootNodes><ThreatsCatalog name='G'".toList ++
      (writeNamespace "name" ['x'] ++ "/></RootNodes>".toList))) = .ok [⟨"G", []⟩] ∧
    attributeText "name" (Tag.attributes ⟨groupTag.name,
      [] ++ (writeNamespace "name" ['x'] ++ groupTag.attributeText)⟩) = .ok "x" := by
  have inLabel : ∀ char ∈ "name".toList, isNameChar char = true := List.all_eq_true.mp rfl
  have unclosed : '"' ∉ ['x'] := by simp
  constructor
  · exact (declaration_inert ofText_grouped rfl place_behind inLabel unclosed isNew_groupTag).1
      not_mistaken_behind
  · rw [(declaration_inert ofText_grouped rfl place_before inLabel unclosed isNew_groupTag).2
      mistaken_before [] groupTag.attributeText rfl (.done (by simp))]
    cbv

/-- In front of the name of the group, the declaration is taken for it. -/
theorem declaration_taken :
    ¬∀ document groups markup tag given front back label uri, ofText document = .ok groups →
      document.toList = front ++ back → Place markup tag given front back →
      (∀ char ∈ label.toList, isNameChar char = true) → '"' ∉ uri →
      (∀ one ∈ tag.attributes.items, one.name ≠ "xmlns:" ++ label) →
        ofText (String.ofList (front ++ (writeNamespace label uri ++ back))) = .ok groups := by
  intro inert
  have read : ofText (String.ofList ("<RootNodes><ThreatsCatalog".toList ++
      (writeNamespace "name" ['x'] ++ " name='G'/></RootNodes>".toList))) = .ok [⟨"x", []⟩] := by
    cbv
  have same := inert grouped _ _ groupTag _ _ _ "name" ['x'] ofText_grouped rfl place_before
    (List.all_eq_true.mp rfl) (by simp) isNew_groupTag
  exact absurd (read.symm.trans same) (by simp)

end RiskRules.Catalog
