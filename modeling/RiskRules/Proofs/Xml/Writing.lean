import Mathlib.Data.List.TakeWhile
import RiskRules.Proofs.Xml.Attribute

/-!
Elements as text. A tree whose names can stand in tags is written with all its attribute values
escaped, in any layout, and the markup of the text tells of this tree.
-/

namespace RiskRules.Xml

/-! ### Quoted values and the end of a tag -/

theorem foldl_next_outside {text : List Char} (double : '"' ∉ text) (single : '\'' ∉ text) :
    text.foldl Quotation.next .outside = .outside := by
  induction text with
  | nil => rfl
  | cons char text ih =>
      simp only [List.mem_cons, not_or] at double single
      have stays : Quotation.next .outside char = .outside := by
        simp [Quotation.next, Ne.symm double.1, Ne.symm single.1]
      rw [List.foldl_cons, stays, ih double.2 single.2]

theorem foldl_next_within {mark : Char} {text : List Char} (unclosed : mark ∉ text) :
    text.foldl Quotation.next (.within mark) = .within mark := by
  induction text with
  | nil => rfl
  | cons char text ih =>
      simp only [List.mem_cons, not_or] at unclosed
      have stays : Quotation.next (.within mark) char = .within mark := by
        simp [Quotation.next, Ne.symm unclosed.1]
      rw [List.foldl_cons, stays, ih unclosed.2]

theorem notMem_name {name : String} (isNamed : isName name = true) {mark : Char}
    (isMark : isNameChar mark = false) : mark ∉ name.toList := fun member =>
  ne_of_isNameChar (((isName_iff name).mp isNamed).2 mark member) isMark rfl

theorem foldl_next_name {name : String} (isNamed : isName name = true) :
    name.toList.foldl Quotation.next .outside = .outside :=
  foldl_next_outside (notMem_name isNamed (by decide)) (notMem_name isNamed (by decide))

theorem foldl_next_writeAttribute {given : String × String} (isNamed : isName given.1 = true) :
    (writeAttribute given).foldl Quotation.next .outside = .outside := by
  have double : '"' ∈ specials := by decide
  have value := foldl_next_within (notMem_escape double (by decide) given.2.toList)
  simp only [writeAttribute, List.cons_append, List.foldl_cons, List.foldl_append, List.foldl_nil]
  rw [show Quotation.next .outside ' ' = .outside by decide, foldl_next_name isNamed,
    show (Quotation.next .outside '=').next '"' = .within '"' by decide, value]
  decide

theorem foldl_next_writeAttributes {attributes : List (String × String)}
    (named : ∀ given ∈ attributes, isName given.1 = true) :
    (writeAttributes attributes).foldl Quotation.next .outside = .outside := by
  induction attributes with
  | nil => rfl
  | cons given others ih =>
      rw [List.forall_mem_cons] at named
      rw [writeAttributes, List.flatMap_cons, List.foldl_append,
        foldl_next_writeAttribute named.1]
      exact ih named.2

theorem bracket_notMem_writeAttributes {attributes : List (String × String)}
    (named : ∀ given ∈ attributes, isName given.1 = true) :
    '>' ∉ writeAttributes attributes := by
  intro member
  obtain ⟨given, isGiven, inside⟩ := List.mem_flatMap.mp member
  have inName := notMem_name (named given isGiven) (show isNameChar '>' = false by decide)
  have inValue := notMem_escape (show '>' ∈ specials by decide) (by decide) given.2.toList
  simp [writeAttribute, inName, inValue] at inside

structure Element.Plain (element : Element) : Prop where
  name : isName element.name = true
  attributes : ∀ given ∈ element.attributes, isName given.1 = true
  distinct : (element.attributes.map (·.1)).Nodup

def Element.tagContent (element : Element) : List Char :=
  element.name.toList ++ writeAttributes element.attributes

section

variable {element : Element}

theorem Element.Plain.foldl_next (plain : element.Plain) :
    element.tagContent.foldl Quotation.next .outside = .outside := by
  rw [Element.tagContent, List.foldl_append, foldl_next_name plain.name,
    foldl_next_writeAttributes plain.attributes]

theorem Element.Plain.bracket_notMem (plain : element.Plain) : '>' ∉ element.tagContent := by
  rw [Element.tagContent, List.mem_append, not_or]
  exact ⟨notMem_name plain.name (by decide), bracket_notMem_writeAttributes plain.attributes⟩

end

theorem untilBracket_eq_some {complete : List Char → Bool} {before text content rest : List Char} :
    untilBracket complete before text = some (content, rest) ↔
      ∃ taken, text = taken ++ '>' :: rest ∧ content = before.reverse ++ taken ∧
        complete content = true ∧
        ∀ front back, taken = front ++ '>' :: back → complete (before.reverse ++ front) = false := by
  induction text generalizing before with
  | nil => simp [untilBracket]
  | cons char text ih =>
      rw [untilBracket]
      split
      next ends =>
        rw [Bool.and_eq_true, decide_eq_true_eq] at ends
        obtain ⟨rfl, ends⟩ := ends
        constructor
        · intro found
          cases found
          exact ⟨[], rfl, by simp, ends, by simp⟩
        · rintro ⟨taken, same, rfl, _, inside⟩
          cases taken with
          | nil =>
              cases same
              simp
          | cons first taken =>
              cases same
              have unclosed := inside [] taken rfl
              rw [List.append_nil, ends] at unclosed
              cases unclosed
      next goesOn =>
        rw [Bool.and_eq_true, decide_eq_true_eq, not_and, Bool.not_eq_true] at goesOn
        rw [ih, List.reverse_cons]
        constructor
        · rintro ⟨taken, rfl, rfl, ends, inside⟩
          refine ⟨char :: taken, rfl, by simp, ends, ?_⟩
          intro front back same
          cases front with
          | nil =>
              obtain ⟨rfl, _⟩ := List.cons.inj same
              simpa using goesOn rfl
          | cons first front =>
              cases same
              simpa using inside front back rfl
        · rintro ⟨taken, same, rfl, ends, inside⟩
          cases taken with
          | nil =>
              cases same
              rw [List.append_nil, goesOn rfl] at ends
              cases ends
          | cons first taken =>
              cases same
              refine ⟨taken, rfl, by simp, ends, ?_⟩
              rintro front back rfl
              simpa using inside (char :: front) back rfl

theorem untilBracket_content {complete : List Char → Bool} {content : List Char}
    (plain : '>' ∉ content) (before rest : List Char)
    (ends : complete (before.reverse ++ content) = true) :
    untilBracket complete before (content ++ '>' :: rest) =
      some (before.reverse ++ content, rest) := by
  refine untilBracket_eq_some.mpr ⟨content, rfl, rfl, ends, ?_⟩
  rintro front back rfl
  simp at plain

/-! ### Markup after text -/

theorem markups_unopened {text : List Char} (unopened : text.dropWhile (· ≠ '<') = []) :
    markups text = .finished := by
  rw [markups.eq_def]
  split
  next => rfl
  next opened => cases unopened.symm.trans opened

theorem markups_opened {text body : List Char} {first : Char}
    (opened : text.dropWhile (· ≠ '<') = first :: body) :
    markups text =
      match nextMarkup body with
      | .error cause => .broken cause
      | .ok (markup, rest) => .item markup (markups rest) := by
  rw [markups.eq_def]
  split
  next unopened => cases opened.symm.trans unopened
  next same =>
    cases opened.symm.trans same
    split
    next refused => rw [refused]
    next found => rw [found]

theorem markups_gap {gap : List Char} (plain : '<' ∉ gap) (text : List Char) :
    markups (gap ++ text) = markups text := by
  have same : (gap ++ text).dropWhile (· ≠ '<') = text.dropWhile (· ≠ '<') := by
    apply List.dropWhile_append_of_pos
    intro char member
    exact decide_eq_true fun opens => plain (opens ▸ member)
  cases opened : text.dropWhile (· ≠ '<') with
  | nil => rw [markups_unopened opened, markups_unopened (same.trans opened)]
  | cons first body => rw [markups_opened opened, markups_opened (same.trans opened)]

theorem markups_item {body rest : List Char} {markup : Markup}
    (found : nextMarkup body = .ok (markup, rest)) :
    markups ('<' :: body) = .item markup (markups rest) := by
  have opened : ('<' :: body).dropWhile (· ≠ '<') = '<' :: body :=
    List.dropWhile_cons_of_neg (by decide)
  rw [markups_opened opened, found]

/-- A tag with a content that does not begin like a declaration or an instruction. -/
theorem markups_tag {content : List Char} {first : Char} (leads : content.head? = some first)
    (notDeclaration : first ≠ '!') (notInstruction : first ≠ '?') (bracket : '>' ∉ content)
    (complete : tagComplete content = true) {markup : Markup}
    (judged : judgeTag content = .ok markup) (rest : List Char) :
    markups ('<' :: (content ++ '>' :: rest)) = .item markup (markups rest) := by
  obtain ⟨more, rfl⟩ := List.head?_eq_some_iff.mp leads
  have ended := untilBracket_content bracket [] rest complete
  rw [List.cons_append] at ended
  apply markups_item
  rw [List.cons_append, nextMarkup.eq_3 _ (by simp [notDeclaration]) (by simp [notInstruction]),
    piece, ended, List.reverse_nil, List.nil_append]
  simp only [judged]
  rfl

/-! ### Tags -/

/-- The name of a tag goes as far as the first blank of its content. -/
theorem Tag.ofContent_eq_iff {content : List Char} {tag : Tag} :
    Tag.ofContent content = tag ↔
      content = tag.name.toList ++ tag.attributeText ∧
        (∀ char ∈ tag.name.toList, isBlank char = false) ∧
        ∀ char, tag.attributeText.head? = some char → isBlank char = true := by
  constructor
  · rintro rfl
    rw [ofContent, String.toList_ofList]
    refine ⟨List.takeWhile_append_dropWhile.symm, ?_, ?_⟩
    · intro char member
      simpa using List.mem_takeWhile_imp member
    · intro char first
      have stops := List.head?_dropWhile_not (!isBlank ·) content
      rw [first] at stops
      simpa using stops
  · rintro ⟨rfl, solid, spaced⟩
    obtain ⟨name, text⟩ := tag
    have inName : ∀ char ∈ name.toList, (!isBlank char) = true := by
      intro char member
      simp [solid char member]
    cases text with
    | nil =>
        rw [ofContent, List.append_nil, List.takeWhile_eq_self_iff.mpr inName,
          List.dropWhile_eq_nil_iff.mpr inName, String.ofList_toList]
    | cons blank text =>
        have stops : (!isBlank blank) = false := by simp [spaced blank rfl]
        rw [ofContent, takeWhile_stop inName stops, dropWhile_stop inName stops,
          String.ofList_toList]

def Element.tag (element : Element) : Tag :=
  ⟨element.name, writeAttributes element.attributes⟩

section

variable {element : Element}

theorem Element.Plain.spells (plain : element.Plain) : element.tag.Spells element where
  name := rfl
  attributes := resolved?_attributesFrom plain.attributes plain.distinct (fun _ _ => rfl) _

theorem Element.Plain.ofContent (plain : element.Plain) :
    Tag.ofContent element.tagContent = element.tag := by
  refine Tag.ofContent_eq_iff.mpr ⟨rfl, ?_, ?_⟩
  · intro char member
    exact isBlank_of_isNameChar (((isName_iff _).mp plain.name).2 char member)
  · intro char first
    rw [Element.tag] at first
    cases attributes : element.attributes with
    | nil =>
        rw [attributes] at first
        cases first
    | cons given others =>
        rw [attributes] at first
        cases first
        decide

theorem Element.Plain.getLast?_tagContent (plain : element.Plain) :
    element.tagContent.getLast? ≠ some '/' := by
  rw [Element.tagContent]
  intro last
  -- The last character is one of the name, or else the quote that ends the last value.
  cases List.eq_nil_or_concat element.attributes with
  | inl none =>
      rw [none, writeAttributes, List.flatMap_nil, List.append_nil] at last
      exact notMem_name plain.name (by decide) (List.mem_of_getLast? last)
  | inr some =>
      obtain ⟨others, given, attributes⟩ := some
      rw [attributes, List.concat_eq_append, writeAttributes, List.flatMap_append,
        List.flatMap_singleton, writeAttribute, ← List.append_assoc, ← List.append_assoc,
        List.getLast?_concat] at last
      cases last

def Element.openTag (element : Element) : List Char :=
  '<' :: element.tagContent ++ ['>']

def Element.emptyTag (element : Element) : List Char :=
  '<' :: element.tagContent ++ ['/', '>']

def Element.closeTag (element : Element) : List Char :=
  '<' :: '/' :: element.name.toList ++ ['>']

theorem Element.Plain.head?_tagContent (plain : element.Plain) :
    ∃ first, element.tagContent.head? = some first ∧ isNameChar first = true := by
  obtain ⟨present, inName⟩ := (isName_iff _).mp plain.name
  obtain ⟨first, more, spelled⟩ := List.exists_cons_of_ne_nil present
  refine ⟨first, ?_, inName first (spelled ▸ List.mem_cons_self)⟩
  rw [Element.tagContent, spelled, List.cons_append, List.head?_cons]

theorem judgeTag_of_head? {content : List Char} {first : Char} (leads : content.head? = some first)
    (notSlash : first ≠ '/') :
    judgeTag content =
      if content.getLast? = some '/' then .ok (.empty (.ofContent content.dropLast))
      else .ok (.start (.ofContent content)) := by
  obtain ⟨more, rfl⟩ := List.head?_eq_some_iff.mp leads
  exact judgeTag.eq_2 _ (by simp [notSlash])

theorem Element.Plain.markups_openTag (plain : element.Plain) (rest : List Char) :
    markups (element.openTag ++ rest) = .item (.start element.tag) (markups rest) := by
  obtain ⟨first, leads, inName⟩ := plain.head?_tagContent
  have judged : judgeTag element.tagContent = .ok (.start element.tag) := by
    rw [judgeTag_of_head? leads (ne_of_isNameChar inName (by decide)),
      if_neg plain.getLast?_tagContent, plain.ofContent]
  have read := markups_tag leads (ne_of_isNameChar inName (by decide))
    (ne_of_isNameChar inName (by decide)) plain.bracket_notMem (decide_eq_true plain.foldl_next)
    judged rest
  rw [Element.openTag, List.cons_append, List.cons_append, List.append_assoc,
    List.singleton_append]
  exact read

theorem Element.Plain.markups_emptyTag (plain : element.Plain) (rest : List Char) :
    markups (element.emptyTag ++ rest) = .item (.empty element.tag) (markups rest) := by
  obtain ⟨first, leads, inName⟩ := plain.head?_tagContent
  have leadsToo : (element.tagContent ++ ['/']).head? = some first := by
    rw [List.head?_append, leads]
    rfl
  have bracket : '>' ∉ element.tagContent ++ ['/'] := by
    simp [plain.bracket_notMem]
  have complete : tagComplete (element.tagContent ++ ['/']) = true := by
    rw [tagComplete, List.foldl_append, plain.foldl_next]
    decide
  have judged : judgeTag (element.tagContent ++ ['/']) = .ok (.empty element.tag) := by
    rw [judgeTag_of_head? leadsToo (ne_of_isNameChar inName (by decide)),
      if_pos List.getLast?_concat, List.dropLast_concat, plain.ofContent]
  have read := markups_tag leadsToo (ne_of_isNameChar inName (by decide))
    (ne_of_isNameChar inName (by decide)) bracket complete judged rest
  rw [List.append_assoc, List.singleton_append] at read
  rw [Element.emptyTag, List.cons_append, List.cons_append, List.append_assoc]
  exact read

theorem closingName_name {name : String} (isNamed : isName name = true) :
    closingName name.toList = name.toList := by
  have inName := ((isName_iff name).mp isNamed).2
  have untrimmed : (name.toList.reverse.dropWhile isBlank).reverse = name.toList := by
    cases reversed : name.toList.reverse with
    | nil => rw [List.reverse_eq_nil_iff.mp reversed]; rfl
    | cons last before =>
        have isLast : last ∈ name.toList := by
          rw [← List.mem_reverse, reversed]
          exact List.mem_cons_self
        rw [List.dropWhile_cons_of_neg (by simp [isBlank_of_isNameChar (inName last isLast)]),
          ← reversed, List.reverse_reverse]
  rw [closingName, untrimmed]
  split
  next none => rfl
  next => rfl

theorem Element.Plain.markups_closeTag (plain : element.Plain) (rest : List Char) :
    markups (element.closeTag ++ rest) = .item (.close element.name) (markups rest) := by
  have bracket : '>' ∉ '/' :: element.name.toList := by
    simp [notMem_name plain.name (show isNameChar '>' = false by decide)]
  have complete : tagComplete ('/' :: element.name.toList) = true := by
    rw [tagComplete, List.foldl_cons, show Quotation.next .outside '/' = .outside by decide,
      foldl_next_name plain.name]
    rfl
  have judged : judgeTag ('/' :: element.name.toList) = .ok (.close element.name) := by
    rw [judgeTag, closingName_name plain.name, String.ofList_toList]
  have read := markups_tag rfl (by decide) (by decide) bracket complete judged rest
  rw [Element.closeTag, List.cons_append, List.cons_append, List.append_assoc,
    List.singleton_append]
  exact read

end

/-! ### Texts and the elements they tell of -/

def Reads (text : List Char) (elements : List Element) : Prop :=
  ∃ markup, Delivers elements markup ∧
    ∀ rest, markups (text ++ rest) = Feed.prepend markup (markups rest)

namespace Reads

theorem gap {text : List Char} (plain : '<' ∉ text) : Reads text [] :=
  ⟨[], .done, markups_gap plain⟩

theorem append {text more : List Char} {first second : List Element} (before : Reads text first)
    (after : Reads more second) : Reads (text ++ more) (first ++ second) := by
  obtain ⟨markup, delivered, read⟩ := before
  obtain ⟨markupAfter, deliveredAfter, readAfter⟩ := after
  refine ⟨markup ++ markupAfter, delivered.append deliveredAfter, fun rest => ?_⟩
  rw [List.append_assoc, read, readAfter, Feed.prepend_append]

theorem single {element : Element} (plain : element.Plain) (childless : element.children = []) :
    Reads element.emptyTag [element] :=
  ⟨[.empty element.tag], .empty plain.spells childless .done, plain.markups_emptyTag⟩

theorem paired {element : Element} (plain : element.Plain) {text : List Char}
    (inside : Reads text element.children) :
    Reads (element.openTag ++ text ++ element.closeTag) [element] := by
  obtain ⟨markup, delivered, read⟩ := inside
  refine ⟨.start element.tag :: markup ++ .close element.name :: [],
    .around plain.spells delivered .done, fun rest => ?_⟩
  rw [List.append_assoc, List.append_assoc, plain.markups_openTag, read, plain.markups_closeTag,
    List.cons_append, Feed.prepend_cons, Feed.prepend_append]
  rfl

end Reads

/-! ### Trees -/

/-- The text in front of an element at each depth, and which elements without children are written
as a single tag. -/
structure Layout where
  gap : Nat → List Char
  gap_plain : ∀ depth, '<' ∉ gap depth
  single : String → Bool

mutual

def Element.write (layout : Layout) (depth : Nat) : Element → List Char
  | ⟨name, attributes, children⟩ =>
      if children.isEmpty && layout.single name then
        Element.emptyTag ⟨name, attributes, children⟩
      else
        Element.openTag ⟨name, attributes, children⟩ ++
          (writeAll layout (depth + 1) children ++ layout.gap depth) ++
          Element.closeTag ⟨name, attributes, children⟩

def writeAll (layout : Layout) (depth : Nat) : List Element → List Char
  | [] => []
  | element :: elements =>
      layout.gap depth ++ element.write layout depth ++ writeAll layout depth elements

end

inductive Element.Writable : Element → Prop
  | intro {element : Element} (plain : element.Plain)
      (inside : ∀ child ∈ element.children, child.Writable) : element.Writable

theorem Reads.writeAll {layout : Layout} {depth : Nat} {elements : List Element}
    (each : ∀ element ∈ elements, Reads (element.write layout depth) [element]) :
    Reads (writeAll layout depth elements) elements := by
  induction elements with
  | nil => exact gap List.not_mem_nil
  | cons element elements ih =>
      rw [List.forall_mem_cons] at each
      exact ((gap (layout.gap_plain depth)).append each.1).append (ih each.2)

/-- In every layout the text of a tree tells of this tree. -/
theorem Element.Writable.reads {element : Element} (writable : element.Writable) (layout : Layout)
    (depth : Nat) : Reads (element.write layout depth) [element] := by
  induction writable generalizing depth with
  | @intro element plain _ ih =>
      obtain ⟨name, attributes, children⟩ := element
      rw [Element.write]
      split
      next both =>
        rw [Bool.and_eq_true, List.isEmpty_iff] at both
        exact .single plain both.1
      next =>
        have children := Reads.writeAll fun child member => ih child member (depth + 1)
        have inside := children.append (.gap (layout.gap_plain depth))
        rw [List.append_nil] at inside
        exact .paired plain inside

end RiskRules.Xml
