import RiskRules.Proofs.Xml.AttributeRun
import RiskRules.Proofs.Xml.Nesting

/-!
The text between the brackets of a tag. It goes as far as the first closing bracket outside of
quoted values, so a piece with balanced quotation marks can be put into it wherever no value is
open, and the tag around it stays the same.
-/

namespace RiskRules.Xml

/-! ### Where a tag ends -/

structure Enclosed (content : List Char) : Prop where
  complete : tagComplete content = true
  inside : ∀ front back, content = front ++ '>' :: back → tagComplete front = false

theorem untilBracket_tag {text content rest : List Char} :
    untilBracket tagComplete [] text = some (content, rest) ↔
      text = content ++ '>' :: rest ∧ Enclosed content := by
  rw [untilBracket_eq_some]
  constructor
  · rintro ⟨_, rfl, rfl, complete, inside⟩
    exact ⟨rfl, complete, inside⟩
  · rintro ⟨rfl, complete, inside⟩
    exact ⟨content, rfl, rfl, complete, inside⟩

theorem tagComplete_append {front : List Char} (outside : tagComplete front = true)
    (more : List Char) : tagComplete (front ++ more) = tagComplete more := by
  rw [tagComplete, decide_eq_true_eq] at outside
  rw [tagComplete, tagComplete, List.foldl_append, outside]

theorem Enclosed.insert {front back piece : List Char} (enclosed : Enclosed (front ++ back))
    (outside : tagComplete front = true) (balanced : Enclosed piece) :
    Enclosed (front ++ (piece ++ back)) where
  complete := by
    rw [tagComplete_append outside, tagComplete_append balanced.complete,
      ← tagComplete_append outside]
    exact enclosed.complete
  inside := by
    intro before after same
    rcases append_eq_append_cons same with ⟨between, rfl⟩ | ⟨between, rfl, behind⟩
    · exact enclosed.inside before (between ++ back) (by simp)
    · rw [tagComplete_append outside]
      rcases append_eq_append_cons behind with ⟨_, rfl⟩ | ⟨last, rfl, rfl⟩
      · exact balanced.inside between _ rfl
      · rw [tagComplete_append balanced.complete, ← tagComplete_append outside]
        exact enclosed.inside (front ++ last) after (by simp)

/-! ### What a tag is read from -/

inductive Markup.OfTag (tag : Tag) : Markup → List Char → Prop
  | start : OfTag tag (.start tag) []
  | empty : OfTag tag (.empty tag) ['/']

structure Tag.Fills (tag : Tag) (ending content : List Char) : Prop where
  text : content = tag.name.toList ++ (tag.attributeText ++ ending)
  solid : ∀ char ∈ tag.name.toList, isBlank char = false
  spaced : ∀ char, tag.attributeText.head? = some char → isBlank char = true
  leads : ∀ char, content.head? = some char → char ∉ ['!', '?', '/']
  last : ending = [] → content.getLast? ≠ some '/'

section

variable {tag : Tag} {markup : Markup} {ending content text body rest : List Char}

theorem eq_other_of_judged {judge : List Char → Except MarkupFault Markup}
    (known : judge ∈ [judgeComment, judgeSection, judgeDoctype, judgeInstruction])
    (judged : judge content = .ok markup) : markup = .other := by
  simp only [List.mem_cons, List.not_mem_nil, or_false] at known
  rcases known with rfl | rfl | rfl | rfl
  · rw [judgeComment] at judged
    split at judged
    · cases judged
      rfl
    · cases judged
  · rw [judgeSection] at judged
    split at judged
    · cases judged
      rfl
    · cases judged
  · rw [judgeDoctype] at judged
    split at judged
    · split at judged
      · cases judged
      · cases judged
        rfl
    · cases judged
  · rw [judgeInstruction] at judged
    split at judged
    · cases judged
      rfl
    · cases judged

theorem eq_other_of_declaration (found : declaration text = .ok (markup, rest)) :
    markup = .other := by
  unfold declaration at found
  split at found
  case h_5 => cases found
  all_goals
    obtain ⟨content, _, judged⟩ := piece_eq_ok.mp found
    exact eq_other_of_judged (by simp) judged

theorem judgeTag_eq_ok (ofTag : markup.OfTag tag ending) :
    judgeTag content = .ok markup ↔
      content.head? ≠ some '/' ∧ (ending = [] → content.getLast? ≠ some '/') ∧
        ∃ inner, content = inner ++ ending ∧ Tag.ofContent inner = tag := by
  by_cases closes : content.head? = some '/'
  · obtain ⟨more, rfl⟩ := List.head?_eq_some_iff.mp closes
    refine iff_of_false (fun read => ?_) fun facts => facts.1 rfl
    cases ofTag with
    | start => cases read
    | empty => cases read
  · have opens : ∀ more, content = '/' :: more → False := by
      rintro more rfl
      exact closes rfl
    rw [judgeTag.eq_2 content opens]
    cases ofTag with
    | start =>
        by_cases slash : content.getLast? = some '/'
        · simp [slash]
        · simp [slash, closes]
    | empty =>
        by_cases slash : content.getLast? = some '/'
        · obtain ⟨inner, rfl⟩ := List.getLast?_eq_some_iff.mp slash
          rw [if_pos slash, List.dropLast_concat]
          constructor
          · intro same
            cases same
            exact ⟨closes, fun none => absurd none (List.cons_ne_nil _ _), inner, rfl, rfl⟩
          · rintro ⟨_, _, other, same, rfl⟩
            obtain rfl := List.append_cancel_right same
            rfl
        · rw [if_neg slash]
          refine iff_of_false (fun read => ?_) ?_
          · cases read
          · rintro ⟨_, _, inner, rfl, _⟩
            exact slash List.getLast?_concat

theorem Markup.OfTag.ne_other (ofTag : markup.OfTag tag ending) : markup ≠ .other := by
  cases ofTag <;> nofun

/-- A tag is read from a content of its own, up to the bracket. -/
theorem nextMarkup_tag_iff (ofTag : markup.OfTag tag ending) :
    nextMarkup body = .ok (markup, rest) ↔
      ∃ content, body = content ++ '>' :: rest ∧ Enclosed content ∧ tag.Fills ending content := by
  constructor
  · intro found
    unfold nextMarkup at found
    split at found
    next text => exact absurd (eq_other_of_declaration found) ofTag.ne_other
    next text =>
      obtain ⟨content, _, judged⟩ := piece_eq_ok.mp found
      exact absurd (eq_other_of_judged (by simp) judged) ofTag.ne_other
    next notDeclaration notInstruction =>
      obtain ⟨content, ends, judged⟩ := piece_eq_ok.mp found
      obtain ⟨rfl, enclosed⟩ := untilBracket_tag.mp ends
      obtain ⟨notSlash, last, inner, rfl, ofContent⟩ := (judgeTag_eq_ok ofTag).mp judged
      obtain ⟨rfl, solid, spaced⟩ := Tag.ofContent_eq_iff.mp ofContent
      refine ⟨_, rfl, enclosed, ⟨List.append_assoc _ _ _, solid, spaced, ?_, last⟩⟩
      intro char first special
      obtain ⟨more, same⟩ := List.head?_eq_some_iff.mp first
      rw [same] at notDeclaration notInstruction
      simp only [List.mem_cons, List.not_mem_nil, or_false] at special
      rcases special with rfl | rfl | rfl
      · exact notDeclaration _ rfl
      · exact notInstruction _ rfl
      · exact notSlash first
  · rintro ⟨content, rfl, enclosed, fills⟩
    have notSlash : content.head? ≠ some '/' := fun first => fills.leads '/' first (by simp)
    have judged : judgeTag content = .ok markup :=
      (judgeTag_eq_ok ofTag).mpr ⟨notSlash, fills.last, _,
        fills.text.trans (List.append_assoc _ _ _).symm,
        Tag.ofContent_eq_iff.mpr ⟨rfl, fills.solid, fills.spaced⟩⟩
    have leads : ∀ char more, content ++ '>' :: rest = char :: more → char ∉ ['!', '?'] := by
      intro char more same
      cases content with
      | nil =>
          cases same
          decide
      | cons first others =>
          cases same
          have plain := fills.leads char rfl
          simp only [List.mem_cons, List.not_mem_nil, not_or] at plain ⊢
          exact ⟨plain.1, plain.2.1, not_false⟩
    rw [nextMarkup.eq_3]
    · exact piece_eq_ok.mpr ⟨content, untilBracket_tag.mpr ⟨rfl, enclosed⟩, judged⟩
    · exact fun more same => leads '!' more same (by simp)
    · exact fun more same => leads '?' more same (by simp)

/-! ### Pieces put into a list of attributes -/

structure Insertable (piece : List Char) : Prop where
  enclosed : Enclosed piece
  spaced : ∃ more, piece = ' ' :: more
  last : piece.getLast? ≠ some '/'

theorem Tag.Fills.insert {before after piece : List Char} (fills : tag.Fills ending content)
    (parted : tag.attributeText = before ++ after) (insertable : Insertable piece) :
    Tag.Fills ⟨tag.name, before ++ (piece ++ after)⟩ ending
      (tag.name.toList ++ (before ++ (piece ++ after) ++ ending)) := by
  have starts : ∃ blank others, before ++ (piece ++ after) = blank :: others ∧
      isBlank blank = true := by
    cases before with
    | nil =>
        obtain ⟨more, rfl⟩ := insertable.spaced
        exact ⟨' ', _, rfl, by decide⟩
    | cons blank before => exact ⟨blank, _, rfl, fills.spaced blank (by rw [parted]; rfl)⟩
  obtain ⟨blank, others, whole, isSpace⟩ := starts
  have text := fills.text
  refine ⟨rfl, fills.solid, ?_, ?_, ?_⟩
  · intro char first
    rw [whole] at first
    cases first
    exact isSpace
  · intro char first
    cases name : tag.name.toList with
    | nil =>
        rw [name, whole] at first
        cases first
        intro special
        simp only [List.mem_cons, List.not_mem_nil, or_false] at special
        rcases special with rfl | rfl | rfl <;> cases isSpace
    | cons letter letters =>
        rw [name] at first text
        exact fills.leads char (by rw [text]; exact first)
  · intro none same
    rw [none, List.append_nil] at text same
    apply fills.last none
    rw [text, parted]
    cases List.eq_nil_or_concat after with
    | inl nothing =>
        obtain ⟨more, spaced⟩ := insertable.spaced
        cases last : piece.getLast? with
        | none =>
            rw [List.getLast?_eq_none_iff.mp last] at spaced
            cases spaced
        | some char =>
            rw [nothing, List.append_nil, ← List.append_assoc, List.getLast?_append, last,
              Option.some_or] at same
            exact absurd (last.trans same) insertable.last
    | inr more =>
        obtain ⟨earlier, char, rfl⟩ := more
        simpa using same

end

theorem Yields.append_iff {text rest : List Char} {first second : List Markup} :
    Yields text (first ++ second) rest ↔
      ∃ middle, Yields text first middle ∧ Yields middle second rest := by
  constructor
  · intro yields
    induction first generalizing text with
    | nil => exact ⟨text, .done text, yields⟩
    | cons markup first ih =>
        cases yields with
        | next plain found later =>
            obtain ⟨middle, before, after⟩ := ih later
            exact ⟨middle, .next plain found before, after⟩
  · rintro ⟨middle, before, after⟩
    induction before with
    | done => exact after
    | next plain found _ ih => exact .next plain found (ih after)

theorem Yields.exists_last {text rest : List Char} {markup : List Markup} {piece : Markup}
    (yields : Yields text (markup ++ [piece]) rest) :
    ∃ gap body, '<' ∉ gap ∧ nextMarkup body = .ok (piece, rest) ∧
      Yields text markup (gap ++ '<' :: body) := by
  obtain ⟨middle, before, last⟩ := Yields.append_iff.mp yields
  cases last with
  | next plain found later =>
      cases later
      exact ⟨_, _, plain, found, before⟩

/-- A place in the list of attributes of a tag, with the text before it and after it. In front of
the tag stands some markup, and between its name and the place these attributes. No quoted value is
open there. -/
inductive Place (markup : List Markup) (tag : Tag) (given : List Attribute) :
    List Char → List Char → Prop
  | intro {opening before after ending rest : List Char} {piece : Markup}
      (ofTag : piece.OfTag tag ending) (parted : tag.attributeText = before ++ after)
      (lists : Lists before given) (outside : tagComplete (tag.name.toList ++ before) = true)
      (yields : Yields (opening ++ '<' :: (tag.name.toList ++ before) ++
        (after ++ ending ++ '>' :: rest)) (markup ++ [piece]) rest) :
      Place markup tag given (opening ++ '<' :: (tag.name.toList ++ before))
        (after ++ ending ++ '>' :: rest)

theorem Markup.OfTag.exists_other {tag : Tag} {piece : Markup} {ending : List Char}
    (ofTag : piece.OfTag tag ending) (other : Tag) :
    ∃ changed : Markup, changed.OfTag other ending := by
  cases ofTag with
  | start => exact ⟨_, .start⟩
  | empty => exact ⟨_, .empty⟩

theorem nextMarkup_insert {tag : Tag} {before after inserted ending body rest : List Char}
    {piece changed : Markup} (ofTag : piece.OfTag tag ending)
    (ofOther : changed.OfTag ⟨tag.name, before ++ (inserted ++ after)⟩ ending)
    (parted : tag.attributeText = before ++ after)
    (outside : tagComplete (tag.name.toList ++ before) = true) (insertable : Insertable inserted)
    (found : nextMarkup body = .ok (piece, rest)) :
    body = tag.name.toList ++ (before ++ after ++ ending) ++ '>' :: rest ∧
      nextMarkup (tag.name.toList ++ (before ++ (inserted ++ after) ++ ending) ++ '>' :: rest) =
        .ok (changed, rest) := by
  obtain ⟨content, rfl, enclosed, fills⟩ := (nextMarkup_tag_iff ofTag).mp found
  have text := fills.text
  rw [parted] at text
  have whole : Enclosed ((tag.name.toList ++ before) ++ (after ++ ending)) := by
    rw [text] at enclosed
    simpa using enclosed
  have changedWhole : Enclosed (tag.name.toList ++ (before ++ (inserted ++ after) ++ ending)) := by
    simpa using whole.insert outside insertable.enclosed
  refine ⟨by rw [text], (nextMarkup_tag_iff ofOther).mpr ?_⟩
  exact ⟨_, rfl, changedWhole, fills.insert parted insertable⟩

/-- A text put there becomes part of the list of attributes, and no other markup changes. -/
theorem Place.insert {markup : List Markup} {tag : Tag} {given : List Attribute}
    {front back inserted : List Char} (place : Place markup tag given front back)
    (insertable : Insertable inserted) :
    ∃ before after ending piece changed rest, tag.attributeText = before ++ after ∧
      Lists before given ∧ piece.OfTag tag ending ∧
      changed.OfTag ⟨tag.name, before ++ (inserted ++ after)⟩ ending ∧
      Yields (front ++ back) (markup ++ [piece]) rest ∧
      Yields (front ++ (inserted ++ back)) (markup ++ [changed]) rest := by
  cases place with
  | @intro opening before after ending rest piece ofTag parted lists outside yields =>
      obtain ⟨changed, ofOther⟩ := ofTag.exists_other ⟨tag.name, before ++ (inserted ++ after)⟩
      refine ⟨before, after, ending, piece, changed, rest, parted, lists, ofTag, ofOther, yields, ?_⟩
      obtain ⟨gap, body, plain, found, earlier⟩ := yields.exists_last
      obtain ⟨rfl, foundToo⟩ := nextMarkup_insert ofTag ofOther parted outside insertable found
      obtain ⟨taken, whole, goesOn⟩ := earlier.taken
      have openings : opening = taken ++ gap := by
        refine (List.append_left_inj
          ('<' :: (tag.name.toList ++ (before ++ after ++ ending) ++ '>' :: rest))).mp ?_
        simpa using whole
      subst openings
      have last : Yields _ [changed] rest := .next plain foundToo (.done rest)
      have yieldsToo := Yields.append_iff.mpr ⟨_, goesOn _, last⟩
      simpa using yieldsToo

end RiskRules.Xml
