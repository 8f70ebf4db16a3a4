import RiskRules.Proofs.Xml.Writing

/-!
Markup that nests around one root. A piece of markup ends where it ends whatever comes after it, and
so does an element; no text begins with two markups of one element each unless they are the same.
-/

namespace RiskRules.Xml

/-! ### Pieces of markup do not depend on what comes after them -/

theorem untilBracket_taken {complete : List Char → Bool} {before text content rest : List Char}
    (found : untilBracket complete before text = some (content, rest)) :
    ∃ taken, text = taken ++ rest ∧ taken ≠ [] ∧
      ∀ other, untilBracket complete before (taken ++ other) = some (content, other) := by
  obtain ⟨taken, rfl, rfl, ends, inside⟩ := untilBracket_eq_some.mp found
  refine ⟨taken ++ ['>'], by simp, by simp, ?_⟩
  intro other
  exact untilBracket_eq_some.mpr ⟨taken, by simp, rfl, ends, inside⟩

theorem piece_eq_ok {complete : List Char → Bool} {unclosed : MarkupFault}
    {judge : List Char → Except MarkupFault Markup} {text rest : List Char} {markup : Markup} :
    piece complete unclosed judge text = .ok (markup, rest) ↔
      ∃ content, untilBracket complete [] text = some (content, rest) ∧
        judge content = .ok markup := by
  constructor
  · intro found
    rw [piece] at found
    split at found
    next => cases found
    next content tail ends =>
      cases judged : judge content with
      | error cause =>
          rw [judged] at found
          cases found
      | ok one =>
          rw [judged] at found
          cases found
          exact ⟨content, ends, judged⟩
  · rintro ⟨content, ends, judged⟩
    rw [piece, ends]
    simp only [judged]
    rfl

theorem piece_taken {complete : List Char → Bool} {unclosed : MarkupFault}
    {judge : List Char → Except MarkupFault Markup} {text rest : List Char} {markup : Markup}
    (found : piece complete unclosed judge text = .ok (markup, rest)) :
    ∃ taken, text = taken ++ rest ∧ taken ≠ [] ∧
      ∀ other, piece complete unclosed judge (taken ++ other) = .ok (markup, other) := by
  obtain ⟨content, ends, judged⟩ := piece_eq_ok.mp found
  obtain ⟨taken, same, some, reads⟩ := untilBracket_taken ends
  exact ⟨taken, same, some, fun other => piece_eq_ok.mpr ⟨content, reads other, judged⟩⟩

theorem declaration_taken {text rest : List Char} {markup : Markup}
    (found : declaration text = .ok (markup, rest)) :
    ∃ taken, text = taken ++ rest ∧
      ∀ other, declaration (taken ++ other) = .ok (markup, other) := by
  -- What is read is not empty, so its first character decides for every text that begins with it.
  have same : ∀ taken other : List Char, taken ≠ [] → text = taken ++ rest →
      (taken ++ other).head? = text.head? := by
    rintro taken other some rfl
    obtain ⟨first, more, rfl⟩ := List.exists_cons_of_ne_nil some
    rfl
  unfold declaration at found ⊢
  split at found
  case h_5 => cases found
  all_goals
    rename_i leads
    obtain ⟨taken, split_, some, reads⟩ := piece_taken found
    refine ⟨taken, split_, ?_⟩
    intro other
    rw [same taken other some split_, leads]
    exact reads other

theorem nextMarkup_taken {text rest : List Char} {markup : Markup}
    (found : nextMarkup text = .ok (markup, rest)) :
    ∃ taken, text = taken ++ rest ∧
      ∀ other, nextMarkup (taken ++ other) = .ok (markup, other) := by
  unfold nextMarkup at found
  split at found
  next body =>
    obtain ⟨taken, rfl, reads⟩ := declaration_taken found
    exact ⟨'!' :: taken, rfl, reads⟩
  next body =>
    obtain ⟨taken, same, some, reads⟩ := piece_taken found
    obtain ⟨first, more, rfl⟩ := List.exists_cons_of_ne_nil some
    obtain ⟨rfl, rfl⟩ := List.cons.inj same
    exact ⟨'?' :: more, rfl, reads⟩
  next notDeclaration notInstruction =>
    obtain ⟨taken, rfl, some, reads⟩ := piece_taken found
    obtain ⟨first, more, rfl⟩ := List.exists_cons_of_ne_nil some
    refine ⟨first :: more, rfl, ?_⟩
    intro other
    rw [List.cons_append, nextMarkup.eq_3]
    · exact reads other
    · intro body same
      exact notDeclaration (more ++ rest) (by rw [(List.cons.inj same).1]; rfl)
    · intro body same
      exact notInstruction (more ++ rest) (by rw [(List.cons.inj same).1]; rfl)

/-! ### The markup that a text begins with -/

inductive Yields : List Char → List Markup → List Char → Prop
  | done (text : List Char) : Yields text [] text
  | next {gap body after rest : List Char} {markup : Markup} {later : List Markup}
      (plain : '<' ∉ gap) (found : nextMarkup body = .ok (markup, after))
      (yields : Yields after later rest) : Yields (gap ++ '<' :: body) (markup :: later) rest

namespace Yields

variable {text rest other : List Char} {markup first second : List Markup}

theorem opened {body after : List Char} {piece : Markup}
    (found : nextMarkup body = .ok (piece, after)) (yields : Yields after markup rest) :
    Yields ('<' :: body) (piece :: markup) rest := by
  rw [← List.nil_append ('<' :: body)]
  exact .next List.not_mem_nil found yields

/-- The same markup is found in front of any other text. -/
theorem taken (yields : Yields text markup rest) :
    ∃ taken, text = taken ++ rest ∧ ∀ other, Yields (taken ++ other) markup other := by
  induction yields with
  | done text => exact ⟨[], rfl, Yields.done⟩
  | @next gap body after rest markup later plain found _ ih =>
      obtain ⟨piece, rfl, reads⟩ := nextMarkup_taken found
      obtain ⟨taken, rfl, goesOn⟩ := ih
      refine ⟨gap ++ '<' :: (piece ++ taken), by simp, ?_⟩
      intro other
      have whole := Yields.next plain (reads (taken ++ other)) (goesOn other)
      rwa [← List.append_assoc piece, ← List.cons_append, ← List.append_assoc] at whole

theorem append (yields : Yields text markup rest) (more : List Char) :
    Yields (text ++ more) markup (rest ++ more) := by
  obtain ⟨taken, rfl, reads⟩ := yields.taken
  rw [List.append_assoc]
  exact reads (rest ++ more)

theorem markups (yields : Yields text markup rest) :
    Xml.markups text = Feed.prepend markup (Xml.markups rest) := by
  induction yields with
  | done text => rfl
  | next plain found _ ih => rw [markups_gap plain, markups_item found, ih, Feed.prepend_cons]

theorem exists_of_markups {feed : Feed Markup MarkupFault}
    (read : Xml.markups text = Feed.prepend markup feed) :
    ∃ rest, Yields text markup rest ∧ Xml.markups rest = feed := by
  induction markup generalizing text with
  | nil => exact ⟨text, .done text, read⟩
  | cons piece later ih =>
      rw [Feed.prepend_cons] at read
      have parted : text.takeWhile (· ≠ '<') ++ text.dropWhile (· ≠ '<') = text :=
        List.takeWhile_append_dropWhile
      have plain : '<' ∉ text.takeWhile (· ≠ '<') := by
        intro member
        simpa using List.mem_takeWhile_imp member
      cases opened : text.dropWhile (· ≠ '<') with
      | nil =>
          rw [markups_unopened opened] at read
          cases read
      | cons bracket body =>
          have isBracket : bracket = '<' := by
            have stops := List.head?_dropWhile_not (fun char => decide (char ≠ '<')) text
            rw [opened] at stops
            simpa using stops
          rw [markups_opened opened] at read
          split at read
          next => cases read
          next found =>
            simp only [Feed.item.injEq] at read
            obtain ⟨rfl, remaining⟩ := read
            obtain ⟨rest, yields, same⟩ := ih remaining
            subst isBracket
            rw [opened] at parted
            exact ⟨rest, parted ▸ .next plain found yields, same⟩

/-- What a text begins with is found in one order only. -/
theorem compare (yields : Yields text first rest) (also : Yields text second other) :
    (∃ more, second = first ++ more ∧ Yields rest more other) ∨
      ∃ more, first = second ++ more ∧ Yields other more rest := by
  induction yields generalizing second with
  | done text => exact .inl ⟨second, rfl, also⟩
  | @next gap body after rest markup later plain found yields ih =>
      generalize whole : gap ++ '<' :: body = text at also
      cases also with
      | done =>
          subst whole
          exact .inr ⟨markup :: later, rfl, .next plain found yields⟩
      | @next gapToo bodyToo afterToo _ markupToo laterToo plainToo foundToo yieldsToo =>
          have gaps : gap = gapToo ∧ '<' :: body = '<' :: bodyToo := by
            have stops : decide ('<' ≠ '<') = false := by decide
            have left : ∀ char ∈ gap, decide (char ≠ '<') = true := by
              intro char member
              exact decide_eq_true fun same => plain (same ▸ member)
            have right : ∀ char ∈ gapToo, decide (char ≠ '<') = true := by
              intro char member
              exact decide_eq_true fun same => plainToo (same ▸ member)
            constructor
            · rw [← takeWhile_stop left stops body, whole, takeWhile_stop right stops]
            · rw [← dropWhile_stop left stops body, whole, dropWhile_stop right stops]
          obtain ⟨rfl, bodies⟩ := gaps
          cases bodies
          cases found.symm.trans foundToo
          rcases ih yieldsToo with ⟨more, rfl, later⟩ | ⟨more, rfl, later⟩
          · exact .inl ⟨more, rfl, later⟩
          · exact .inr ⟨more, rfl, later⟩

end Yields

/-! ### Tags that nest and match -/

inductive Nested (fits : List String → Tag → Prop) : List String → List Markup → Prop
  | done {openNames : List String} : Nested fits openNames []
  | other {openNames : List String} {markup : List Markup} (later : Nested fits openNames markup) :
      Nested fits openNames (.other :: markup)
  | empty {openNames : List String} {tag : Tag} {markup : List Markup} (fit : fits openNames tag)
      (later : Nested fits openNames markup) : Nested fits openNames (.empty tag :: markup)
  | around {openNames : List String} {tag : Tag} {inner markup : List Markup}
      (fit : fits openNames tag) (inside : Nested fits (tag.name :: openNames) inner)
      (later : Nested fits openNames markup) :
      Nested fits openNames (.start tag :: inner ++ .close tag.name :: markup)

inductive Rooted (fits : List String → Tag → Prop) : List Markup → Prop
  | other {markup : List Markup} (later : Rooted fits markup) : Rooted fits (.other :: markup)
  | empty {tag : Tag} (fit : fits [] tag) : Rooted fits [.empty tag]
  | around {tag : Tag} {inner : List Markup} (fit : fits [] tag)
      (inside : Nested fits [tag.name] inner) :
      Rooted fits (.start tag :: inner ++ [.close tag.name])

def closesAll : List String → List Markup → Bool
  | [], markup => markup.isEmpty
  | _ :: _, [] => false
  | name :: outer, .other :: later => closesAll (name :: outer) later
  | name :: outer, .empty _ :: later => closesAll (name :: outer) later
  | name :: outer, .start tag :: later => closesAll (tag.name :: name :: outer) later
  | name :: outer, .close found :: later => found = name && closesAll outer later

section

variable {fits fitsToo : List String → Tag → Prop} {openNames : List String}
  {first second more : List Markup}

theorem Nested.mono (weaker : ∀ openNames tag, fits openNames tag → fitsToo openNames tag)
    (nested : Nested fits openNames first) : Nested fitsToo openNames first := by
  induction nested with
  | done => exact .done
  | other _ ih => exact .other ih
  | empty fit _ ih => exact .empty (weaker _ _ fit) ih
  | around fit _ _ ihInside ih => exact .around (weaker _ _ fit) ihInside ih

theorem Rooted.mono (weaker : ∀ openNames tag, fits openNames tag → fitsToo openNames tag)
    (rooted : Rooted fits first) : Rooted fitsToo first := by
  induction rooted with
  | other _ ih => exact .other ih
  | empty fit => exact .empty (weaker _ _ fit)
  | around fit inside => exact .around (weaker _ _ fit) (inside.mono weaker)

theorem eq_nil_of_closesAll (closes : closesAll openNames first = true)
    (goesOn : closesAll openNames (first ++ more) = true) : more = [] := by
  fun_induction closesAll openNames first with
  | case1 markup =>
      rw [List.isEmpty_iff] at closes
      simpa [closes, closesAll] using goesOn
  | case2 => cases closes
  | case3 name outer later ih => exact ih closes goesOn
  | case4 name outer tag later ih => exact ih closes goesOn
  | case5 name outer tag later ih => exact ih closes goesOn
  | case6 name outer found later ih =>
      rw [Bool.and_eq_true] at closes
      rw [List.cons_append, closesAll, Bool.and_eq_true] at goesOn
      exact ih closes.2 goesOn.2

theorem Nested.closesAll (nested : Nested fits openNames first) (opened : openNames ≠ [])
    (rest : List Markup) : closesAll openNames (first ++ rest) = closesAll openNames rest := by
  induction nested generalizing rest with
  | done => rfl
  | @other openNames markup _ ih =>
      obtain ⟨name, outer, rfl⟩ := List.exists_cons_of_ne_nil opened
      exact ih opened rest
  | @empty openNames tag markup _ _ ih =>
      obtain ⟨name, outer, rfl⟩ := List.exists_cons_of_ne_nil opened
      exact ih opened rest
  | @around openNames tag inner markup _ _ _ ihInside ih =>
      obtain ⟨name, outer, rfl⟩ := List.exists_cons_of_ne_nil opened
      have inside := ihInside (List.cons_ne_nil _ _) (.close tag.name :: (markup ++ rest))
      rw [List.cons_append, List.cons_append, List.append_assoc, List.cons_append,
        Xml.closesAll, inside, Xml.closesAll, ih opened]
      simp

theorem Rooted.eq_nil_of_append (rooted : Rooted fits first)
    (goesOn : Rooted fitsToo (first ++ more)) : more = [] := by
  induction rooted with
  | other _ ih =>
      cases goesOn with
      | other later => exact ih later
  | empty =>
      cases goesOn with
      | empty => rfl
  | @around tag inner _ inside =>
      generalize whole : Markup.start tag :: inner ++ [.close tag.name] ++ more = markup at goesOn
      cases goesOn with
      | other => cases whole
      | empty => cases whole
      | @around tagToo innerToo _ insideToo =>
          simp only [List.cons_append, List.append_assoc, List.cons.injEq, Markup.start.injEq]
            at whole
          obtain ⟨rfl, same⟩ := whole
          have ends : Xml.closesAll [tag.name] [.close tag.name] = true := by
            simp [Xml.closesAll]
          have closes := (inside.closesAll (List.cons_ne_nil _ _) [.close tag.name]).trans ends
          have closesToo :=
            (insideToo.closesAll (List.cons_ne_nil _ _) [.close tag.name]).trans ends
          rw [← same] at closesToo
          apply eq_nil_of_closesAll closes
          rw [List.append_assoc]
          exact closesToo

/-- The first element of a text ends at one place. -/
theorem Rooted.unique {text rest other : List Char} (rooted : Rooted fits first)
    (yields : Yields text first rest) (rootedToo : Rooted fitsToo second)
    (yieldsToo : Yields text second other) : first = second ∧ rest = other := by
  rcases yields.compare yieldsToo with ⟨more, rfl, later⟩ | ⟨more, rfl, later⟩
  · cases rooted.eq_nil_of_append rootedToo
    cases later
    exact ⟨(List.append_nil first).symm, rfl⟩
  · cases rootedToo.eq_nil_of_append rooted
    cases later
    exact ⟨List.append_nil second, rfl⟩

end

end RiskRules.Xml
