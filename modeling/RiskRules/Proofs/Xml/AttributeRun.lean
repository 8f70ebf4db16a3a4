import Mathlib.Data.List.TakeWhile
import RiskRules.Xml.Attribute

/-!
How an attribute is written, whatever attributes stand before it and wherever the tag begins. Both
matter to the reader of a tag only in that no name may be given twice.
-/

namespace RiskRules.Xml

/-! ### Runs of characters -/

theorem dropWhile_stop {keep : Char → Bool} {before : List Char}
    (kept : ∀ char ∈ before, keep char = true) {stop : Char} (stops : keep stop = false)
    (rest : List Char) : (before ++ stop :: rest).dropWhile keep = stop :: rest := by
  rw [List.dropWhile_append_of_pos kept, List.dropWhile_cons_of_neg (by simp [stops])]

theorem takeWhile_stop {keep : Char → Bool} {before : List Char}
    (kept : ∀ char ∈ before, keep char = true) {stop : Char} (stops : keep stop = false)
    (rest : List Char) : (before ++ stop :: rest).takeWhile keep = before := by
  rw [List.takeWhile_append_of_pos kept, List.takeWhile_cons_of_neg (by simp [stops]),
    List.append_nil]

theorem append_eq_append_cons {α : Type} {first second before after : List α} {mark : α}
    (same : first ++ second = before ++ mark :: after) :
    (∃ between, first = before ++ mark :: between) ∨
      ∃ between, before = first ++ between ∧ second = between ++ mark :: after := by
  rcases List.append_eq_append_iff.mp same with ⟨between, rfl, rfl⟩ | ⟨between, rfl, ends⟩
  · exact .inr ⟨between, rfl, rfl⟩
  · cases between with
    | nil => exact .inr ⟨[], by simp, by simpa using ends.symm⟩
    | cons head between =>
        obtain ⟨rfl, _⟩ := List.cons.inj ends
        exact .inl ⟨between, rfl⟩

/-! ### How attributes are written -/

inductive Starts : List Char → Attribute → List Char → Prop
  | intro {lead name gap space value rest : List Char} {first mark : Char}
      (leadBlank : ∀ char ∈ lead, isBlank char = true) (visible : isBlank first = false)
      (named : ∀ char ∈ name, char ≠ '=' ∧ isBlank char = false)
      (gapBlank : ∀ char ∈ gap, isBlank char = true)
      (spaceBlank : ∀ char ∈ space, isBlank char = true)
      (quote : mark = '"' ∨ mark = '\'') (unclosed : mark ∉ value) :
      Starts (lead ++ first :: (name ++ (gap ++ '=' :: (space ++ mark :: (value ++ mark :: rest)))))
        ⟨String.ofList (first :: name), value⟩ rest

inductive Lists : List Char → List Attribute → Prop
  | done {text : List Char} (blank : ∀ char ∈ text, isBlank char = true) : Lists text []
  | next {text rest : List Char} {given : Attribute} {others : List Attribute}
      (starts : Starts text given rest) (later : Lists rest others) : Lists text (given :: others)

def Feed.items {α ε : Type} : Feed α ε → List α
  | .finished => []
  | .broken _ => []
  | .item head rest => head :: rest.items

section

variable {text rest lead : List Char} {given : Attribute}

theorem Starts.append (starts : Starts text given rest) (other : List Char) :
    Starts (text ++ other) given (rest ++ other) := by
  cases starts with
  | @intro lead name gap space value rest first mark leadBlank visible named gapBlank spaceBlank
      quote unclosed =>
      have whole : Starts _ ⟨_, value⟩ (rest ++ other) :=
        .intro leadBlank visible named gapBlank spaceBlank quote unclosed
      simpa using whole

theorem Starts.blank (leadBlank : ∀ char ∈ lead, isBlank char = true)
    (starts : Starts text given rest) : Starts (lead ++ text) given rest := by
  cases starts with
  | intro leadToo visible named gapBlank spaceBlank quote unclosed =>
      rw [← List.append_assoc]
      have blank := List.forall_mem_append.mpr ⟨leadBlank, leadToo⟩
      exact .intro blank visible named gapBlank spaceBlank quote unclosed

theorem Starts.unblank (leadBlank : ∀ char ∈ lead, isBlank char = true)
    (starts : Starts (lead ++ text) given rest) : Starts text given rest := by
  generalize whole : lead ++ text = padded at starts
  cases starts with
  | intro leadToo visible named gapBlank spaceBlank quote unclosed =>
      rcases append_eq_append_cons whole with ⟨between, rfl⟩ | ⟨between, rfl, rfl⟩
      · have blank := leadBlank _ (List.mem_append_right _ List.mem_cons_self)
        rw [visible] at blank
        cases blank
      · have blank := (List.forall_mem_append.mp leadToo).2
        exact .intro blank visible named gapBlank spaceBlank quote unclosed

end

/-! ### The reader of one attribute -/

theorem quotedValue_eq_ok {position : Nat} {text value rest : List Char} :
    quotedValue position text = .ok (value, rest) ↔
      ∃ mark, (mark = '"' ∨ mark = '\'') ∧ mark ∉ value ∧ text = mark :: (value ++ mark :: rest) := by
  constructor
  · intro read
    unfold quotedValue at read
    split at read
    next => cases read
    next mark body =>
      split at read
      next quote =>
        split at read
        next => cases read
        next closing tail closed =>
          cases read
          have stops := List.head?_dropWhile_not (fun char => decide (char ≠ mark)) body
          have parted : body.takeWhile (· ≠ mark) ++ body.dropWhile (· ≠ mark) = body :=
            List.takeWhile_append_dropWhile
          rw [closed] at stops parted
          have same : closing = mark := by simpa using stops
          subst same
          refine ⟨closing, by simpa using quote, ?_, by rw [parted]⟩
          intro member
          simpa using List.mem_takeWhile_imp member
      next => cases read
  · rintro ⟨mark, quote, unclosed, rfl⟩
    have passes : ∀ char ∈ value, decide (char ≠ mark) = true := by
      intro char member
      exact decide_eq_true fun same => unclosed (same ▸ member)
    have stops : decide (mark ≠ mark) = false := by simp
    rw [quotedValue, if_pos (by simpa using quote), dropWhile_stop passes stops,
      takeWhile_stop passes stops]

theorem starts_of_oneAttribute {seen : List (String × Nat)} {position : Nat} {first : Char}
    {more rest : List Char} {given : Attribute} (visible : isBlank first = false)
    (read : oneAttribute seen position first more = .ok (given, rest)) :
    Starts (first :: more) given rest ∧ seen.lookup given.name = none := by
  unfold oneAttribute at read
  simp only at read
  generalize stays : (fun char => decide (char ≠ '=') && !isBlank char) = goesOn at read
  split at read
  next text equals =>
    split at read
    next => cases read
    next fresh =>
      cases quoted : quotedValue _ (text.dropWhile isBlank) with
      | error fault =>
          rw [quoted] at read
          cases read
      | ok result =>
          obtain ⟨value, tail⟩ := result
          rw [quoted] at read
          cases read
          obtain ⟨mark, quote, unclosed, valued⟩ := quotedValue_eq_ok.mp quoted
          have whole : more.takeWhile goesOn ++ ((more.dropWhile goesOn).takeWhile isBlank ++
              '=' :: (text.takeWhile isBlank ++ mark :: (value ++ mark :: tail))) = more := by
            rw [← valued, List.takeWhile_append_dropWhile, ← equals,
              List.takeWhile_append_dropWhile, List.takeWhile_append_dropWhile]
          have named : ∀ char ∈ more.takeWhile goesOn, char ≠ '=' ∧ isBlank char = false := by
            intro char member
            have kept := List.mem_takeWhile_imp member
            rw [← stays] at kept
            simpa using kept
          have gapBlank : ∀ char ∈ (more.dropWhile goesOn).takeWhile isBlank, isBlank char = true :=
            fun _ => List.mem_takeWhile_imp
          have spaceBlank : ∀ char ∈ text.takeWhile isBlank, isBlank char = true :=
            fun _ => List.mem_takeWhile_imp
          have starts : Starts ([] ++ first :: _) ⟨_, value⟩ tail :=
            .intro nofun visible named gapBlank spaceBlank quote unclosed
          rw [List.nil_append, whole] at starts
          exact ⟨starts, fresh⟩
  next => cases read

theorem exists_oneAttribute_of_starts {text rest : List Char} {given : Attribute}
    (starts : Starts text given rest) :
    ∃ first more, text.dropWhile isBlank = first :: more ∧
      ∀ seen position, seen.lookup given.name = none →
        oneAttribute seen position first more = .ok (given, rest) := by
  cases starts with
  | @intro lead name gap space value _ first mark leadBlank visible named gapBlank spaceBlank quote
      unclosed =>
      refine ⟨_, _, dropWhile_stop leadBlank visible _, ?_⟩
      intro seen position fresh
      have passes : ∀ char ∈ name, (decide (char ≠ '=') && !isBlank char) = true := by
        intro char member
        simp [named char member]
      -- A name ends at the first of the blanks before the equals sign, or else at the sign itself.
      have ends : ∃ stop tail, (decide (stop ≠ '=') && !isBlank stop) = false ∧
          gap ++ '=' :: (space ++ mark :: (value ++ mark :: rest)) = stop :: tail := by
        cases gap with
        | nil => exact ⟨_, _, by decide, rfl⟩
        | cons blank gap => exact ⟨blank, _, by simp [gapBlank blank List.mem_cons_self], rfl⟩
      obtain ⟨stop, tail, stops, ended⟩ := ends
      have taken := takeWhile_stop passes stops tail
      have dropped := dropWhile_stop passes stops tail
      have markVisible : isBlank mark = false := by
        rcases quote with rfl | rfl <;> decide
      have quoted : ∀ place, quotedValue place (mark :: (value ++ mark :: rest)) =
          .ok (value, rest) := fun place => quotedValue_eq_ok.mpr ⟨mark, quote, unclosed, rfl⟩
      rw [← ended] at taken dropped
      unfold oneAttribute
      simp only [taken, dropped, dropWhile_stop gapBlank (show isBlank '=' = false by decide),
        dropWhile_stop spaceBlank markVisible, fresh, quoted]
      rfl

theorem Starts.unique {text rest other : List Char} {given found : Attribute}
    (starts : Starts text given rest) (startsToo : Starts text found other) :
    given = found ∧ rest = other := by
  obtain ⟨first, more, begins, reads⟩ := exists_oneAttribute_of_starts starts
  obtain ⟨_, _, beginsToo, readsToo⟩ := exists_oneAttribute_of_starts startsToo
  cases begins.symm.trans beginsToo
  cases (reads [] 0 rfl).symm.trans (readsToo [] 0 rfl)
  exact ⟨rfl, rfl⟩

theorem Starts.not_blank {text rest : List Char} {given : Attribute}
    (starts : Starts text given rest) : ¬∀ char ∈ text, isBlank char = true := by
  obtain ⟨first, more, begins, _⟩ := exists_oneAttribute_of_starts starts
  intro blank
  rw [List.dropWhile_eq_nil_iff.mpr blank] at begins
  cases begins

/-! ### The reader of a list -/

theorem lookup_concat_eq_none {seen : List (String × Nat)} {name other : String} {place : Nat} :
    (seen ++ [(other, place)]).lookup name = none ↔ seen.lookup name = none ∧ name ≠ other := by
  have single : [(other, place)].lookup name = none ↔ name ≠ other := by
    rw [List.lookup_cons]
    cases same : name == other with
    | true => simp [beq_iff_eq.mp same]
    | false => simp [beq_eq_false_iff_ne.mp same]
  rw [List.lookup_append, Option.or_eq_none_iff, single]

section

variable {seen : List (String × Nat)} {position : Nat} {text rest : List Char}
  {given : Attribute} {feed : Feed Attribute AttributeFault}

theorem attributesFrom_blank (blank : ∀ char ∈ text, isBlank char = true) :
    attributesFrom seen position text = .finished := by
  rw [attributesFrom.eq_def]
  split
  next => rfl
  next begun =>
    rw [List.dropWhile_eq_nil_iff.mpr blank] at begun
    cases begun

theorem blank_of_attributesFrom (read : attributesFrom seen position text = .finished) :
    ∀ char ∈ text, isBlank char = true := by
  rw [attributesFrom.eq_def] at read
  split at read
  next none => exact List.dropWhile_eq_nil_iff.mp none
  next =>
    simp only at read
    split at read
    next => cases read
    next => cases read

theorem exists_attributesFrom_of_starts (starts : Starts text given rest)
    (fresh : seen.lookup given.name = none) (position : Nat) :
    ∃ start next, attributesFrom seen position text =
      .item given (attributesFrom (seen ++ [(given.name, start)]) next rest) := by
  obtain ⟨first, more, begins, reads⟩ := exists_oneAttribute_of_starts starts
  rw [attributesFrom.eq_def]
  split
  next none => cases begins.symm.trans none
  next same =>
    cases begins.symm.trans same
    simp only
    split
    next refused => cases (reads seen _ fresh).symm.trans refused
    next found =>
      cases (reads seen _ fresh).symm.trans found
      exact ⟨_, _, rfl⟩

theorem starts_of_attributesFrom (read : attributesFrom seen position text = .item given feed) :
    ∃ rest start next, Starts text given rest ∧ seen.lookup given.name = none ∧
      feed = attributesFrom (seen ++ [(given.name, start)]) next rest := by
  rw [attributesFrom.eq_def] at read
  split at read
  next => cases read
  next first more begun =>
    simp only at read
    split at read
    next => cases read
    next found =>
      cases read
      have visible : isBlank first = false := by
        have stops := List.head?_dropWhile_not isBlank text
        rw [begun] at stops
        simpa using stops
      obtain ⟨starts, fresh⟩ := starts_of_oneAttribute visible found
      have leadBlank : ∀ char ∈ text.takeWhile isBlank, isBlank char = true :=
        fun _ => List.mem_takeWhile_imp
      have whole := starts.blank leadBlank
      rw [← begun, List.takeWhile_append_dropWhile] at whole
      exact ⟨_, _, _, whole, fresh, rfl⟩

end

end RiskRules.Xml
