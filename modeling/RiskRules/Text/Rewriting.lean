/-!
Texts rewritten in one scan from left to right. Every occurrence of a text can be replaced. Places
can be removed from a message, such as ` at line 3 column 14`; it is then the same wherever in a
text the same thing is wrong.
-/

namespace RiskRules.Text

/-! ### Occurrences -/

/-- Scans `chars`; `skip` characters of an occurrence already replaced are still to be passed
over. Gives the new text and how many occurrences were replaced. An empty `old` occurs before
every character and at the end. -/
def replaceFrom (old new : List Char) (skip : Nat) (done : List Char) (count : Nat) :
    List Char → List Char × Nat
  | [] =>
      if old.isEmpty then ((new.reverse ++ done).reverse, count + 1) else (done.reverse, count)
  | char :: rest =>
      match skip with
      | skip + 1 => replaceFrom old new skip done count rest
      | 0 =>
          if old.isEmpty then
            replaceFrom old new 0 (char :: (new.reverse ++ done)) (count + 1) rest
          else if old.isPrefixOf (char :: rest) then
            replaceFrom old new (old.length - 1) (new.reverse ++ done) (count + 1) rest
          else replaceFrom old new 0 (char :: done) count rest

def replaceAll (text old new : String) : String × Nat :=
  let (chars, count) := replaceFrom old.toList new.toList 0 [] 0 text.toList
  (String.ofList chars, count)

/-! ### Places -/

def afterWord? (word : String) (chars : List Char) : Option (List Char) :=
  if word.toList.isPrefixOf chars then some (chars.drop word.length) else none

def afterDigits? : List Char → Option (List Char)
  | [] => none
  | char :: rest => if char.isDigit then some (rest.dropWhile Char.isDigit) else none

def afterPlace? (chars : List Char) : Option (List Char) := do
  let line ← afterWord? " at line " chars
  let column ← afterWord? " column " (← afterDigits? line)
  afterDigits? column

theorem afterWord?_length {word : String} {chars rest : List Char}
    (found : afterWord? word chars = some rest) : rest.length ≤ chars.length := by
  simp only [afterWord?, Option.ite_none_right_eq_some, Option.some.injEq] at found
  obtain ⟨_, rfl⟩ := found
  simp

theorem afterDigits?_length {chars rest : List Char} (found : afterDigits? chars = some rest) :
    rest.length < chars.length := by
  cases chars with
  | nil => cases found
  | cons char more =>
      simp only [afterDigits?, Option.ite_none_right_eq_some, Option.some.injEq] at found
      obtain ⟨_, rfl⟩ := found
      exact Nat.lt_succ_of_le (more.dropWhile_sublist _).length_le

theorem afterPlace?_length {chars rest : List Char} (found : afterPlace? chars = some rest) :
    rest.length < chars.length := by
  simp only [afterPlace?, Option.bind_eq_bind, Option.bind_eq_some_iff] at found
  obtain ⟨line, atLine, middle, digits, column, atColumn, last⟩ := found
  have := afterWord?_length atLine
  have := afterDigits?_length digits
  have := afterWord?_length atColumn
  have := afterDigits?_length last
  omega

/-- Scans `chars` once from left to right; `done` holds what is kept so far, last first. -/
def removePlaces (done : List Char) : List Char → List Char
  | [] => done.reverse
  | char :: rest =>
      match _found : afterPlace? (char :: rest) with
      | some after => removePlaces done after
      | none => removePlaces (char :: done) rest
termination_by chars => chars.length
decreasing_by
  · exact afterPlace?_length _found
  · simp

def withoutPlaces (text : String) : String :=
  String.ofList (removePlaces [] text.toList)

end RiskRules.Text
