import RiskRules.Proofs.Json.Writing

/-!
What a text shows outside its strings. The compact form of a value has visible characters alone
there: whatever white space it has is in strings.
-/

namespace RiskRules.Json

inductive Region
  | outside
  | inString
  | afterBackslash

/-- The characters of a text that stand outside its strings. The quote that opens a string is one
of them, the quote that closes it is not. -/
def outsideStrings : Region → List Char → List Char
  | _, [] => []
  | .outside, char :: rest =>
      char :: outsideStrings (if char = '"' then .inString else .outside) rest
  | .inString, char :: rest =>
      outsideStrings
        (if char = '"' then .outside else if char = '\\' then .afterBackslash else .inString) rest
  | .afterBackslash, _ :: rest => outsideStrings .inString rest

def IsVisible (char : Char) : Prop :=
  0x20 < char.toNat ∧ char.toNat < 0x7F

instance (char : Char) : Decidable (IsVisible char) :=
  inferInstanceAs (Decidable (_ ∧ _))

def IsTight (chars : List Char) : Prop :=
  ∃ shown, (∀ char ∈ shown, IsVisible char) ∧
    ∀ rest, outsideStrings .outside (chars ++ rest) = shown ++ outsideStrings .outside rest

theorem isTight_nil : IsTight [] :=
  ⟨[], fun _ member => absurd member List.not_mem_nil, fun _ => rfl⟩

theorem IsTight.append {first second : List Char} (left : IsTight first) (right : IsTight second) :
    IsTight (first ++ second) := by
  obtain ⟨shown, visible, scanned⟩ := left
  obtain ⟨others, othersVisible, scannedOthers⟩ := right
  refine ⟨shown ++ others, ?_, ?_⟩
  · intro char member
    exact (List.mem_append.mp member).elim (visible char) (othersVisible char)
  · intro rest
    rw [List.append_assoc, scanned, scannedOthers, List.append_assoc]

theorem IsTight.cons {char : Char} {chars : List Char} (tight : IsTight chars)
    (visible : IsVisible char) (notQuote : char ≠ '"') : IsTight (char :: chars) := by
  obtain ⟨shown, allVisible, scanned⟩ := tight
  refine ⟨char :: shown, List.forall_mem_cons.mpr ⟨visible, allVisible⟩, ?_⟩
  intro rest
  rw [List.cons_append, outsideStrings, if_neg notQuote, scanned, List.cons_append]

theorem IsTight.concat {char : Char} {chars : List Char} (tight : IsTight chars)
    (visible : IsVisible char) (notQuote : char ≠ '"') : IsTight (chars ++ [char]) :=
  tight.append (isTight_nil.cons visible notQuote)

theorem IsTight.visible {chars : List Char} (tight : IsTight chars) :
    ∀ char ∈ outsideStrings .outside chars, IsVisible char := by
  obtain ⟨shown, visible, scanned⟩ := tight
  have whole := scanned []
  simp only [List.append_nil, outsideStrings] at whole
  rwa [whole]

/-! ### Strings -/

theorem outsideStrings_plain {char : Char} (notQuote : char ≠ '"') (notBackslash : char ≠ '\\')
    (rest : List Char) :
    outsideStrings .inString (char :: rest) = outsideStrings .inString rest := by
  rw [outsideStrings, if_neg notQuote, if_neg notBackslash]

theorem hexDigit_plain {digit : Nat} (small : digit < 16) :
    Text.hexDigit digit ≠ '"' ∧ Text.hexDigit digit ≠ '\\' := by
  have all : ∀ digit < 16, Text.hexDigit digit ≠ '"' ∧ Text.hexDigit digit ≠ '\\' := by decide
  exact all digit small

theorem outsideStrings_escapeControl {char : Char} (control : char.toNat < 0x20)
    (rest : List Char) :
    outsideStrings .inString (escapeControl char ++ rest) = outsideStrings .inString rest := by
  have high := hexDigit_plain (show char.toNat / 16 < 16 by omega)
  have low := hexDigit_plain (Nat.mod_lt char.toNat (by decide : 16 > 0))
  calc outsideStrings .inString (escapeControl char ++ rest)
      _ = outsideStrings .inString
            (Text.hexDigit (char.toNat / 16) :: Text.hexDigit (char.toNat % 16) :: rest) := rfl
      _ = outsideStrings .inString rest := by
            rw [outsideStrings_plain high.1 high.2, outsideStrings_plain low.1 low.2]

theorem outsideStrings_escapeChar (char : Char) (rest : List Char) :
    outsideStrings .inString (escapeChar char ++ rest) = outsideStrings .inString rest := by
  unfold escapeChar
  split
  · rfl
  next notQuote =>
    split
    · rfl
    next notBackslash =>
      iterate 5
        split
        · rfl
      split
      next control => exact outsideStrings_escapeControl control rest
      next => exact outsideStrings_plain notQuote notBackslash rest

theorem outsideStrings_escaped (chars rest : List Char) :
    outsideStrings .inString (chars.flatMap escapeChar ++ '"' :: rest) =
      outsideStrings .outside rest := by
  induction chars with
  | nil => rfl
  | cons char chars ih =>
      rw [List.flatMap_cons, List.append_assoc, outsideStrings_escapeChar, ih]

theorem isTight_stringText (text : String) : IsTight (stringText text) := by
  refine ⟨['"'], List.forall_mem_singleton.mpr (by simp [IsVisible]), ?_⟩
  intro rest
  have scanned := outsideStrings_escaped text.toList rest
  simp only [stringText, List.cons_append, List.append_assoc, List.nil_append, outsideStrings,
    if_true, scanned]

/-! ### Values -/

theorem isTight_of_visible {chars : List Char}
    (visible : ∀ char ∈ chars, IsVisible char ∧ char ≠ '"') : IsTight chars := by
  induction chars with
  | nil => exact isTight_nil
  | cons char chars ih =>
      obtain ⟨own, others⟩ := List.forall_mem_cons.mp visible
      exact (ih others).cons own.1 own.2

theorem isTight_boolText (value : Bool) : IsTight (boolText value) := by
  apply isTight_of_visible
  cases value <;> simp [boolText, IsVisible]

theorem isTight_digits (number : Nat) : IsTight (Nat.toDigits 10 number) := by
  apply isTight_of_visible
  intro digit member
  have isDigit := isDigit_of_mem_toDigits number digit member
  have bounds := toNat_of_isDigit isDigit
  exact ⟨⟨by omega, by omega⟩, ne_of_isDigit isDigit rfl⟩

theorem Number.IsExact.isTight {value : Number} (exact : value.IsExact) : IsTight value.text := by
  cases value with
  | integer value =>
      have digits := isTight_digits value.natAbs
      rw [Number.text]
      split
      · exact digits.cons (by decide) (by decide)
      · exact digits
  | float bits => exact exact.elim

mutual

theorem isTight_compactChars (value : Value) (exact : value.IsExact) :
    IsTight value.compactChars := by
  match value, exact with
  | .null, _ => exact isTight_of_visible (by simp [Value.compactChars, IsVisible])
  | .bool value, _ => exact isTight_boolText value
  | .number value, exact => exact Number.IsExact.isTight exact
  | .string text, _ => exact isTight_stringText text
  | .array items, exact =>
      have inside := isTight_compactItems items exact
      exact (inside.concat (by decide) (by decide)).cons (by decide) (by decide)
  | .object members, exact =>
      have inside := isTight_compactMembers members exact
      exact (inside.concat (by decide) (by decide)).cons (by decide) (by decide)

theorem isTight_compactItems (items : List Value) (exact : itemsExact items) :
    IsTight (Value.compactItems items) := by
  match items, exact with
  | [], _ => exact isTight_nil
  | [item], ⟨itemExact, _⟩ => exact isTight_compactChars item itemExact
  | item :: next :: others, ⟨itemExact, othersExact⟩ =>
      have rest := isTight_compactItems (next :: others) othersExact
      exact (isTight_compactChars item itemExact).append (rest.cons (by decide) (by decide))

theorem isTight_compactMembers (members : List (String × Value)) (exact : membersExact members) :
    IsTight (Value.compactMembers members) := by
  match members, exact with
  | [], _ => exact isTight_nil
  | [(key, value)], ⟨valueExact, _⟩ =>
      have own : IsTight (':' :: value.compactChars) :=
        (isTight_compactChars value valueExact).cons (by decide) (by decide)
      exact (isTight_stringText key).append own
  | (key, value) :: next :: others, ⟨valueExact, othersExact⟩ =>
      have rest := isTight_compactMembers (next :: others) othersExact
      have own : IsTight (':' :: value.compactChars) :=
        (isTight_compactChars value valueExact).cons (by decide) (by decide)
      exact ((isTight_stringText key).append own).append (rest.cons (by decide) (by decide))

end

end RiskRules.Json
