import RiskRules.Json.Printer
import RiskRules.Proofs.Json.Lexicon
import RiskRules.Proofs.Json.Respelling

/-!
Written strings, words and integers spell what they are written for, so they are read as it,
whatever text follows; after an integer only text that cannot go on with it may follow.
-/

namespace RiskRules.Json

def Piece.ofChar (char : Char) : Piece :=
  if char.toNat < 0x20 ∧ char ∉ ['\x08', '\x0c', '\n', '\r', '\t'] then .unit char.toNat
  else .char char

theorem isHex_hexDigit {digit : Nat} (small : digit < 16) : IsHex (Text.hexDigit digit) digit :=
  ⟨small, .inl rfl⟩

theorem spells_escapeChar (char : Char) : (Piece.ofChar char).Spells (escapeChar char) := by
  by_cases short : char ∈ ['"', '\\', '\x08', '\x0c', '\n', '\r', '\t']
  · simp only [List.mem_cons, List.not_mem_nil, or_false] at short
    rcases short with rfl | rfl | rfl | rfl | rfl | rfl | rfl <;>
      exact .short (by simp [shortEscapes])
  · simp only [List.mem_cons, List.not_mem_nil, or_false, not_or] at short
    obtain ⟨notQuote, notSlash, others⟩ := short
    by_cases control : char.toNat < 0x20
    · have code : Piece.ofChar char = .unit char.toNat := by simp [Piece.ofChar, control, others]
      have written : escapeChar char = escapeControl char := by
        simp [escapeChar, notQuote, notSlash, others, control]
      have zero : IsHex '0' 0 := ⟨by decide, .inl rfl⟩
      rw [code, written, escapeControl]
      exact .code (by simpa [show char.toNat / 0x1000 = 0 by omega] using zero)
        (by simpa [show char.toNat / 0x100 = 0 by omega] using zero)
        (by simpa [show char.toNat / 16 % 16 = char.toNat / 16 by omega] using
          isHex_hexDigit (show char.toNat / 16 < 16 by omega))
        (isHex_hexDigit (by omega))
    · have plain : Piece.ofChar char = .char char := by simp [Piece.ofChar, control]
      have written : escapeChar char = [char] := by
        simp [escapeChar, notQuote, notSlash, others, control]
      rw [plain, written]
      exact .plain (Nat.not_lt.mp control) notQuote notSlash

theorem spellPieces_escaped (chars : List Char) :
    SpellPieces (chars.map Piece.ofChar) (chars.flatMap escapeChar) := by
  induction chars with
  | nil => exact .nil
  | cons char chars ih => exact .cons (spells_escapeChar char) ih

def Literal.ofText (text : String) : Literal :=
  ⟨text.toList.map Piece.ofChar, none⟩

theorem unitsOfPiece_ofChar (char : Char) : unitsOfPiece (.ofChar char) = unitsOfChar char := by
  by_cases control : char.toNat < 0x20 ∧ char ∉ ['\x08', '\x0c', '\n', '\r', '\t']
  · have small : char.toNat < 0x10000 := by omega
    rw [Piece.ofChar, if_pos control, unitsOfPiece, unitsOfChar, if_pos small]
  · rw [Piece.ofChar, if_neg control, unitsOfPiece]

theorem charsOfUnits_ofChars (chars : List Char) :
    charsOfUnits ((chars.map Piece.ofChar).flatMap unitsOfPiece) = some chars := by
  induction chars with
  | nil => rfl
  | cons char chars ih =>
      rw [List.map_cons, List.flatMap_cons, unitsOfPiece_ofChar, charsOfUnits_char, ih]
      rfl

theorem Literal.text_ofText (text : String) : (ofText text).text = .ok text := by
  have units := charsOfUnits_ofChars text.toList
  rw [Literal.text_eq_ok rfl, Literal.units, ofText, units, Option.map_some, String.ofList_toList]

theorem tokens_stringText (text : String) (rest : List Char) :
    tokens (stringText text ++ rest) = .string (.ofText text) :: tokens rest := by
  have read := tokens_of_string (spellPieces_escaped text.toList) rest
  simpa [stringText, Literal.ofText] using read

theorem tokens_boolText (value : Bool) (rest : List Char) :
    tokens (boolText value ++ rest) = .bool value :: tokens rest := by
  cases value <;> exact tokens_of_fixed (by simp [boolText, fixedWords]) rest

theorem tokens_null (rest : List Char) :
    tokens (['n', 'u', 'l', 'l'] ++ rest) = .null :: tokens rest :=
  tokens_of_fixed (by simp [fixedWords]) rest

/-! ### Integers -/

def digitsOfNat (number : Nat) : List Nat :=
  (Nat.toDigits 10 number).map digitValue

theorem digitsOfNat_of_lt {number : Nat} (small : number < 10) : digitsOfNat number = [number] := by
  rw [digitsOfNat, Nat.toDigits_of_lt_base small, List.map_singleton, digitValue]
  exact congrArg (· :: []) (Nat.toNat_digitChar_sub_48_of_lt_ten small)

theorem digitsOfNat_of_le {number : Nat} (large : 10 ≤ number) :
    digitsOfNat number = digitsOfNat (number / 10) ++ [number % 10] := by
  have last : digitValue (Nat.digitChar (number % 10)) = number % 10 :=
    Nat.toNat_digitChar_sub_48_of_lt_ten (Nat.mod_lt _ (by decide))
  rw [digitsOfNat, Nat.toDigits_of_base_le (by decide) large, List.map_append, List.map_singleton,
    last]
  rfl

theorem foldl_digitsOfNat (number : Nat) :
    (digitsOfNat number).foldl (fun total digit => total * 10 + digit) 0 = number := by
  induction number using Nat.strongRecOn with
  | ind number ih =>
      by_cases small : number < 10
      · simp [digitsOfNat_of_lt small]
      · rw [digitsOfNat_of_le (by omega), List.foldl_append, ih (number / 10) (by omega)]
        simp only [List.foldl_cons, List.foldl_nil]
        omega

theorem digitsOfNat_head {number : Nat} (positive : 0 < number) :
    ∃ first rest, digitsOfNat number = first :: rest ∧ first ≠ 0 := by
  induction number using Nat.strongRecOn with
  | ind number ih =>
      by_cases small : number < 10
      · exact ⟨number, [], digitsOfNat_of_lt small, by omega⟩
      · obtain ⟨first, rest, shape, nonzero⟩ := ih (number / 10) (by omega) (by omega)
        exact ⟨first, rest ++ [number % 10], by rw [digitsOfNat_of_le (by omega), shape]; rfl,
          nonzero⟩

def Numeral.ofInt (value : Int) : Numeral :=
  ⟨decide (value < 0), digitsOfNat value.natAbs, [], none⟩

theorem isDigit_of_mem_toDigits (number : Nat) :
    ∀ char ∈ Nat.toDigits 10 number, char.isDigit = true :=
  fun _ member => Nat.isDigit_of_mem_toDigits (by decide) (by decide) member

theorem spellsSize_ofInt (value : Int) :
    (Numeral.ofInt value).SpellsSize (Nat.toDigits 10 value.natAbs) := by
  have spells : (Numeral.ofInt value).SpellsSize
      (digitText (digitsOfNat value.natAbs) ++ (fractionText [] ++ [])) := by
    refine .intro ?_ (areDigits_map (isDigit_of_mem_toDigits _)) ?_ (by simp [AreDigits]) .absent
    · simp [digitsOfNat, Nat.toDigits_ne_nil]
    · intro leading
      by_cases zero : value.natAbs = 0
      · rw [zero]
        exact digitsOfNat_of_lt (by decide)
      · obtain ⟨first, rest, shape, nonzero⟩ := digitsOfNat_head (Nat.pos_of_ne_zero zero)
        simp [shape, nonzero] at leading
  have text : digitText (digitsOfNat value.natAbs) = Nat.toDigits 10 value.natAbs :=
    digitText_map (isDigit_of_mem_toDigits value.natAbs)
  simpa [text, fractionText] using spells

theorem tokens_integer (value : Int) {rest : List Char} (ends : Delimits rest) :
    tokens ((Number.integer value).text ++ rest) = .number (.ofInt value) :: tokens rest := by
  have read := tokens_of_number (spellsSize_ofInt value) ends
  simpa [Number.text, Numeral.ofInt] using read

end RiskRules.Json
