import RiskRules.Json.Number
import RiskRules.Text.Bytes

/-!
The tokens of a JSON text. The list ends with the text, or at the first place where no token can
be read; what is wrong there is the last token.
-/

namespace RiskRules.Json

inductive Piece
  | char (char : Char)
  | unit (code : Nat)
  deriving DecidableEq, Repr

inductive StringFault
  | endOfText
  | controlChar
  | unknownEscape
  | badDigits
  deriving DecidableEq, Repr

structure Literal where
  pieces : List Piece
  fault : Option StringFault
  deriving DecidableEq, Repr

inductive ValueFault
  | endOfText
  | misspelled
  | wordCutShort
  | badNumber
  | numberCutShort
  | noValue
  deriving DecidableEq, Repr

inductive Token
  | openArray
  | closeArray
  | openObject
  | closeObject
  | comma
  | colon
  | null
  | bool (value : Bool)
  | number (numeral : Numeral)
  | string (literal : Literal)
  | fault (fault : ValueFault)
  deriving DecidableEq, Repr

def isSpace (char : Char) : Bool :=
  char = ' ' || char = '\n' || char = '\t' || char = '\r'

def simpleEscape? (char : Char) : Option Char :=
  if char = '"' ∨ char = '\\' ∨ char = '/' then some char
  else if char = 'b' then some '\x08'
  else if char = 'f' then some '\x0c'
  else if char = 'n' then some '\n'
  else if char = 'r' then some '\r'
  else if char = 't' then some '\t'
  else none

def hexUnit? (first second third fourth : Char) : Option Nat := do
  let first ← Text.hexValue? first
  let second ← Text.hexValue? second
  let third ← Text.hexValue? third
  let fourth ← Text.hexValue? fourth
  return ((first * 16 + second) * 16 + third) * 16 + fourth

/-- Four digits are missing only when fewer than four bytes are left of the whole text. -/
def digitsFault (chars : List Char) : StringFault :=
  if chars.foldr (fun char size => char.utf8Size + size) 0 < 4 then .endOfText else .badDigits

def readString (pieces : List Piece) : List Char → Literal × List Char
  | [] => (⟨pieces.reverse, some .endOfText⟩, [])
  | '"' :: rest => (⟨pieces.reverse, none⟩, rest)
  | '\\' :: 'u' :: first :: second :: third :: fourth :: rest =>
      match hexUnit? first second third fourth with
      | some code => readString (.unit code :: pieces) rest
      | none => (⟨pieces.reverse, some .badDigits⟩, [])
  | '\\' :: 'u' :: rest => (⟨pieces.reverse, some (digitsFault rest)⟩, [])
  | '\\' :: char :: rest =>
      match simpleEscape? char with
      | some escaped => readString (.char escaped :: pieces) rest
      | none => (⟨pieces.reverse, some .unknownEscape⟩, [])
  | '\\' :: [] => (⟨pieces.reverse, some .endOfText⟩, [])
  | char :: rest =>
      if char.toNat < 0x20 then (⟨pieces.reverse, some .controlChar⟩, [])
      else readString (.char char :: pieces) rest

def readWord (token : Token) : List Char → List Char → Token × List Char
  | [], chars => (token, chars)
  | _ :: _, [] => (.fault .wordCutShort, [])
  | letter :: letters, char :: rest =>
      if letter = char then readWord token letters rest else (.fault .misspelled, [])

def digitValue (char : Char) : Nat :=
  char.toNat - '0'.toNat

def digitsOf (chars : List Char) : List Nat :=
  (chars.takeWhile Char.isDigit).map digitValue

def afterDigits (chars : List Char) : List Char :=
  chars.dropWhile Char.isDigit

def missingDigit (chars : List Char) : ValueFault :=
  if chars.isEmpty then .numberCutShort else .badNumber

def readSign : List Char → Bool × List Char
  | '-' :: rest => (true, rest)
  | '+' :: rest => (false, rest)
  | chars => (false, chars)

def readExponent (chars : List Char) : Except ValueFault (Option (Bool × List Nat) × List Char) :=
  match chars with
  | [] => .ok (none, [])
  | mark :: rest =>
      if mark = 'e' ∨ mark = 'E' then
        let (negative, unsigned) := readSign rest
        if (digitsOf unsigned).isEmpty then .error (missingDigit unsigned)
        else .ok (some (negative, digitsOf unsigned), afterDigits unsigned)
      else .ok (none, chars)

def readFraction (chars : List Char) : Except ValueFault (List Nat × List Char) :=
  match chars with
  | [] => .ok ([], [])
  | mark :: rest =>
      if mark = '.' then
        if (digitsOf rest).isEmpty then .error (missingDigit rest)
        else .ok (digitsOf rest, afterDigits rest)
      else .ok ([], chars)

def readWhole (chars : List Char) : Except ValueFault (List Nat × List Char) :=
  match digitsOf chars with
  | [] => .error (missingDigit chars)
  | 0 :: _ :: _ => .error .badNumber
  | digits => .ok (digits, afterDigits chars)

def readNumeral (negative : Bool) (chars : List Char) :
    Except ValueFault (Numeral × List Char) := do
  let (whole, rest) ← readWhole chars
  let (fraction, rest) ← readFraction rest
  let (exponent, rest) ← readExponent rest
  return (⟨negative, whole, fraction, exponent⟩, rest)

def numberToken (negative : Bool) (chars : List Char) : Token × List Char :=
  match readNumeral negative chars with
  | .ok (numeral, rest) => (.number numeral, rest)
  | .error fault => (.fault fault, [])

def punctuation? (char : Char) : Option Token :=
  if char = '[' then some .openArray
  else if char = ']' then some .closeArray
  else if char = '\x7b' then some .openObject
  else if char = '\x7d' then some .closeObject
  else if char = ',' then some .comma
  else if char = ':' then some .colon
  else none

def readToken (char : Char) (rest : List Char) : Token × List Char :=
  match punctuation? char with
  | some token => (token, rest)
  | none =>
      if char = '"' then (.string (readString [] rest).1, (readString [] rest).2)
      else if char = 'n' then readWord .null ['u', 'l', 'l'] rest
      else if char = 't' then readWord (.bool true) ['r', 'u', 'e'] rest
      else if char = 'f' then readWord (.bool false) ['a', 'l', 's', 'e'] rest
      else if char = '-' then numberToken true rest
      else if char.isDigit then numberToken false (char :: rest)
      else (.fault .noValue, [])

theorem readString_length (pieces : List Piece) (chars : List Char) :
    (readString pieces chars).2.length ≤ chars.length := by
  fun_induction readString pieces chars <;> simp_all <;> omega

theorem readWord_length (token : Token) (letters chars : List Char) :
    (readWord token letters chars).2.length ≤ chars.length := by
  fun_induction readWord token letters chars with
  | case1 chars => exact Nat.le_refl _
  | case2 => exact Nat.zero_le _
  | case3 letters letter rest ih => exact Nat.le_succ_of_le ih
  | case4 => exact Nat.zero_le _

theorem afterDigits_length (chars : List Char) : (afterDigits chars).length ≤ chars.length :=
  (List.dropWhile_sublist _).length_le

theorem readSign_length (chars : List Char) : (readSign chars).2.length ≤ chars.length := by
  unfold readSign
  split <;> simp

theorem readExponent_length {chars rest : List Char} {exponent : Option (Bool × List Nat)}
    (read : readExponent chars = .ok (exponent, rest)) : rest.length ≤ chars.length := by
  unfold readExponent at read
  split at read
  · simp_all
  next mark after =>
    have unsigned := readSign_length after
    have digits := afterDigits_length (readSign after).2
    split at read
    · dsimp only at read
      split at read
      · simp at read
      · simp at read
        obtain ⟨_, rfl⟩ := read
        simp
        omega
    · simp_all

theorem readFraction_length {chars rest : List Char} {fraction : List Nat}
    (read : readFraction chars = .ok (fraction, rest)) : rest.length ≤ chars.length := by
  unfold readFraction at read
  split at read
  · simp_all
  next mark after =>
    have plain := afterDigits_length after
    split at read
    · split at read
      · simp at read
      · obtain ⟨_, rfl⟩ : _ ∧ afterDigits after = rest := by simpa using read
        exact Nat.le_succ_of_le plain
    · simp_all

theorem readWhole_length {chars rest : List Char} {whole : List Nat}
    (read : readWhole chars = .ok (whole, rest)) : rest.length < chars.length := by
  cases chars with
  | nil => simp [readWhole, digitsOf] at read
  | cons char after =>
      have plain := afterDigits_length after
      by_cases digit : char.isDigit
      · have passed : afterDigits (char :: after) = afterDigits after := by
          simp [afterDigits, digit]
        unfold readWhole at read
        split at read
        · simp at read
        · simp at read
        · obtain ⟨_, rfl⟩ : _ ∧ afterDigits (char :: after) = rest := by simpa using read
          rw [passed]
          exact Nat.lt_succ_of_le plain
      · simp [readWhole, digitsOf, digit] at read

theorem numberToken_length (negative : Bool) (chars : List Char) (nonempty : chars ≠ []) :
    (numberToken negative chars).2.length < chars.length := by
  unfold numberToken
  split
  next numeral rest read =>
    simp only [readNumeral, bind, Except.bind, pure, Except.pure] at read
    split at read
    · simp at read
    next whole wholeRead =>
      split at read
      · simp at read
      next fraction fractionRead =>
        split at read
        · simp at read
        next exponent exponentRead =>
          have first := readWhole_length wholeRead
          have second := readFraction_length fractionRead
          have third := readExponent_length exponentRead
          simp at read
          obtain ⟨_, rfl⟩ := read
          simp
          omega
  · simpa using List.length_pos_iff.mpr nonempty

theorem readToken_length (char : Char) (rest : List Char) :
    (readToken char rest).2.length ≤ rest.length := by
  have string := readString_length [] rest
  have word := fun token letters => readWord_length token letters rest
  have unsigned := numberToken_length false (char :: rest) (by simp)
  have signed : (numberToken true rest).2.length ≤ rest.length := by
    cases rest with
    | nil => decide
    | cons first after => exact Nat.le_of_lt (numberToken_length true _ (by simp))
  unfold readToken
  split
  · exact Nat.le_refl _
  · split
    · exact string
    split
    · exact word _ _
    split
    · exact word _ _
    split
    · exact word _ _
    split
    · exact signed
    split
    · exact Nat.le_of_lt_succ unsigned
    · exact Nat.zero_le _

def tokens : List Char → List Token
  | [] => []
  | char :: rest =>
      if isSpace char then tokens rest
      else (readToken char rest).1 :: tokens (readToken char rest).2
termination_by chars => chars.length
decreasing_by
  · simp
  · have := readToken_length char rest
    simp
    omega

end RiskRules.Json
