import RiskRules.Proofs.Json.Numeral

/-!
How each token of JSON may be written, said without the reader. A text that spells tokens is read
as these tokens, and a text that is read without a fault spells what is read.
-/

namespace RiskRules.Json

def IsHex (char : Char) (value : Nat) : Prop :=
  value < 16 ∧ (char = Nat.digitChar value ∨ char = (Nat.digitChar value).toUpper)

def shortEscapes : List (Char × Char) :=
  [('"', '"'), ('\\', '\\'), ('/', '/'), ('b', '\x08'), ('f', '\x0c'), ('n', '\n'), ('r', '\r'),
    ('t', '\t')]

inductive Piece.Spells : Piece → List Char → Prop
  | plain {char : Char} (printable : 0x20 ≤ char.toNat) (notQuote : char ≠ '"')
      (notSlash : char ≠ '\\') : Spells (.char char) [char]
  | short {letter char : Char} (listed : (letter, char) ∈ shortEscapes) :
      Spells (.char char) ['\\', letter]
  | code {code : Nat} {first second third fourth : Char} (isFirst : IsHex first (code / 0x1000))
      (isSecond : IsHex second (code / 0x100 % 16)) (isThird : IsHex third (code / 16 % 16))
      (isFourth : IsHex fourth (code % 16)) :
      Spells (.unit code) ['\\', 'u', first, second, third, fourth]

inductive SpellPieces : List Piece → List Char → Prop
  | nil : SpellPieces [] []
  | cons {piece : Piece} {pieces : List Piece} {part chars : List Char}
      (first : piece.Spells part) (rest : SpellPieces pieces chars) :
      SpellPieces (piece :: pieces) (part ++ chars)

def fixedWords : List (List Char × Token) :=
  [(['['], .openArray), ([']'], .closeArray), (['\x7b'], .openObject), (['\x7d'], .closeObject),
    ([','], .comma), ([':'], .colon), (['n', 'u', 'l', 'l'], .null),
    (['t', 'r', 'u', 'e'], .bool true), (['f', 'a', 'l', 's', 'e'], .bool false)]

inductive Token.Spells : Token → List Char → Prop
  | fixed {word : List Char} {token : Token} (listed : (word, token) ∈ fixedWords) :
      Spells token word
  | number {numeral : Numeral} {size : List Char} (spells : numeral.SpellsSize size) :
      Spells (.number numeral) ((if numeral.negative then ['-'] else []) ++ size)
  | string {pieces : List Piece} {chars : List Char} (spells : SpellPieces pieces chars) :
      Spells (.string ⟨pieces, none⟩) ('"' :: chars ++ ['"'])

inductive Spelled : List Token → List Char → Prop
  | nil {blanks : List Char} (blank : ∀ char ∈ blanks, isSpace char = true) : Spelled [] blanks
  | cons {token : Token} {tokens : List Token} {blanks word chars : List Char}
      (blank : ∀ char ∈ blanks, isSpace char = true) (first : token.Spells word)
      (rest : Spelled tokens chars) : Spelled (token :: tokens) (blanks ++ (word ++ chars))

/-! ### Strings -/

theorem hexValue?_of_isHex {char : Char} {value : Nat} (hex : IsHex char value) :
    Text.hexValue? char = some value := by
  obtain ⟨small, lower | upper⟩ := hex
  · have all : ∀ value < 16, Text.hexValue? (Nat.digitChar value) = some value := by decide
    rw [lower, all value small]
  · have all : ∀ value < 16, Text.hexValue? (Nat.digitChar value).toUpper = some value := by decide
    rw [upper, all value small]

theorem isHex_of_hexValue? {char : Char} {value : Nat} (read : Text.hexValue? char = some value) :
    IsHex char value := by
  have all : ∀ code ≤ 'f'.toNat, ∀ value ∈ Text.hexValue? (Char.ofNat code),
      value < 16 ∧ (Char.ofNat code = Nat.digitChar value ∨
        Char.ofNat code = (Nat.digitChar value).toUpper) := by decide +kernel
  have small : char.toNat ≤ 'f'.toNat := by
    refine Nat.not_lt.mp fun large => ?_
    have above : ∀ last ≤ 'f', ¬char ≤ last := by
      intro last below atMost
      rw [Char.le_def, UInt32.le_iff_toNat_le] at below atMost
      exact Nat.not_lt.mpr (Nat.le_trans atMost below) large
    have notDigit := above '9' (by decide)
    have notLower := above 'f' (by decide)
    have notUpper := above 'F' (by decide)
    simp [Text.hexValue?, notDigit, notLower, notUpper] at read
  rw [← Char.ofNat_toNat char] at read ⊢
  exact all char.toNat small value read

theorem hexUnit?_of_isHex {code : Nat} {first second third fourth : Char}
    (isFirst : IsHex first (code / 0x1000)) (isSecond : IsHex second (code / 0x100 % 16))
    (isThird : IsHex third (code / 16 % 16)) (isFourth : IsHex fourth (code % 16)) :
    hexUnit? first second third fourth = some code := by
  simp only [hexUnit?, hexValue?_of_isHex isFirst, hexValue?_of_isHex isSecond,
    hexValue?_of_isHex isThird, hexValue?_of_isHex isFourth, Option.bind_eq_bind, Option.bind_some,
    Option.pure_def, Option.some.injEq]
  omega

theorem spells_of_hexUnit? {code : Nat} {first second third fourth : Char}
    (read : hexUnit? first second third fourth = some code) :
    (Piece.unit code).Spells ['\\', 'u', first, second, third, fourth] := by
  simp only [hexUnit?, Option.bind_eq_bind, Option.bind_eq_some_iff, Option.pure_def,
    Option.some.injEq] at read
  obtain ⟨a, readFirst, b, readSecond, c, readThird, d, readFourth, sum⟩ := read
  have isFirst := isHex_of_hexValue? readFirst
  have isSecond := isHex_of_hexValue? readSecond
  have isThird := isHex_of_hexValue? readThird
  have isFourth := isHex_of_hexValue? readFourth
  have below : a < 16 ∧ b < 16 ∧ c < 16 ∧ d < 16 :=
    ⟨isFirst.1, isSecond.1, isThird.1, isFourth.1⟩
  have digits : code / 0x1000 = a ∧ code / 0x100 % 16 = b ∧ code / 16 % 16 = c ∧ code % 16 = d := by
    omega
  obtain ⟨rfl, rfl, rfl, rfl⟩ := digits
  exact .code isFirst isSecond isThird isFourth

theorem simpleEscape?_eq_some {letter char : Char} :
    simpleEscape? letter = some char ↔ (letter, char) ∈ shortEscapes := by
  simp only [shortEscapes, List.mem_cons, Prod.mk.injEq, List.not_mem_nil, or_false]
  unfold simpleEscape?
  constructor
  · intro read
    split at read
    next direct =>
      cases read
      rcases direct with rfl | rfl | rfl <;> simp
    repeat' split at read
    all_goals simp_all
    all_goals exact read.symm
  · rintro (⟨rfl, rfl⟩ | ⟨rfl, rfl⟩ | ⟨rfl, rfl⟩ | ⟨rfl, rfl⟩ | ⟨rfl, rfl⟩ | ⟨rfl, rfl⟩ |
      ⟨rfl, rfl⟩ | ⟨rfl, rfl⟩) <;> rfl

theorem readString_of_spells {piece : Piece} {part : List Char} (spells : piece.Spells part)
    (pieces : List Piece) (rest : List Char) :
    readString pieces (part ++ rest) = readString (piece :: pieces) rest := by
  cases spells with
  | @plain char printable notQuote notSlash =>
      have notControl : ¬char.toNat < 0x20 := by omega
      rw [List.singleton_append, readString, if_neg notControl]
      all_goals simp [notQuote, notSlash]
  | @short letter char listed =>
      have found := simpleEscape?_eq_some.mpr listed
      have notCode : letter ≠ 'u' := by
        rintro rfl
        cases found
      simp only [List.cons_append, List.nil_append]
      rw [readString, found]
      all_goals simp [notCode]
  | code isFirst isSecond isThird isFourth =>
      simp [readString, hexUnit?_of_isHex isFirst isSecond isThird isFourth]

theorem readString_of_spellPieces {more : List Piece} {chars : List Char}
    (spells : SpellPieces more chars) (pieces : List Piece) (rest : List Char) :
    readString pieces (chars ++ '"' :: rest) = (⟨pieces.reverse ++ more, none⟩, rest) := by
  induction spells generalizing pieces with
  | nil => simp [readString]
  | cons first _ ih =>
      rw [List.append_assoc, readString_of_spells first, ih]
      simp

theorem exists_cons_spells {piece : Piece} {pieces : List Piece} {part rest : List Char}
    {result : Literal × List Char} (first : piece.Spells part)
    (read : ∃ more after, result.1 = ⟨(piece :: pieces).reverse ++ more, none⟩ ∧
      rest = after ++ '"' :: result.2 ∧ SpellPieces more after) :
    ∃ more after, result.1 = ⟨pieces.reverse ++ more, none⟩ ∧
      part ++ rest = after ++ '"' :: result.2 ∧ SpellPieces more after := by
  obtain ⟨more, after, same, split, spells⟩ := read
  refine ⟨piece :: more, part ++ after, by simp [same], ?_, .cons first spells⟩
  rw [List.append_assoc, ← split]

/-- A string that ends with its closing quote was spelled as it is read. -/
theorem spellPieces_of_readString {pieces : List Piece} {chars : List Char}
    (ended : (readString pieces chars).1.fault = none) :
    ∃ more part, (readString pieces chars).1 = ⟨pieces.reverse ++ more, none⟩ ∧
      chars = part ++ '"' :: (readString pieces chars).2 ∧ SpellPieces more part := by
  fun_induction readString pieces chars with
  | case2 pieces rest => exact ⟨[], [], by simp, rfl, .nil⟩
  | case3 pieces first second third fourth rest code found ih =>
      exact exists_cons_spells (spells_of_hexUnit? found) (ih ended)
  | case6 pieces char rest _ notCode escaped found ih =>
      exact exists_cons_spells (.short (simpleEscape?_eq_some.mp found)) (ih ended)
  | case10 pieces char rest notQuote _ _ notLetter notLast printable ih =>
      have notSlash : char ≠ '\\' := by
        rintro rfl
        cases rest with
        | nil => exact notLast rfl rfl
        | cons letter rest => exact notLetter letter rest rfl rfl
      exact exists_cons_spells (.plain (Nat.not_lt.mp printable) notQuote notSlash) (ih ended)
  | _ => cases ended

/-! ### Words and whole texts -/

theorem tokens_of_space {char : Char} (space : isSpace char = true) (rest : List Char) :
    tokens (char :: rest) = tokens rest := by
  rw [tokens, if_pos space]

theorem tokens_spaces {spaces : List Char} (blank : ∀ char ∈ spaces, isSpace char = true)
    (rest : List Char) : tokens (spaces ++ rest) = tokens rest := by
  induction spaces with
  | nil => rfl
  | cons char spaces ih =>
      rw [List.cons_append, tokens_of_space (blank char (by simp)), ih]
      exact fun other member => blank other (List.mem_cons_of_mem char member)

theorem tokens_of_punctuation {char : Char} {token : Token}
    (found : punctuation? char = some token) (rest : List Char) :
    tokens (char :: rest) = token :: tokens rest := by
  have notSpace : ¬isSpace char = true := by
    intro space
    simp only [isSpace, Bool.or_eq_true, decide_eq_true_eq] at space
    rcases space with ((rfl | rfl) | rfl) | rfl <;> simp [punctuation?] at found
  rw [tokens, if_neg notSpace, readToken, found]

@[simp]
theorem tokens_comma (rest : List Char) : tokens (',' :: rest) = .comma :: tokens rest :=
  tokens_of_punctuation rfl rest

@[simp]
theorem tokens_colon (rest : List Char) : tokens (':' :: rest) = .colon :: tokens rest :=
  tokens_of_punctuation rfl rest

@[simp]
theorem tokens_openArray (rest : List Char) : tokens ('[' :: rest) = .openArray :: tokens rest :=
  tokens_of_punctuation rfl rest

@[simp]
theorem tokens_closeArray (rest : List Char) : tokens (']' :: rest) = .closeArray :: tokens rest :=
  tokens_of_punctuation rfl rest

@[simp]
theorem tokens_openObject (rest : List Char) :
    tokens ('\x7b' :: rest) = .openObject :: tokens rest :=
  tokens_of_punctuation rfl rest

@[simp]
theorem tokens_closeObject (rest : List Char) :
    tokens ('\x7d' :: rest) = .closeObject :: tokens rest :=
  tokens_of_punctuation rfl rest

theorem tokens_of_fixed {word : List Char} {token : Token} (listed : (word, token) ∈ fixedWords)
    (rest : List Char) : tokens (word ++ rest) = token :: tokens rest := by
  simp only [fixedWords, List.mem_cons, Prod.mk.injEq, List.not_mem_nil, or_false] at listed
  rcases listed with ⟨rfl, rfl⟩ | ⟨rfl, rfl⟩ | ⟨rfl, rfl⟩ | ⟨rfl, rfl⟩ | ⟨rfl, rfl⟩ | ⟨rfl, rfl⟩ |
    ⟨rfl, rfl⟩ | ⟨rfl, rfl⟩ | ⟨rfl, rfl⟩
  · exact tokens_openArray rest
  · exact tokens_closeArray rest
  · exact tokens_openObject rest
  · exact tokens_closeObject rest
  · exact tokens_comma rest
  · exact tokens_colon rest
  all_goals simp [tokens, isSpace, readToken, punctuation?, readWord]

theorem isSpace_of_digit {char : Char} (digit : char.isDigit = true) : ¬isSpace char = true := by
  have different := fun other => @ne_of_isDigit char other digit
  simp [isSpace, different]

theorem readToken_of_digit {char : Char} (digit : char.isDigit = true) (rest : List Char) :
    readToken char rest = numberToken false (char :: rest) := by
  have different := fun other => @ne_of_isDigit char other digit
  simp [readToken, punctuation?, different, digit]

theorem tokens_of_number {numeral : Numeral} {size : List Char} (spells : numeral.SpellsSize size)
    {rest : List Char} (ends : Delimits rest) :
    tokens ((if numeral.negative then ['-'] else []) ++ (size ++ rest)) =
      .number numeral :: tokens rest := by
  have read := readNumeral_of_spells spells ends
  cases negative : numeral.negative with
  | true =>
      rw [negative] at read
      simp [tokens, isSpace, readToken, punctuation?, numberToken, read]
  | false =>
      rw [negative] at read
      obtain ⟨first, others, rfl, digit⟩ := spells.starts
      rw [List.cons_append] at read
      simp only [Bool.false_eq_true, if_false, List.nil_append, List.cons_append]
      rw [tokens, if_neg (isSpace_of_digit digit), readToken_of_digit digit]
      simp [numberToken, read]

theorem tokens_of_string {pieces : List Piece} {chars : List Char}
    (spells : SpellPieces pieces chars) (rest : List Char) :
    tokens ('"' :: (chars ++ '"' :: rest)) = .string ⟨pieces, none⟩ :: tokens rest := by
  have read := readString_of_spellPieces spells [] rest
  simp [tokens, isSpace, readToken, punctuation?, read]

def Token.IsNumber : Token → Prop
  | .number _ => True
  | _ => False

theorem tokens_of_spells {token : Token} {word : List Char} (spells : token.Spells word)
    {rest : List Char} (ends : token.IsNumber → Delimits rest) :
    tokens (word ++ rest) = token :: tokens rest := by
  cases spells with
  | fixed listed => exact tokens_of_fixed listed rest
  | number spells =>
      rw [List.append_assoc]
      exact tokens_of_number spells (ends trivial)
  | string spells => simpa using tokens_of_string spells rest

def StartsOtherwise (tokens : List Token) : Prop :=
  ∀ token ∈ tokens.head?, ¬token.IsNumber

def Apart : List Token → Prop
  | [] => True
  | token :: rest => (token.IsNumber → StartsOtherwise rest) ∧ Apart rest

theorem delimits_of_blank {char : Char} (blank : isSpace char = true) (rest : List Char) :
    Delimits (char :: rest) := by
  simp only [isSpace, Bool.or_eq_true, decide_eq_true_eq] at blank
  rcases blank with ((rfl | rfl) | rfl) | rfl <;> exact delimits_cons rest (by decide)

theorem delimits_of_punctuation {char : Char} {token : Token}
    (found : punctuation? char = some token) (rest : List Char) : Delimits (char :: rest) := by
  apply delimits_cons
  refine ⟨?_, ?_, ?_, ?_⟩
  · by_cases digit : char.isDigit = true
    · have different := fun other => @ne_of_isDigit char other digit
      simp [punctuation?, different] at found
    · simpa using digit
  all_goals
    rintro rfl
    simp [punctuation?] at found

theorem delimits_of_fixed {word : List Char} {token : Token} (listed : (word, token) ∈ fixedWords)
    (rest : List Char) : Delimits (word ++ rest) := by
  have all : ∀ entry ∈ fixedWords, ∃ first after, entry.1 = first :: after ∧
      first.isDigit = false ∧ first ≠ '.' ∧ first ≠ 'e' ∧ first ≠ 'E' := by
    simp [fixedWords]
  obtain ⟨first, after, shape, ends⟩ := all _ listed
  obtain rfl : word = first :: after := shape
  exact delimits_cons _ ends

theorem delimits_of_spelled {tokens : List Token} {chars : List Char}
    (spelled : Spelled tokens chars) (different : StartsOtherwise tokens) : Delimits chars := by
  cases spelled with
  | nil blank =>
      cases chars with
      | nil => exact delimits_nil
      | cons char blanks => exact delimits_of_blank (blank char List.mem_cons_self) blanks
  | @cons token _ blanks word after blank first _ =>
      cases blanks with
      | cons char blanks => exact delimits_of_blank (blank char List.mem_cons_self) _
      | nil =>
          cases first with
          | fixed listed => exact delimits_of_fixed listed after
          | number => exact absurd trivial (different _ rfl)
          | string => exact delimits_cons _ (by decide)

theorem tokens_of_spelled {words : List Token} {chars : List Char} (spelled : Spelled words chars)
    (apart : Apart words) : tokens chars = words := by
  induction spelled with
  | nil blank => simpa [tokens] using tokens_spaces blank []
  | cons blank first rest ih =>
      obtain ⟨different, apart⟩ := apart
      have ends := fun isNumber => delimits_of_spelled rest (different isNumber)
      rw [tokens_spaces blank, tokens_of_spells first ends, ih apart]

/-! ### What is read was spelled so -/

def Token.IsSound : Token → Prop
  | .fault _ => False
  | .string literal => literal.fault = none
  | _ => True

theorem append_of_readWord {token found : Token} {letters chars after : List Char}
    (read : readWord token letters chars = (found, after)) (sound : found.IsSound) :
    found = token ∧ chars = letters ++ after := by
  fun_induction readWord token letters chars with
  | case1 =>
      cases read
      exact ⟨rfl, rfl⟩
  | case3 letters letter rest ih =>
      obtain ⟨same, split⟩ := ih read
      exact ⟨same, by rw [split, List.cons_append]⟩
  | _ =>
      cases read
      exact sound.elim

theorem spells_of_readWord {char : Char} {token found : Token} {letters chars after : List Char}
    (listed : (char :: letters, token) ∈ fixedWords)
    (read : readWord token letters chars = (found, after)) (sound : found.IsSound) :
    ∃ word, found.Spells word ∧ char :: chars = word ++ after := by
  obtain ⟨rfl, rfl⟩ := append_of_readWord read sound
  exact ⟨_, .fixed listed, rfl⟩

theorem spells_of_numberToken {negative : Bool} {chars after : List Char} {token : Token}
    (read : numberToken negative chars = (token, after)) (sound : token.IsSound) :
    ∃ word, token.Spells word ∧ (if negative then ['-'] else []) ++ chars = word ++ after := by
  unfold numberToken at read
  split at read
  next numeral rest found =>
    cases read
    obtain ⟨rfl, size, spells, rfl⟩ := spells_of_readNumeral found
    exact ⟨_, .number spells, by rw [List.append_assoc]⟩
  next =>
    cases read
    exact sound.elim

theorem mem_fixedWords_of_punctuation? {char : Char} {token : Token}
    (found : punctuation? char = some token) : ([char], token) ∈ fixedWords := by
  unfold punctuation? at found
  repeat' split at found
  all_goals cases found
  all_goals subst_vars
  all_goals simp [fixedWords]

theorem spells_of_readToken {char : Char} {rest after : List Char} {token : Token}
    (read : readToken char rest = (token, after)) (sound : token.IsSound) :
    ∃ word, token.Spells word ∧ char :: rest = word ++ after := by
  unfold readToken at read
  split at read
  next mark found =>
    cases read
    exact ⟨[char], .fixed (mem_fixedWords_of_punctuation? found), rfl⟩
  split at read
  next quote =>
    cases read
    obtain ⟨pieces, part, same, split, spells⟩ := spellPieces_of_readString sound
    rw [same, List.reverse_nil, List.nil_append]
    exact ⟨_, .string spells, by simpa [quote] using split⟩
  split at read
  next letter => exact spells_of_readWord (letter ▸ by simp [fixedWords]) read sound
  split at read
  next letter => exact spells_of_readWord (letter ▸ by simp [fixedWords]) read sound
  split at read
  next letter => exact spells_of_readWord (letter ▸ by simp [fixedWords]) read sound
  split at read
  next minus => exact minus ▸ spells_of_numberToken read sound
  split at read
  · exact spells_of_numberToken read sound
  · cases read
    exact sound.elim

theorem Spelled.blank {words : List Token} {chars : List Char} (spelled : Spelled words chars)
    {char : Char} (blank : isSpace char = true) : Spelled words (char :: chars) := by
  cases spelled with
  | nil blanks => exact .nil (List.forall_mem_cons.mpr ⟨blank, blanks⟩)
  | cons blanks first rest => exact .cons (List.forall_mem_cons.mpr ⟨blank, blanks⟩) first rest

theorem spelled_tokens {chars : List Char} (sound : ∀ token ∈ tokens chars, token.IsSound) :
    Spelled (tokens chars) chars := by
  fun_induction tokens chars with
  | case1 => exact .nil fun _ member => absurd member List.not_mem_nil
  | case2 char rest blank ih => exact (ih sound).blank blank
  | case3 char rest notBlank ih =>
      obtain ⟨first, others⟩ := List.forall_mem_cons.mp sound
      obtain ⟨word, spells, split⟩ := spells_of_readToken rfl first
      rw [split]
      exact @Spelled.cons _ _ [] _ _ (by simp) spells (ih others)

end RiskRules.Json
