import RiskRules.Text.Bytes
import RiskRules.Text.Quoted

/-!
Quoted texts read back. A reader goes through a message once and gathers what stands between
quotation marks, escapes undone. Of a text that has been quoted it gathers this text, and of a list
that has been quoted the texts of the list in their order, whatever follows.
-/

namespace RiskRules.Text

/-! ### The reader -/

def quotedLetters : List (Char × Char) :=
  [('"', '"'), ('\\', '\\'), ('\x00', '0'), ('\t', 't'), ('\n', 'n'), ('\r', 'r')]

def charOfLetter (letter : Char) : Char :=
  ((quotedLetters.find? (·.2 = letter)).map (·.1)).getD letter

/-- Where the reader is; `done` holds the characters of the quotation so far, last first. -/
inductive QuotePlace
  | outside
  | inside (done : List Char)
  | afterSlash (done : List Char)
  | beforeBrace (done : List Char)
  | inBraces (done : List Char) (code : Nat)

def quotationsFrom : QuotePlace → List Char → List String
  | _, [] => []
  | .outside, char :: rest =>
      if char = '"' then quotationsFrom (.inside []) rest else quotationsFrom .outside rest
  | .inside done, char :: rest =>
      if char = '"' then String.ofList done.reverse :: quotationsFrom .outside rest
      else if char = '\\' then quotationsFrom (.afterSlash done) rest
      else quotationsFrom (.inside (char :: done)) rest
  | .afterSlash done, char :: rest =>
      if char = 'u' then quotationsFrom (.beforeBrace done) rest
      else quotationsFrom (.inside (charOfLetter char :: done)) rest
  | .beforeBrace done, _ :: rest => quotationsFrom (.inBraces done 0) rest
  | .inBraces done code, char :: rest =>
      if char = '\x7d' then quotationsFrom (.inside (Char.ofNat code :: done)) rest
      else quotationsFrom (.inBraces done (code * 16 + (hexValue? char).getD 0)) rest

def quotations (message : String) : List String :=
  quotationsFrom .outside message.toList

/-! ### Code points -/

theorem hexValue?_digitChar : ∀ digit < 16, hexValue? (Nat.digitChar digit) = some digit := by
  decide

theorem foldl_hexDigits (number : Nat) :
    (Nat.toDigits 16 number).foldl (fun total char => total * 16 + (hexValue? char).getD 0) 0 =
      number := by
  induction number using Nat.strongRecOn with
  | ind number ih =>
      by_cases small : number < 16
      · simp [Nat.toDigits_of_lt_base small, hexValue?_digitChar number small]
      · have last := hexValue?_digitChar (number % 16) (by omega)
        rw [Nat.toDigits_of_base_le (by decide) (by omega), List.foldl_append,
          ih (number / 16) (by omega), List.foldl_cons, List.foldl_nil, last, Option.getD_some]
        omega

theorem brace_notMem_hexDigits (number : Nat) : '\x7d' ∉ Nat.toDigits 16 number := by
  induction number using Nat.strongRecOn with
  | ind number ih =>
      have other : ∀ digit < 16, '\x7d' ≠ Nat.digitChar digit := by decide
      by_cases small : number < 16
      · rw [Nat.toDigits_of_lt_base small, List.mem_singleton]
        exact other number small
      · rw [Nat.toDigits_of_base_le (by decide) (by omega), List.mem_append, List.mem_singleton]
        rintro (high | low)
        · exact ih (number / 16) (by omega) high
        · exact other (number % 16) (by omega) low

theorem quotationsFrom_inBraces {digits : List Char} (inner : '\x7d' ∉ digits) (done : List Char)
    (code : Nat) (rest : List Char) :
    quotationsFrom (.inBraces done code) (digits ++ rest) =
      quotationsFrom (.inBraces done
        (digits.foldl (fun total char => total * 16 + (hexValue? char).getD 0) code)) rest := by
  induction digits generalizing code with
  | nil => rfl
  | cons digit digits ih =>
      obtain ⟨notBrace, others⟩ := List.ne_and_not_mem_of_not_mem_cons inner
      rw [List.cons_append, quotationsFrom, if_neg (Ne.symm notBrace), ih others, List.foldl_cons]

/-! ### Characters -/

inductive Shows (char : Char) : List Char → Prop
  | plain (notQuote : char ≠ '"') (notSlash : char ≠ '\\') : Shows char [char]
  | letter {letter : Char} (listed : (char, letter) ∈ quotedLetters) : Shows char ['\\', letter]
  | code : Shows char ('\\' :: 'u' :: '\x7b' :: (codePoint char ++ ['\x7d']))

theorem shows_escapeInside (char : Char) : Shows char (escapeInside '"' char) := by
  rw [escapeInside]
  split
  next marked => rcases marked with rfl | rfl <;> exact .letter (by simp [quotedLetters])
  next unmarked =>
    obtain ⟨notQuote, notSlash⟩ := not_or.mp unmarked
    split
    next zero => exact zero ▸ .letter (by simp [quotedLetters])
    split
    next tab => exact tab ▸ .letter (by simp [quotedLetters])
    split
    next line => exact line ▸ .letter (by simp [quotedLetters])
    split
    next carriage => exact carriage ▸ .letter (by simp [quotedLetters])
    split
    next hidden => exact .code
    next visible => exact .plain notQuote notSlash

theorem quotationsFrom_shown {char : Char} {shown : List Char} (shows : Shows char shown)
    (done rest : List Char) :
    quotationsFrom (.inside done) (shown ++ rest) =
      quotationsFrom (.inside (char :: done)) rest := by
  cases shows with
  | plain notQuote notSlash => simp [quotationsFrom, notQuote, notSlash]
  | @letter letter listed =>
      have read : ∀ pair ∈ quotedLetters, pair.2 ≠ 'u' ∧ charOfLetter pair.2 = pair.1 := by
        decide
      obtain ⟨notCode, undone⟩ := read _ listed
      simp [quotationsFrom, notCode, undone]
  | code =>
      have braced := quotationsFrom_inBraces (brace_notMem_hexDigits char.toNat) done 0
        ('\x7d' :: rest)
      rw [foldl_hexDigits] at braced
      simp [quotationsFrom, codePoint, braced]

/-! ### Texts -/

theorem quotationsFrom_escaped (chars done rest : List Char) :
    quotationsFrom (.inside done) (chars.flatMap (escapeInside '"') ++ '"' :: rest) =
      String.ofList (done.reverse ++ chars) :: quotationsFrom .outside rest := by
  induction chars generalizing done with
  | nil => simp [quotationsFrom]
  | cons char chars ih =>
      rw [List.flatMap_cons, List.append_assoc, quotationsFrom_shown (shows_escapeInside char), ih,
        List.reverse_cons, List.append_assoc, List.singleton_append]

theorem quotationsFrom_quoted (text : String) (rest : List Char) :
    quotationsFrom .outside ((quoted text).toList ++ rest) =
      text :: quotationsFrom .outside rest := by
  have escaped := quotationsFrom_escaped text.toList [] rest
  rw [List.reverse_nil, List.nil_append, String.ofList_toList] at escaped
  simp [quoted, quotationsFrom, escaped]

theorem quotationsFrom_plain {plain : List Char} (bare : '"' ∉ plain) (rest : List Char) :
    quotationsFrom .outside (plain ++ rest) = quotationsFrom .outside rest := by
  induction plain with
  | nil => rfl
  | cons char plain ih =>
      obtain ⟨notQuote, others⟩ := List.ne_and_not_mem_of_not_mem_cons bare
      rw [List.cons_append, quotationsFrom, if_neg (Ne.symm notQuote), ih others]

/-! ### Lists -/

theorem quotationsFrom_intercalate (texts : List String) (rest : List Char) :
    quotationsFrom .outside ((", ".intercalate (texts.map quoted)).toList ++ rest) =
      texts ++ quotationsFrom .outside rest := by
  match texts with
  | [] => simp
  | [text] => simpa using quotationsFrom_quoted text rest
  | text :: next :: others =>
      have comma : '"' ∉ ", ".toList := by decide
      have following := quotationsFrom_intercalate (next :: others) rest
      rw [List.map_cons] at following
      rw [List.map_cons, List.map_cons, String.intercalate_cons_cons, String.toList_append,
        String.toList_append, List.append_assoc, List.append_assoc, quotationsFrom_quoted,
        quotationsFrom_plain comma, following]
      rfl

/-- A list that has been quoted is read back, whatever follows it. -/
theorem quotationsFrom_quotedList (texts : List String) (rest : List Char) :
    quotationsFrom .outside ((quotedList texts).toList ++ rest) =
      texts ++ quotationsFrom .outside rest := by
  have opening : '"' ∉ "[".toList := by decide
  have closing : '"' ∉ "]".toList := by decide
  rw [quotedList, String.toList_append, String.toList_append, List.append_assoc, List.append_assoc,
    quotationsFrom_plain opening, quotationsFrom_intercalate, quotationsFrom_plain closing]

end RiskRules.Text
