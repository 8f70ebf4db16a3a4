import Mathlib.Data.List.Infix
import RiskRules.Pattern

/-!
The grammar of patterns. A source is a sequence of tokens; no token begins another one, so a text
is such a sequence in at most one way. Reading goes from token to token, gathers their characters
into literals, and fails where no token follows.
-/

namespace RiskRules.Pattern

/-! ### Tokens -/

inductive Token
  | literal (char : Char)
  | slot (slot : Slot)
  deriving DecidableEq, Repr

def Token.text : Token → List Char
  | .literal char => if char = '\x7b' ∨ char = '\x7d' then [char, char] else [char]
  | .slot name => name.placeholder.toList

def spelled (tokens : List Token) : List Char :=
  tokens.flatMap Token.text

theorem toList_placeholder (slot : Slot) :
    slot.placeholder.toList = '\x7b' :: (slot.name.toList ++ ['\x7d']) := by
  cases slot <;> decide

theorem Token.text_literal_of_brace {char : Char} (brace : char = '\x7b' ∨ char = '\x7d') :
    (Token.literal char).text = [char, char] :=
  if_pos brace

theorem Token.text_literal_of_plain {char : Char} (plain : ¬(char = '\x7b' ∨ char = '\x7d')) :
    (Token.literal char).text = [char] :=
  if_neg plain

theorem Token.text_ne_nil (token : Token) : token.text ≠ [] := by
  cases token with
  | literal char => by_cases brace : char = '\x7b' ∨ char = '\x7d' <;> simp [text, brace]
  | slot slot => simp [text, toList_placeholder]

theorem Token.slot_of_prefix {token : Token} {slot : Slot}
    (begins : token.text <+: slot.placeholder.toList) : token = .slot slot := by
  cases token with
  | literal char =>
      have head : char = '\x7b' ∨ char = '\x7d' := by
        by_contra plain
        rw [text_literal_of_plain plain, toList_placeholder, List.cons_prefix_cons] at begins
        exact plain (Or.inl begins.1)
      rw [text_literal_of_brace head, toList_placeholder, List.cons_prefix_cons] at begins
      obtain ⟨rfl, begins⟩ := begins
      cases slot <;> exact absurd begins (by decide)
  | slot other =>
      revert begins
      cases other <;> cases slot <;> decide

theorem Token.eq_of_prefix {left right : Token} (begins : left.text <+: right.text) :
    left = right := by
  cases right with
  | slot slot => exact slot_of_prefix begins
  | literal char =>
      cases left with
      | slot slot =>
          have long : 3 ≤ slot.placeholder.toList.length := by cases slot <;> decide
          have short : (Token.literal char).text.length ≤ 2 := by
            by_cases brace : char = '\x7b' ∨ char = '\x7d' <;> simp [text, brace]
          have lengths : slot.placeholder.toList.length ≤ _ := begins.length_le
          omega
      | literal other =>
          -- Both texts start with their own character.
          have same : other = char := by
            by_cases brace : other = '\x7b' ∨ other = '\x7d' <;>
              by_cases second : char = '\x7b' ∨ char = '\x7d' <;>
              simp only [text, brace, second, if_true, if_false, List.cons_prefix_cons] at begins <;>
              exact begins.1
          rw [same]

def Stuck (rest : List Char) : Prop :=
  ∀ token : Token, ¬token.text <+: rest

theorem stuck_nil : Stuck [] := fun token begins =>
  token.text_ne_nil (List.prefix_nil.mp begins)

theorem exists_spelled (chars : List Char) :
    ∃ tokens rest, chars = spelled tokens ++ rest ∧ Stuck rest := by
  induction length : chars.length using Nat.strongRecOn generalizing chars with
  | ind _ ih =>
      by_cases stuck : Stuck chars
      · exact ⟨[], chars, rfl, stuck⟩
      · simp only [Stuck, not_forall, not_not] at stuck
        obtain ⟨token, more, rfl⟩ := stuck
        have shorter : more.length < (token.text ++ more).length := by
          have filled := List.length_pos_iff.mpr token.text_ne_nil
          rw [List.length_append]
          omega
        obtain ⟨tokens, rest, rfl, stuck⟩ := ih _ (length ▸ shorter) more rfl
        exact ⟨token :: tokens, rest, by simp [spelled], stuck⟩

/-- What tokens begin a text that ends where no token follows, its own tokens begin with. -/
theorem prefix_of_stuck {tokens others : List Token} {rest : List Char} (stuck : Stuck rest)
    (begins : spelled others <+: spelled tokens ++ rest) : others <+: tokens := by
  induction tokens generalizing others with
  | nil =>
      cases others with
      | nil => exact List.prefix_rfl
      | cons other others =>
          have starts : other.text <+: rest := (List.prefix_append _ _).trans begins
          exact absurd starts (stuck other)
  | cons token tokens ih =>
      cases others with
      | nil => exact List.nil_prefix
      | cons other others =>
          simp only [spelled, List.flatMap_cons, List.append_assoc] at begins
          have same : other = token := by
            rcases List.prefix_or_prefix_of_prefix ((List.prefix_append _ _).trans begins)
              (List.prefix_append _ _) with first | first
            · exact Token.eq_of_prefix first
            · exact (Token.eq_of_prefix first).symm
          subst same
          exact List.cons_prefix_cons.mpr ⟨rfl, ih ((List.prefix_append_right_inj _).mp begins)⟩

theorem spelled_injective {tokens others : List Token} (same : spelled tokens = spelled others) :
    tokens = others := by
  have forward : tokens <+: others := prefix_of_stuck stuck_nil (by simp [same])
  have backward : others <+: tokens := prefix_of_stuck stuck_nil (by simp [same])
  exact forward.eq_of_length (Nat.le_antisymm forward.length_le backward.length_le)

/-! ### Reading tokens -/

structure Progress where
  done : List Segment
  literal : List Char

namespace Progress

def next (progress : Progress) : Token → Progress
  | .literal char => { progress with literal := char :: progress.literal }
  | .slot name => ⟨.slot name :: flush progress.literal progress.done, []⟩

def segments (progress : Progress) : List Segment :=
  (flush progress.literal progress.done).reverse

end Progress

def gather (tokens : List Token) : List Segment :=
  (tokens.foldl Progress.next ⟨[], []⟩).segments

theorem ofName?_eq_some {name : List Char} {slot : Slot} :
    Slot.ofName? name = some slot ↔ name = slot.name.toList := by
  rw [Slot.ofName?]
  constructor
  · intro found
    split at found
    next same => cases found; exact same
    next =>
      split at found
      next same => cases found; exact same
      next => cases found
  · rintro rfl
    cases slot <;> decide

section

variable {source : String} {done : List Segment} {literal : List Char}

theorem readSegments_named {name rest : List Char} (unclosed : '\x7d' ∉ name) (seen : List Char) :
    readSegments source done literal (some seen) (name ++ '\x7d' :: rest) =
      match Slot.ofName? (seen.reverse ++ name) with
      | some slot => readSegments source (.slot slot :: flush literal done) [] none rest
      | none => .error (.unknownSlot (String.ofList (seen.reverse ++ name)) source) := by
  induction name generalizing seen with
  | nil =>
      rw [List.append_nil]
      rfl
  | cons char name ih =>
      simp only [List.mem_cons, not_or] at unclosed
      rw [List.cons_append, readSegments, ih unclosed.2]
      · simp
      · exact fun same => unclosed.1 same.symm

theorem readSegments_unnamed {rest : List Char} (unclosed : '\x7d' ∉ rest) (seen : List Char) :
    readSegments source done literal (some seen) rest = .error (.unterminated source) := by
  induction rest generalizing seen with
  | nil => rfl
  | cons char rest ih =>
      simp only [List.mem_cons, not_or] at unclosed
      rw [readSegments, ih unclosed.2]
      exact fun same => unclosed.1 same.symm

theorem readSegments_slot (slot : Slot) (rest : List Char) :
    readSegments source done literal none (slot.placeholder.toList ++ rest) =
      readSegments source (.slot slot :: flush literal done) [] none rest := by
  have unclosed : '\x7d' ∉ slot.name.toList := by cases slot <;> decide
  have single : ∀ more, slot.name.toList ++ '\x7d' :: rest ≠ '\x7b' :: more := by
    intro more same
    cases slot <;> exact absurd (List.cons.inj same).1 (by decide)
  rw [toList_placeholder, List.cons_append, List.append_assoc, List.singleton_append,
    readSegments, readSegments_named unclosed]
  · simp [ofName?_eq_some.mpr rfl]
  · exact single

end

/-- One token is one step, whatever follows it. -/
theorem readSegments_token {source : String} (progress : Progress) (token : Token)
    (rest : List Char) :
    readSegments source progress.done progress.literal none (token.text ++ rest) =
      readSegments source (progress.next token).done (progress.next token).literal none rest := by
  cases token with
  | slot name => exact readSegments_slot name rest
  | literal char =>
      by_cases brace : char = '\x7b' ∨ char = '\x7d'
      · rw [Token.text_literal_of_brace brace]
        rcases brace with rfl | rfl <;> rfl
      · rw [Token.text_literal_of_plain brace, List.singleton_append]
        simp only [not_or] at brace
        rw [readSegments]
        · rfl
        all_goals simp [brace]

theorem readSegments_spelled {source : String} (progress : Progress) (tokens : List Token)
    (rest : List Char) :
    readSegments source progress.done progress.literal none (spelled tokens ++ rest) =
      readSegments source (tokens.foldl Progress.next progress).done
        (tokens.foldl Progress.next progress).literal none rest := by
  induction tokens generalizing progress with
  | nil => rfl
  | cons token tokens ih =>
      rw [spelled, List.flatMap_cons, List.append_assoc, readSegments_token, ← spelled, ih,
        List.foldl_cons]

theorem parse_spelled {source : String} {tokens : List Token}
    (written : source.toList = spelled tokens) : parse source = .ok ⟨source, gather tokens⟩ := by
  have read := @readSegments_spelled source ⟨[], []⟩ tokens []
  rw [List.append_nil, ← written] at read
  rw [parse, read]
  rfl

/-! ### Where reading fails -/

inductive Refuses (source : String) : List Char → PatternError → Prop
  | close {rest : List Char} : Refuses source ('\x7d' :: rest) (.unmatchedClose source)
  | endless {rest : List Char} (unclosed : '\x7d' ∉ rest) :
      Refuses source ('\x7b' :: rest) (.unterminated source)
  | unknown {name rest : List Char} (first : '\x7d' ∉ name) :
      Refuses source ('\x7b' :: (name ++ '\x7d' :: rest))
        (.unknownSlot (String.ofList name) source)

theorem not_doubled_of_stuck {char : Char} {rest : List Char} (stuck : Stuck (char :: rest))
    (brace : char = '\x7b' ∨ char = '\x7d') (more : List Char) : rest ≠ char :: more := by
  rintro rfl
  apply stuck (.literal char)
  rw [Token.text_literal_of_brace brace]
  exact ⟨more, rfl⟩

theorem exists_refuses {source : String} {rest : List Char} (stuck : Stuck rest)
    (more : rest ≠ []) : ∃ error, Refuses source rest error := by
  cases rest with
  | nil => exact absurd rfl more
  | cons char rest =>
      by_cases brace : char = '\x7b' ∨ char = '\x7d'
      · rcases brace with rfl | rfl
        · by_cases closed : '\x7d' ∈ rest
          · obtain ⟨name, after, rfl, first⟩ := List.eq_append_cons_of_mem closed
            exact ⟨_, .unknown first⟩
          · exact ⟨_, .endless closed⟩
        · exact ⟨_, .close⟩
      · refine absurd ?_ (stuck (.literal char))
        rw [Token.text_literal_of_plain brace]
        exact ⟨rest, rfl⟩

theorem readSegments_refuses {source : String} {done : List Segment} {literal rest : List Char}
    {error : PatternError} (stuck : Stuck rest) (refused : Refuses source rest error) :
    readSegments source done literal none rest = .error error := by
  cases refused with
  | close =>
      rw [readSegments]
      exact not_doubled_of_stuck stuck (Or.inr rfl)
  | endless unclosed =>
      rw [readSegments, readSegments_unnamed unclosed]
      exact not_doubled_of_stuck stuck (Or.inl rfl)
  | @unknown name rest first =>
      rw [readSegments, readSegments_named first]
      · cases found : Slot.ofName? ([].reverse ++ name) with
        | none => rfl
        | some slot =>
            -- The name of a slot would make this a token.
            refine absurd ?_ (stuck (.slot slot))
            rw [Token.text, toList_placeholder, ← ofName?_eq_some.mp found]
            exact ⟨rest, by simp⟩
      · exact not_doubled_of_stuck stuck (Or.inl rfl)

structure Longest (chars taken : List Char) : Prop where
  begins : taken <+: chars
  spells : ∃ tokens, taken = spelled tokens
  longest : ∀ tokens, spelled tokens <+: chars → (spelled tokens).length ≤ taken.length

theorem longest_of_stuck {tokens : List Token} {rest : List Char} (stuck : Stuck rest) :
    Longest (spelled tokens ++ rest) (spelled tokens) where
  begins := List.prefix_append _ _
  spells := ⟨tokens, rfl⟩
  longest _ begins := ((prefix_of_stuck stuck begins).flatMap Token.text).length_le

theorem stuck_of_longest {taken rest : List Char} (longest : Longest (taken ++ rest) taken) :
    Stuck rest := by
  rintro token ⟨more, rfl⟩
  obtain ⟨tokens, rfl⟩ := longest.spells
  have further : spelled (tokens ++ [token]) <+: spelled tokens ++ (token.text ++ more) :=
    ⟨more, by simp [spelled]⟩
  have lengths := longest.longest _ further
  have filled := List.length_pos_iff.mpr token.text_ne_nil
  simp only [spelled, List.flatMap_append, List.flatMap_singleton, List.length_append] at lengths
  omega

section

variable {source : String} {error : PatternError}

theorem parse_refuses {tokens : List Token} {rest : List Char}
    (split : source.toList = spelled tokens ++ rest) (stuck : Stuck rest)
    (refused : Refuses source rest error) : parse source = .error error := by
  have read := @readSegments_spelled source ⟨[], []⟩ tokens rest
  rw [← split, readSegments_refuses stuck refused] at read
  rw [parse, read]
  rfl

/-- A text is a sequence of tokens, or it is refused where the longest such beginning ends. -/
theorem spelled_or_refused (source : String) :
    (∃ tokens, source.toList = spelled tokens) ∨
      ∃ taken rest error, source.toList = taken ++ rest ∧ Longest source.toList taken ∧
        Refuses source rest error ∧ parse source = .error error := by
  obtain ⟨tokens, rest, split, stuck⟩ := exists_spelled source.toList
  by_cases finished : rest = []
  · exact Or.inl ⟨tokens, by rw [split, finished, List.append_nil]⟩
  · obtain ⟨error, refused⟩ := exists_refuses stuck finished
    exact Or.inr ⟨spelled tokens, rest, error, split, split ▸ longest_of_stuck stuck, refused,
      parse_refuses split stuck refused⟩

theorem parse_eq_error_iff :
    parse source = .error error ↔
      ∃ taken rest, source.toList = taken ++ rest ∧ Longest source.toList taken ∧
        Refuses source rest error := by
  constructor
  · intro failed
    rcases spelled_or_refused source with ⟨tokens, written⟩ |
      ⟨taken, rest, cause, split, longest, refused, answer⟩
    · rw [parse_spelled written] at failed
      cases failed
    · cases answer.symm.trans failed
      exact ⟨taken, rest, split, longest, refused⟩
  · rintro ⟨taken, rest, split, longest, refused⟩
    have stuck := stuck_of_longest (split ▸ longest)
    obtain ⟨tokens, rfl⟩ := longest.spells
    exact parse_refuses split stuck refused

theorem parse_eq_ok {pattern : Pattern} :
    parse source = .ok pattern ↔
      ∃ tokens, source.toList = spelled tokens ∧ pattern = ⟨source, gather tokens⟩ := by
  constructor
  · intro parsed
    rcases spelled_or_refused source with ⟨tokens, written⟩ | ⟨_, _, _, _, _, _, answer⟩
    · rw [parse_spelled written] at parsed
      exact ⟨tokens, written, (Except.ok.inj parsed).symm⟩
    · cases answer.symm.trans parsed
  · rintro ⟨tokens, written, rfl⟩
    exact parse_spelled written

end

end RiskRules.Pattern
