import Mathlib.Data.List.Chain
import RiskRules.Proofs.Pattern.Grammar

/-!
Segments and sources. The segments of a source are normal: no literal is empty, and no two stand
side by side. Every normal list of segments is written as one source, which is read as that list.
-/

namespace RiskRules

namespace Segment

open Pattern

def isLiteral : Segment → Bool
  | .literal _ => true
  | .slot _ => false

def tokens : Segment → List Token
  | .literal text => text.map Token.literal
  | .slot name => [.slot name]

def text : Segment → List Char
  | .literal text => escape text
  | .slot name => name.placeholder.toList

theorem text_eq (segment : Segment) : segment.text = spelled segment.tokens := by
  cases segment with
  | literal text => simp [Segment.text, tokens, spelled, escape, List.flatMap_map, Token.text]
  | slot name => simp [Segment.text, tokens, spelled, Token.text]

end Segment

namespace Pattern

def write (segments : List Segment) : String :=
  String.ofList (segments.flatMap Segment.text)

structure Normal (segments : List Segment) : Prop where
  filled : Segment.literal [] ∉ segments
  apart : segments.IsChain fun segment following =>
    segment.isLiteral = false ∨ following.isLiteral = false

theorem toList_write (segments : List Segment) :
    (write segments).toList = spelled (segments.flatMap Segment.tokens) := by
  rw [write, String.toList_ofList, spelled, List.flatMap_assoc]
  exact congrArg (List.flatMap · segments) (funext Segment.text_eq)

theorem normal_cons {segment : Segment} {segments : List Segment} :
    Normal (segment :: segments) ↔
      segment ≠ .literal [] ∧
        (∀ following ∈ segments.head?, segment.isLiteral = false ∨ following.isLiteral = false) ∧
        Normal segments := by
  constructor
  · rintro ⟨filled, apart⟩
    obtain ⟨head, tail⟩ := List.isChain_cons.mp apart
    simp only [List.mem_cons, not_or] at filled
    exact ⟨Ne.symm filled.1, head, filled.2, tail⟩
  · rintro ⟨filled, head, later, tail⟩
    exact ⟨by simp [later, Ne.symm filled], List.isChain_cons.mpr ⟨head, tail⟩⟩

theorem Normal.concat {segments : List Segment} {segment : Segment} (normal : Normal segments)
    (filled : segment ≠ .literal [])
    (apart : ∀ last ∈ segments.getLast?, last.isLiteral = false ∨ segment.isLiteral = false) :
    Normal (segments ++ [segment]) where
  filled := by simp [normal.filled, Ne.symm filled]
  apart := by
    refine List.isChain_append.mpr ⟨normal.apart, List.isChain_singleton _, ?_⟩
    intro last isLast following same
    cases same
    exact apart last isLast

namespace Progress

variable {progress : Progress} {token : Token}

theorem segments_of_nil (none : progress.literal = []) :
    progress.segments = progress.done.reverse := by
  simp [segments, flush, none]

theorem segments_of_ne_nil (some : progress.literal ≠ []) :
    progress.segments = progress.done.reverse ++ [.literal progress.literal.reverse] := by
  simp [segments, flush, some]

/-- The finished segments are normal and do not end in a literal, so that the run being read can
become one. -/
structure Sound (progress : Progress) : Prop where
  normal : Normal progress.done.reverse
  ended : ∀ last ∈ progress.done.head?, last.isLiteral = false

theorem Sound.segments (sound : progress.Sound) : Normal progress.segments := by
  by_cases none : progress.literal = []
  · rw [segments_of_nil none]
    exact sound.normal
  · rw [segments_of_ne_nil none]
    refine sound.normal.concat (by simpa using none) fun last isLast => ?_
    rw [List.getLast?_reverse] at isLast
    exact Or.inl (sound.ended last isLast)

theorem Sound.next (sound : progress.Sound) : (progress.next token).Sound := by
  cases token with
  | literal char => exact ⟨sound.normal, sound.ended⟩
  | slot name =>
      constructor
      · rw [Progress.next, List.reverse_cons]
        exact sound.segments.concat nofun fun _ _ => Or.inr rfl
      · intro last isLast
        cases isLast
        rfl

theorem Sound.foldl {tokens : List Token} (sound : progress.Sound) :
    (tokens.foldl Progress.next progress).Sound := by
  induction tokens generalizing progress with
  | nil => exact sound
  | cons token tokens ih => exact ih sound.next

def tokens (progress : Progress) : List Token :=
  progress.segments.flatMap Segment.tokens

theorem tokens_next : (progress.next token).tokens = progress.tokens ++ [token] := by
  cases token with
  | literal char =>
      have reading : (progress.next (.literal char)).literal ≠ [] := List.cons_ne_nil _ _
      rw [tokens, tokens, segments_of_ne_nil reading]
      by_cases none : progress.literal = []
      · simp [segments_of_nil none, Progress.next, Segment.tokens, none]
      · simp [segments_of_ne_nil none, Progress.next, Segment.tokens]
  | slot name =>
      rw [tokens, tokens, segments_of_nil rfl]
      simp [Progress.next, Progress.segments, Segment.tokens]

theorem tokens_foldl {tokens : List Token} :
    (tokens.foldl Progress.next progress).tokens = progress.tokens ++ tokens := by
  induction tokens generalizing progress with
  | nil => simp
  | cons token tokens ih => simp [ih, tokens_next]

theorem foldl_literal (text : List Char) :
    (text.map Token.literal).foldl next progress =
      { progress with literal := text.reverse ++ progress.literal } := by
  induction text generalizing progress with
  | nil => rfl
  | cons char text ih => simp [ih, next]

/-- The tokens of normal segments add exactly these segments, unless a run goes on in a literal. -/
theorem segments_foldl {segments : List Segment} (normal : Normal segments)
    (free : progress.literal = [] ∨ ∀ first ∈ segments.head?, first.isLiteral = false) :
    ((segments.flatMap Segment.tokens).foldl next progress).segments =
      progress.segments ++ segments := by
  induction segments generalizing progress with
  | nil => simp
  | cons segment segments ih =>
      obtain ⟨filled, apart, later⟩ := normal_cons.mp normal
      rw [List.flatMap_cons, List.foldl_append]
      cases segment with
      | slot name =>
          rw [ih later (Or.inl rfl), segments_of_nil rfl]
          simp [Segment.tokens, next, Progress.segments]
      | literal text =>
          have none : progress.literal = [] := by simpa [Segment.isLiteral] using free
          have some : text ≠ [] := by simpa using filled
          have others : ∀ first ∈ segments.head?, first.isLiteral = false := by
            simpa [Segment.isLiteral] using apart
          rw [Segment.tokens, foldl_literal, ih later (Or.inr others), segments_of_nil none,
            segments_of_ne_nil (by simp [none, some])]
          simp [none]

end Progress

theorem normal_gather (tokens : List Token) : Normal (gather tokens) := by
  have start : Progress.Sound ⟨[], []⟩ := ⟨⟨List.not_mem_nil, .nil⟩, nofun⟩
  exact start.foldl.segments

theorem tokens_gather (tokens : List Token) :
    (gather tokens).flatMap Segment.tokens = tokens :=
  Progress.tokens_foldl

theorem gather_tokens {segments : List Segment} (normal : Normal segments) :
    gather (segments.flatMap Segment.tokens) = segments :=
  Progress.segments_foldl normal (Or.inl rfl)

theorem parse_eq_ok_iff {source : String} {pattern : Pattern} :
    parse source = .ok pattern ↔
      pattern.source = source ∧ Normal pattern.segments ∧
        source.toList = spelled (pattern.segments.flatMap Segment.tokens) := by
  rw [parse_eq_ok]
  constructor
  · rintro ⟨tokens, written, rfl⟩
    exact ⟨rfl, normal_gather tokens, by rw [tokens_gather, written]⟩
  · rintro ⟨same, normal, written⟩
    exact ⟨_, written, by rw [gather_tokens normal, ← same]⟩

theorem parse_write {segments : List Segment} (normal : Normal segments) :
    parse (write segments) = .ok ⟨write segments, segments⟩ :=
  parse_eq_ok_iff.mpr ⟨rfl, normal, toList_write segments⟩

theorem write_of_parse {source : String} {pattern : Pattern} (parsed : parse source = .ok pattern) :
    write pattern.segments = source := by
  obtain ⟨_, _, written⟩ := parse_eq_ok_iff.mp parsed
  rw [← toList_write] at written
  exact (String.toList_inj.mp written).symm

/-- A source is read if and only if it is a sequence of tokens, which it is in one way only; its
segments are the normal ones with these tokens, and each source has one list of segments and each
normal list of segments one source. Any other text is refused for what follows its longest
beginning that is such a sequence. -/
theorem parse_exact :
    (∀ source, (∃ pattern, parse source = .ok pattern) ↔
      ∃ tokens, source.toList = spelled tokens) ∧
    (∀ tokens others, spelled tokens = spelled others → tokens = others) ∧
    (∀ source pattern, parse source = .ok pattern ↔
      pattern.source = source ∧ Normal pattern.segments ∧
        source.toList = spelled (pattern.segments.flatMap Segment.tokens)) ∧
    (∀ segments, Normal segments →
      parse (write segments) = .ok ⟨write segments, segments⟩) ∧
    (∀ source pattern, parse source = .ok pattern → write pattern.segments = source) ∧
    ∀ source error, parse source = .error error ↔
      ∃ taken rest, source.toList = taken ++ rest ∧ Longest source.toList taken ∧
        Refuses source rest error := by
  refine ⟨?_, fun _ _ => spelled_injective, fun _ _ => parse_eq_ok_iff, fun _ => parse_write,
    fun _ _ => write_of_parse, fun _ _ => parse_eq_error_iff⟩
  intro source
  constructor
  · rintro ⟨pattern, parsed⟩
    obtain ⟨tokens, written, _⟩ := parse_eq_ok.mp parsed
    exact ⟨tokens, written⟩
  · rintro ⟨tokens, written⟩
    exact ⟨_, parse_spelled written⟩

/-- A slot between two braces, and a name that a doubled brace and a brace stand before. -/
theorem parse_exact_braces :
    Normal [.literal ['\x7b'], .slot .title, .literal ['\x7d']] ∧
      parse "\x7b\x7b\x7btitle\x7d\x7d\x7d" = .ok ⟨"\x7b\x7b\x7btitle\x7d\x7d\x7d",
        [.literal ['\x7b'], .slot .title, .literal ['\x7d']]⟩ ∧
      Longest "\x7b\x7b\x7ba\x7btitle\x7d".toList ['\x7b', '\x7b'] ∧
      parse "\x7b\x7b\x7ba\x7btitle\x7d" =
        .error (.unknownSlot "a\x7btitle" "\x7b\x7b\x7ba\x7btitle\x7d") := by
  have normal : Normal [.literal ['\x7b'], .slot .title, .literal ['\x7d']] :=
    ⟨by decide, by simp [Segment.isLiteral]⟩
  have stuck : Stuck "\x7ba\x7btitle\x7d".toList := by
    rintro (char | slot) begins
    · by_cases brace : char = '\x7b' ∨ char = '\x7d'
      · rw [Token.text_literal_of_brace brace] at begins
        rcases brace with rfl | rfl <;> exact absurd begins (by decide)
      · rw [Token.text_literal_of_plain brace] at begins
        exact brace (Or.inl (List.cons_prefix_cons.mp begins).1)
    · cases slot <;> exact absurd begins (by decide)
  have longest : Longest "\x7b\x7b\x7ba\x7btitle\x7d".toList ['\x7b', '\x7b'] :=
    @longest_of_stuck [.literal '\x7b'] _ stuck
  obtain ⟨_, _, _, written, _, refused⟩ := parse_exact
  exact ⟨normal, written _ normal, longest, (refused _ _).mpr
    ⟨_, "\x7ba\x7btitle\x7d".toList, by decide, longest, @Refuses.unknown _ "a\x7btitle".toList []
      (by decide)⟩⟩

end Pattern

end RiskRules
