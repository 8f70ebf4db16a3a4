import RiskRules.Proofs.Pattern.Segments

/-!
Patterns and their sources. A pattern that was read from a source, or put around a component, is
the only one with its source: reading the source again gives it back.
-/

namespace RiskRules.Pattern

theorem source_of_parse {source : String} {pattern : Pattern}
    (parsed : parse source = .ok pattern) : pattern.source = source :=
  (parse_eq_ok_iff.mp parsed).1

def tokensAround (before after : String) : List Token :=
  before.toList.map Token.literal ++ .slot .component :: after.toList.map Token.literal

theorem toList_source_aroundComponent (before after : String) :
    (aroundComponent before after).source.toList = spelled (tokensAround before after) := by
  have literals : ∀ text, escape text = spelled (text.map Token.literal) := fun text =>
    Segment.text_eq (.literal text)
  simp [aroundComponent, literals, tokensAround, spelled, Token.text]

theorem gather_tokensAround (before after : String) :
    gather (tokensAround before after) = (aroundComponent before after).segments := by
  rw [gather, tokensAround, List.foldl_append, List.foldl_cons, Progress.foldl_literal,
    Progress.foldl_literal]
  by_cases noBefore : before.toList = [] <;> by_cases noAfter : after.toList = [] <;>
    simp [aroundComponent, Progress.next, Progress.segments, flush, noBefore, noAfter]

theorem parse_aroundComponent (before after : String) :
    parse (aroundComponent before after).source = .ok (aroundComponent before after) := by
  rw [parse_spelled (toList_source_aroundComponent before after), gather_tokensAround]

inductive Built : Pattern → Prop
  | parsed {source : String} {pattern : Pattern} (read : parse source = .ok pattern) :
      Built pattern
  | around (before after : String) : Built (aroundComponent before after)

theorem Built.parse_source {pattern : Pattern} (built : pattern.Built) :
    parse pattern.source = .ok pattern := by
  cases built with
  | parsed read => rw [source_of_parse read, read]
  | around before after => exact parse_aroundComponent before after

theorem Built.eq_of_source {left right : Pattern} (leftBuilt : left.Built)
    (rightBuilt : right.Built) (same : left.source = right.source) : left = right := by
  have read := leftBuilt.parse_source
  rw [same, rightBuilt.parse_source] at read
  exact (Except.ok.inj read).symm

end RiskRules.Pattern
