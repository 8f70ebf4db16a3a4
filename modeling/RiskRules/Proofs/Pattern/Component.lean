import RiskRules.Proofs.Pattern
import RiskRules.Text.Rewriting

/-!
Patterns around a component. The texts on both sides are taken as they are, whatever braces they
hold: the source doubles these, and reading it undoes that.
-/

namespace RiskRules

namespace Text

theorem replaceFrom_char {old : Char} {new done chars : List Char} {count : Nat} :
    (replaceFrom [old] new 0 done count chars).1 =
      done.reverse ++ chars.flatMap fun char => if char = old then new else [char] := by
  induction chars generalizing done count with
  | nil => simp [replaceFrom]
  | cons char chars ih =>
      rw [replaceFrom, List.flatMap_cons]
      by_cases same : char = old
      · simp [same, ih]
      · have other : [old].isPrefixOf (char :: chars) = false := by
          simp [List.isPrefixOf, Ne.symm same]
        simp [other, same, ih]

/-- Replacing one character replaces each where it stands. -/
theorem toList_replaceAll {text old new : String} {char : Char} (single : old.toList = [char]) :
    (replaceAll text old new).1.toList =
      text.toList.flatMap fun other => if other = char then new.toList else [other] := by
  rw [replaceAll, single]
  simp [replaceFrom_char]

end Text

namespace Pattern

def doubleBraces (text : String) : String :=
  (Text.replaceAll (Text.replaceAll text "\x7b" "\x7b\x7b").1 "\x7d" "\x7d\x7d").1

/-- The second pass finds the closing braces as they were: the first one makes none. -/
theorem doubleBraces_eq (text : String) :
    doubleBraces text = String.ofList (escape text.toList) := by
  apply String.toList_inj.mp
  rw [String.toList_ofList, escape, doubleBraces,
    Text.toList_replaceAll (show "\x7d".toList = ['\x7d'] from rfl),
    Text.toList_replaceAll (show "\x7b".toList = ['\x7b'] from rfl), List.flatMap_assoc]
  refine congrArg (List.flatMap · text.toList) (funext fun char => ?_)
  by_cases opens : char = '\x7b'
  · rw [opens]
    rfl
  · by_cases closes : char = '\x7d'
    · rw [closes]
      rfl
    · simp [opens, closes]

theorem fill_flush (title component : String) (text : List Char) :
    (flush text.reverse []).flatMap (Segment.fill title component) = text := by
  by_cases none : text = []
  · rw [none]
    rfl
  · simp [flush, none, Segment.fill]

theorem render_aroundComponent (before after title component : String) :
    (aroundComponent before after).render title component = before ++ component ++ after := by
  apply String.toList_inj.mp
  rw [render, aroundComponent, String.toList_ofList, List.flatMap_append, List.flatMap_cons,
    fill_flush, fill_flush]
  simp [Segment.fill]

/-- A pattern around a component is the one that its source is read as, and renders as the
component between the two texts. -/
theorem aroundComponent_survives (before after : String) :
    (aroundComponent before after).source =
      doubleBraces before ++ "\x7bcomponent\x7d" ++ doubleBraces after ∧
    parse (aroundComponent before after).source = .ok (aroundComponent before after) ∧
    ∀ title component,
      (aroundComponent before after).render title component = before ++ component ++ after := by
  refine ⟨?_, parse_aroundComponent before after, render_aroundComponent before after⟩
  rw [doubleBraces_eq, doubleBraces_eq]
  rfl

end Pattern

end RiskRules
