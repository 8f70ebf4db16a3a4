import Mathlib.Data.List.DropRight
import RiskRules.Proofs.Text.Lowercase
import RiskRules.Text.CharClass

/-!
Blank texts. A text is blank when nothing is left of it once white space is trimmed from its ends,
and no letter is white space in either case.
-/

namespace RiskRules.Text

def trim (text : String) : String :=
  String.ofList ((text.toList.dropWhile whiteSpace.contains).rdropWhile whiteSpace.contains)

theorem trim_eq_empty_iff {text : String} : trim text = "" ↔ isBlank text = true := by
  rw [isBlank_iff, trim, ← String.toList_inj, String.toList_ofList, String.toList_empty,
    List.rdropWhile_eq_nil_iff]
  constructor
  · intro blank char member
    -- What is taken from the front is white space; only the rest is a matter of the other end.
    rw [← List.takeWhile_append_dropWhile (p := whiteSpace.contains) (l := text.toList)] at member
    rcases List.mem_append.mp member with leading | inner
    · exact List.mem_takeWhile_imp leading
    · exact blank char inner
  · intro blank char member
    exact blank char ((List.dropWhile_sublist _).mem member)

theorem contains_whiteSpace_eq {left right : Char} (same : SameLetter left right) :
    whiteSpace.contains left = whiteSpace.contains right :=
  eq_of_sameLetter (by decide) same

theorem all_whiteSpace_eq {chars others : List Char} (same : List.Forall₂ SameLetter chars others) :
    chars.all whiteSpace.contains = others.all whiteSpace.contains := by
  induction same with
  | nil => rfl
  | cons first _ ih => rw [List.all_cons, List.all_cons, contains_whiteSpace_eq first, ih]

theorem isBlank_eq {text other : String} (same : EqualUpToCase text other) :
    isBlank text = isBlank other :=
  all_whiteSpace_eq same

end RiskRules.Text
