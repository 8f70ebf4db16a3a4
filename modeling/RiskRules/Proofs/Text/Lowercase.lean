import Mathlib.Data.List.Forall2
import RiskRules.Proofs.Tags
import RiskRules.Text.Lowercase

/-!
The lowercase of a text does not depend on the case of its ASCII letters. A letter is lowered alike
in both cases, and in both it is a cased letter to the capital sigma before or after it.
-/

namespace RiskRules.Text

/-- Two characters are the same letter: they are equal, or the first or the second is capital. -/
theorem sameLetter_cases {left right : Char} (same : SameLetter left right) :
    left = right ∨ ∃ index < 26,
      (left = Char.ofNat (65 + index) ∧ right = Char.ofNat (97 + index)) ∨
        (left = Char.ofNat (97 + index) ∧ right = Char.ofNat (65 + index)) := by
  rcases same with equal | ⟨upper, code⟩ | ⟨upper, code⟩
  · exact .inl equal
  · obtain ⟨lower, higher⟩ := isUpper_iff.mp upper
    refine .inr ⟨left.toNat - 65, by omega, .inl ⟨?_, ?_⟩⟩
    · rw [Nat.add_sub_cancel' lower, Char.ofNat_toNat]
    · rw [show 97 + (left.toNat - 65) = right.toNat by omega, Char.ofNat_toNat]
  · obtain ⟨lower, higher⟩ := isUpper_iff.mp upper
    refine .inr ⟨right.toNat - 65, by omega, .inr ⟨?_, ?_⟩⟩
    · rw [show 97 + (right.toNat - 65) = left.toNat by omega, Char.ofNat_toNat]
    · rw [Nat.add_sub_cancel' lower, Char.ofNat_toNat]

/-- What holds alike of every ASCII letter in its two cases. -/
theorem eq_of_sameLetter {α : Type} {see : Char → α} {left right : Char}
    (alike : ∀ index < 26, see (Char.ofNat (65 + index)) = see (Char.ofNat (97 + index)))
    (same : SameLetter left right) : see left = see right := by
  rcases sameLetter_cases same with rfl | ⟨index, small, ⟨rfl, rfl⟩ | ⟨rfl, rfl⟩⟩
  · rfl
  · exact alike index small
  · exact (alike index small).symm

theorem lowerChar_eq {left right : Char} (same : SameLetter left right) :
    lowerChar left = lowerChar right :=
  eq_of_sameLetter (by decide +kernel) same

theorem contains_cased_eq {left right : Char} (same : SameLetter left right) :
    cased.contains left = cased.contains right :=
  eq_of_sameLetter (by decide +kernel) same

def IsLetterCode (code : Nat) : Prop :=
  (65 ≤ code ∧ code ≤ 90) ∨ (97 ≤ code ∧ code ≤ 122)

theorem isLetterCode_of_sameLetter {left right : Char} (same : SameLetter left right)
    (different : left ≠ right) : IsLetterCode left.toNat ∧ IsLetterCode right.toNat := by
  unfold IsLetterCode
  rcases same with equal | ⟨upper, code⟩ | ⟨upper, code⟩
  · exact absurd equal different
  · have bounds := isUpper_iff.mp upper
    omega
  · have bounds := isUpper_iff.mp upper
    omega

/-- A character that is no ASCII letter has one spelling. -/
theorem eq_mark_iff {left right mark : Char} (other : ¬IsLetterCode mark.toNat)
    (same : SameLetter left right) : left = mark ↔ right = mark := by
  by_cases equal : left = right
  · rw [equal]
  · obtain ⟨letter, otherLetter⟩ := isLetterCode_of_sameLetter same equal
    refine iff_of_false (fun found => ?_) fun found => ?_
    · exact other (found ▸ letter)
    · exact other (found ▸ otherLetter)

/-- No ASCII letter is passed over in the search for a cased neighbour. -/
theorem not_caseIgnorable {char : Char} (letter : IsLetterCode char.toNat) :
    caseIgnorable.contains char = false := by
  have apart : ∀ range ∈ caseIgnorable.ranges,
      range.2 < 65 ∨ (90 < range.1 ∧ range.2 < 97) ∨ 122 < range.1 := by decide +kernel
  rw [Bool.eq_false_iff, ne_eq, CharClass.contains_iff]
  rintro ⟨range, member, lower, upper⟩
  have beside := apart range member
  unfold IsLetterCode at letter
  omega

theorem contains_caseIgnorable_eq {left right : Char} (same : SameLetter left right) :
    caseIgnorable.contains left = caseIgnorable.contains right := by
  by_cases equal : left = right
  · rw [equal]
  · obtain ⟨letter, otherLetter⟩ := isLetterCode_of_sameLetter same equal
    rw [not_caseIgnorable letter, not_caseIgnorable otherLetter]

theorem meetsCased_eq {chars others : List Char} (same : List.Forall₂ SameLetter chars others) :
    meetsCased chars = meetsCased others := by
  induction same with
  | nil => rfl
  | @cons char other _ _ first _ ih =>
      have ignored := contains_caseIgnorable_eq first
      by_cases skipped : caseIgnorable.contains char = true
      · simpa [meetsCased, skipped, ignored ▸ skipped] using ih
      · simpa [meetsCased, skipped, ignored ▸ skipped] using contains_cased_eq first

theorem lowerFrom_eq {before otherBefore chars others : List Char}
    (sameBefore : List.Forall₂ SameLetter before otherBefore)
    (same : List.Forall₂ SameLetter chars others) :
    lowerFrom before chars = lowerFrom otherBefore others := by
  induction same generalizing before otherBefore with
  | nil => rfl
  | @cons char other after otherAfter first rest ih =>
      have final : isFinalSigma before after = isFinalSigma otherBefore otherAfter := by
        rw [isFinalSigma, isFinalSigma, meetsCased_eq sameBefore, meetsCased_eq rest]
      have sigma : char = 'Σ' ↔ other = 'Σ' := eq_mark_iff (by unfold IsLetterCode; decide) first
      simp only [lowerFrom, sigma, final, lowerChar_eq first,
        ih (.cons first sameBefore)]

theorem lowercase_eq {text other : String} (same : EqualUpToCase text other) :
    lowercase text = lowercase other := by
  rw [lowercase, lowercase, lowerFrom_eq .nil same]

end RiskRules.Text
