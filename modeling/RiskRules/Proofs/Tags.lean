import Mathlib.Data.List.Forall2
import RiskRules.Tags

/-!
Tags and sets of them. Tags match when they are equal up to ASCII case. A set holds the tags that it
is made of, and is made again of its own tags.
-/

namespace RiskRules

def SameLetter (left right : Char) : Prop :=
  left = right ∨ (left.isUpper = true ∧ right.toNat = left.toNat + 32) ∨
    (right.isUpper = true ∧ left.toNat = right.toNat + 32)

def EqualUpToCase (left right : String) : Prop :=
  List.Forall₂ SameLetter left.toList right.toList

theorem isUpper_iff {char : Char} : char.isUpper = true ↔ 65 ≤ char.toNat ∧ char.toNat ≤ 90 :=
  decide_eq_true_iff

theorem toNat_toLower {char : Char} (upper : char.isUpper = true) :
    char.toLower.toNat = char.toNat + 32 := by
  have bounds := isUpper_iff.mp upper
  have lower : char.toLower.val = char.val + 32 :=
    congrArg Char.val (dif_pos (of_decide_eq_true upper))
  rw [← Char.toNat_val, lower, UInt32.toNat_add, Char.toNat_val]
  exact Nat.mod_eq_of_lt (by simp; omega)

theorem toLower_of_not_isUpper {char : Char} (other : ¬char.isUpper = true) :
    char.toLower = char :=
  dif_neg fun within => other (decide_eq_true within)

theorem toLower_eq_iff {left right : Char} :
    left.toLower = right.toLower ↔ SameLetter left right := by
  have bounds := @isUpper_iff left
  have others := @isUpper_iff right
  rw [SameLetter, ← Char.toNat_inj, ← Char.toNat_inj]
  by_cases upper : left.isUpper = true <;> by_cases other : right.isUpper = true
  · rw [toNat_toLower upper, toNat_toLower other]
    grind
  · rw [toNat_toLower upper, toLower_of_not_isUpper other]
    grind
  · rw [toLower_of_not_isUpper upper, toNat_toLower other]
    grind
  · rw [toLower_of_not_isUpper upper, toLower_of_not_isUpper other]
    grind

theorem sameTag_iff {left right : String} : sameTag left right = true ↔ EqualUpToCase left right := by
  rw [sameTag, decide_eq_true_eq, foldCase, foldCase, EqualUpToCase, ← List.forall₂_eq_eq_eq,
    List.forall₂_map_left_iff, List.forall₂_map_right_iff]
  simp only [toLower_eq_iff]

theorem carries_iff {tags : List String} {tag : String} :
    carries tags tag = true ↔ ∃ own ∈ tags, EqualUpToCase tag own := by
  simp only [carries, List.any_eq_true, sameTag_iff]

theorem carries_of_mem {tags : List String} {tag : String} (member : tag ∈ tags) :
    carries tags tag = true := by
  rw [carries, List.any_eq_true]
  exact ⟨tag, member, by simp [sameTag]⟩

namespace TagSet

theorem mem_foldl_insert {set : TagSet} {texts : List String} {text : String} :
    text ∈ (texts.foldl insert set).tags ↔ text ∈ texts ∨ text ∈ set.tags := by
  induction texts generalizing set with
  | nil => simp
  | cons first rest ih =>
      rw [List.foldl_cons, ih, mem_tags_insert, List.mem_cons]
      constructor
      · rintro (later | same | before)
        · exact Or.inl (Or.inr later)
        · exact Or.inl (Or.inl same)
        · exact Or.inr before
      · rintro ((same | later) | before)
        · exact Or.inr (Or.inl same)
        · exact Or.inl later
        · exact Or.inr (Or.inr before)

theorem mem_tags_ofList {texts : List String} {text : String} :
    text ∈ (ofList texts).tags ↔ text ∈ texts := by
  rw [ofList, mem_foldl_insert]
  simp [empty]

theorem nodup (set : TagSet) : set.tags.Nodup := by
  rw [List.nodup_iff_pairwise_ne]
  apply set.ascending.imp
  intro tag later less same
  exact String.lt_irrefl _ (same ▸ less)

theorem insertOrdered_last {text : String} {texts : List String}
    (above : ∀ other ∈ texts, other < text) : insertOrdered text texts = texts ++ [text] := by
  induction texts with
  | nil => rfl
  | cons first rest ih =>
      have less : first < text := above first List.mem_cons_self
      have notBefore : ¬text < first := String.lt_asymm less
      have notSame : text ≠ first := fun same => String.lt_irrefl first (same ▸ less)
      rw [insertOrdered, if_neg notBefore, if_neg notSame,
        ih fun other member => above other (List.mem_cons_of_mem first member)]
      rfl

theorem tags_foldl_insert {set : TagSet} {rest : List String}
    (ascending : (set.tags ++ rest).Pairwise (· < ·)) :
    (rest.foldl insert set).tags = set.tags ++ rest := by
  induction rest generalizing set with
  | nil => simp
  | cons tag rest ih =>
      have above : ∀ other ∈ set.tags, other < tag := fun other member =>
        (List.pairwise_append.mp ascending).2.2 other member tag List.mem_cons_self
      have inserted : (set.insert tag).tags = set.tags ++ [tag] := insertOrdered_last above
      rw [List.foldl_cons, ih (by simpa [inserted] using ascending), inserted]
      simp

theorem eq_of_tags {left right : TagSet} (same : left.tags = right.tags) : left = right := by
  cases left
  cases right
  cases same
  rfl

theorem ofList_tags (set : TagSet) : ofList set.tags = set := by
  have tags : (ofList set.tags).tags = set.tags :=
    tags_foldl_insert (by simpa [empty] using set.ascending)
  exact eq_of_tags tags

end TagSet

end RiskRules
