/-! Types of finitely many values that are known by name. -/

namespace RiskRules

class Enumeration (α : Type) where
  all : List α
  name : α → String
  mem_all : ∀ value, value ∈ all
  name_injective : ∀ left right, name left = name right → left = right

namespace Enumeration

def ofName? [Enumeration α] (text : String) : Option α :=
  (all : List α).find? (name · = text)

theorem ofName?_name [Enumeration α] (value : α) : ofName? (name value) = some value := by
  unfold ofName?
  cases found : (all : List α).find? (name · = name value) with
  | none =>
      have absent := List.find?_eq_none.mp found value (mem_all value)
      simp at absent
  | some other =>
      have same := List.find?_some found
      simp only [decide_eq_true_eq] at same
      rw [name_injective other value same]

end Enumeration

end RiskRules
