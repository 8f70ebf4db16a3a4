/-! Tags of components, which match without regard to ASCII case, and sets of them. -/

namespace RiskRules

def foldCase (tag : String) : List Char :=
  tag.toList.map Char.toLower

def sameTag (left right : String) : Bool :=
  foldCase left = foldCase right

def carries (tags : List String) (tag : String) : Bool :=
  tags.any (sameTag tag ·)

def carriesAny (tags wanted : List String) : Bool :=
  wanted.any (carries tags ·)

def insertOrdered (text : String) : List String → List String
  | [] => [text]
  | first :: rest =>
      if text < first then text :: first :: rest
      else if text = first then first :: rest
      else first :: insertOrdered text rest

theorem mem_insertOrdered {text other : String} {texts : List String} :
    other ∈ insertOrdered text texts ↔ other = text ∨ other ∈ texts := by
  induction texts with
  | nil => simp [insertOrdered]
  | cons first rest ih =>
      simp only [insertOrdered]
      split
      · simp
      · split
        · rename_i same
          subst same
          simp
        · simp only [List.mem_cons, ih]
          constructor
          · rintro (found | found | found)
            · exact Or.inr (Or.inl found)
            · exact Or.inl found
            · exact Or.inr (Or.inr found)
          · rintro (found | found | found)
            · exact Or.inr (Or.inl found)
            · exact Or.inl found
            · exact Or.inr (Or.inr found)

theorem insertOrdered_ascending {text : String} {texts : List String}
    (ascending : texts.Pairwise (· < ·)) : (insertOrdered text texts).Pairwise (· < ·) := by
  induction texts with
  | nil => simp [insertOrdered]
  | cons first rest ih =>
      obtain ⟨below, tail⟩ := List.pairwise_cons.mp ascending
      simp only [insertOrdered]
      split
      · rename_i less
        refine List.pairwise_cons.mpr ⟨?_, ascending⟩
        intro other member
        rcases List.mem_cons.mp member with found | found
        · exact found ▸ less
        · exact String.lt_trans less (below other found)
      · split
        · exact ascending
        · rename_i notLess different
          refine List.pairwise_cons.mpr ⟨?_, ih tail⟩
          intro other member
          rcases mem_insertOrdered.mp member with found | found
          · subst found
            grind
          · exact below other found

/-- Texts in ascending order, each once. Spellings that differ in case are different texts. -/
structure TagSet where
  tags : List String
  ascending : tags.Pairwise (· < ·)
  deriving DecidableEq, Repr

namespace TagSet

def empty : TagSet := ⟨[], .nil⟩

def insert (set : TagSet) (tag : String) : TagSet :=
  ⟨insertOrdered tag set.tags, insertOrdered_ascending set.ascending⟩

def ofList (tags : List String) : TagSet :=
  tags.foldl insert empty

theorem mem_tags_insert {set : TagSet} {tag other : String} :
    other ∈ (set.insert tag).tags ↔ other = tag ∨ other ∈ set.tags :=
  mem_insertOrdered

end TagSet

end RiskRules
