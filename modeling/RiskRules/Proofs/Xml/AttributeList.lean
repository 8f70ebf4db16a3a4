import RiskRules.Proofs.Xml.AttributeRun
import RiskRules.Proofs.Xml.Element

/-!
Lists of attributes, read as a whole or as far as one local name is looked for. No two attributes
that are read have one name.
-/

namespace RiskRules.Xml

def Tag.Sound (tag : Tag) : Prop :=
  ∃ given, tag.attributes = Feed.prepend given .finished ∧ (given.map Attribute.name).Nodup

/-- Looking for a local name ends at the first attribute that has it, which has to have a value that
can be resolved, or else at the end of the list. -/
inductive Found (name : String) : List Attribute → Feed Attribute AttributeFault → Prop
  | missing {given : List Attribute} (absent : ∀ one ∈ given, one.localName ≠ name) :
      Found name given .finished
  | present {before : List Attribute} {wanted : Attribute} {text : String}
      {rest : Feed Attribute AttributeFault}
      (absent : ∀ one ∈ before, one.localName ≠ name)
      (named : wanted.localName = name) (read : wanted.text = .ok text) :
      Found name (before ++ [wanted]) rest

def Tag.SoundTo (tag : Tag) (name : String) : Prop :=
  ∃ given rest, tag.attributes = Feed.prepend given rest ∧ (given.map Attribute.name).Nodup ∧
    Found name given rest

theorem names_of_attributesFrom {seen : List (String × Nat)} {position : Nat} {text : List Char}
    {given : List Attribute} {rest : Feed Attribute AttributeFault}
    (read : attributesFrom seen position text = Feed.prepend given rest) :
    (given.map Attribute.name).Nodup ∧
      ∀ one ∈ given, seen.lookup one.name = none := by
  induction given generalizing seen position text with
  | nil => exact ⟨List.nodup_nil, fun _ member => absurd member List.not_mem_nil⟩
  | cons first others ih =>
      obtain ⟨more, start, next, _, fresh, later⟩ := starts_of_attributesFrom read
      obtain ⟨distinct, unseen⟩ := ih later.symm
      have apart : ∀ one ∈ others, seen.lookup one.name = none ∧ one.name ≠ first.name :=
        fun one member => lookup_concat_eq_none.mp (unseen one member)
      constructor
      · rw [List.map_cons, List.nodup_cons]
        refine ⟨?_, distinct⟩
        intro member
        obtain ⟨one, isOther, same⟩ := List.mem_map.mp member
        exact (apart one isOther).2 same
      · rw [List.forall_mem_cons]
        exact ⟨fresh, fun one member => (apart one member).1⟩

section

variable {name : String} {first : Attribute} {later : Feed Attribute AttributeFault}

theorem exists_found_of_named (named : first.localName = name) :
    (∃ given rest, .item first later = Feed.prepend given rest ∧ Found name given rest) ↔
      ∃ text, first.text = .ok text := by
  constructor
  · rintro ⟨given, rest, same, found⟩
    cases found with
    | missing absent =>
        cases given with
        | nil => cases same
        | cons head tail =>
            cases same
            exact absurd named (absent first List.mem_cons_self)
    | @present before wanted text _ absent _ read =>
        cases before with
        | nil =>
            cases same
            exact ⟨text, read⟩
        | cons head tail =>
            cases same
            exact absurd named (absent first List.mem_cons_self)
  · rintro ⟨text, read⟩
    have absent : ∀ one ∈ ([] : List Attribute), one.localName ≠ name :=
      fun _ member => absurd member List.not_mem_nil
    exact ⟨[first], later, rfl, .present absent named read⟩

theorem exists_found_of_passed (passed : first.localName ≠ name) :
    (∃ given rest, .item first later = Feed.prepend given rest ∧ Found name given rest) ↔
      ∃ given rest, later = Feed.prepend given rest ∧ Found name given rest := by
  constructor
  · rintro ⟨given, rest, same, found⟩
    cases found with
    | @missing given absent =>
        cases given with
        | nil => cases same
        | cons head tail =>
            cases same
            exact ⟨tail, .finished, rfl, .missing (List.forall_mem_cons.mp absent).2⟩
    | @present before wanted text _ absent isWanted read =>
        cases before with
        | nil =>
            cases same
            exact absurd isWanted passed
        | cons head tail =>
            cases same
            exact ⟨tail ++ [wanted], rest, rfl,
              .present (List.forall_mem_cons.mp absent).2 isWanted read⟩
  · rintro ⟨given, rest, rfl, found⟩
    refine ⟨first :: given, rest, rfl, ?_⟩
    cases found with
    | missing absent => exact .missing (List.forall_mem_cons.mpr ⟨passed, absent⟩)
    | present absent isWanted read =>
        exact .present (List.forall_mem_cons.mpr ⟨passed, absent⟩) isWanted read

end

end RiskRules.Xml
