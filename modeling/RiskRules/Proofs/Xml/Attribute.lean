import RiskRules.Proofs.Xml.AttributeRun
import RiskRules.Proofs.Xml.Element

/-!
Attributes as they are written: a blank, the name, and the value in double quotes, with references
in place of the five characters that have a name. Whatever the values hold, reading gives them back.
-/

namespace RiskRules.Xml

/-! ### Values -/

def escapeChar : Char → List Char
  | '&' => "&amp;".toList
  | '<' => "&lt;".toList
  | '>' => "&gt;".toList
  | '"' => "&quot;".toList
  | '\'' => "&apos;".toList
  | char => [char]

def escape (text : List Char) : List Char :=
  text.flatMap escapeChar

def specials : List Char :=
  ['&', '<', '>', '"', '\'']

theorem escapeChar_cases (char : Char) :
    (∃ name, escapeChar char = '&' :: name ++ [';'] ∧ name.all Char.isAlpha = true ∧
      ∀ start, reference start name = .ok char) ∨
    (escapeChar char = [char] ∧ char ∉ specials) := by
  unfold escapeChar
  split
  · exact .inl ⟨"amp".toList, by decide, by decide, fun _ => rfl⟩
  · exact .inl ⟨"lt".toList, by decide, by decide, fun _ => rfl⟩
  · exact .inl ⟨"gt".toList, by decide, by decide, fun _ => rfl⟩
  · exact .inl ⟨"quot".toList, by decide, by decide, fun _ => rfl⟩
  · exact .inl ⟨"apos".toList, by decide, by decide, fun _ => rfl⟩
  next ampersand opening closing double single =>
    refine .inr ⟨rfl, ?_⟩
    simp only [specials, List.mem_cons, List.not_mem_nil, or_false]
    rintro (same | same | same | same | same)
    · exact ampersand same
    · exact opening same
    · exact closing same
    · exact double same
    · exact single same

theorem notMem_escape {special : Char} (isSpecial : special ∈ specials) (written : special ≠ '&')
    (text : List Char) : special ∉ escape text := by
  intro member
  obtain ⟨char, _, inside⟩ := List.mem_flatMap.mp member
  rcases escapeChar_cases char with ⟨name, spelled, letters, _⟩ | ⟨spelled, plain⟩
  · rw [spelled] at inside
    have notLetter := List.all_eq_true.mp
      (show specials.all (!Char.isAlpha ·) = true by decide) special isSpecial
    rw [Bool.not_eq_true'] at notLetter
    simp only [List.cons_append, List.mem_cons, List.mem_append, List.not_mem_nil, or_false]
      at inside
    rcases inside with same | inName | same
    · exact written same
    · rw [List.all_eq_true.mp letters special inName] at notLetter
      cases notLetter
    · subst same
      exact absurd isSpecial (by decide)
  · rw [spelled, List.mem_singleton] at inside
    exact plain (inside ▸ isSpecial)

theorem resolveFrom_plain {char : Char} (plain : char ≠ '&') (position : Nat) (rest : List Char) :
    resolveFrom position (char :: rest) =
      (resolveFrom (position + char.utf8Size) rest).map (char :: ·) := by
  rw [resolveFrom.eq_2]
  simp only [if_neg plain]
  rfl

theorem resolveFrom_reference {name : List Char} {char : Char}
    (inside : ∀ letter ∈ name, letter ≠ '&' ∧ letter ≠ ';') {position : Nat}
    (named : reference (position + 1) name = .ok char) (rest : List Char) :
    resolveFrom position ('&' :: (name ++ ';' :: rest)) =
      (resolveFrom (position + 2 + byteLength name) rest).map (char :: ·) := by
  have passes : ∀ letter ∈ name, (decide (letter ≠ '&') && decide (letter ≠ ';')) = true :=
    fun letter member => by simp [inside letter member]
  have stops : (decide (';' ≠ '&') && decide (';' ≠ ';')) = false := by decide
  rw [resolveFrom.eq_2, if_pos rfl]
  split
  next more closed =>
    rw [dropWhile_stop passes stops] at closed
    cases closed
    simp only [takeWhile_stop passes stops, named]
    rfl
  next unclosed => exact absurd (dropWhile_stop passes stops rest) (unclosed rest)

theorem exists_resolveFrom_escapeChar (position : Nat) (char : Char) (rest : List Char) :
    ∃ next, resolveFrom position (escapeChar char ++ rest) =
      (resolveFrom next rest).map (char :: ·) := by
  rcases escapeChar_cases char with ⟨name, spelled, letters, named⟩ | ⟨spelled, plain⟩
  · have inside : ∀ letter ∈ name, letter ≠ '&' ∧ letter ≠ ';' := by
      intro letter member
      have isLetter := List.all_eq_true.mp letters letter member
      constructor <;> rintro rfl <;> cases isLetter
    rw [spelled, List.cons_append, List.cons_append, List.append_assoc, List.singleton_append]
    exact ⟨_, resolveFrom_reference inside (named _) rest⟩
  · have notReference : char ≠ '&' := by
      rintro rfl
      exact plain (by decide)
    rw [spelled, List.singleton_append]
    exact ⟨_, resolveFrom_plain notReference position rest⟩

theorem resolveFrom_escape (position : Nat) (text : List Char) :
    resolveFrom position (escape text) = .ok text := by
  induction text generalizing position with
  | nil =>
      rw [escape, List.flatMap_nil, resolveFrom.eq_1]
  | cons char text ih =>
      obtain ⟨next, resolved⟩ := exists_resolveFrom_escapeChar position char (escape text)
      rw [escape, List.flatMap_cons, ← escape, resolved, ih]
      rfl

/-! ### Names -/

def isNameChar (char : Char) : Bool :=
  !isBlank char && decide (char ∉ ['<', '>', '/', '=', '"', '\'', '!', '?'])

theorem ne_of_isNameChar {char mark : Char} (inName : isNameChar char = true)
    (isMark : isNameChar mark = false) : char ≠ mark := by
  rintro rfl
  rw [inName] at isMark
  cases isMark

theorem isBlank_of_isNameChar {char : Char} (inName : isNameChar char = true) :
    isBlank char = false := by
  simp only [isNameChar, Bool.and_eq_true, Bool.not_eq_true'] at inName
  exact inName.1

def isName (name : String) : Bool :=
  !name.toList.isEmpty && name.toList.all isNameChar

theorem isName_iff (name : String) :
    isName name = true ↔ name.toList ≠ [] ∧ ∀ char ∈ name.toList, isNameChar char = true := by
  simp [isName]

/-! ### Attributes -/

def writeAttribute (given : String × String) : List Char :=
  ' ' :: given.1.toList ++ '=' :: '"' :: escape given.2.toList ++ ['"']

def writeAttributes (attributes : List (String × String)) : List Char :=
  attributes.flatMap writeAttribute

theorem starts_writeAttribute {name : String} (isNamed : isName name = true) (value : String)
    (rest : List Char) :
    Starts (writeAttribute (name, value) ++ rest) ⟨name, escape value.toList⟩ rest := by
  obtain ⟨present, inName⟩ := (isName_iff name).mp isNamed
  obtain ⟨first, more, spelled⟩ := List.exists_cons_of_ne_nil present
  rw [spelled, List.forall_mem_cons] at inName
  have leadBlank : ∀ char ∈ [' '], isBlank char = true := List.forall_mem_singleton.mpr rfl
  have named : ∀ char ∈ more, char ≠ '=' ∧ isBlank char = false := fun char member =>
    ⟨ne_of_isNameChar (inName.2 char member) (by decide),
      isBlank_of_isNameChar (inName.2 char member)⟩
  have starts : Starts ([' '] ++ first :: (more ++ ([] ++ '=' :: ([] ++ '"' ::
      (escape value.toList ++ '"' :: rest))))) ⟨String.ofList (first :: more), _⟩ rest :=
    .intro leadBlank (isBlank_of_isNameChar inName.1) named nofun nofun (.inl rfl)
      (notMem_escape (by decide) (by decide) value.toList)
  rw [← spelled, String.ofList_toList] at starts
  simpa [writeAttribute, spelled] using starts

theorem resolved?_attributesFrom {attributes : List (String × String)}
    (named : ∀ given ∈ attributes, isName given.1 = true)
    (distinct : (attributes.map (·.1)).Nodup) {seen : List (String × Nat)}
    (fresh : ∀ given ∈ attributes, seen.lookup given.1 = none) (position : Nat) :
    resolved? (attributesFrom seen position (writeAttributes attributes)) = some attributes := by
  induction attributes generalizing seen position with
  | nil =>
      rw [writeAttributes, List.flatMap_nil, attributesFrom.eq_def]
      rfl
  | cons given others ih =>
      obtain ⟨name, value⟩ := given
      simp only [List.forall_mem_cons] at named fresh
      rw [List.map_cons, List.nodup_cons] at distinct
      obtain ⟨start, next, read⟩ :=
        exists_attributesFrom_of_starts (starts_writeAttribute named.1 value
          (writeAttributes others)) fresh.1 position
      have freshOthers : ∀ given ∈ others, (seen ++ [(name, start)]).lookup given.1 = none := by
        intro given member
        have apart : given.1 ≠ name := fun same =>
          distinct.1 (List.mem_map.mpr ⟨given, member, same⟩)
        rw [List.lookup_append, fresh.2 given member, List.lookup_cons,
          beq_eq_false_iff_ne.mpr apart]
        rfl
      have text : Attribute.text ⟨name, escape value.toList⟩ = .ok value := by
        simp [Attribute.text, resolveFrom_escape, Except.map]
      rw [writeAttributes, List.flatMap_cons, ← writeAttributes, read, resolved?, text,
        ih named.2 distinct.2 freshOthers]

end RiskRules.Xml
