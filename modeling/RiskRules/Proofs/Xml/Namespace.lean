import RiskRules.Proofs.Xml.TagContent

/-!
Declarations of namespaces, as attributes: a name that begins with `xmlns:` and a value that holds
anything but the quotation mark around it. Such a text can be put between any two attributes.
-/

namespace RiskRules.Xml

def namespaceAttribute (label : String) (uri : List Char) : Attribute :=
  ⟨"xmlns:" ++ label, uri⟩

def writeNamespace (label : String) (uri : List Char) : List Char :=
  [' '] ++ (("xmlns:" ++ label).toList ++ '=' :: '"' :: (uri ++ ['"']))

variable {label : String} {uri : List Char}

theorem toList_namespaceName :
    ("xmlns:" ++ label).toList = ['x', 'm', 'l', 'n', 's'] ++ ':' :: label.toList := by
  rw [String.toList_append]
  rfl

/-- The local name of a declaration is the prefix that it declares. -/
theorem localName_namespaceAttribute : (namespaceAttribute label uri).localName = label := by
  have passes : ∀ char ∈ ['x', 'm', 'l', 'n', 's'], decide (char ≠ ':') = true :=
    List.all_eq_true.mp rfl
  rw [Attribute.localName, namespaceAttribute, localName, toList_namespaceName,
    dropWhile_stop passes (by decide)]
  exact String.ofList_toList

def namespaceLead (label : String) : List Char :=
  [' '] ++ ("xmlns:" ++ label).toList ++ ['=', '"']

theorem writeNamespace_eq : writeNamespace label uri = namespaceLead label ++ (uri ++ ['"']) := by
  simp [writeNamespace, namespaceLead]

section

variable (inLabel : ∀ char ∈ label.toList, isNameChar char = true) (unclosed : '"' ∉ uri)

include inLabel

theorem isNameChar_of_mem_namespaceName :
    ∀ char ∈ ("xmlns:" ++ label).toList, isNameChar char = true := by
  have letters : ∀ char ∈ ['x', 'm', 'l', 'n', 's'], isNameChar char = true :=
    List.all_eq_true.mp rfl
  rw [toList_namespaceName]
  exact List.forall_mem_append.mpr ⟨letters, List.forall_mem_cons.mpr ⟨rfl, inLabel⟩⟩

theorem notMem_namespaceName {mark : Char} (isMark : isNameChar mark = false) :
    mark ∉ ("xmlns:" ++ label).toList := fun member =>
  ne_of_isNameChar (isNameChar_of_mem_namespaceName inLabel mark member) isMark rfl

include unclosed

theorem starts_writeNamespace :
    Starts (writeNamespace label uri) (namespaceAttribute label uri) [] := by
  have leadBlank : ∀ char ∈ [' '], isBlank char = true := List.forall_mem_singleton.mpr rfl
  have inName := isNameChar_of_mem_namespaceName inLabel
  rw [toList_namespaceName] at inName
  have named : ∀ char ∈ ['m', 'l', 'n', 's'] ++ ':' :: label.toList,
      char ≠ '=' ∧ isBlank char = false := by
    intro char member
    have isName := inName char (List.mem_cons_of_mem _ member)
    exact ⟨ne_of_isNameChar isName (by decide), isBlank_of_isNameChar isName⟩
  have starts : Starts ([' '] ++ 'x' :: (_ ++ ([] ++ '=' :: ([] ++ '"' :: (uri ++ ['"'])))))
      ⟨String.ofList ('x' :: (['m', 'l', 'n', 's'] ++ ':' :: label.toList)), uri⟩ [] :=
    .intro leadBlank (by decide) named nofun nofun (.inl rfl) unclosed
  have name : 'x' :: (['m', 'l', 'n', 's'] ++ ':' :: label.toList) = ("xmlns:" ++ label).toList :=
    toList_namespaceName.symm
  rw [name, String.ofList_toList] at starts
  rw [writeNamespace, ← name]
  exact starts

theorem enclosed_writeNamespace : Enclosed (writeNamespace label uri) := by
  have opened : (namespaceLead label).foldl Quotation.next .outside = .within '"' := by
    have plain := foldl_next_outside (notMem_namespaceName inLabel (by decide))
      (notMem_namespaceName inLabel (by decide))
    rw [namespaceLead, List.foldl_append, List.foldl_append,
      show [' '].foldl Quotation.next .outside = .outside by decide, plain]
    decide
  have noBracket : '>' ∉ namespaceLead label := by
    have plain := notMem_namespaceName inLabel (show isNameChar '>' = false by decide)
    simp only [namespaceLead, List.mem_append, plain, or_false]
    decide
  rw [writeNamespace_eq]
  refine ⟨?_, ?_⟩
  · rw [tagComplete, List.foldl_append, opened, List.foldl_append, foldl_next_within unclosed]
    decide
  · intro front back same
    rcases append_eq_append_cons same with ⟨between, lead⟩ | ⟨between, rfl, behind⟩
    · exact absurd (by simp [lead]) noBracket
    · rcases append_eq_append_cons behind with ⟨more, rfl⟩ | ⟨last, _, mark⟩
      · have stillOpen : '"' ∉ between := fun member =>
          unclosed (List.mem_append_left _ member)
        rw [tagComplete, List.foldl_append, opened, foldl_next_within stillOpen]
        decide
      · have bracket : '>' ∈ ['"'] := by simp [mark]
        exact absurd bracket (by decide)

theorem insertable_writeNamespace : Insertable (writeNamespace label uri) where
  enclosed := enclosed_writeNamespace inLabel unclosed
  spaced := ⟨_, rfl⟩
  last := by
    rw [writeNamespace_eq, ← List.append_assoc, List.getLast?_concat]
    decide

end

end RiskRules.Xml
