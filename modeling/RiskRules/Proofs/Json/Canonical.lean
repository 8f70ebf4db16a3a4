import RiskRules.Proofs.Json.Reading

/-!
Canonical forms. Two objects with one canonical form have the same parts, up to canonical form, and
two exact values with one canonical text have the same canonical form. What is shown here of parts
is put together for records elsewhere.
-/

namespace RiskRules.Json

namespace Value

/-! ### Sorted members -/

theorem mem_insertMember {key : String} {value : Value} {members : List (String × Value)}
    {member : String × Value} (found : member ∈ insertMember key value members) :
    member = (key, value) ∨ member ∈ members := by
  induction members with
  | nil => exact Or.inl (List.mem_singleton.mp found)
  | cons first rest ih =>
      simp only [insertMember] at found
      split at found
      · simpa using found
      · split at found
        · rcases List.mem_cons.mp found with same | later
          · exact Or.inl same
          · exact Or.inr (List.mem_cons_of_mem first later)
        · rcases List.mem_cons.mp found with same | later
          · exact Or.inr (same ▸ List.mem_cons_self)
          · rcases ih later with same | earlier
            · exact Or.inl same
            · exact Or.inr (List.mem_cons_of_mem first earlier)

theorem mem_foldl_insertMember {members sorted : List (String × Value)} {member : String × Value}
    (found : member ∈ members.foldl (fun sorted (key, value) => insertMember key value sorted)
      sorted) : member ∈ members ∨ member ∈ sorted := by
  induction members generalizing sorted with
  | nil => exact Or.inr found
  | cons first rest ih =>
      rcases ih found with later | inserted
      · exact Or.inl (List.mem_cons_of_mem first later)
      · rcases mem_insertMember inserted with same | earlier
        · exact Or.inl (same ▸ List.mem_cons_self)
        · exact Or.inr earlier

def first? (key : String) : Value → Option Value
  | .object members => (members.find? (·.1 = key)).map (·.2)
  | _ => none

@[simp] theorem first?_nil (key : String) : (object []).first? key = none := rfl

theorem first?_cons (key name : String) (value : Value) (rest : List (String × Value)) :
    (object ((name, value) :: rest)).first? key =
      if name = key then some value else (object rest).first? key := by
  by_cases same : name = key <;> simp [first?, same]

theorem first?_insertMember (key other : String) (value : Value)
    (members : List (String × Value)) :
    (object (insertMember key value members)).first? other =
      if key = other then some value else (object members).first? other := by
  induction members with
  | nil => rw [insertMember, first?_cons]
  | cons member rest ih =>
      obtain ⟨name, found⟩ := member
      rw [insertMember]
      split
      · rw [first?_cons]
      · split
        next same =>
          subst same
          simp only [first?_cons]
          split <;> rfl
        next different =>
          simp only [first?_cons, ih]
          by_cases same : key = other
          · subst same
            simp [Ne.symm different]
          · simp [same]

@[simp] theorem member?_nil (key : String) : (object []).member? key = none := rfl

@[simp] theorem member?_append (key : String) (first second : List (String × Value)) :
    (object (first ++ second)).member? key =
      ((object second).member? key).or ((object first).member? key) := by
  simp [member?, List.find?_append, Option.map_or]

@[simp] theorem member?_cons (key name : String) (value : Value) (rest : List (String × Value)) :
    (object ((name, value) :: rest)).member? key =
      ((object rest).member? key).or (if name = key then some value else none) := by
  rw [← List.singleton_append, member?_append]
  by_cases same : name = key <;> simp [member?, same]

theorem first?_foldl_insertMember (key : String) (members sorted : List (String × Value)) :
    (object (members.foldl (fun sorted (key, value) => insertMember key value sorted)
      sorted)).first? key = ((object members).member? key).or ((object sorted).first? key) := by
  induction members generalizing sorted with
  | nil => rfl
  | cons member rest ih =>
      obtain ⟨name, value⟩ := member
      -- What comes later in `rest` wins over this member, and this one over what was sorted before.
      rw [List.foldl_cons, ih, first?_insertMember, member?_cons, Option.or_assoc]
      by_cases same : name = key <;> simp [same]

theorem first?_sortMembers (key : String) (members : List (String × Value)) :
    (object (sortMembers members)).first? key = (object members).member? key := by
  rw [sortMembers, first?_foldl_insertMember, first?_nil, Option.or_none]

theorem canonicalMembers_eq_map (members : List (String × Value)) :
    canonicalMembers members = members.map fun member => (member.1, member.2.canonical) := by
  induction members with
  | nil => rfl
  | cons member rest ih => rw [canonicalMembers, ih, List.map_cons]

theorem canonicalItems_eq_map (items : List Value) : canonicalItems items = items.map canonical := by
  induction items with
  | nil => rfl
  | cons item rest ih => rw [canonicalItems, ih, List.map_cons]

theorem member?_canonicalMembers (key : String) (members : List (String × Value)) :
    (object (canonicalMembers members)).member? key =
      ((object members).member? key).map canonical := by
  rw [canonicalMembers_eq_map]
  simp only [member?, List.findRev?_eq_find?_reverse, ← List.map_reverse, List.find?_map,
    Option.map_map]
  rfl

theorem first?_canonical (key : String) (value : Value) :
    value.canonical.first? key = (value.member? key).map canonical := by
  cases value with
  | object members => rw [canonical, first?_sortMembers, member?_canonicalMembers]
  | _ => rfl

theorem member?_of_canonical {left right : Value} (same : left.canonical = right.canonical)
    (key : String) : (left.member? key).map canonical = (right.member? key).map canonical := by
  rw [← first?_canonical, same, first?_canonical]

/-! ### Exactness -/

end Value

theorem membersExact_sortMembers {members : List (String × Value)} (exact : membersExact members) :
    membersExact (Value.sortMembers members) := by
  rw [membersExact_iff] at exact ⊢
  intro member found
  rcases Value.mem_foldl_insertMember found with given | absent
  · exact exact member given
  · exact absurd absent List.not_mem_nil

mutual

theorem Value.isExact_canonical (value : Value) (exact : value.IsExact) :
    value.canonical.IsExact := by
  match value, exact with
  | .null, _ => trivial
  | .bool _, _ => trivial
  | .string _, _ => trivial
  | .number _, given => exact given
  | .array items, given => exact itemsExact_canonicalItems items given
  | .object members, given =>
      exact membersExact_sortMembers (membersExact_canonicalMembers members given)

theorem itemsExact_canonicalItems (items : List Value) (exact : itemsExact items) :
    itemsExact (Value.canonicalItems items) := by
  match items, exact with
  | [], _ => trivial
  | item :: rest, ⟨itemExact, restExact⟩ =>
      exact ⟨Value.isExact_canonical item itemExact, itemsExact_canonicalItems rest restExact⟩

theorem membersExact_canonicalMembers (members : List (String × Value))
    (exact : membersExact members) : membersExact (Value.canonicalMembers members) := by
  match members, exact with
  | [], _ => trivial
  | (_, value) :: rest, ⟨valueExact, restExact⟩ =>
      exact ⟨Value.isExact_canonical value valueExact, membersExact_canonicalMembers rest restExact⟩

end

theorem Value.canonicalText_eq_iff {left right : Value} (leftExact : left.IsExact)
    (rightExact : right.IsExact) :
    left.canonicalText = right.canonicalText ↔ left.canonical = right.canonical := by
  constructor
  · exact compact_injective (isExact_canonical left leftExact) (isExact_canonical right rightExact)
  · intro same
    rw [canonicalText, same, canonicalText]

/-! ### Records -/

def Separates (encode : α → Value) (left right : α) : Prop :=
  (encode left).canonical = (encode right).canonical → left = right

theorem separates_string (left right : String) : Separates .string left right :=
  Value.string.inj

theorem separates_name [Enumeration α] (left right : α) : Separates nameValue left right :=
  fun same => Enumeration.name_injective _ _ (Value.string.inj same)

theorem separates_word32 (left right : UInt32) :
    Separates (fun word => .ofNat word.toNat) left right := by
  intro same
  have numbers : (left.toNat : Int) = right.toNat := Number.integer.inj (Value.number.inj same)
  exact UInt32.toNat_inj.mp (by omega)

theorem separates_list {encode : α → Value} {left right : List α}
    (each : ∀ first ∈ left, ∀ second ∈ right, Separates encode first second) :
    Separates (Value.ofList encode) left right := by
  intro same
  have items := Value.array.inj same
  rw [Value.canonicalItems_eq_map, Value.canonicalItems_eq_map, List.map_map, List.map_map] at items
  clear same
  induction left generalizing right with
  | nil => exact (List.map_eq_nil_iff.mp items.symm).symm
  | cons first left ih =>
      cases right with
      | nil => cases items
      | cons second right =>
          simp only [List.map_cons, List.cons.injEq] at items
          obtain rfl := each first List.mem_cons_self second List.mem_cons_self items.1
          rw [ih (fun first member second other => each first (List.mem_cons_of_mem _ member) second
            (List.mem_cons_of_mem _ other)) items.2]

theorem separates_texts (left right : List String) :
    Separates (Value.ofList .string) left right :=
  separates_list fun first _ second _ => separates_string first second

theorem optional_eq {write : β → Value} {left right : β}
    (same : (write left).canonical = (write right).canonical) (key : String)
    (encode : α → Value) (part : β → Option α)
    (found : ∀ record, (write record).member? key = (part record).map encode)
    (separates : ∀ first second, Separates encode first second) : part left = part right := by
  have parts := Value.member?_of_canonical same key
  rw [found, found, Option.map_map, Option.map_map] at parts
  cases inLeft : part left with
  | none =>
      cases inRight : part right with
      | none => rfl
      | some second => simp [inLeft, inRight] at parts
  | some first =>
      cases inRight : part right with
      | none => simp [inLeft, inRight] at parts
      | some second =>
          rw [inLeft, inRight] at parts
          rw [separates first second (Option.some.inj parts)]

theorem part_eq {write : β → Value} {left right : β}
    (same : (write left).canonical = (write right).canonical) (key : String)
    (encode : α → Value) (part : β → α)
    (found : ∀ record, (write record).member? key = some (encode (part record)))
    (separates : Separates encode (part left) (part right)) : part left = part right := by
  have parts := Value.member?_of_canonical same key
  rw [found, found] at parts
  exact separates (Option.some.inj parts)

end RiskRules.Json
