import RiskRules.Proofs.Json.Nesting

/-!
Reading the outline of a written value gives the value back, where there is room for its nesting.
The same is said of the decoders of texts, names, words and lists.
-/

namespace RiskRules

theorem bind_eq_ok {first : Except ε α} {second : α → Except ε β} {result : β} :
    first >>= second = .ok result ↔ ∃ middle, first = .ok middle ∧ second middle = .ok result := by
  cases first with
  | ok middle =>
      exact ⟨fun read => ⟨middle, rfl, read⟩, fun ⟨_, same, read⟩ => by cases same; exact read⟩
  | error error => exact ⟨fun read => (by cases read), fun ⟨_, same, _⟩ => by cases same⟩

theorem unit_bind_eq_ok {first : Except ε Unit} {second : Unit → Except ε α} {result : α} :
    first >>= second = .ok result ↔ first = .ok () ∧ second () = .ok result := by
  rw [bind_eq_ok]
  exact ⟨fun ⟨_, checked, read⟩ => ⟨checked, read⟩, fun ⟨checked, read⟩ => ⟨(), checked, read⟩⟩

namespace Json

mutual

def Value.depth : Value → Nat
  | .array items => itemsDepth items + 1
  | .object members => membersDepth members + 1
  | .null => 0
  | .bool _ => 0
  | .number _ => 0
  | .string _ => 0

def itemsDepth : List Value → Nat
  | [] => 0
  | item :: rest => max item.depth (itemsDepth rest)

def membersDepth : List (String × Value) → Nat
  | [] => 0
  | (_, value) :: rest => max value.depth (membersDepth rest)

end

theorem depth_texts (texts : List String) : (Value.ofList .string texts).depth = 1 := by
  have flat : itemsDepth (texts.map .string) = 0 := by
    induction texts with
    | nil => rfl
    | cons text rest ih => simpa [itemsDepth, Value.depth] using ih
  rw [Value.ofList, Value.depth, flat]

theorem descend_of_room {room : Nat} (enough : 1 < room) (inside : Nat → Reading α) :
    descend room inside = inside (room - 1) :=
  if_neg (by omega)

theorem descend_eq_ok {room : Nat} {inside : Nat → Reading α} {result : α} :
    descend room inside = .ok result ↔ 1 < room ∧ inside (room - 1) = .ok result := by
  unfold descend
  split
  next shallow => simp [malformed, shallow, Nat.not_lt.mpr]
  next deep => simp [Nat.lt_of_not_le deep]

theorem ArrayEnding.check_eq_ok {ending : ArrayEnding} :
    ending.check = .ok () ↔ ending = .closed := by
  cases ending <;> simp [check, malformed]

theorem ObjectEnding.check_eq_ok {ending : ObjectEnding} {onKey : String → Reading Unit} :
    ending.check onKey = .ok () ↔ ending = .closed := by
  cases ending with
  | noColon key atEnd =>
      simp only [check, bind_eq_ok, reduceCtorEq, iff_false]
      rintro ⟨_, _, _, _, broken⟩
      cases broken
  | _ => simp [check, malformed]

theorem Numeral.value_ofInt {value : Int} (exact : (Number.integer value).IsExact) :
    (ofInt value).value = some (.integer value) := by
  obtain ⟨above, below⟩ := exact
  simp only [Numeral.value, ofInt, foldl_digitsOfNat, isWhole, List.isEmpty_nil,
    Option.isNone_none, Bool.and_self, Bool.true_and]
  by_cases negative : value < 0
  · have size : 0 < value.natAbs ∧ value.natAbs ≤ 0x8000000000000000 := by omega
    have same : -(value.natAbs : Int) = value := by omega
    simp only [negative, size, same, decide_true, Bool.not_true, Bool.false_and, and_self,
      Bool.and_self, Bool.false_eq_true, if_false, if_true]
  · have size : value.natAbs < 0x10000000000000000 := by omega
    have same : (value.natAbs : Int) = value := by omega
    simp only [negative, size, same, decide_true, decide_false, Bool.not_false, Bool.and_self,
      if_true]

theorem Numeral.read_numeral {value : Number} (exact : value.IsExact) :
    value.numeral.read = .ok value := by
  cases value with
  | integer value => rw [Number.numeral, Numeral.read, Numeral.value_ofInt exact]
  | float bits => exact exact.elim

mutual

theorem Node.value_ofValue (value : Value) (exact : value.IsExact) {room : Nat}
    (enough : value.depth < room) : (Node.ofValue value).value room = .ok value := by
  match value, exact with
  | .null, _ => rfl
  | .bool value, _ => rfl
  | .number value, exact =>
      simp only [Node.ofValue, Node.value, Numeral.read_numeral exact]
      rfl
  | .string text, _ =>
      simp only [Node.ofValue, Node.value, Literal.text_ofText]
      rfl
  | .array items, exact =>
      rw [Value.depth] at enough
      rw [Node.ofValue, Node.value, descend_of_room (by omega),
        itemValues_ofItems items exact (by omega)]
      rfl
  | .object members, exact =>
      rw [Value.depth] at enough
      rw [Node.ofValue, Node.value, descend_of_room (by omega),
        memberValues_ofMembers members exact (by omega)]
      rfl

theorem itemValues_ofItems (items : List Value) (exact : itemsExact items) {room : Nat}
    (enough : itemsDepth items < room) : itemValues room (nodesOfItems items) = .ok items := by
  match items, exact with
  | [], _ => rfl
  | item :: rest, ⟨itemExact, restExact⟩ =>
      rw [itemsDepth] at enough
      rw [nodesOfItems, itemValues, Node.value_ofValue item itemExact (by omega),
        itemValues_ofItems rest restExact (by omega)]
      rfl

theorem memberValues_ofMembers (members : List (String × Value)) (exact : membersExact members)
    {room : Nat} (enough : membersDepth members < room) :
    memberValues room (nodesOfMembers members) = .ok members := by
  match members, exact with
  | [], _ => rfl
  | (key, value) :: rest, ⟨valueExact, restExact⟩ =>
      rw [membersDepth] at enough
      rw [nodesOfMembers, memberValues, Literal.text_ofText,
        Node.value_ofValue value valueExact (by omega),
        memberValues_ofMembers rest restExact (by omega)]
      rfl

end

mutual

theorem Node.skip_ofValue (value : Value) : (Node.ofValue value).skip = .ok () := by
  match value with
  | .null => rfl
  | .bool value => rfl
  | .number value => rfl
  | .string text => rfl
  | .array items =>
      rw [Node.ofValue, Node.skip, skipItems_ofItems items]
      rfl
  | .object members =>
      rw [Node.ofValue, Node.skip, skipMembers_ofMembers members]
      rfl

theorem skipItems_ofItems (items : List Value) : skipItems (nodesOfItems items) = .ok () := by
  match items with
  | [] => rfl
  | item :: rest =>
      rw [nodesOfItems, skipItems, Node.skip_ofValue item, unit_bind_eq_ok]
      exact ⟨rfl, skipItems_ofItems rest⟩

theorem skipMembers_ofMembers (members : List (String × Value)) :
    skipMembers (nodesOfMembers members) = .ok () := by
  match members with
  | [] => rfl
  | (key, value) :: rest =>
      rw [nodesOfMembers, skipMembers, unit_bind_eq_ok, unit_bind_eq_ok]
      exact ⟨rfl, Node.skip_ofValue value, skipMembers_ofMembers rest⟩

end

theorem Node.ofValue_injective {left right : Value} (leftExact : left.IsExact)
    (rightExact : right.IsExact) (same : Node.ofValue left = Node.ofValue right) :
    left = right := by
  have readLeft := Node.value_ofValue left leftExact
    (Nat.lt_succ_of_le (Nat.le_max_left left.depth right.depth))
  have readRight := Node.value_ofValue right rightExact
    (Nat.lt_succ_of_le (Nat.le_max_right left.depth right.depth))
  rw [same, readRight] at readLeft
  exact (Except.ok.inj readLeft).symm

theorem Value.compact_injective {left right : Value} (leftExact : left.IsExact)
    (rightExact : right.IsExact) (same : left.compact = right.compact) : left = right := by
  have outlines : Outline.ofText left.compact = Outline.ofText right.compact := by rw [same]
  rw [Outline.ofText_compact leftExact.noFloats, Outline.ofText_compact rightExact.noFloats]
    at outlines
  exact Node.ofValue_injective leftExact rightExact (Outline.mk.inj outlines).1

/-! ### Decoders -/

/-- Wherever more than `depth` levels of nesting are left, `decode` reads the outline of `value`
as `result`. -/
def Decodes (decode : Decoder α) (depth : Nat) (value : Value) (result : α) : Prop :=
  ∀ room, depth < room → decode room (.ofValue value) = .ok result

theorem Decodes.mono {decode : Decoder α} {depth larger : Nat} {value : Value} {result : α}
    (decodes : Decodes decode depth value result) (le : depth ≤ larger) :
    Decodes decode larger value result :=
  fun room enough => decodes room (Nat.lt_of_le_of_lt le enough)

theorem wrongType_ne_ok {node : Node} {expected : String} {result : α} :
    wrongType node expected ≠ .ok result := by
  intro read
  simp only [wrongType, bind_eq_ok] at read
  obtain ⟨_, _, mismatched⟩ := read
  cases mismatched

theorem decodes_string {depth : Nat} (text : String) :
    Decodes stringValue depth (.string text) text :=
  fun _ _ => Literal.text_ofText text

theorem decodes_bool {depth : Nat} (value : Bool) : Decodes boolValue depth (.bool value) value :=
  fun _ _ => rfl

theorem namedVariant_name [Enumeration α] (value : α) :
    namedVariant (Enumeration.name value) = .ok value := by
  rw [namedVariant, Enumeration.ofName?_name]

theorem decodes_name [Enumeration α] {depth : Nat} (value : α) :
    Decodes enumValue depth (nameValue value) value := by
  intro room _
  rw [nameValue, Node.ofValue, enumValue, Literal.text_ofText]
  exact namedVariant_name value

theorem variantName_name [Enumeration α] (room : Nat) (value : α) :
    variantName room (.ofValue (nameValue value)) = .ok value := by
  rw [nameValue, Node.ofValue, variantName, Literal.text_ofText]
  exact namedVariant_name value

theorem isExact_natCast {number : Nat} (small : number < 2 ^ 64) :
    (Number.integer number).IsExact := by
  simp only [Number.IsExact]
  omega

theorem decodes_word32 {depth : Nat} (word : UInt32) :
    Decodes word32Value depth (.ofNat word.toNat) word := by
  intro room _
  have small : word.toNat < 2 ^ 32 := word.toNat_lt
  have read := Numeral.read_numeral (isExact_natCast (Nat.lt_trans small (by decide)))
  have inRange : (0 : Int) ≤ word.toNat ∧ (word.toNat : Int) < 0x100000000 := by omega
  rw [Number.numeral] at read
  rw [Value.ofNat, Node.ofValue, Number.numeral]
  unfold word32Value
  simp only [read, bind, Except.bind, if_pos inRange, Int.toNat_natCast, UInt32.ofNat_toNat]

theorem decodes_some {decode : Decoder α} {depth : Nat} {value : Value} {result : α}
    (decodes : Decodes decode depth value result) (present : value ≠ .null) :
    Decodes (optionOf decode) depth value (some result) := by
  intro room enough
  have inner := decodes room enough
  cases value with
  | null => exact absurd rfl present
  | _ =>
      simp only [Node.ofValue] at inner ⊢
      rw [optionOf, inner]
      · rfl
      · simp

theorem mapM_ofItems {decode : Node → Reading α} {encode : α → Value} {results : List α}
    (decodes : ∀ result ∈ results, decode (.ofValue (encode result)) = .ok result) :
    (nodesOfItems (results.map encode)).mapM decode = .ok results := by
  induction results with
  | nil => rfl
  | cons result rest ih =>
      rw [List.map_cons, nodesOfItems, List.mapM_cons, decodes result List.mem_cons_self,
        ih fun other member => decodes other (List.mem_cons_of_mem result member)]
      rfl

theorem decodes_list {decode : Decoder α} {depth : Nat} {encode : α → Value} {results : List α}
    (decodes : ∀ result ∈ results, Decodes decode depth (encode result) result) :
    Decodes (listOf decode) (depth + 1) (.ofList encode results) results := by
  intro room enough
  rw [Value.ofList, Node.ofValue, listOf, descend_of_room (by omega),
    mapM_ofItems fun result member => decodes result member (room - 1) (by omega)]
  rfl

theorem listOf_eq_ok {decode : Decoder α} {room : Nat} {node : Node} {results : List α} :
    listOf decode room node = .ok results ↔
      ∃ items, node = .array items .closed ∧ 1 < room ∧
        items.mapM (decode (room - 1)) = .ok results := by
  cases node with
  | array items ending =>
      simp only [listOf, descend_eq_ok, bind_eq_ok]
      constructor
      · rintro ⟨deep, results, inside, _, ended, same⟩
        cases same
        cases ArrayEnding.check_eq_ok.mp ended
        exact ⟨items, rfl, deep, inside⟩
      · rintro ⟨_, same, deep, inside⟩
        cases same
        exact ⟨deep, results, inside, (), rfl, rfl⟩
  | _ => simp [listOf, wrongType_ne_ok]

theorem decodes_texts (texts : List String) :
    Decodes (listOf stringValue) 1 (.ofList .string texts) texts :=
  decodes_list fun text _ => decodes_string text

theorem readText_pretty {decode : Decoder α} {depth : Nat} {value : Value} {result : α}
    (decodes : Decodes decode depth value result) (whole : value.NoFloats)
    (shallow : depth < startingRoom) : readText decode (value.pretty ++ "\n") = .ok result := by
  simp only [readText, Outline.ofText_pretty whole, decodes startingRoom shallow]
  rfl

end Json

end RiskRules
