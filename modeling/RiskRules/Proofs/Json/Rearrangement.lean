import RiskRules.Proofs.Json.Document
import RiskRules.Proofs.Json.Record
import RiskRules.Proofs.Json.Respelling

/-!
Reading does not depend on the arrangement of a document: the members of every object may stand in
any order and every string may be spelled in any way. Items of arrays keep their places.
-/

namespace RiskRules.Json

mutual

inductive Node.Rearranges : Node → Node → Prop
  | null : Node.Rearranges .null .null
  | bool (value : Bool) : Node.Rearranges (.bool value) (.bool value)
  | number (numeral : Numeral) : Node.Rearranges (.number numeral) (.number numeral)
  | string {literal other : Literal} (respells : literal.Respells other) :
      Node.Rearranges (.string literal) (.string other)
  | array {items others : List Node} {ending : ArrayEnding} (each : ItemsRearrange items others) :
      Node.Rearranges (.array items ending) (.array others ending)
  | object {members arranged others : List (Literal × Node)} {ending : ObjectEnding}
      (each : MembersRearrange members arranged) (permuted : arranged.Perm others) :
      Node.Rearranges (.object members ending) (.object others ending)

inductive ItemsRearrange : List Node → List Node → Prop
  | nil : ItemsRearrange [] []
  | cons {item other : Node} {items others : List Node} (first : item.Rearranges other)
      (rest : ItemsRearrange items others) : ItemsRearrange (item :: items) (other :: others)

inductive MembersRearrange : List (Literal × Node) → List (Literal × Node) → Prop
  | nil : MembersRearrange [] []
  | cons {key otherKey : Literal} {node other : Node} {members others : List (Literal × Node)}
      (named : key.Respells otherKey) (first : node.Rearranges other)
      (rest : MembersRearrange members others) :
      MembersRearrange ((key, node) :: members) ((otherKey, other) :: others)

end

/-! ### Skipped values and values of any kind -/

theorem skipMembers_eq_ok {members : List (Literal × Node)} :
    skipMembers members = .ok () ↔
      ∀ member ∈ members, member.1.skip = .ok () ∧ member.2.skip = .ok () := by
  induction members with
  | nil => simp [skipMembers]
  | cons member rest ih =>
      simp only [skipMembers, unit_bind_eq_ok, ih, List.forall_mem_cons, and_assoc]

mutual

theorem Node.Rearranges.skip {node other : Node} (rearranges : node.Rearranges other)
    (skipped : node.skip = .ok ()) : other.skip = .ok () := by
  match rearranges with
  | .null => rfl
  | .bool _ => rfl
  | .number _ => rfl
  | .string respells => exact Literal.skip_eq_ok.mpr respells.otherEnded
  | .array each =>
      simp only [Node.skip, unit_bind_eq_ok] at skipped ⊢
      exact ⟨each.skip skipped.1, skipped.2⟩
  | .object each permuted =>
      simp only [Node.skip, unit_bind_eq_ok] at skipped ⊢
      obtain ⟨inside, ended⟩ := skipped
      refine ⟨?_, ended⟩
      have arranged := skipMembers_eq_ok.mp (each.skip inside)
      exact skipMembers_eq_ok.mpr fun member found => arranged member (permuted.mem_iff.mpr found)

theorem ItemsRearrange.skip {items others : List Node} (each : ItemsRearrange items others)
    (skipped : skipItems items = .ok ()) : skipItems others = .ok () := by
  match each with
  | .nil => rfl
  | .cons first rest =>
      simp only [skipItems, unit_bind_eq_ok] at skipped ⊢
      exact ⟨first.skip skipped.1, rest.skip skipped.2⟩

theorem MembersRearrange.skip {members others : List (Literal × Node)}
    (each : MembersRearrange members others) (skipped : skipMembers members = .ok ()) :
    skipMembers others = .ok () := by
  match each with
  | .nil => rfl
  | .cons named first rest =>
      simp only [skipMembers, unit_bind_eq_ok] at skipped ⊢
      obtain ⟨_, skippedFirst, skippedRest⟩ := skipped
      exact ⟨Literal.skip_eq_ok.mpr named.otherEnded, first.skip skippedFirst,
        rest.skip skippedRest⟩

end

theorem ArrayEnding.skip_of_check {ending : ArrayEnding} (ended : ending.check = .ok ()) :
    ending.skip = .ok () :=
  ArrayEnding.skip_eq_ok.mpr (ArrayEnding.check_eq_ok.mp ended)

theorem ObjectEnding.skip_of_check {ending : ObjectEnding} {onKey : String → Reading Unit}
    (ended : ending.check onKey = .ok ()) : ending.skip = .ok () :=
  ObjectEnding.skip_eq_ok.mpr (ObjectEnding.check_eq_ok.mp ended)

theorem joinPieces_ended {fault : Option StringFault} {done chars : List Char}
    {pieces : List Piece} (read : joinPieces fault done pieces = .ok chars) : fault = none := by
  fun_induction joinPieces fault done pieces with
  | case1 _ none => exact none
  | case3 _ _ _ ih => exact ih read
  | case7 _ _ _ _ _ _ _ ih => exact ih read
  | case9 _ _ _ _ _ ih => exact ih read
  | _ => cases read

theorem Literal.skip_of_text {literal : Literal} {text : String} (read : literal.text = .ok text) :
    literal.skip = .ok () := by
  unfold Literal.text at read
  split at read
  next chars joined => exact Literal.skip_eq_ok.mpr (joinPieces_ended joined)
  next => cases read

mutual

theorem Node.skip_of_value (node : Node) {room : Nat} {value : Value}
    (read : node.value room = .ok value) : node.skip = .ok () := by
  match node with
  | .null => rfl
  | .bool _ => rfl
  | .number _ => rfl
  | .string literal =>
      simp only [Node.value, bind_eq_ok] at read
      obtain ⟨_, named, _⟩ := read
      exact Literal.skip_of_text named
  | .fault _ => cases read
  | .array items ending =>
      simp only [Node.value, descend_eq_ok, bind_eq_ok] at read
      obtain ⟨_, values, inside, _, ended, _⟩ := read
      simp only [Node.skip, unit_bind_eq_ok]
      exact ⟨skipItems_of_values items inside, ending.skip_of_check ended⟩
  | .object members ending =>
      simp only [Node.value, descend_eq_ok, bind_eq_ok] at read
      obtain ⟨_, values, inside, _, ended, _⟩ := read
      simp only [Node.skip, unit_bind_eq_ok]
      exact ⟨skipMembers_of_values members inside, ending.skip_of_check ended⟩

theorem skipItems_of_values (items : List Node) {room : Nat} {values : List Value}
    (read : itemValues room items = .ok values) : skipItems items = .ok () := by
  match items with
  | [] => rfl
  | item :: rest =>
      simp only [itemValues, bind_eq_ok] at read
      obtain ⟨_, first, _, others, _⟩ := read
      simp only [skipItems, unit_bind_eq_ok]
      exact ⟨item.skip_of_value first, skipItems_of_values rest others⟩

theorem skipMembers_of_values (members : List (Literal × Node)) {room : Nat}
    {values : List (String × Value)} (read : memberValues room members = .ok values) :
    skipMembers members = .ok () := by
  match members with
  | [] => rfl
  | (key, node) :: rest =>
      simp only [memberValues, bind_eq_ok] at read
      obtain ⟨_, named, _, first, _, others, _⟩ := read
      simp only [skipMembers, unit_bind_eq_ok]
      exact ⟨Literal.skip_of_text named, node.skip_of_value first,
        skipMembers_of_values rest others⟩

end

theorem exists_memberValues {room : Nat} {members : List (Literal × Node)} :
    (∃ values, memberValues room members = .ok values) ↔
      ∀ member ∈ members, (∃ name, member.1.text = .ok name) ∧
        ∃ value, member.2.value room = .ok value := by
  induction members with
  | nil => simp [memberValues]
  | cons member rest ih =>
      rw [List.forall_mem_cons, ← ih]
      simp only [memberValues, bind_eq_ok]
      constructor
      · rintro ⟨_, name, named, value, first, values, others, _⟩
        exact ⟨⟨⟨name, named⟩, value, first⟩, values, others⟩
      · rintro ⟨⟨⟨name, named⟩, value, first⟩, values, others⟩
        exact ⟨_, name, named, value, first, values, others, rfl⟩

mutual

/-- The members of a value may come in another order, so only that there is one is the same. -/
theorem Node.Rearranges.value {node other : Node} (rearranges : node.Rearranges other) {room : Nat}
    (read : ∃ value, node.value room = .ok value) : ∃ value, other.value room = .ok value := by
  match rearranges with
  | .null => exact read
  | .bool _ => exact read
  | .number _ => exact read
  | .string respells =>
      simp only [Node.value, bind_eq_ok] at read ⊢
      obtain ⟨value, text, named, same⟩ := read
      exact ⟨value, text, respells.text named, same⟩
  | .array each =>
      simp only [Node.value, descend_eq_ok, bind_eq_ok] at read ⊢
      obtain ⟨_, deep, values, inside, _, ended, _⟩ := read
      obtain ⟨others, insideOther⟩ := each.values ⟨values, inside⟩
      exact ⟨_, deep, others, insideOther, (), ended, rfl⟩
  | .object each permuted =>
      simp only [Node.value, descend_eq_ok, bind_eq_ok] at read ⊢
      obtain ⟨_, deep, values, inside, _, ended, _⟩ := read
      have arranged := exists_memberValues.mp (each.values ⟨values, inside⟩)
      obtain ⟨others, insideOther⟩ := exists_memberValues.mpr fun member found =>
        arranged member (permuted.mem_iff.mpr found)
      exact ⟨_, deep, others, insideOther, (), ended, rfl⟩

theorem ItemsRearrange.values {items others : List Node} (each : ItemsRearrange items others)
    {room : Nat} (read : ∃ values, itemValues room items = .ok values) :
    ∃ values, itemValues room others = .ok values := by
  match each with
  | .nil => exact read
  | .cons first rest =>
      simp only [itemValues, bind_eq_ok] at read ⊢
      obtain ⟨_, value, readFirst, values, readRest, _⟩ := read
      obtain ⟨otherValue, otherFirst⟩ := first.value ⟨value, readFirst⟩
      obtain ⟨otherValues, otherRest⟩ := rest.values ⟨values, readRest⟩
      exact ⟨_, otherValue, otherFirst, otherValues, otherRest, rfl⟩

theorem MembersRearrange.values {members others : List (Literal × Node)}
    (each : MembersRearrange members others) {room : Nat}
    (read : ∃ values, memberValues room members = .ok values) :
    ∃ values, memberValues room others = .ok values := by
  match each with
  | .nil => exact read
  | .cons named first rest =>
      simp only [memberValues, bind_eq_ok] at read ⊢
      obtain ⟨_, name, readName, value, readFirst, values, readRest, _⟩ := read
      obtain ⟨otherValue, otherFirst⟩ := first.value ⟨value, readFirst⟩
      obtain ⟨otherValues, otherRest⟩ := rest.values ⟨values, readRest⟩
      exact ⟨_, name, named.text readName, otherValue, otherFirst, otherValues, otherRest, rfl⟩

end

/-! ### Written values -/

theorem Value.writes_compact {value : Value} (exact : value.IsExact) :
    (Node.ofValue value).Writes value.compact :=
  Node.writes_of_ofText (Outline.ofText_compact exact.noFloats) (Node.skip_ofValue value)

theorem Value.writes_pretty {value : Value} (exact : value.IsExact) :
    (Node.ofValue value).Writes (value.pretty ++ "\n") :=
  Node.writes_of_ofText (Outline.ofText_pretty exact.noFloats) (Node.skip_ofValue value)

mutual

def Value.reversed : Value → Value
  | .array items => .array (reversedItems items)
  | .object members => .object (reversedMembers members)
  | .null => .null
  | .bool value => .bool value
  | .number value => .number value
  | .string text => .string text

def reversedItems : List Value → List Value
  | [] => []
  | item :: rest => item.reversed :: reversedItems rest

def reversedMembers : List (String × Value) → List (String × Value)
  | [] => []
  | (key, value) :: rest => reversedMembers rest ++ [(key, value.reversed)]

end

mutual

theorem Value.isExact_reversed (value : Value) (exact : value.IsExact) :
    value.reversed.IsExact := by
  match value, exact with
  | .null, _ => trivial
  | .bool _, _ => trivial
  | .number _, isExact => exact isExact
  | .string _, _ => trivial
  | .array items, isExact => exact itemsExact_reversed items isExact
  | .object members, isExact => exact membersExact_reversed members isExact

theorem itemsExact_reversed (items : List Value) (exact : itemsExact items) :
    itemsExact (reversedItems items) := by
  match items, exact with
  | [], _ => trivial
  | item :: rest, ⟨first, others⟩ =>
      exact ⟨item.isExact_reversed first, itemsExact_reversed rest others⟩

theorem membersExact_reversed (members : List (String × Value)) (exact : membersExact members) :
    membersExact (reversedMembers members) := by
  match members, exact with
  | [], _ => trivial
  | (key, value) :: rest, ⟨first, others⟩ =>
      exact membersExact_append (membersExact_reversed rest others)
        ⟨value.isExact_reversed first, trivial⟩

end

theorem respells_ofText (text : String) : (Literal.ofText text).Respells (.ofText text) :=
  ⟨rfl, rfl, rfl⟩

mutual

theorem Value.rearranges_self (value : Value) :
    (Node.ofValue value).Rearranges (.ofValue value) := by
  match value with
  | .null => exact .null
  | .bool value => exact .bool value
  | .number value => exact .number value.numeral
  | .string text => exact .string (respells_ofText text)
  | .array items => exact .array (itemsRearrange_self items)
  | .object members => exact .object (membersRearrange_self members) (List.Perm.refl _)

theorem itemsRearrange_self (items : List Value) :
    ItemsRearrange (nodesOfItems items) (nodesOfItems items) := by
  match items with
  | [] => exact .nil
  | item :: rest => exact .cons item.rearranges_self (itemsRearrange_self rest)

theorem membersRearrange_self (members : List (String × Value)) :
    MembersRearrange (nodesOfMembers members) (nodesOfMembers members) := by
  match members with
  | [] => exact .nil
  | (key, value) :: rest =>
      exact .cons (respells_ofText key) value.rearranges_self (membersRearrange_self rest)

end

theorem nodesOfMembers_concat (members : List (String × Value)) (key : String) (value : Value) :
    nodesOfMembers (members ++ [(key, value)]) =
      nodesOfMembers members ++ [(.ofText key, .ofValue value)] := by
  induction members with
  | nil => rfl
  | cons member rest ih =>
      obtain ⟨first, other⟩ := member
      simp [nodesOfMembers, ih]

mutual

theorem Value.rearranges_reversed (value : Value) :
    (Node.ofValue value).Rearranges (.ofValue value.reversed) := by
  match value with
  | .null => exact .null
  | .bool value => exact .bool value
  | .number value => exact .number value.numeral
  | .string text => exact .string (respells_ofText text)
  | .array items => exact .array (itemsRearrange_reversed items)
  | .object members =>
      obtain ⟨arranged, each, permuted⟩ := membersRearrange_reversed members
      exact .object each permuted

theorem itemsRearrange_reversed (items : List Value) :
    ItemsRearrange (nodesOfItems items) (nodesOfItems (reversedItems items)) := by
  match items with
  | [] => exact .nil
  | item :: rest => exact .cons item.rearranges_reversed (itemsRearrange_reversed rest)

theorem membersRearrange_reversed (members : List (String × Value)) :
    ∃ arranged, MembersRearrange (nodesOfMembers members) arranged ∧
      arranged.Perm (nodesOfMembers (reversedMembers members)) := by
  match members with
  | [] => exact ⟨[], .nil, .nil⟩
  | (key, value) :: rest =>
      obtain ⟨arranged, each, permuted⟩ := membersRearrange_reversed rest
      refine ⟨(.ofText key, .ofValue value.reversed) :: arranged,
        .cons (respells_ofText key) value.rearranges_reversed each, ?_⟩
      rw [reversedMembers, nodesOfMembers_concat]
      exact (permuted.cons _).trans (List.perm_append_singleton _ _).symm

end

end RiskRules.Json
