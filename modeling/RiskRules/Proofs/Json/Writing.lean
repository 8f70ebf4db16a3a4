import Mathlib.Algebra.Group.Int.Defs
import Mathlib.Algebra.Group.Nat.Defs
import RiskRules.Proofs.Json.Spelling

/-!
Both written forms of a value have the same tokens: those of the value's outline. Values that hold
floating-point numbers are left out. Values whose integers all fit into 64 bits are exact: they are
also read back as they were.
-/

namespace RiskRules.Json

/-- Integers outside the range of 64 bits and floating-point numbers are left out. -/
def Number.IsExact : Number → Prop
  | .integer value => -2 ^ 63 ≤ value ∧ value < 2 ^ 64
  | .float _ => False

def Number.numeral : Number → Numeral
  | .integer value => .ofInt value
  | .float _ => .ofInt 0

mutual

def Value.IsExact : Value → Prop
  | .number value => value.IsExact
  | .array items => itemsExact items
  | .object members => membersExact members
  | .null => True
  | .bool _ => True
  | .string _ => True

def itemsExact : List Value → Prop
  | [] => True
  | item :: rest => item.IsExact ∧ itemsExact rest

def membersExact : List (String × Value) → Prop
  | [] => True
  | (_, value) :: rest => value.IsExact ∧ membersExact rest

end

theorem itemsExact_iff {items : List Value} : itemsExact items ↔ ∀ item ∈ items, item.IsExact := by
  induction items with
  | nil => simp [itemsExact]
  | cons item rest ih => simp [itemsExact, ih]

theorem membersExact_iff {members : List (String × Value)} :
    membersExact members ↔ ∀ member ∈ members, member.2.IsExact := by
  induction members with
  | nil => simp [membersExact]
  | cons member rest ih => simp [membersExact, ih]

theorem itemsExact_map {encode : α → Value} {results : List α}
    (exact : ∀ result ∈ results, (encode result).IsExact) : itemsExact (results.map encode) := by
  rw [itemsExact_iff]
  intro item member
  obtain ⟨result, found, rfl⟩ := List.mem_map.mp member
  exact exact result found

theorem membersExact_append {first second : List (String × Value)}
    (left : membersExact first) (right : membersExact second) : membersExact (first ++ second) := by
  rw [membersExact_iff] at left right ⊢
  intro member found
  rcases List.mem_append.mp found with inFirst | inSecond
  · exact left member inFirst
  · exact right member inSecond

theorem isExact_texts (texts : List String) : (Value.ofList .string texts).IsExact :=
  itemsExact_map fun _ _ => trivial

inductive Number.OccursIn (number : Number) : Value → Prop
  | self : OccursIn number (.number number)
  | item {items : List Value} {item : Value} (found : item ∈ items)
      (inside : OccursIn number item) : OccursIn number (.array items)
  | member {members : List (String × Value)} {member : String × Value} (found : member ∈ members)
      (inside : OccursIn number member.2) : OccursIn number (.object members)

/-! ### Values without floating-point numbers -/

namespace Value

def NoFloats (value : Value) : Prop :=
  ∀ bits, ¬(Number.float bits).OccursIn value

theorem IsExact.noFloats {value : Value} (exact : value.IsExact) : value.NoFloats := by
  intro bits occurs
  induction occurs with
  | self => exact exact
  | item found _ ih => exact ih (itemsExact_iff.mp exact _ found)
  | member found _ ih => exact ih (membersExact_iff.mp exact _ found)

theorem noFloats_array {items : List Value} :
    (array items).NoFloats ↔ ∀ item ∈ items, item.NoFloats := by
  constructor
  · exact fun whole item found bits inside => whole bits (.item found inside)
  · rintro each bits (_ | ⟨found, inside⟩)
    exact each _ found bits inside

theorem noFloats_object {members : List (String × Value)} :
    (object members).NoFloats ↔ ∀ member ∈ members, member.2.NoFloats := by
  constructor
  · exact fun whole member found bits inside => whole bits (.member found inside)
  · rintro each bits (_ | _ | ⟨found, inside⟩)
    exact each _ found bits inside

end Value

/-! ### Tokens -/

mutual

def Node.ofValue : Value → Node
  | .null => .null
  | .bool value => .bool value
  | .number value => .number value.numeral
  | .string text => .string (.ofText text)
  | .array items => .array (nodesOfItems items) .closed
  | .object members => .object (nodesOfMembers members) .closed

def nodesOfItems : List Value → List Node
  | [] => []
  | item :: rest => Node.ofValue item :: nodesOfItems rest

def nodesOfMembers : List (String × Value) → List (Literal × Node)
  | [] => []
  | (key, value) :: rest => (.ofText key, Node.ofValue value) :: nodesOfMembers rest

end

mutual

def Node.tokens : Node → List Token
  | .null => [.null]
  | .bool value => [.bool value]
  | .number numeral => [.number numeral]
  | .string literal => [.string literal]
  | .array items _ => .openArray :: itemTokens items ++ [.closeArray]
  | .object members _ => .openObject :: memberTokens members ++ [.closeObject]
  | .fault fault => [.fault fault]

def itemTokens : List Node → List Token
  | [] => []
  | item :: [] => item.tokens
  | item :: next :: rest => item.tokens ++ .comma :: itemTokens (next :: rest)

def memberTokens : List (Literal × Node) → List Token
  | [] => []
  | (key, node) :: [] => .string key :: .colon :: node.tokens
  | (key, node) :: next :: rest =>
      .string key :: .colon :: node.tokens ++ .comma :: memberTokens (next :: rest)

end

theorem tokens_number {value : Number} (whole : (Value.number value).NoFloats) {rest : List Char}
    (ends : Delimits rest) :
    tokens (value.text ++ rest) = .number value.numeral :: tokens rest := by
  cases value with
  | integer value => exact tokens_integer value ends
  | float bits => exact absurd .self (whole bits)

mutual

theorem tokens_compactChars (value : Value) (whole : value.NoFloats) {rest : List Char}
    (ends : Delimits rest) :
    tokens (value.compactChars ++ rest) = (Node.ofValue value).tokens ++ tokens rest := by
  cases value with
  | null => exact tokens_null rest
  | bool value => exact tokens_boolText value rest
  | number value => exact tokens_number whole ends
  | string text => exact tokens_stringText text rest
  | array items =>
      have close := @delimits_of_punctuation ']' _ rfl rest
      have inside := tokens_compactItems items (Value.noFloats_array.mp whole) close
      simp [Value.compactChars, inside, Node.ofValue, Node.tokens]
  | object members =>
      have close := @delimits_of_punctuation '\x7d' _ rfl rest
      have inside := tokens_compactMembers members (Value.noFloats_object.mp whole) close
      simp [Value.compactChars, inside, Node.ofValue, Node.tokens]

theorem tokens_compactItems (items : List Value) (whole : ∀ item ∈ items, item.NoFloats)
    {rest : List Char} (ends : Delimits rest) :
    tokens (Value.compactItems items ++ rest) = itemTokens (nodesOfItems items) ++ tokens rest := by
  match items with
  | [] => rfl
  | [item] => exact tokens_compactChars item (whole item List.mem_cons_self) ends
  | item :: next :: others =>
      obtain ⟨itemWhole, othersWhole⟩ := List.forall_mem_cons.mp whole
      have comma := @delimits_of_punctuation ',' _ rfl
      rw [Value.compactItems, List.append_assoc, List.cons_append,
        tokens_compactChars item itemWhole (comma _), tokens_comma,
        tokens_compactItems (next :: others) othersWhole ends]
      simp [nodesOfItems, itemTokens]

theorem tokens_compactMembers (members : List (String × Value))
    (whole : ∀ member ∈ members, member.2.NoFloats) {rest : List Char} (ends : Delimits rest) :
    tokens (Value.compactMembers members ++ rest) =
      memberTokens (nodesOfMembers members) ++ tokens rest := by
  match members with
  | [] => rfl
  | [(key, value)] =>
      have valueWhole := whole _ List.mem_cons_self
      rw [Value.compactMembers, List.append_assoc, List.cons_append, tokens_stringText,
        tokens_colon, tokens_compactChars value valueWhole ends]
      simp [nodesOfMembers, memberTokens]
  | (key, value) :: next :: others =>
      obtain ⟨valueWhole, othersWhole⟩ := List.forall_mem_cons.mp whole
      have comma := @delimits_of_punctuation ',' _ rfl
      simp only [Value.compactMembers, List.append_assoc, List.cons_append]
      rw [tokens_stringText, tokens_colon, tokens_compactChars value valueWhole (comma _),
        tokens_comma, tokens_compactMembers (next :: others) othersWhole ends]
      simp [nodesOfMembers, memberTokens]

end

theorem isSpace_of_mem_newLine {level : Nat} {char : Char} (member : char ∈ Value.newLine level) :
    isSpace char = true := by
  rcases List.mem_cons.mp member with rfl | blank
  · rfl
  · rw [List.eq_of_mem_replicate blank]
    rfl

theorem tokens_newLine (level : Nat) (rest : List Char) :
    tokens (Value.newLine level ++ rest) = tokens rest :=
  tokens_spaces (fun _ => isSpace_of_mem_newLine) rest

theorem delimits_newLine (level : Nat) (rest : List Char) :
    Delimits (Value.newLine level ++ rest) :=
  delimits_cons _ (by decide)

mutual

theorem tokens_prettyChars (level : Nat) (value : Value) (whole : value.NoFloats)
    {rest : List Char} (ends : Delimits rest) :
    tokens (value.prettyChars level ++ rest) = (Node.ofValue value).tokens ++ tokens rest := by
  match value with
  | .null => exact tokens_null rest
  | .bool value => exact tokens_boolText value rest
  | .number value => exact tokens_number whole ends
  | .string text => exact tokens_stringText text rest
  | .array [] =>
      simp [Value.prettyChars, Node.ofValue, nodesOfItems, Node.tokens, itemTokens]
  | .array (item :: others) =>
      have inside := fun after => tokens_prettyItems (level + 1) (item :: others)
        (Value.noFloats_array.mp whole) (delimits_newLine level after)
      simp [Value.prettyChars, inside, tokens_newLine, Node.ofValue, Node.tokens]
  | .object [] =>
      simp [Value.prettyChars, Node.ofValue, nodesOfMembers, Node.tokens, memberTokens]
  | .object (member :: others) =>
      have inside := fun after => tokens_prettyMembers (level + 1) (member :: others)
        (Value.noFloats_object.mp whole) (delimits_newLine level after)
      simp [Value.prettyChars, inside, tokens_newLine, Node.ofValue, Node.tokens]

theorem tokens_prettyItems (level : Nat) (items : List Value)
    (whole : ∀ item ∈ items, item.NoFloats) {rest : List Char} (ends : Delimits rest) :
    tokens (Value.prettyItems level items ++ rest) =
      itemTokens (nodesOfItems items) ++ tokens rest := by
  match items with
  | [] => rfl
  | [item] =>
      rw [Value.prettyItems, List.append_assoc, tokens_newLine,
        tokens_prettyChars level item (whole item List.mem_cons_self) ends]
      rfl
  | item :: next :: others =>
      obtain ⟨itemWhole, othersWhole⟩ := List.forall_mem_cons.mp whole
      have comma := @delimits_of_punctuation ',' _ rfl
      simp only [Value.prettyItems, List.append_assoc, List.cons_append]
      rw [tokens_newLine, tokens_prettyChars level item itemWhole (comma _), tokens_comma,
        tokens_prettyItems level (next :: others) othersWhole ends]
      simp [nodesOfItems, itemTokens]

theorem tokens_prettyMembers (level : Nat) (members : List (String × Value))
    (whole : ∀ member ∈ members, member.2.NoFloats) {rest : List Char} (ends : Delimits rest) :
    tokens (Value.prettyMembers level members ++ rest) =
      memberTokens (nodesOfMembers members) ++ tokens rest := by
  match members with
  | [] => rfl
  | [(key, value)] =>
      have valueWhole := whole _ List.mem_cons_self
      simp only [Value.prettyMembers, List.append_assoc, List.cons_append]
      rw [tokens_newLine, tokens_stringText, tokens_colon, tokens_of_space rfl,
        tokens_prettyChars level value valueWhole ends]
      simp [nodesOfMembers, memberTokens]
  | (key, value) :: next :: others =>
      obtain ⟨valueWhole, othersWhole⟩ := List.forall_mem_cons.mp whole
      have comma := @delimits_of_punctuation ',' _ rfl
      simp only [Value.prettyMembers, List.append_assoc, List.cons_append]
      rw [tokens_newLine, tokens_stringText, tokens_colon, tokens_of_space rfl,
        tokens_prettyChars level value valueWhole (comma _), tokens_comma,
        tokens_prettyMembers level (next :: others) othersWhole ends]
      simp [nodesOfMembers, memberTokens]

end

end RiskRules.Json
