import RiskRules.Pack
import RiskRules.Proofs.Json.Agreement
import RiskRules.Proofs.Json.Impartial
import RiskRules.Proofs.Json.Spacing

/-!
The canonical text as a normal form. A value that is read without floating-point numbers is read
back from its canonical text, and two values have one canonical text if and only if they agree.
-/

namespace RiskRules.Json

namespace Value

theorem isExact_of_occurs (value : Value)
    (exact : ∀ number : Number, number.OccursIn value → number.IsExact) : value.IsExact := by
  induction value using byParts with
  | null => trivial
  | bool value => trivial
  | number value => exact exact value .self
  | string text => trivial
  | array items ih =>
      exact itemsExact_iff.mpr fun item found =>
        ih item found fun number inside => exact number (.item found inside)
  | object members ih =>
      exact membersExact_iff.mpr fun member found =>
        ih member found fun number inside => exact number (.member found inside)

theorem itemsDepth_lt_iff {items : List Value} {bound : Nat} (positive : 0 < bound) :
    itemsDepth items < bound ↔ ∀ item ∈ items, item.depth < bound := by
  induction items with
  | nil => simp [itemsDepth, positive]
  | cons item rest ih => simp [itemsDepth, ih]

theorem membersDepth_lt_iff {members : List (String × Value)} {bound : Nat}
    (positive : 0 < bound) :
    membersDepth members < bound ↔ ∀ member ∈ members, member.2.depth < bound := by
  induction members with
  | nil => simp [membersDepth, positive]
  | cons member rest ih => simp [membersDepth, ih]

/-! ### What is read -/

structure Fits (room : Nat) (value : Value) : Prop where
  shallow : value.depth < room
  inRange : ∀ integer, (Number.integer integer).OccursIn value → (Number.integer integer).IsExact

variable {room : Nat}

theorem fits_number {number : Number} (positive : 0 < room)
    (inRange : ∀ integer, number = .integer integer → number.IsExact) :
    (Value.number number).Fits room where
  shallow := positive
  inRange integer occurs := by
    cases occurs
    exact inRange integer rfl

theorem fits_array {items : List Value} :
    (array items).Fits room ↔ 1 < room ∧ ∀ item ∈ items, item.Fits (room - 1) := by
  constructor
  · rintro ⟨shallow, inRange⟩
    rw [depth] at shallow
    have below : itemsDepth items < room - 1 := by omega
    refine ⟨by omega, fun item found => ⟨?_, ?_⟩⟩
    · exact (itemsDepth_lt_iff (by omega)).mp below item found
    · exact fun integer inside => inRange integer (.item found inside)
  · rintro ⟨deep, each⟩
    have below : itemsDepth items < room - 1 :=
      (itemsDepth_lt_iff (by omega)).mpr fun item found => (each item found).shallow
    refine ⟨by rw [depth]; omega, ?_⟩
    rintro integer (_ | ⟨found, inside⟩)
    exact (each _ found).inRange integer inside

theorem fits_object {members : List (String × Value)} :
    (object members).Fits room ↔ 1 < room ∧ ∀ member ∈ members, member.2.Fits (room - 1) := by
  constructor
  · rintro ⟨shallow, inRange⟩
    rw [depth] at shallow
    have below : membersDepth members < room - 1 := by omega
    refine ⟨by omega, fun member found => ⟨?_, ?_⟩⟩
    · exact (membersDepth_lt_iff (by omega)).mp below member found
    · exact fun integer inside => inRange integer (.member found inside)
  · rintro ⟨deep, each⟩
    have below : membersDepth members < room - 1 :=
      (membersDepth_lt_iff (by omega)).mpr fun member found => (each member found).shallow
    refine ⟨by rw [depth]; omega, ?_⟩
    rintro integer (_ | _ | ⟨found, inside⟩)
    exact (each _ found).inRange integer inside

theorem Fits.canonical {value : Value} (fits : value.Fits room) : value.canonical.Fits room := by
  induction value using byParts generalizing room with
  | array items ih =>
      obtain ⟨deep, each⟩ := fits_array.mp fits
      rw [Value.canonical, canonicalItems_eq_map]
      refine fits_array.mpr ⟨deep, List.forall_mem_map.mpr ?_⟩
      exact fun item found => ih item found (each item found)
  | object members ih =>
      obtain ⟨deep, each⟩ := fits_object.mp fits
      refine fits_object.mpr ⟨deep, ?_⟩
      intro member found
      obtain ⟨original, isMember, rfl⟩ := exists_of_mem_sorted found
      exact ih original isMember (each original isMember)
  | _ => exact fits

theorem Fits.isExact {value : Value} (fits : value.Fits room) (whole : value.NoFloats) :
    value.IsExact := by
  refine isExact_of_occurs value fun number occurs => ?_
  cases number with
  | integer integer => exact fits.inRange integer occurs
  | float bits => exact absurd occurs (whole bits)

end Value

theorem Numeral.isExact_of_read {numeral : Numeral} {integer : Int}
    (read : numeral.read = .ok (.integer integer)) : (Number.integer integer).IsExact := by
  have value : numeral.value = some (.integer integer) := by
    unfold Numeral.read at read
    split at read
    next number found => rw [found, Except.ok.inj read]
    next => cases read
  unfold Numeral.value at value
  simp only at value
  generalize numeral.whole.foldl (fun total digit => total * 10 + digit) 0 = size at value
  split at value
  next small =>
    cases value
    have bound : size < 0x10000000000000000 := by simpa using (Bool.and_eq_true_iff.mp small).2
    exact ⟨by omega, by omega⟩
  next =>
    split at value
    next small =>
      cases value
      have bounds := of_decide_eq_true (Bool.and_eq_true_iff.mp small).2
      exact ⟨by omega, by omega⟩
    next =>
      obtain ⟨_, _, float⟩ := Option.map_eq_some_iff.mp value
      cases float

mutual

theorem Node.fits_of_value (node : Node) {room : Nat} (positive : 0 < room) {value : Value}
    (read : node.value room = .ok value) : value.Fits room := by
  match node with
  | .null =>
      cases read
      exact ⟨positive, fun _ occurs => by cases occurs⟩
  | .bool truth =>
      cases read
      exact ⟨positive, fun _ occurs => by cases occurs⟩
  | .number numeral =>
      simp only [Node.value, bind_eq_ok] at read
      obtain ⟨number, readNumber, same⟩ := read
      cases same
      refine Value.fits_number positive ?_
      rintro integer rfl
      exact Numeral.isExact_of_read readNumber
  | .string literal =>
      simp only [Node.value, bind_eq_ok] at read
      obtain ⟨text, _, same⟩ := read
      cases same
      exact ⟨positive, fun _ occurs => by cases occurs⟩
  | .array items ending =>
      simp only [Node.value, descend_eq_ok, bind_eq_ok] at read
      obtain ⟨deep, values, inside, _, _, same⟩ := read
      cases same
      exact Value.fits_array.mpr ⟨deep, fits_of_itemValues items (by omega) inside⟩
  | .object members ending =>
      simp only [Node.value, descend_eq_ok, bind_eq_ok] at read
      obtain ⟨deep, values, inside, _, _, same⟩ := read
      cases same
      exact Value.fits_object.mpr ⟨deep, fits_of_memberValues members (by omega) inside⟩
  | .fault cause => cases read

theorem fits_of_itemValues (items : List Node) {room : Nat} (positive : 0 < room)
    {values : List Value} (read : itemValues room items = .ok values) :
    ∀ value ∈ values, value.Fits room := by
  match items with
  | [] =>
      cases read
      exact fun _ member => absurd member List.not_mem_nil
  | item :: rest =>
      simp only [itemValues, bind_eq_ok] at read
      obtain ⟨first, readFirst, others, readOthers, same⟩ := read
      cases same
      exact List.forall_mem_cons.mpr ⟨Node.fits_of_value item positive readFirst,
        fits_of_itemValues rest positive readOthers⟩

theorem fits_of_memberValues (members : List (Literal × Node)) {room : Nat} (positive : 0 < room)
    {values : List (String × Value)} (read : memberValues room members = .ok values) :
    ∀ member ∈ values, member.2.Fits room := by
  match members with
  | [] =>
      cases read
      exact fun _ member => absurd member List.not_mem_nil
  | (key, node) :: rest =>
      simp only [memberValues, bind_eq_ok] at read
      obtain ⟨name, _, first, readFirst, others, readOthers, same⟩ := read
      cases same
      exact List.forall_mem_cons.mpr ⟨Node.fits_of_value node positive readFirst,
        fits_of_memberValues rest positive readOthers⟩

end

namespace Value

theorem fits_of_ofText {text : String} {value : Value} (read : ofText text = .ok value) :
    value.Fits startingRoom := by
  obtain ⟨node, _, readRoot⟩ := readText_eq_ok.mp read
  exact node.fits_of_value (by decide) readRoot

theorem ofText_compact {value : Value} (exact : value.IsExact)
    (shallow : value.depth < startingRoom) : ofText value.compact = .ok value :=
  readText_eq_ok.mpr ⟨.ofValue value, Outline.ofText_compact exact.noFloats,
    Node.value_ofValue value exact shallow⟩

theorem isExact_canonical_of_ofText {text : String} {value : Value} (read : ofText text = .ok value)
    (whole : value.canonical.NoFloats) : value.canonical.IsExact :=
  (fits_of_ofText read).canonical.isExact whole

/-- Two values that hold no floating-point numbers have one canonical text if they agree and two if
they do not. -/
theorem canonicalText_eq_iff_agrees {left right : Value} (leftExact : left.canonical.IsExact)
    (rightExact : right.canonical.IsExact) :
    left.canonicalText = right.canonicalText ↔ left.Agrees right := by
  rw [← canonical_eq_iff]
  constructor
  · exact compact_injective leftExact rightExact
  · intro same
    rw [canonicalText, same, canonicalText]

/-- The canonical text of a value that is read without floating-point numbers is read as this value
with its members in ascending order. It has no white space outside strings, no other such value
has it, and the order of the members cannot be told from its digest. A member that a later one
replaces does not count. -/
theorem canonicalText_normal {text : String} {value : Value} (read : ofText text = .ok value)
    (whole : value.canonical.NoFloats) :
    ofText value.canonicalText = .ok value.canonical ∧ value.canonical.Agrees value ∧
      value.canonical.KeysAscend ∧
      (∀ char ∈ outsideStrings .outside value.canonicalText.toList, IsVisible char) ∧
      (∀ source other, ofText source = .ok other → other.canonical.NoFloats →
        (value.canonicalText = other.canonicalText ↔ value.Agrees other)) ∧
      ∀ other, value.Reorders other →
        textDigest other.canonicalText = textDigest value.canonicalText := by
  have fits := (fits_of_ofText read).canonical
  have exact := fits.isExact whole
  refine ⟨ofText_compact exact fits.shallow, agrees_canonical value, keysAscend_canonical value,
    ?_, ?_, ?_⟩
  · rw [canonicalText, compact, String.toList_ofList]
    exact (isTight_compactChars value.canonical exact).visible
  · intro source other readOther otherWhole
    exact canonicalText_eq_iff_agrees exact (isExact_canonical_of_ofText readOther otherWhole)
  · intro other reorders
    rw [canonicalText, canonicalText, reorders.agrees.canonical]

/-- A text with a key that is there twice, a string with escapes and the integers at both ends of
the range. -/
theorem canonicalText_normal_nested : ∃ text value other, ofText text = .ok value ∧
    value.canonical.NoFloats ∧ value.Reorders other ∧
    value.canonicalText = "\x7b\"a\":\x7b\"x\":null,\"y\":\"q\\\"\\n\"\x7d," ++
      "\"z\":[18446744073709551615,-9223372036854775808]\x7d" ∧
    ofText value.canonicalText = .ok value.canonical ∧
    textDigest other.canonicalText = textDigest value.canonicalText := by
  let bounds : Value := .array
    [.number (.integer 0xFFFFFFFFFFFFFFFF), .number (.integer (-0x8000000000000000))]
  let inner : Value := .object [("y", .bool true), ("y", .string "q\"\n"), ("x", .null)]
  let value : Value := .object [("z", bounds), ("a", inner)]
  have exact : value.IsExact := by
    simp [value, bounds, inner, IsExact, itemsExact, membersExact, Number.IsExact]
  have reorders : value.Reorders (.object [("a", inner), ("z", bounds)]) :=
    reorders_of_perm (by simp) (.swap _ _ _)
  have read := ofText_compact exact (by decide)
  have whole := (isExact_canonical value exact).noFloats
  obtain ⟨readBack, _, _, _, _, hashes⟩ := canonicalText_normal read whole
  exact ⟨_, value, _, read, whole, reorders, by decide, readBack, hashes _ reorders⟩

end Value

end RiskRules.Json
