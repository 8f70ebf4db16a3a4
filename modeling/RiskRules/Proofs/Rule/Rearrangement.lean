import RiskRules.Proofs.Json.MemberOrder
import RiskRules.Rule.Encoding

/-!
Rules are read alike from every arrangement of their documents. Of a mitigation the kind may stand
anywhere among the members, since all others are kept until it is known.
-/

namespace RiskRules

open Json Json.Record

theorem TagSet.impartial_decode : Impartial decode :=
  (impartial_list impartial_string).through fun _ _ _ => bind_eq_ok

theorem Pattern.impartial_decode : Impartial decode :=
  impartial_string.through fun _ _ _ => bind_eq_ok

namespace Mitigation

variable {room : Nat}

/-! ### Tags -/

theorem value_eq_string {node : Node} {text : String} :
    node.value room = .ok (.string text) ↔ stringValue room node = .ok text := by
  rw [stringValue_eq_ok]
  cases node <;>
    simp [Node.value, descend_eq_ok, bind_eq_ok, pure, Except.pure, malformed]

theorem exists_items_of_value {node : Node} {values : List Value}
    (read : node.value room = .ok (.array values)) :
    ∃ items, node = .array items .closed ∧ 1 < room ∧
      itemValues (room - 1) items = .ok values := by
  cases node with
  | array items ending =>
      simp only [Node.value, descend_eq_ok, bind_eq_ok] at read
      obtain ⟨deep, _, inside, _, ended, same⟩ := read
      cases same
      cases ArrayEnding.check_eq_ok.mp ended
      exact ⟨items, rfl, deep, inside⟩
  | _ => simp [Node.value, descend_eq_ok, bind_eq_ok, pure, Except.pure, malformed] at read

theorem tagOfValue_eq_ok {value : Value} {tag : String} :
    tagOfValue value = .ok tag ↔ value = .string tag := by
  cases value <;> simp [tagOfValue, mismatch]

theorem tagsOfValue_eq_ok {value : Value} {tags : List String} :
    tagsOfValue value = .ok tags ↔
      ∃ values, value = .array values ∧ values.mapM tagOfValue = .ok tags := by
  cases value <;> simp [tagsOfValue, mismatch]

theorem mapM_tagOfValue {items : List Node} {values : List Value}
    (read : itemValues room items = .ok values) {tags : List String} :
    values.mapM tagOfValue = .ok tags ↔ items.mapM (stringValue room) = .ok tags := by
  induction items generalizing values tags with
  | nil =>
      cases read
      rfl
  | cons item rest ih =>
      simp only [itemValues, bind_eq_ok] at read
      obtain ⟨value, first, others, after, same⟩ := read
      cases same
      have tag : ∀ tag, tagOfValue value = .ok tag ↔ stringValue room item = .ok tag := by
        intro tag
        rw [tagOfValue_eq_ok, ← value_eq_string, first, Except.ok.injEq]
      simp only [List.mapM_cons, bind_eq_ok, tag, ih after]

/-- The tags of a value are the list of strings that its node can be read as. -/
theorem tagsOfValue_iff_listOf {node : Node} {value : Value} (read : node.value room = .ok value)
    {tags : List String} :
    tagsOfValue value = .ok tags ↔ listOf stringValue room node = .ok tags := by
  rw [tagsOfValue_eq_ok, listOf_eq_ok]
  constructor
  · rintro ⟨values, rfl, found⟩
    obtain ⟨items, rfl, deep, inside⟩ := exists_items_of_value read
    exact ⟨items, rfl, deep, (mapM_tagOfValue inside).mp found⟩
  · rintro ⟨items, rfl, deep, found⟩
    simp only [Node.value, descend_eq_ok, bind_eq_ok] at read
    obtain ⟨_, values, inside, _, _, same⟩ := read
    cases same
    exact ⟨values, rfl, (mapM_tagOfValue inside).mpr found⟩

theorem exists_value_of_rearranges {node other : Node} (rearranges : node.Rearranges other)
    {value : Value} (read : node.value room = .ok value) :
    ∃ otherValue, other.value room = .ok otherValue ∧
      ∀ tags, tagsOfValue value = .ok tags → tagsOfValue otherValue = .ok tags := by
  obtain ⟨otherValue, readOther⟩ := rearranges.value ⟨value, read⟩
  refine ⟨otherValue, readOther, ?_⟩
  intro tags found
  have listed := (tagsOfValue_iff_listOf read).mp found
  exact (tagsOfValue_iff_listOf readOther).mpr
    ((impartial_list impartial_string).steady rearranges listed)

/-! ### The members besides the kind -/

def GivesTags (members others : List (String × Value)) : Prop :=
  ∀ found tags, tagsOfMembers found members = .ok tags → tagsOfMembers found others = .ok tags

theorem tagsOfMembers_cons {found : Option (List String)} {name : String} {value : Value}
    {rest : List (String × Value)} {tags : List String} :
    tagsOfMembers found ((name, value) :: rest) = .ok tags ↔
      (name = "tags" ∧ found = Option.none ∧
        ∃ first, tagsOfValue value = .ok first ∧ tagsOfMembers (some first) rest = .ok tags) ∨
      (name ≠ "tags" ∧ tagsOfMembers found rest = .ok tags) := by
  cases found <;> by_cases isTags : name = "tags" <;>
    simp [tagsOfMembers, isTags, bind_eq_ok, mismatch]

theorem GivesTags.refl (members : List (String × Value)) : GivesTags members members :=
  fun _ _ gives => gives

theorem GivesTags.trans {first second third : List (String × Value)}
    (left : GivesTags first second) (right : GivesTags second third) : GivesTags first third :=
  fun found tags gives => right found tags (left found tags gives)

theorem GivesTags.cons {name : String} {value other : Value}
    (sameTags : ∀ tags, tagsOfValue value = .ok tags → tagsOfValue other = .ok tags)
    {members others : List (String × Value)} (gives : GivesTags members others) :
    GivesTags ((name, value) :: members) ((name, other) :: others) := by
  intro found tags read
  rw [tagsOfMembers_cons] at read ⊢
  rcases read with ⟨isTags, unset, first, readFirst, readRest⟩ | ⟨notTags, readRest⟩
  · exact .inl ⟨isTags, unset, first, sameTags first readFirst, gives _ _ readRest⟩
  · exact .inr ⟨notTags, gives _ _ readRest⟩

theorem GivesTags.swap (first second : String × Value) (rest : List (String × Value)) :
    GivesTags (first :: second :: rest) (second :: first :: rest) := by
  obtain ⟨firstName, firstValue⟩ := first
  obtain ⟨secondName, secondValue⟩ := second
  intro found tags read
  rw [tagsOfMembers_cons] at read ⊢
  rcases read with ⟨isTags, unset, part, readFirst, readRest⟩ | ⟨notTags, readRest⟩
  · rcases tagsOfMembers_cons.mp readRest with ⟨_, repeated, _⟩ | ⟨otherwise, readRest⟩
    · cases repeated
    · exact .inr ⟨otherwise,
        tagsOfMembers_cons.mpr (.inl ⟨isTags, unset, part, readFirst, readRest⟩)⟩
  · rcases tagsOfMembers_cons.mp readRest with
      ⟨isTags, unset, part, readSecond, after⟩ | ⟨otherwise, after⟩
    · exact .inl ⟨isTags, unset, part, readSecond,
        tagsOfMembers_cons.mpr (.inr ⟨notTags, after⟩)⟩
    · exact .inr ⟨otherwise, tagsOfMembers_cons.mpr (.inr ⟨notTags, after⟩)⟩

theorem ofMembers_of_givesTags {kind : Kind} {members others : List (String × Value)}
    (gives : GivesTags members others) {mitigation : Mitigation}
    (made : ofMembers kind members = .ok mitigation) : ofMembers kind others = .ok mitigation := by
  cases kind with
  | none => exact made
  | anyTag =>
      simp only [ofMembers, bind_eq_ok] at made ⊢
      obtain ⟨tags, read, same⟩ := made
      exact ⟨tags, gives _ _ read, same⟩

/-! ### All members -/

/-- From `kind` on, the members are read as `result` and the values of all members but the kind. -/
inductive Collects (room : Nat) :
    Option Kind → List (Literal × Node) → Option Kind → List (String × Value) → Prop
  | nil (kind : Option Kind) : Collects room kind [] kind []
  | kind {kind : Kind} {result : Option Kind} {key : Literal} {node : Node}
      {members : List (Literal × Node)} {values : List (String × Value)}
      (named : key.text = .ok "kind") (read : variantName room node = .ok kind)
      (rest : Collects room (some kind) members result values) :
      Collects room Option.none ((key, node) :: members) result values
  | other {kind result : Option Kind} {key : Literal} {node : Node} {name : String} {value : Value}
      {members : List (Literal × Node)} {values : List (String × Value)}
      (named : key.text = .ok name) (notKind : name ≠ "kind") (read : node.value room = .ok value)
      (rest : Collects room kind members result values) :
      Collects room kind ((key, node) :: members) result ((name, value) :: values)

theorem checkNew_eq_ok {kind : Option Kind} {name : String} :
    checkNew kind name = .ok () ↔ (name = "kind" → kind = Option.none) := by
  cases kind <;> simp [checkNew, mismatch]

theorem readMembers_eq_ok {kind result : Option Kind} {members : List (Literal × Node)}
    {values : List (String × Value)} :
    readMembers room kind members = .ok (result, values) ↔
      Collects room kind members result values := by
  constructor
  · intro read
    induction members generalizing kind values with
    | nil =>
        cases read
        exact .nil _
    | cons member rest ih =>
        obtain ⟨key, node⟩ := member
        simp only [readMembers, bind_eq_ok] at read
        obtain ⟨name, named, _, fresh, read⟩ := read
        by_cases isKind : name = "kind"
        · subst isKind
          cases checkNew_eq_ok.mp fresh rfl
          simp only [if_true, bind_eq_ok] at read
          obtain ⟨kind, readFirst, readRest⟩ := read
          exact .kind named readFirst (ih readRest)
        · simp only [isKind, if_false, bind_eq_ok] at read
          obtain ⟨value, readFirst, ⟨_, others⟩, readRest, same⟩ := read
          cases same
          exact .other named isKind readFirst (ih readRest)
  · intro collects
    induction collects with
    | nil kind => rfl
    | kind named read _ ih =>
        simp only [readMembers, bind_eq_ok]
        exact ⟨"kind", named, (), rfl, by simpa only [if_true, bind_eq_ok] using ⟨_, read, ih⟩⟩
    | other named notKind read _ ih =>
        simp only [readMembers, bind_eq_ok]
        refine ⟨_, named, (), checkNew_eq_ok.mpr fun isKind => absurd isKind notKind, ?_⟩
        simp only [notKind, if_false, bind_eq_ok]
        exact ⟨_, read, _, ih, rfl⟩

section

variable {kind result : Option Kind} {members others : List (Literal × Node)}
  {values : List (String × Value)}

theorem Collects.skip (collects : Collects room kind members result values) :
    skipMembers members = .ok () := by
  induction collects with
  | nil kind => rfl
  | kind named read _ ih =>
      simp only [skipMembers, unit_bind_eq_ok]
      exact ⟨Literal.skip_of_text named, impartial_variant.skip read, ih⟩
  | other named _ read _ ih =>
      simp only [skipMembers, unit_bind_eq_ok]
      exact ⟨Literal.skip_of_text named, Node.skip_of_value _ read, ih⟩

theorem Collects.rearranged (collects : Collects room kind members result values)
    (each : MembersRearrange members others) :
    ∃ otherValues, Collects room kind others result otherValues ∧
      GivesTags values otherValues := by
  induction collects generalizing others with
  | nil kind =>
      cases each
      exact ⟨[], .nil kind, .refl []⟩
  | kind named read _ ih =>
      cases each with
      | cons respells first after =>
          obtain ⟨otherValues, collectsOther, gives⟩ := ih after
          exact ⟨otherValues, .kind (respells.text named) (impartial_variant.steady first read)
            collectsOther, gives⟩
  | other named notKind read _ ih =>
      cases each with
      | cons respells first after =>
          obtain ⟨otherValues, collectsOther, gives⟩ := ih after
          obtain ⟨otherValue, readOther, sameTags⟩ := exists_value_of_rearranges first read
          exact ⟨_, .other (respells.text named) notKind readOther collectsOther,
            gives.cons sameTags⟩

theorem Collects.swap {first second : Literal × Node}
    (collects : Collects room kind (first :: second :: members) result values) :
    ∃ otherValues, Collects room kind (second :: first :: members) result otherValues ∧
      GivesTags values otherValues := by
  cases collects with
  | kind named read rest =>
      cases rest with
      | other namedOther notKind readOther rest =>
          exact ⟨_, .other namedOther notKind readOther (.kind named read rest), .refl _⟩
  | other named notKind read rest =>
      cases rest with
      | kind namedKind readKind rest =>
          exact ⟨_, .kind namedKind readKind (.other named notKind read rest), .refl _⟩
      | other namedOther otherwise readOther rest =>
          exact ⟨_, .other namedOther otherwise readOther (.other named notKind read rest),
            .swap _ _ _⟩

theorem Collects.perm (collects : Collects room kind members result values)
    (permuted : members.Perm others) :
    ∃ otherValues, Collects room kind others result otherValues ∧
      GivesTags values otherValues := by
  induction permuted generalizing kind values with
  | nil => exact ⟨values, collects, .refl values⟩
  | cons member _ ih =>
      cases collects with
      | kind named read rest =>
          obtain ⟨otherValues, collectsOther, gives⟩ := ih rest
          exact ⟨otherValues, .kind named read collectsOther, gives⟩
      | other named notKind read rest =>
          obtain ⟨otherValues, collectsOther, gives⟩ := ih rest
          exact ⟨_, .other named notKind read collectsOther, gives.cons fun _ found => found⟩
  | swap => exact collects.swap
  | trans _ _ ihFirst ihSecond =>
      obtain ⟨middle, collectsMiddle, givesMiddle⟩ := ihFirst collects
      obtain ⟨others, collectsOther, givesOther⟩ := ihSecond collectsMiddle
      exact ⟨others, collectsOther, givesMiddle.trans givesOther⟩

end

/-! ### Mitigations given as arrays -/

theorem ofItems_rearranged {items others : List Node} (each : ItemsRearrange items others)
    {values : List Value} (read : itemValues room items = .ok values) {kind : Kind}
    {mitigation : Mitigation} (made : ofItems kind values = .ok mitigation) :
    ∃ otherValues, itemValues room others = .ok otherValues ∧
      ofItems kind otherValues = .ok mitigation := by
  cases each with
  | nil =>
      cases read
      exact ⟨[], rfl, made⟩
  | cons first rest =>
      simp only [itemValues, bind_eq_ok] at read
      obtain ⟨value, readFirst, values, readRest, same⟩ := read
      cases same
      cases kind with
      | none => cases made
      | anyTag =>
          cases rest with
          | nil =>
              cases readRest
              simp only [ofItems, bind_eq_ok] at made
              obtain ⟨tags, found, same⟩ := made
              obtain ⟨otherValue, readOther, sameTags⟩ := exists_value_of_rearranges first readFirst
              refine ⟨[otherValue], ?_, ?_⟩
              · simp only [itemValues, bind_eq_ok]
                exact ⟨otherValue, readOther, [], rfl, rfl⟩
              · simp only [ofItems, bind_eq_ok]
                exact ⟨tags, sameTags tags found, same⟩
          | cons =>
              simp only [itemValues, bind_eq_ok] at readRest
              obtain ⟨_, _, _, _, same⟩ := readRest
              cases same
              simp only [ofItems, bind_eq_ok] at made
              obtain ⟨_, _, broken⟩ := made
              cases broken

theorem decode_object_eq_ok {members : List (Literal × Node)} {ending : ObjectEnding}
    {mitigation : Mitigation} :
    decode room (.object members ending) = .ok mitigation ↔
      1 < room ∧ ending = .closed ∧ ∃ kind values,
        Collects (room - 1) Option.none members (some kind) values ∧
          ofMembers kind values = .ok mitigation := by
  simp only [decode, descend_eq_ok, bind_eq_ok, ← readMembers_eq_ok]
  constructor
  · rintro ⟨deep, ⟨found, values⟩, inside, _, ended, kind, required, made⟩
    cases found with
    | none => cases required
    | some kind =>
        cases required
        exact ⟨deep, ObjectEnding.check_eq_ok.mp ended, kind, values, inside, made⟩
  · rintro ⟨deep, closed, kind, values, inside, made⟩
    exact ⟨deep, (some kind, values), inside, (), ObjectEnding.check_eq_ok.mpr closed, kind, rfl,
      made⟩

theorem decode_array_eq_ok {items : List Node} {ending : ArrayEnding} {mitigation : Mitigation} :
    decode room (.array items ending) = .ok mitigation ↔
      1 < room ∧ ending = .closed ∧ ∃ first rest kind values, items = first :: rest ∧
        variantName (room - 1) first = .ok kind ∧ itemValues (room - 1) rest = .ok values ∧
          ofItems kind values = .ok mitigation := by
  simp only [decode, descend_eq_ok]
  cases items with
  | nil =>
      simp only [bind_eq_ok]
      constructor
      · rintro ⟨_, _, _, missing⟩
        cases missing
      · rintro ⟨_, _, _, _, _, _, impossible, _⟩
        cases impossible
  | cons first rest =>
      simp only [bind_eq_ok]
      constructor
      · rintro ⟨deep, kind, readFirst, values, inside, _, ended, made⟩
        exact ⟨deep, ArrayEnding.check_eq_ok.mp ended, first, rest, kind, values, rfl, readFirst,
          inside, made⟩
      · rintro ⟨deep, closed, _, _, kind, values, same, readFirst, inside, made⟩
        cases same
        exact ⟨deep, kind, readFirst, values, inside, (), ArrayEnding.check_eq_ok.mpr closed, made⟩

theorem impartial_decode : Impartial decode where
  skip {_ node _} read := by
    cases node with
    | object members ending =>
        obtain ⟨_, rfl, kind, values, inside, _⟩ := decode_object_eq_ok.mp read
        simp only [Node.skip, unit_bind_eq_ok]
        exact ⟨inside.skip, rfl⟩
    | array items ending =>
        obtain ⟨_, rfl, first, rest, kind, values, rfl, readFirst, inside, _⟩ :=
          decode_array_eq_ok.mp read
        simp only [Node.skip, skipItems, unit_bind_eq_ok]
        exact ⟨⟨impartial_variant.skip readFirst, skipItems_of_values rest inside⟩, rfl⟩
    | _ => exact absurd read wrongType_ne_ok
  steady rearranges read := by
    cases rearranges with
    | object each permuted =>
        obtain ⟨deep, closed, kind, values, inside, made⟩ := decode_object_eq_ok.mp read
        obtain ⟨arranged, collectsArranged, givesArranged⟩ := inside.rearranged each
        obtain ⟨others, collectsOther, givesOther⟩ := collectsArranged.perm permuted
        exact decode_object_eq_ok.mpr ⟨deep, closed, kind, others, collectsOther,
          ofMembers_of_givesTags (givesArranged.trans givesOther) made⟩
    | array each =>
        obtain ⟨deep, closed, first, rest, kind, values, rfl, readFirst, inside, made⟩ :=
          decode_array_eq_ok.mp read
        cases each with
        | cons rearranges after =>
            obtain ⟨others, readOther, madeOther⟩ := ofItems_rearranged after inside made
            exact decode_array_eq_ok.mpr ⟨deep, closed, _, _, kind, others, rfl,
              impartial_variant.steady rearranges readFirst, readOther, madeOther⟩
    | _ => exact absurd read wrongType_ne_ok

end Mitigation

theorem Category.impartial_decode : Impartial shape.decode := by
  apply Record.impartial_decode
  · simp only [shape, List.forall_mem_cons]
    refine ⟨?_, ?_, ?_, ?_, ?_, ?_, ?_, ?_, ?_, ?_, ?_, ?_,
      fun _ member => absurd member List.not_mem_nil⟩
    all_goals apply Field.isImpartial_of
    case refine_5 => exact impartial_enum
    case refine_6 => exact impartial_enum
    case refine_10 => exact impartial_option impartial_word32
    case refine_11 => exact impartial_option impartial_string
    case refine_12 => exact impartial_option impartial_string
    all_goals exact impartial_string
  · simp only [shape, List.pairwise_cons, List.forall_mem_cons, List.not_mem_nil, false_implies,
      implies_true, List.Pairwise.nil, and_true]
    repeat' apply And.intro
    all_goals exact Field.commute_of fun _ _ _ => rfl

theorem Rule.impartial_decode : Impartial shape.decode := by
  apply Record.impartial_decode
  · simp only [shape, List.forall_mem_cons]
    refine ⟨?_, ?_, ?_, ?_, ?_, ?_, ?_, ?_, ?_, ?_, fun _ member => absurd member List.not_mem_nil⟩
    all_goals apply Field.isImpartial_of
    case refine_1 => exact impartial_string
    case refine_2 => exact Category.impartial_decode
    case refine_3 => exact TagSet.impartial_decode
    case refine_9 => exact Pattern.impartial_decode
    case refine_10 => exact Mitigation.impartial_decode
    all_goals exact impartial_enum
  · simp only [shape, List.pairwise_cons, List.forall_mem_cons, List.not_mem_nil, false_implies,
      implies_true, List.Pairwise.nil, and_true]
    repeat' apply And.intro
    all_goals exact Field.commute_of fun _ _ _ => rfl

end RiskRules
