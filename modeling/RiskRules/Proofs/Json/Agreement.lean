import Mathlib.Data.List.Sort
import RiskRules.Proofs.Json.Canonical
import RiskRules.Proofs.Text.ByteOrder

/-!
Values that are the same once the members of objects are looked up by key. Two values agree if and
only if they have one canonical form; a canonical form has the keys of every object in ascending
order, and a value that has them so is its own canonical form.
-/

namespace RiskRules.Json

namespace Value

/-- Whatever holds of a container if it holds of its parts, holds of every value. -/
theorem byParts {holds : Value → Prop} (null : holds .null) (bool : ∀ value, holds (.bool value))
    (number : ∀ value, holds (.number value)) (string : ∀ text, holds (.string text))
    (array : ∀ items, (∀ item ∈ items, holds item) → holds (.array items))
    (object : ∀ members, (∀ member ∈ members, holds member.2) → holds (.object members))
    (value : Value) : holds value := by
  cases value with
  | null => exact null
  | bool value => exact bool value
  | number value => exact number value
  | string text => exact string text
  | array items =>
      exact array items fun item _ => byParts null bool number string array object item
  | object members =>
      exact object members fun member _ => byParts null bool number string array object member.2
termination_by sizeOf value
decreasing_by
  · have smaller := List.sizeOf_lt_of_mem ‹_›
    simp only [Value.array.sizeOf_spec]
    omega
  · have smaller := List.sizeOf_lt_of_mem ‹_›
    have part : sizeOf member.2 < sizeOf member := by
      cases member
      simp only [Prod.mk.sizeOf_spec]
      omega
    simp only [Value.object.sizeOf_spec]
    omega

inductive Agrees : Value → Value → Prop
  | null : Agrees .null .null
  | bool (value : Bool) : Agrees (.bool value) (.bool value)
  | number (value : Number) : Agrees (.number value) (.number value)
  | string (text : String) : Agrees (.string text) (.string text)
  | array {items others : List Value} (lengths : items.length = others.length)
      (each : ∀ (index : Nat) (item other : Value), items[index]? = some item →
        others[index]? = some other → Agrees item other) : Agrees (.array items) (.array others)
  | object {members others : List (String × Value)}
      (keys : ∀ key, ((object members).member? key).isSome = ((object others).member? key).isSome)
      (each : ∀ key value other, (object members).member? key = some value →
        (object others).member? key = some other → Agrees value other) :
      Agrees (.object members) (.object others)

def MembersAscend (members : List (String × Value)) : Prop :=
  members.Pairwise fun member later => Text.encodeUtf8 member.1 < Text.encodeUtf8 later.1

inductive KeysAscend : Value → Prop
  | null : KeysAscend .null
  | bool (value : Bool) : KeysAscend (.bool value)
  | number (value : Number) : KeysAscend (.number value)
  | string (text : String) : KeysAscend (.string text)
  | array {items : List Value} (each : ∀ item ∈ items, KeysAscend item) : KeysAscend (.array items)
  | object {members : List (String × Value)} (ascending : MembersAscend members)
      (each : ∀ member ∈ members, KeysAscend member.2) : KeysAscend (.object members)

/-! ### Members in ascending order -/

variable {members others : List (String × Value)}

theorem insertMember_ascending {key : String} {value : Value}
    (ascending : members.Pairwise (·.1 < ·.1)) :
    (insertMember key value members).Pairwise (·.1 < ·.1) := by
  induction members with
  | nil => exact List.pairwise_singleton _ _
  | cons first rest ih =>
      obtain ⟨below, tail⟩ := List.pairwise_cons.mp ascending
      rw [insertMember]
      split
      next less =>
        refine List.pairwise_cons.mpr ⟨?_, ascending⟩
        intro other member
        rcases List.mem_cons.mp member with rfl | found
        · exact less
        · exact String.lt_trans less (below other found)
      next notLess =>
        split
        next same =>
          refine List.pairwise_cons.mpr ⟨?_, tail⟩
          intro other member
          exact same ▸ below other member
        next different =>
          refine List.pairwise_cons.mpr ⟨?_, ih tail⟩
          intro other member
          rcases mem_insertMember member with rfl | found
          · grind
          · exact below other found

theorem sortMembers_ascending (members : List (String × Value)) :
    MembersAscend (sortMembers members) := by
  have sorted : (sortMembers members).Pairwise (·.1 < ·.1) := by
    refine List.foldlRecOn members _ .nil ?_
    intro sorted ascending member _
    exact insertMember_ascending ascending
  exact sorted.imp Text.encodeUtf8_lt

theorem first?_eq_some_iff (ascending : MembersAscend members) {key : String} {value : Value} :
    (object members).first? key = some value ↔ (key, value) ∈ members := by
  induction members with
  | nil => simp
  | cons member rest ih =>
      obtain ⟨name, own⟩ := member
      obtain ⟨below, tail⟩ := List.pairwise_cons.mp ascending
      rw [first?_cons, List.mem_cons, Prod.mk.injEq]
      by_cases same : name = key
      · subst same
        have notLater : (name, value) ∉ rest :=
          fun later => List.lt_irrefl _ (below (name, value) later)
        simp [notLater, eq_comm]
      · simp [same, Ne.symm same, ih tail]

theorem eq_of_first? (ascending : MembersAscend members) (alsoAscending : MembersAscend others)
    (same : ∀ key, (object members).first? key = (object others).first? key) :
    members = others := by
  let precedes : String × Value → String × Value → Prop := fun member later =>
    Text.encodeUtf8 member.1 < Text.encodeUtf8 later.1
  have irreflexive : Std.Irrefl precedes := ⟨fun _ => List.lt_irrefl _⟩
  have antisymmetric : Std.Antisymm precedes :=
    ⟨fun _ _ less greater => absurd greater (List.lt_asymm less)⟩
  refine List.Pairwise.eq_of_mem_iff (r := precedes) ascending alsoAscending ?_
  rintro ⟨key, value⟩
  rw [← first?_eq_some_iff ascending, ← first?_eq_some_iff alsoAscending, same]

/-- No key is there twice, so the last member with a key is the first one. -/
theorem member?_eq_first? (ascending : MembersAscend members) (key : String) :
    (object members).member? key = (object members).first? key := by
  induction members with
  | nil => rfl
  | cons member rest ih =>
      obtain ⟨name, value⟩ := member
      obtain ⟨below, tail⟩ := List.pairwise_cons.mp ascending
      rw [member?_cons, first?_cons, ih tail]
      by_cases same : name = key
      · subst same
        have absent : (object rest).first? name = none := by
          refine Option.eq_none_iff_forall_ne_some.mpr ?_
          intro other found
          exact List.lt_irrefl _ (below (name, other) ((first?_eq_some_iff tail).mp found))
        rw [absent, Option.none_or, if_pos rfl]
      · simp [same]

theorem mem_of_member? {key : String} {value : Value}
    (found : (object members).member? key = some value) : (key, value) ∈ members := by
  induction members with
  | nil => cases found
  | cons member rest ih =>
      obtain ⟨name, own⟩ := member
      rw [member?_cons] at found
      rcases Option.or_eq_some_iff.mp found with later | ⟨_, first⟩
      · exact List.mem_cons_of_mem _ (ih later)
      · split at first
        next same =>
          cases same
          cases first
          exact List.mem_cons_self
        next => cases first

/-! ### Canonical forms -/

theorem agrees_of_canonical (left : Value) {right : Value}
    (same : left.canonical = right.canonical) : left.Agrees right := by
  induction left using byParts generalizing right with
  | null => cases right <;> cases same; exact .null
  | bool value => cases right <;> cases same; exact .bool value
  | number value => cases right <;> cases same; exact .number value
  | string text => cases right <;> cases same; exact .string text
  | array items ih =>
      cases right with
      | array others =>
          have mapped := Value.array.inj same
          rw [canonicalItems_eq_map, canonicalItems_eq_map] at mapped
          refine .array (by simpa using congrArg List.length mapped) ?_
          intro index item other foundItem foundOther
          have entries := congrArg (·[index]?) mapped
          simp only [List.getElem?_map, foundItem, foundOther, Option.map_some] at entries
          exact ih item (List.mem_of_getElem? foundItem) (Option.some.inj entries)
      | _ => cases same
  | object members ih =>
      cases right with
      | object others =>
          have parts := member?_of_canonical same
          refine .object (fun key => by simpa using congrArg Option.isSome (parts key)) ?_
          intro key value other foundValue foundOther
          have both := parts key
          rw [foundValue, foundOther] at both
          exact ih (key, value) (mem_of_member? foundValue) (Option.some.inj both)
      | _ => cases same

theorem Agrees.canonical {left right : Value} (agrees : left.Agrees right) :
    left.canonical = right.canonical := by
  induction agrees with
  | null => rfl
  | bool => rfl
  | number => rfl
  | string => rfl
  | @array items others lengths _ ih =>
      refine congrArg Value.array ?_
      rw [canonicalItems_eq_map, canonicalItems_eq_map]
      refine List.ext_getElem (by simpa using lengths) ?_
      intro index bound otherBound
      rw [List.getElem_map, List.getElem_map]
      rw [List.length_map] at bound otherBound
      exact ih index _ _ (List.getElem?_eq_getElem bound) (List.getElem?_eq_getElem otherBound)
  | @object members others keys _ ih =>
      refine congrArg Value.object (eq_of_first? (sortMembers_ascending _)
        (sortMembers_ascending _) ?_)
      intro key
      rw [first?_sortMembers, first?_sortMembers, member?_canonicalMembers,
        member?_canonicalMembers]
      have present := keys key
      cases foundValue : (Value.object members).member? key with
      | none =>
          rw [foundValue, Option.isSome_none, eq_comm, Option.isSome_eq_false_iff,
            Option.isNone_iff_eq_none] at present
          rw [present]
      | some value =>
          rw [foundValue, Option.isSome_some, eq_comm] at present
          obtain ⟨other, foundOther⟩ := Option.isSome_iff_exists.mp present
          rw [foundOther, Option.map_some, Option.map_some,
            ih key value other foundValue foundOther]

theorem canonical_eq_iff {left right : Value} :
    left.canonical = right.canonical ↔ left.Agrees right :=
  ⟨agrees_of_canonical left, Agrees.canonical⟩

theorem exists_of_mem_sorted {member : String × Value}
    (found : member ∈ sortMembers (canonicalMembers members)) :
    ∃ original ∈ members, (original.1, original.2.canonical) = member := by
  rcases mem_foldl_insertMember found with given | absent
  · rw [canonicalMembers_eq_map] at given
    exact List.mem_map.mp given
  · exact absurd absent List.not_mem_nil

theorem keysAscend_canonical (value : Value) : value.canonical.KeysAscend := by
  induction value using byParts with
  | null => exact .null
  | bool value => exact .bool value
  | number value => exact .number value
  | string text => exact .string text
  | array items ih =>
      rw [canonical, canonicalItems_eq_map]
      exact .array (List.forall_mem_map.mpr ih)
  | object members ih =>
      refine .object (sortMembers_ascending _) ?_
      intro member found
      obtain ⟨original, isMember, rfl⟩ := exists_of_mem_sorted found
      exact ih original isMember

theorem KeysAscend.canonical {value : Value} (ascend : value.KeysAscend) :
    value.canonical = value := by
  induction ascend with
  | null => rfl
  | bool => rfl
  | number => rfl
  | string => rfl
  | array _ ih => rw [Value.canonical, canonicalItems_eq_map, List.map_congr_left ih, List.map_id']
  | @object members ascending _ ih =>
      have own : canonicalMembers members = members := by
        calc canonicalMembers members
            _ = members.map id := by
                rw [canonicalMembers_eq_map]
                exact List.map_congr_left fun member found => Prod.ext rfl (ih member found)
            _ = members := List.map_id members
      rw [Value.canonical, own]
      refine congrArg Value.object (eq_of_first? (sortMembers_ascending members) ascending ?_)
      intro key
      rw [first?_sortMembers, member?_eq_first? ascending]

theorem agrees_canonical (value : Value) : value.canonical.Agrees value :=
  agrees_of_canonical _ (keysAscend_canonical value).canonical

/-! ### Members in another order -/

def valuesOf (key : String) (members : List (String × Value)) : List Value :=
  (members.filter (·.1 = key)).map (·.2)

/-- The members of objects in another order, at any depth. Those with one key keep their order
among themselves. -/
inductive Reorders : Value → Value → Prop
  | same (value : Value) : Reorders value value
  | array {items others : List Value} (lengths : items.length = others.length)
      (each : ∀ (index : Nat) (item other : Value), items[index]? = some item →
        others[index]? = some other → Reorders item other) : Reorders (.array items) (.array others)
  | object {members others : List (String × Value)}
      (counts : ∀ key, (valuesOf key members).length = (valuesOf key others).length)
      (each : ∀ (key : String) (index : Nat) (value other : Value),
        (valuesOf key members)[index]? = some value → (valuesOf key others)[index]? = some other →
          Reorders value other) :
      Reorders (.object members) (.object others)

theorem valuesOf_of_distinct (distinct : (members.map (·.1)).Nodup) (key : String) :
    valuesOf key members = [] ∨ ∃ value, valuesOf key members = [value] := by
  induction members with
  | nil => exact Or.inl rfl
  | cons member rest ih =>
      obtain ⟨absent, distinctRest⟩ := List.nodup_cons.mp distinct
      by_cases same : member.1 = key
      · have alone : rest.filter (·.1 = key) = [] := by
          refine List.filter_eq_nil_iff.mpr fun other found repeated => absent ?_
          have sameKey : other.1 = member.1 := (of_decide_eq_true repeated).trans same.symm
          exact List.mem_map.mpr ⟨other, found, sameKey⟩
        exact Or.inr ⟨member.2, by simp [valuesOf, same, alone]⟩
      · simpa [valuesOf, same] using ih distinctRest

/-- Members with different keys may stand in any order. -/
theorem reorders_of_perm (distinct : (members.map (·.1)).Nodup) (permuted : members.Perm others) :
    (object members).Reorders (object others) := by
  have same : ∀ key, valuesOf key members = valuesOf key others := by
    intro key
    have values : (valuesOf key members).Perm (valuesOf key others) :=
      (permuted.filter _).map _
    rcases valuesOf_of_distinct distinct key with none | ⟨value, single⟩
    · rw [none] at values ⊢
      exact values.nil_eq
    · rw [single] at values ⊢
      exact values.singleton_eq
  refine .object (fun key => by rw [same]) ?_
  intro key index value other found foundOther
  rw [same key, foundOther] at found
  cases found
  exact .same value

theorem member?_eq_getLast? (key : String) (members : List (String × Value)) :
    (object members).member? key = (valuesOf key members).getLast? := by
  rw [valuesOf, List.getLast?_map, List.getLast?_filter, member?, List.findRev?_eq_find?_reverse]

theorem Reorders.agrees {left right : Value} (reorders : left.Reorders right) :
    left.Agrees right := by
  induction reorders with
  | same value => exact agrees_of_canonical value rfl
  | array lengths _ ih => exact .array lengths ih
  | object counts _ ih =>
      refine .object ?_ ?_
      · intro key
        rw [member?_eq_getLast?, member?_eq_getLast?, Bool.eq_iff_iff, List.getLast?_isSome,
          List.getLast?_isSome, ← List.length_pos_iff, ← List.length_pos_iff, counts key]
      · intro key value other
        rw [member?_eq_getLast?, member?_eq_getLast?, List.getLast?_eq_getElem?,
          List.getLast?_eq_getElem?, ← counts key]
        exact ih key _ value other

end Value

end RiskRules.Json
