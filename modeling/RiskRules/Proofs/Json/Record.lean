import RiskRules.Proofs.Json.Reading

/-!
Reading records. An object whose members are fields of the record, each given once and none that is
required left out, is read as the record that its members make in turn. Whatever text a record is
read from, a property that holds at first and that every field keeps holds of the result.
-/

namespace RiskRules.Json

def Field.Keeps (field : Field α) (property : α → Prop) : Prop :=
  ∀ room node record result, property record → field.read room node record = .ok result →
    property result

theorem Field.keeps_of {decode : Decoder β} {assign : α → β → α} {name : String}
    {required : Bool} {property : α → Prop}
    (kept : ∀ room node part record, decode room node = .ok part → property record →
      property (assign record part)) :
    (Field.of name required decode assign).Keeps property := by
  intro room node record result holds read
  simp only [Field.of, bind_eq_ok] at read
  obtain ⟨part, readPart, same⟩ := read
  cases same
  exact kept room node part record readPart holds

namespace Record

variable {α β : Type} {shape : Record α} {depth : Nat}

section

variable {room : Nat}

def place (shape : Record α) (room : Nat) (name : String) (node : Node) (record : α) : Reading α :=
  match shape.field? name with
  | some field => field.read room node record
  | none => do
      node.skip
      return record

theorem checkNew_eq_ok {seen : List String} {name : String} :
    shape.checkNew seen name = .ok () ↔ ((shape.field? name).isSome → name ∉ seen) := by
  unfold checkNew
  split
  next repeated => simp [mismatch, repeated.1, repeated.2]
  next fresh => simpa using fresh

theorem readMembers_cons {seen : List String} {record : α} {key : Literal} {node : Node}
    {rest : List (Literal × Node)} {result : α × List String} :
    shape.readMembers room seen record ((key, node) :: rest) = .ok result ↔
      ∃ name, key.text = .ok name ∧ ((shape.field? name).isSome → name ∉ seen) ∧
        ∃ next, shape.place room name node record = .ok next ∧
          shape.readMembers room (name :: seen) next rest = .ok result := by
  simp only [readMembers, readMember, bind_eq_ok]
  constructor
  · rintro ⟨name, named, next, ⟨_, fresh, placed⟩, others⟩
    exact ⟨name, named, checkNew_eq_ok.mp fresh, next, placed, others⟩
  · rintro ⟨name, named, fresh, next, placed, others⟩
    exact ⟨name, named, next, ⟨(), checkNew_eq_ok.mpr fresh, placed⟩, others⟩

theorem field?_eq_some {name : String} {field : Field α} (found : shape.field? name = some field) :
    field ∈ shape.fields ∧ field.name = name :=
  ⟨List.mem_of_find?_eq_some found, by simpa using List.find?_some found⟩

theorem place_of_field {name : String} {field : Field α} (found : shape.field? name = some field)
    (node : Node) (record : α) :
    shape.place room name node record = field.read room node record := by
  rw [place, found]

theorem place_of_unknown {name : String} (unknown : shape.field? name = none) {node : Node}
    {record result : α} :
    shape.place room name node record = .ok result ↔ node.skip = .ok () ∧ result = record := by
  simp only [place, unknown, unit_bind_eq_ok]
  constructor
  · rintro ⟨skipped, same⟩
    cases same
    exact ⟨skipped, rfl⟩
  · rintro ⟨skipped, rfl⟩
    exact ⟨skipped, rfl⟩

end

/-- Reading `members` in turn, each as the field of its name, makes `result` of `record`. Members
that are no fields change nothing. -/
inductive Fills (shape : Record α) (depth : Nat) : α → List (String × Value) → α → Prop
  | nil (record : α) : Fills shape depth record [] record
  | cons {record next result : α} {name : String} {value : Value}
      {rest : List (String × Value)} {field : Field α} (found : shape.field? name = some field)
      (read : ∀ room, depth < room → field.read room (.ofValue value) record = .ok next)
      (fills : Fills shape depth next rest result) :
      Fills shape depth record ((name, value) :: rest) result
  | skip {record result : α} {name : String} {value : Value} {rest : List (String × Value)}
      (unknown : shape.field? name = none) (fills : Fills shape depth record rest result) :
      Fills shape depth record ((name, value) :: rest) result

theorem Fills.set {record result : α} {name : String} {required : Bool} {decode : Decoder β}
    {assign : α → β → α} {value : Value} {part : β} {rest : List (String × Value)}
    (found : shape.field? name = some (.of name required decode assign))
    (decodes : Decodes decode depth value part)
    (fills : Fills shape depth (assign record part) rest result) :
    Fills shape depth record ((name, value) :: rest) result := by
  refine .cons found (fun room enough => ?_) fills
  simp only [Field.of, decodes room enough]
  rfl

theorem Fills.append {record result : α} (middle : α) {first second : List (String × Value)}
    (left : Fills shape depth record first middle)
    (right : Fills shape depth middle second result) :
    Fills shape depth record (first ++ second) result := by
  induction left with
  | nil record => exact right
  | cons found read _ ih => exact .cons found read (ih right)
  | skip unknown _ ih => exact .skip unknown (ih right)

/-- Once a name has been seen, distinct other names have still not been. -/
theorem fresh_tail {name : String} {rest seen : List String} (distinct : (name :: rest).Nodup)
    (fresh : ∀ other ∈ name :: rest, other ∉ seen) : ∀ other ∈ rest, other ∉ name :: seen := by
  intro other member known
  rcases List.mem_cons.mp known with rfl | before
  · exact (List.nodup_cons.mp distinct).1 member
  · exact fresh other (List.mem_cons_of_mem name member) before

theorem readMembers_of_fills {record result : α} {members : List (String × Value)}
    (fills : Fills shape depth record members result) (distinct : (members.map (·.1)).Nodup)
    {seen : List String} (fresh : ∀ name ∈ members.map (·.1), name ∉ seen) {room : Nat}
    (enough : depth < room) :
    shape.readMembers room seen record (nodesOfMembers members) =
      .ok (result, (members.map (·.1)).reverse ++ seen) := by
  induction fills generalizing seen with
  | nil record => rfl
  | @cons record next result name value rest field found read _ ih =>
      have unseen : name ∉ seen := fresh name List.mem_cons_self
      have others := ih distinct.tail (fresh_tail distinct fresh)
      rw [nodesOfMembers, readMembers_cons]
      refine ⟨name, Literal.text_ofText name, fun _ => unseen, next, ?_, by simpa using others⟩
      rw [place_of_field found, read room enough]
  | @skip record result name value rest unknown _ ih =>
      have others := ih distinct.tail (fresh_tail distinct fresh)
      rw [nodesOfMembers, readMembers_cons]
      exact ⟨name, Literal.text_ofText name, fun _ => fresh name List.mem_cons_self, record,
        (place_of_unknown unknown).mpr ⟨Node.skip_ofValue value, rfl⟩, by simpa using others⟩

theorem checkComplete_of_mem {seen : List String}
    (given : ∀ field ∈ shape.fields, field.required = true → field.name ∈ seen) :
    shape.checkComplete seen = .ok () := by
  have none : (shape.fields.find? fun field => field.required && !seen.contains field.name) =
      none := by
    rw [List.find?_eq_none]
    intro field member missing
    simp only [Bool.and_eq_true, Bool.not_eq_true', List.contains_eq_mem,
      decide_eq_false_iff_not] at missing
    exact missing.2 (given field member missing.1)
  rw [checkComplete, none]

theorem decodes_object {result : α} {members : List (String × Value)}
    (fills : Fills shape depth shape.initial members result)
    (distinct : (members.map (·.1)).Nodup)
    (given : ∀ field ∈ shape.fields, field.required = true → field.name ∈ members.map (·.1)) :
    Decodes shape.decode (depth + 1) (.object members) result := by
  intro room enough
  have read := readMembers_of_fills fills distinct (fun name _ => List.not_mem_nil)
    (show depth < room - 1 by omega)
  have complete : shape.checkComplete ((members.map (·.1)).reverse ++ []) = .ok () :=
    checkComplete_of_mem fun field member required => by
      simpa using given field member required
  rw [Node.ofValue, decode, descend_of_room (by omega)]
  simp only [read, bind, Except.bind, ObjectEnding.check, complete]
  rfl

/-! ### What every reading keeps -/

variable {property : α → Prop}

theorem forall_of_mapM {decode : β → Reading α} (each : ∀ node result, decode node = .ok result →
    property result) {items : List β} {results : List α} (read : items.mapM decode = .ok results) :
    ∀ result ∈ results, property result := by
  induction items generalizing results with
  | nil =>
      cases read
      simp
  | cons item items ih =>
      simp only [List.mapM_cons, bind_eq_ok] at read
      obtain ⟨first, readFirst, rest, readRest, same⟩ := read
      cases same
      exact List.forall_mem_cons.mpr ⟨each item first readFirst, ih readRest⟩

theorem forall_of_listOf {decode : Decoder α} (each : ∀ room node result,
    decode room node = .ok result → property result) {room : Nat} {node : Node} {results : List α}
    (read : listOf decode room node = .ok results) : ∀ result ∈ results, property result := by
  obtain ⟨items, _, _, readAll⟩ := listOf_eq_ok.mp read
  exact forall_of_mapM (each _) readAll

theorem readMembers_keeps (kept : ∀ field ∈ shape.fields, Field.Keeps field property) {room : Nat}
    {members : List (Literal × Node)} {seen names : List String} {record result : α}
    (holds : property record)
    (read : shape.readMembers room seen record members = .ok (result, names)) :
    property result := by
  induction members generalizing seen record with
  | nil =>
      cases read
      exact holds
  | cons member rest ih =>
      obtain ⟨key, node⟩ := member
      obtain ⟨name, _, _, next, placed, others⟩ := readMembers_cons.mp read
      apply ih _ others
      cases found : shape.field? name with
      | none =>
          obtain ⟨_, rfl⟩ := (place_of_unknown found).mp placed
          exact holds
      | some field =>
          rw [place_of_field found] at placed
          exact kept field (field?_eq_some found).1 _ _ _ _ holds placed

theorem readItems_keeps {room : Nat} {ending : ArrayEnding} {fields : List (Field α)}
    (kept : ∀ field ∈ fields, Field.Keeps field property) {items : List Node} {index : Nat}
    {record result : α} (holds : property record)
    (read : shape.readItems room ending index record fields items = .ok result) :
    property result := by
  induction fields generalizing items index record with
  | nil =>
      simp only [readItems, bind_eq_ok] at read
      obtain ⟨_, _, same⟩ := read
      cases same
      exact holds
  | cons field fields ih =>
      have keptRest := fun other member => kept other (List.mem_cons_of_mem field member)
      cases items with
      | nil =>
          simp only [readItems, bind_eq_ok] at read
          obtain ⟨_, _, readRest⟩ := read
          split at readRest
          · cases readRest
          · exact ih keptRest holds readRest
      | cons item items =>
          simp only [readItems, bind_eq_ok] at read
          obtain ⟨next, readFirst, readRest⟩ := read
          exact ih keptRest (kept field List.mem_cons_self _ _ _ _ holds readFirst) readRest

theorem decode_keeps (initial : property shape.initial)
    (kept : ∀ field ∈ shape.fields, Field.Keeps field property) {room : Nat} {node : Node}
    {result : α} (read : shape.decode room node = .ok result) : property result := by
  cases node with
  | object members ending =>
      simp only [decode, descend_eq_ok, bind_eq_ok] at read
      obtain ⟨_, ⟨record, seen⟩, readAll, _, _, _, _, same⟩ := read
      cases same
      exact readMembers_keeps kept initial readAll
  | array items ending =>
      simp only [decode, descend_eq_ok] at read
      exact readItems_keeps kept initial read.2
  | _ => exact absurd read wrongType_ne_ok

end Record

end RiskRules.Json
