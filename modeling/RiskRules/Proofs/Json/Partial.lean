import Mathlib.Data.List.Forall2
import RiskRules.Proofs.Json.MemberOrder

/-!
Objects that give a record in part. Members may stand in any order, those that are not given leave
their fields as they were, and members under names that no field has are skipped.
-/

namespace RiskRules.Json

abbrev Expected := String × (Node → Prop)

def Expected.Meets (expected : Expected) (member : Literal × Node) : Prop :=
  member.1.text = .ok expected.1 ∧ expected.2 member.2

/-- An object with those of the expected members whose names are given, and with others under names
that none of the expected members has, all of them in any order. -/
inductive Node.Holds (expected : List Expected) (given : String → Bool) : Node → Prop
  | object {chosen others all : List (Literal × Node)}
      (each : List.Forall₂ Expected.Meets (expected.filter (given ·.1)) chosen)
      (foreign : ∀ member ∈ others, ∃ name ∉ expected.map (·.1), member.1.text = .ok name)
      (permuted : (chosen ++ others).Perm all) : Holds expected given (.object all .closed)

def Value.members : Value → List (String × Value)
  | .object members => members
  | _ => []

def Value.expected (value : Value) : List Expected :=
  value.members.map fun member => (member.1, (Node.ofValue member.2).Rearranges)

def Value.part (value : Value) (given : String → Bool) : Value :=
  .object (value.members.filter (given ·.1))

theorem Value.isExact_part {value : Value} (exact : value.IsExact) (given : String → Bool) :
    (value.part given).IsExact := by
  cases value with
  | object members =>
      have each := membersExact_iff.mp exact
      exact membersExact_iff.mpr fun member found => each member (List.mem_filter.mp found).1
  | _ => trivial

def Expected.Admits (expected : Expected) (member : String × Value) : Prop :=
  expected.1 = member.1 ∧ expected.2 (.ofValue member.2)

theorem Value.admits_expected (value : Value) :
    List.Forall₂ Expected.Admits value.expected value.members := by
  rw [expected, List.forall₂_map_left_iff, List.forall₂_same]
  exact fun member _ => ⟨rfl, member.2.rearranges_self⟩

theorem Expected.forall₂_filter {expected : List Expected} {members : List (String × Value)}
    (each : List.Forall₂ Admits expected members) (given : String → Bool) :
    List.Forall₂ Meets (expected.filter (given ·.1))
      (nodesOfMembers (members.filter (given ·.1))) := by
  induction each with
  | nil => exact .nil
  | @cons wanted member _ _ first _ ih =>
      obtain ⟨name, kind⟩ := wanted
      obtain ⟨key, value⟩ := member
      obtain ⟨rfl, isKind⟩ := first
      by_cases isGiven : given name = true
      · simp only [List.filter_cons, isGiven, if_true, nodesOfMembers]
        exact .cons ⟨Literal.text_ofText name, isKind⟩ ih
      · simpa only [List.filter_cons, isGiven, Bool.false_eq_true, if_false] using ih

theorem Node.holds_part {value : Value} {expected : List Expected}
    (each : List.Forall₂ Expected.Admits expected value.members) (given : String → Bool) :
    Node.Holds expected given (.ofValue (value.part given)) :=
  .object (Expected.forall₂_filter each given) (fun _ found => absurd found List.not_mem_nil)
    (by rw [List.append_nil])

def Reads (decode : Decoder α) (depth : Nat) (kind : Node → Prop) (result : α) : Prop :=
  ∀ room node, depth < room → kind node → node.skip = .ok () → decode room node = .ok result

theorem Impartial.reads {decode : Decoder α} (impartial : Impartial decode) {depth : Nat}
    {value : Value} {result : α} (decodes : Decodes decode depth value result) :
    Reads decode depth (Node.ofValue value).Rearranges result :=
  fun room _ enough rearranges _ => impartial.steady rearranges (decodes room enough)

theorem Reads.mono {decode : Decoder α} {depth larger : Nat} {kind : Node → Prop} {result : α}
    (reads : Reads decode depth kind result) (le : depth ≤ larger) :
    Reads decode larger kind result :=
  fun room node enough => reads room node (Nat.lt_of_le_of_lt le enough)

theorem Reads.readText {decode : Decoder α} {depth : Nat} {kind : Node → Prop} {result : α}
    (reads : Reads decode depth kind result) (shallow : depth < startingRoom) {node : Node}
    (isKind : kind node) {text : String} (writes : node.Writes text) :
    Json.readText decode text = .ok result :=
  readText_eq_ok.mpr
    ⟨node, writes.outline, reads startingRoom node shallow isKind writes.skip⟩

namespace Record

variable {α β : Type} {shape : Record α} {depth room : Nat}

inductive Accepts (shape : Record α) (depth : Nat) : α → List Expected → α → Prop
  | nil (record : α) : Accepts shape depth record [] record
  | cons {record next result : α} {name : String} {kind : Node → Prop} {rest : List Expected}
      {field : Field α} (found : shape.field? name = some field)
      (read : ∀ room node, depth < room → kind node → node.skip = .ok () →
        field.read room node record = .ok next)
      (accepts : Accepts shape depth next rest result) :
      Accepts shape depth record ((name, kind) :: rest) result

/-- A field that is given is set, and one that is not keeps its value. -/
theorem Accepts.pick {record result : α} {name : String} {required : Bool} {decode : Decoder β}
    {assign : α → β → α} {kind : Node → Prop} {part : β} {rest : List Expected}
    {given : String → Bool} (old : β)
    (found : shape.field? name = some (.of name required decode assign))
    (reads : Reads decode depth kind part) (unchanged : assign record old = record)
    (accepts : Accepts shape depth (assign record (if given name then part else old))
      (rest.filter (given ·.1)) result) :
    Accepts shape depth record (((name, kind) :: rest).filter (given ·.1)) result := by
  by_cases chosen : given name = true
  · rw [if_pos chosen] at accepts
    rw [List.filter_cons, if_pos (show given name = true from chosen)]
    refine .cons found (fun room node enough isKind sound => ?_) accepts
    exact Field.read_of_eq_ok.mpr ⟨part, reads room node enough isKind sound, rfl⟩
  · rw [if_neg chosen, unchanged] at accepts
    rwa [List.filter_cons, if_neg (show ¬given name = true from chosen)]

theorem readMembers_append {first second : List (Literal × Node)} {seen : List String} {record : α}
    {middle result : α × List String}
    (readFirst : shape.readMembers room seen record first = .ok middle)
    (readSecond : shape.readMembers room middle.2 middle.1 second = .ok result) :
    shape.readMembers room seen record (first ++ second) = .ok result := by
  induction first generalizing seen record with
  | nil =>
      cases readFirst
      exact readSecond
  | cons member rest ih =>
      obtain ⟨key, node⟩ := member
      obtain ⟨name, named, fresh, next, placed, readRest⟩ := readMembers_cons.mp readFirst
      exact readMembers_cons.mpr ⟨name, named, fresh, next, placed, ih readRest⟩

theorem exists_readMembers_foreign {others : List (Literal × Node)}
    (foreign : ∀ member ∈ others, ∃ name, shape.field? name = none ∧ member.1.text = .ok name)
    (sound : ∀ member ∈ others, member.2.skip = .ok ()) (seen : List String) (record : α) :
    ∃ names, shape.readMembers room seen record others = .ok (record, names) := by
  induction others generalizing seen with
  | nil => exact ⟨seen, rfl⟩
  | cons member rest ih =>
      obtain ⟨key, node⟩ := member
      obtain ⟨⟨name, unknown, named⟩, foreignRest⟩ := List.forall_mem_cons.mp foreign
      obtain ⟨skipped, soundRest⟩ := List.forall_mem_cons.mp sound
      obtain ⟨names, readRest⟩ := ih foreignRest soundRest (name :: seen)
      refine ⟨names, readMembers_cons.mpr ⟨name, named, fun known => ?_, record,
        (place_of_unknown unknown).mpr ⟨skipped, rfl⟩, readRest⟩⟩
      rw [unknown] at known
      cases known

theorem Accepts.exists_readMembers {record result : α} {expected : List Expected}
    (accepts : Accepts shape depth record expected result)
    (distinct : (expected.map (·.1)).Nodup) {given : List (Literal × Node)}
    (each : List.Forall₂ Expected.Meets expected given)
    (sound : ∀ member ∈ given, member.2.skip = .ok ()) {seen : List String}
    (fresh : ∀ name ∈ expected.map (·.1), name ∉ seen) (enough : depth < room) :
    ∃ names, shape.readMembers room seen record given = .ok (result, names) := by
  induction accepts generalizing given seen with
  | nil record =>
      cases each
      exact ⟨seen, rfl⟩
  | @cons record next result name kind rest field found read _ ih =>
      cases each with
      | @cons _ member _ others first eachRest =>
          obtain ⟨key, node⟩ := member
          obtain ⟨skipped, soundRest⟩ := List.forall_mem_cons.mp sound
          obtain ⟨names, readRest⟩ := ih distinct.tail eachRest soundRest (fresh_tail distinct fresh)
          refine ⟨names, readMembers_cons.mpr ⟨name, first.1,
            fun _ => fresh name List.mem_cons_self, next, ?_, readRest⟩⟩
          rw [place_of_field found]
          exact read room node enough first.2 skipped

/-- Records none of whose fields is required can be given in part. -/
theorem reads_holds {expected : List Expected} {given : String → Bool} {result : α}
    (accepts : Accepts shape depth shape.initial (expected.filter (given ·.1)) result)
    (distinct : (expected.map (·.1)).Nodup)
    (optional : ∀ field ∈ shape.fields, field.required = false)
    (commute : shape.fields.Pairwise Field.Commute)
    (named : shape.fields.map (·.name) = expected.map (·.1)) :
    Reads shape.decode (depth + 1) (Node.Holds expected given) result := by
  rintro room _ enough ⟨each, foreign, permuted⟩ skipped
  simp only [Node.skip, unit_bind_eq_ok] at skipped
  have sound := skipMembers_eq_ok.mp skipped.1
  have unknown : ∀ name ∉ expected.map (·.1), shape.field? name = none := by
    intro name missing
    rw [field?, List.find?_eq_none]
    intro field member
    simp only [decide_eq_true_eq]
    rintro rfl
    exact missing (named ▸ List.mem_map_of_mem member)
  have distinctChosen : ((expected.filter (given ·.1)).map (·.1)).Nodup :=
    distinct.sublist (List.filter_sublist.map _)
  obtain ⟨names, readChosen⟩ := accepts.exists_readMembers distinctChosen each
    (fun member found => (sound member (permuted.subset (List.mem_append_left _ found))).2)
    (fun name _ => List.not_mem_nil) (show depth < room - 1 by omega)
  obtain ⟨allNames, readOthers⟩ := exists_readMembers_foreign
    (fun member found => by
      obtain ⟨name, missing, text⟩ := foreign member found
      exact ⟨name, unknown name missing, text⟩)
    (fun member found => (sound member (permuted.subset (List.mem_append_right _ found))).2)
    names result
  obtain ⟨otherNames, read, _⟩ :=
    readMembers_perm commute permuted (fun _ => Iff.rfl) (readMembers_append readChosen readOthers)
  have complete : shape.checkComplete otherNames = .ok () :=
    checkComplete_of_mem fun field member required => by
      rw [optional field member] at required
      cases required
  rw [decode, descend_of_room (by omega)]
  simp only [read, bind, Except.bind, ObjectEnding.check, complete]
  rfl

end Record

end RiskRules.Json
