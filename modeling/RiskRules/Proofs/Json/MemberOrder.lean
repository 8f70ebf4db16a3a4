import Mathlib.Data.List.Pairwise
import RiskRules.Proofs.Json.Impartial

/-!
Records whose fields may be given in any order. A member sets its own field and leaves the others
alone, so two members can change places, and only which names have been seen counts for the rest.
-/

namespace RiskRules.Json

namespace Field

structure IsImpartial (field : Field α) : Prop where
  skip : ∀ {room : Nat} {node : Node} {record result : α},
    field.read room node record = .ok result → node.skip = .ok ()
  steady : ∀ {room : Nat} {node other : Node} {record result : α}, node.Rearranges other →
    field.read room node record = .ok result → field.read room other record = .ok result

def Commute (first second : Field α) : Prop :=
  ∀ room left right record result,
    first.read room left record >>= second.read room right = .ok result ↔
      second.read room right record >>= first.read room left = .ok result

instance : Std.Symm (@Commute α) where
  symm _ _ commute room left right record result := (commute room right left record result).symm

variable {name otherName : String} {required otherRequired : Bool} {decode : Decoder β}
  {further : Decoder γ} {assign : α → β → α} {assignFurther : α → γ → α}

theorem read_of_eq_ok {room : Nat} {node : Node} {record result : α} :
    (Field.of name required decode assign).read room node record = .ok result ↔
      ∃ part, decode room node = .ok part ∧ assign record part = result := by
  simp [Field.of, bind_eq_ok, pure, Except.pure]

theorem isImpartial_of (impartial : Impartial decode) :
    (Field.of name required decode assign).IsImpartial where
  skip read := by
    obtain ⟨part, readPart, _⟩ := read_of_eq_ok.mp read
    exact impartial.skip readPart
  steady rearranges read := by
    obtain ⟨part, readPart, same⟩ := read_of_eq_ok.mp read
    exact read_of_eq_ok.mpr ⟨part, impartial.steady rearranges readPart, same⟩

theorem commute_of (commute : ∀ record part other,
      assignFurther (assign record part) other = assign (assignFurther record other) part) :
    Commute (Field.of name required decode assign)
      (Field.of otherName otherRequired further assignFurther) := by
  intro room left right record result
  simp only [bind_eq_ok, read_of_eq_ok]
  constructor
  · rintro ⟨_, ⟨part, readPart, rfl⟩, other, readOther, rfl⟩
    exact ⟨_, ⟨other, readOther, rfl⟩, part, readPart, (commute record part other).symm⟩
  · rintro ⟨_, ⟨other, readOther, rfl⟩, part, readPart, rfl⟩
    exact ⟨_, ⟨part, readPart, rfl⟩, other, readOther, commute record part other⟩

end Field

namespace Record

variable {shape : Record α} {room : Nat}

/-- Two members can change places unless they are the same field. -/
theorem place_commute (commute : shape.fields.Pairwise Field.Commute) {first second : String}
    (different : (shape.field? first).isSome → first ≠ second) {left right : Node}
    {record next result : α} (readFirst : shape.place room first left record = .ok next)
    (readSecond : shape.place room second right next = .ok result) :
    ∃ next, shape.place room second right record = .ok next ∧
      shape.place room first left next = .ok result := by
  cases foundFirst : shape.field? first with
  | none =>
      obtain ⟨skipped, rfl⟩ := (place_of_unknown foundFirst).mp readFirst
      exact ⟨result, readSecond, (place_of_unknown foundFirst).mpr ⟨skipped, rfl⟩⟩
  | some field =>
      cases foundSecond : shape.field? second with
      | none =>
          obtain ⟨skipped, rfl⟩ := (place_of_unknown foundSecond).mp readSecond
          exact ⟨record, (place_of_unknown foundSecond).mpr ⟨skipped, rfl⟩, readFirst⟩
      | some other =>
          obtain ⟨memberFirst, rfl⟩ := field?_eq_some foundFirst
          obtain ⟨memberSecond, rfl⟩ := field?_eq_some foundSecond
          have apart : field ≠ other := fun same =>
            different (by rw [foundFirst]; rfl) (congrArg Field.name same)
          have either := commute.forall memberFirst memberSecond apart
          simp only [place_of_field foundFirst, place_of_field foundSecond] at readFirst readSecond
          simp only [place_of_field foundFirst, place_of_field foundSecond]
          exact bind_eq_ok.mp ((either room left right record result).mp
            (bind_eq_ok.mpr ⟨next, readFirst, readSecond⟩))

def SameNames (names others : List String) : Prop :=
  ∀ name, name ∈ names ↔ name ∈ others

theorem SameNames.cons {names others : List String} (same : SameNames names others)
    (first : String) : SameNames (first :: names) (first :: others) := by
  intro name
  rw [List.mem_cons, List.mem_cons, same name]

theorem SameNames.swap {names others : List String} (same : SameNames names others)
    (first second : String) :
    SameNames (second :: first :: names) (first :: second :: others) := by
  intro name
  simp only [List.mem_cons, same name]
  exact or_left_comm

theorem readMembers_seen {members : List (Literal × Node)} {seen otherSeen names : List String}
    {record result : α} (same : SameNames seen otherSeen)
    (read : shape.readMembers room seen record members = .ok (result, names)) :
    ∃ otherNames, shape.readMembers room otherSeen record members = .ok (result, otherNames) ∧
      SameNames names otherNames := by
  induction members generalizing seen otherSeen record with
  | nil =>
      cases read
      exact ⟨otherSeen, rfl, same⟩
  | cons member rest ih =>
      obtain ⟨key, node⟩ := member
      obtain ⟨name, named, fresh, next, placed, others⟩ := readMembers_cons.mp read
      obtain ⟨otherNames, readOthers, sameNames⟩ := ih (same.cons name) others
      have otherFresh := fun known => mt (same name).mpr (fresh known)
      exact ⟨otherNames, readMembers_cons.mpr ⟨name, named, otherFresh, next, placed, readOthers⟩,
        sameNames⟩

theorem readMembers_swap (commute : shape.fields.Pairwise Field.Commute)
    {first second : Literal × Node} {rest : List (Literal × Node)}
    {seen otherSeen names : List String} {record result : α} (same : SameNames seen otherSeen)
    (read : shape.readMembers room seen record (first :: second :: rest) = .ok (result, names)) :
    ∃ otherNames,
      shape.readMembers room otherSeen record (second :: first :: rest) =
        .ok (result, otherNames) ∧ SameNames names otherNames := by
  obtain ⟨firstKey, left⟩ := first
  obtain ⟨secondKey, right⟩ := second
  obtain ⟨name, named, fresh, next, placed, others⟩ := readMembers_cons.mp read
  obtain ⟨further, namedFurther, freshFurther, _, placedFurther, readRest⟩ :=
    readMembers_cons.mp others
  have different : (shape.field? name).isSome → name ≠ further := by
    rintro known rfl
    exact freshFurther known List.mem_cons_self
  obtain ⟨middle, placedFirst, placedSecond⟩ :=
    place_commute commute different placed placedFurther
  obtain ⟨otherNames, readOther, sameNames⟩ :=
    readMembers_seen (same.swap name further) readRest
  have otherFresh : (shape.field? further).isSome → further ∉ otherSeen := by
    intro known seenBefore
    exact freshFurther known (List.mem_cons_of_mem name ((same further).mpr seenBefore))
  have otherFreshFirst : (shape.field? name).isSome → name ∉ further :: otherSeen := by
    intro known seenBefore
    rcases List.mem_cons.mp seenBefore with equal | before
    · exact different known equal
    · exact fresh known ((same name).mpr before)
  have readFirst := readMembers_cons.mpr
    ⟨name, named, otherFreshFirst, _, placedSecond, readOther⟩
  exact ⟨otherNames, readMembers_cons.mpr
    ⟨further, namedFurther, otherFresh, middle, placedFirst, readFirst⟩, sameNames⟩

theorem readMembers_perm (commute : shape.fields.Pairwise Field.Commute)
    {members others : List (Literal × Node)} (permuted : members.Perm others)
    {seen otherSeen names : List String} {record result : α} (same : SameNames seen otherSeen)
    (read : shape.readMembers room seen record members = .ok (result, names)) :
    ∃ otherNames, shape.readMembers room otherSeen record others = .ok (result, otherNames) ∧
      SameNames names otherNames := by
  induction permuted generalizing seen otherSeen names record result with
  | nil => exact readMembers_seen same read
  | cons member _ ih =>
      obtain ⟨key, node⟩ := member
      obtain ⟨name, named, fresh, next, placed, others⟩ := readMembers_cons.mp read
      obtain ⟨otherNames, readOthers, sameNames⟩ := ih (same.cons name) others
      have otherFresh := fun known => mt (same name).mpr (fresh known)
      exact ⟨otherNames, readMembers_cons.mpr ⟨name, named, otherFresh, next, placed, readOthers⟩,
        sameNames⟩
  | swap => exact readMembers_swap commute same read
  | trans _ _ ihFirst ihSecond =>
      obtain ⟨middleNames, readMiddle, sameMiddle⟩ := ihFirst same read
      obtain ⟨otherNames, readOther, sameOther⟩ := ihSecond (fun _ => Iff.rfl) readMiddle
      exact ⟨otherNames, readOther, fun name => (sameMiddle name).trans (sameOther name)⟩

section

variable (impartial : ∀ field ∈ shape.fields, field.IsImpartial)

include impartial

theorem skip_of_place {name : String} {node : Node} {record result : α}
    (read : shape.place room name node record = .ok result) : node.skip = .ok () := by
  cases found : shape.field? name with
  | none => exact ((place_of_unknown found).mp read).1
  | some field =>
      rw [place_of_field found] at read
      exact (impartial field (field?_eq_some found).1).skip read

theorem place_steady {name : String} {node other : Node} (rearranges : node.Rearranges other)
    {record result : α} (read : shape.place room name node record = .ok result) :
    shape.place room name other record = .ok result := by
  cases found : shape.field? name with
  | none =>
      obtain ⟨skipped, same⟩ := (place_of_unknown found).mp read
      exact (place_of_unknown found).mpr ⟨rearranges.skip skipped, same⟩
  | some field =>
      rw [place_of_field found] at read ⊢
      exact (impartial field (field?_eq_some found).1).steady rearranges read

theorem skipMembers_of_readMembers {members : List (Literal × Node)} {seen : List String}
    {record : α} {result : α × List String}
    (read : shape.readMembers room seen record members = .ok result) :
    skipMembers members = .ok () := by
  induction members generalizing seen record with
  | nil => rfl
  | cons member rest ih =>
      obtain ⟨key, node⟩ := member
      obtain ⟨name, named, _, _, placed, others⟩ := readMembers_cons.mp read
      simp only [skipMembers, unit_bind_eq_ok]
      exact ⟨Literal.skip_of_text named, skip_of_place impartial placed, ih others⟩

theorem readMembers_rearranged {members others : List (Literal × Node)}
    (each : MembersRearrange members others) {seen : List String} {record : α}
    {result : α × List String}
    (read : shape.readMembers room seen record members = .ok result) :
    shape.readMembers room seen record others = .ok result := by
  induction members generalizing others seen record with
  | nil =>
      cases each
      exact read
  | cons member rest ih =>
      cases each with
      | cons respells first after =>
          obtain ⟨name, named, fresh, next, placed, readRest⟩ := readMembers_cons.mp read
          exact readMembers_cons.mpr ⟨name, respells.text named, fresh, next,
            place_steady impartial first placed, ih after readRest⟩

end

/-! ### Records that are given as arrays -/

theorem checkArrayEnd_eq_ok {items : List Node} {ending : ArrayEnding} :
    checkArrayEnd items ending = .ok () ↔ items = [] ∧ ending = .closed := by
  cases items <;> cases ending <;> simp [checkArrayEnd, malformed]

theorem skipItems_of_readItems {fields : List (Field α)}
    (impartial : ∀ field ∈ fields, field.IsImpartial) {items : List Node} {ending : ArrayEnding}
    {index : Nat} {record result : α}
    (read : shape.readItems room ending index record fields items = .ok result) :
    skipItems items = .ok () ∧ ending = .closed := by
  induction fields generalizing items index record with
  | nil =>
      simp only [readItems, bind_eq_ok] at read
      obtain ⟨_, ended, _⟩ := read
      obtain ⟨rfl, rfl⟩ := checkArrayEnd_eq_ok.mp ended
      exact ⟨rfl, rfl⟩
  | cons field fields ih =>
      obtain ⟨first, others⟩ := List.forall_mem_cons.mp impartial
      cases items with
      | nil =>
          simp only [readItems, bind_eq_ok] at read
          obtain ⟨_, ended, _⟩ := read
          exact ⟨rfl, ArrayEnding.check_eq_ok.mp ended⟩
      | cons item items =>
          simp only [readItems, bind_eq_ok] at read
          obtain ⟨_, readFirst, readRest⟩ := read
          obtain ⟨skipped, closed⟩ := ih others readRest
          simp only [skipItems, unit_bind_eq_ok]
          exact ⟨⟨first.skip readFirst, skipped⟩, closed⟩

theorem readItems_rearranged {fields : List (Field α)}
    (impartial : ∀ field ∈ fields, field.IsImpartial) {items others : List Node}
    (each : ItemsRearrange items others) {ending : ArrayEnding} {index : Nat} {record result : α}
    (read : shape.readItems room ending index record fields items = .ok result) :
    shape.readItems room ending index record fields others = .ok result := by
  induction fields generalizing items others index record with
  | nil =>
      simp only [readItems, bind_eq_ok] at read
      obtain ⟨_, ended, same⟩ := read
      obtain ⟨rfl, rfl⟩ := checkArrayEnd_eq_ok.mp ended
      cases each
      exact same
  | cons field fields ih =>
      obtain ⟨first, others⟩ := List.forall_mem_cons.mp impartial
      cases each with
      | nil => exact read
      | cons rearranges after =>
          simp only [readItems, bind_eq_ok] at read ⊢
          obtain ⟨next, readFirst, readRest⟩ := read
          exact ⟨next, first.steady rearranges readFirst, ih others after readRest⟩

theorem checkComplete_of_same {seen otherSeen : List String} (same : SameNames seen otherSeen)
    (complete : shape.checkComplete seen = .ok ()) : shape.checkComplete otherSeen = .ok () := by
  have missing : (fun field : Field α => field.required && !seen.contains field.name) =
      fun field => field.required && !otherSeen.contains field.name := by
    funext field
    simp [same field.name]
  rwa [checkComplete, missing] at complete

theorem impartial_decode (impartial : ∀ field ∈ shape.fields, field.IsImpartial)
    (commute : shape.fields.Pairwise Field.Commute) : Impartial shape.decode where
  skip {_ node _} read := by
    cases node with
    | object members ending =>
        simp only [decode, descend_eq_ok, bind_eq_ok] at read
        obtain ⟨_, ⟨record, names⟩, inside, _, ended, _⟩ := read
        simp only [Node.skip, unit_bind_eq_ok]
        exact ⟨skipMembers_of_readMembers impartial inside, ending.skip_of_check ended⟩
    | array items ending =>
        simp only [decode, descend_eq_ok] at read
        obtain ⟨skipped, rfl⟩ := skipItems_of_readItems impartial read.2
        simp only [Node.skip, unit_bind_eq_ok]
        exact ⟨skipped, rfl⟩
    | _ => exact absurd read wrongType_ne_ok
  steady rearranges read := by
    cases rearranges with
    | object each permuted =>
        simp only [decode, descend_eq_ok, bind_eq_ok] at read ⊢
        obtain ⟨deep, ⟨record, names⟩, inside, _, ended, _, complete, same⟩ := read
        have arranged := readMembers_rearranged impartial each inside
        obtain ⟨otherNames, readOther, sameNames⟩ :=
          readMembers_perm commute permuted (fun _ => Iff.rfl) arranged
        have closed := ObjectEnding.check_eq_ok.mp ended
        exact ⟨deep, (record, otherNames), readOther, (), ObjectEnding.check_eq_ok.mpr closed, (),
          checkComplete_of_same sameNames complete, same⟩
    | array each =>
        simp only [decode, descend_eq_ok] at read ⊢
        exact ⟨read.1, readItems_rearranged impartial each read.2⟩
    | _ => exact absurd read wrongType_ne_ok

end Record

end RiskRules.Json
