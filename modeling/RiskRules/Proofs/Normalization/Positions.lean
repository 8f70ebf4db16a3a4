import Mathlib.Data.List.Nodup
import RiskRules.Proofs.Normalization

/-!
Normalization by positions. A class is kept if no class before it asks for its identifier, and
otherwise it is dropped for one that was kept before it.
-/

namespace RiskRules

variable {space : String} {taken : List String} {classes : List (String × ThreatClass)}

def selected (select : String → Nat → Bool) (classes : List (String × ThreatClass)) :
    List (String × ThreatClass) :=
  (classes.zipIdx.filter fun found => select found.1.2.candidate.1 found.2).map Prod.fst

theorem selected_cons (select : String → Nat → Bool) (first : String × ThreatClass) :
    selected select (first :: classes) =
      (if select first.2.candidate.1 0 then [first] else []) ++
        selected (fun identifier index => select identifier (index + 1)) classes := by
  rw [selected, List.zipIdx_cons', List.filter_cons, List.filter_map]
  split <;> simp [selected, Function.comp_def, *]

theorem mem_selected {select : String → Nat → Bool} {found : String × ThreatClass} :
    found ∈ selected select classes ↔
      ∃ index, classes[index]? = some found ∧ select found.2.candidate.1 index = true := by
  simp only [selected, List.mem_map, List.mem_filter, List.mem_zipIdx_iff_getElem?]
  constructor
  · rintro ⟨⟨found, index⟩, ⟨place, chosen⟩, rfl⟩
    exact ⟨index, place, chosen⟩
  · rintro ⟨index, place, chosen⟩
    exact ⟨(found, index), ⟨place, chosen⟩, rfl⟩

def isTakenAt (classes : List (String × ThreatClass)) (identifier : String) (index : Nat) : Bool :=
  identifier ∈ (candidates classes).take index

theorem isTakenAt_zero (identifier : String) : isTakenAt classes identifier 0 = false := by
  simp [isTakenAt]

theorem isTakenAt_cons (first : String × ThreatClass) (identifier : String) (index : Nat) :
    isTakenAt (first :: classes) identifier (index + 1) =
      (decide (identifier = first.2.candidate.1) || isTakenAt classes identifier index) := by
  have shape : candidates (first :: classes) = first.2.candidate.1 :: candidates classes := rfl
  rw [isTakenAt, isTakenAt, shape, List.take_succ_cons]
  simp

/-- An identifier that is asked for before a position is asked for a first time before it. -/
theorem exists_first_of_isTakenAt {identifier : String} {index : Nat}
    (late : isTakenAt classes identifier index = true) :
    ∃ earlier owner, earlier < index ∧ classes[earlier]? = some owner ∧
      owner.2.candidate.1 = identifier ∧ isTakenAt classes identifier earlier = false := by
  induction classes generalizing index with
  | nil => simp [isTakenAt, candidates] at late
  | cons first classes ih =>
      cases index with
      | zero => simp [isTakenAt_zero] at late
      | succ index =>
          by_cases same : identifier = first.2.candidate.1
          · exact ⟨0, first, Nat.succ_pos index, rfl, same.symm, isTakenAt_zero identifier⟩
          · rw [isTakenAt_cons, decide_eq_false same, Bool.false_or] at late
            obtain ⟨earlier, owner, before, place, asks, unasked⟩ := ih late
            refine ⟨earlier + 1, owner, by omega, place, asks, ?_⟩
            rw [isTakenAt_cons, decide_eq_false same, Bool.false_or, unasked]

namespace Normalization

/-- `taken` holds what classes before the list have asked for. -/
theorem ofClasses_eq_selected :
    ofClasses space taken classes = {
      entries := (selected (fun identifier index =>
        !(decide (identifier ∈ taken) || isTakenAt classes identifier index)) classes).map
          fun found => Entry.ofClass space found.1 found.2
      dropped := (selected (fun identifier index =>
        decide (identifier ∈ taken) || isTakenAt classes identifier index) classes).map
          fun found => ⟨found.2.candidate.1, found.1, found.2⟩ } := by
  induction classes generalizing taken with
  | nil => rfl
  | cons first classes ih =>
      obtain ⟨group, threat⟩ := first
      simp only [selected_cons, isTakenAt_zero, isTakenAt_cons, Bool.or_false, ← Bool.or_assoc]
      by_cases owned : threat.candidate.1 ∈ taken
      · have before : ∀ identifier,
            (decide (identifier ∈ taken) || decide (identifier = threat.candidate.1)) =
              decide (identifier ∈ taken) := by
          intro identifier
          by_cases same : identifier = threat.candidate.1 <;> simp [same, owned]
        rw [ofClasses_taken owned, ih]
        simp [owned, before]
      · have before : ∀ identifier,
            (decide (identifier ∈ taken) || decide (identifier = threat.candidate.1)) =
              decide (identifier ∈ threat.candidate.1 :: taken) := by
          intro identifier
          simp [Bool.or_comm]
        rw [ofClasses_fresh owned, ih]
        simp only [owned, before]
        simp

variable {groups : List Group}

theorem entries_eq_selected :
    (ofGroups space groups).entries =
      (selected (fun identifier index => !isTakenAt (flatten groups) identifier index)
        (flatten groups)).map fun found => Entry.ofClass space found.1 found.2 := by
  rw [ofGroups, ofClasses_eq_selected]
  simp

theorem dropped_eq_selected :
    (ofGroups space groups).dropped =
      (selected (isTakenAt (flatten groups)) (flatten groups)).map
        fun found => ⟨found.2.candidate.1, found.1, found.2⟩ := by
  rw [ofGroups, ofClasses_eq_selected]
  simp

/-- A class that comes too late was preceded by the one that became the entry of its identifier. -/
theorem exists_owner {identifier : String} {index : Nat}
    (late : isTakenAt (flatten groups) identifier index = true) :
    ∃ earlier owner, earlier < index ∧ (flatten groups)[earlier]? = some owner ∧
      owner.2.candidate.1 = identifier ∧
      Entry.ofClass space owner.1 owner.2 ∈ (ofGroups space groups).entries := by
  obtain ⟨earlier, owner, before, place, rfl, unasked⟩ := exists_first_of_isTakenAt late
  refine ⟨earlier, owner, before, place, rfl, ?_⟩
  rw [entries_eq_selected]
  exact List.mem_map_of_mem (mem_selected.mpr ⟨earlier, place, by rw [unasked]; rfl⟩)

/-- Every class is accounted for once: the first one that asks for an identifier becomes its entry,
and the others are dropped, each after the class that kept the identifier from it. -/
theorem classes_accounted (space : String) (groups : List Group) :
    (ofGroups space groups).entries =
      (selected (fun identifier index => !isTakenAt (flatten groups) identifier index)
        (flatten groups)).map (fun found => {
          identifier := found.2.candidate.1
          source := found.2.candidate.2
          slug := slugify found.2.name
          categoryKey := space ++ "-" ++ slugify found.2.name
          title := found.2.title
          group := found.1 }) ∧
    (ofGroups space groups).dropped =
      (selected (isTakenAt (flatten groups)) (flatten groups)).map
        (fun found => ⟨found.2.candidate.1, found.1, found.2⟩) ∧
    ((ofGroups space groups).entries.map Entry.identifier).Nodup ∧
    (∀ entry ∈ (ofGroups space groups).entries, ∀ char ∈ entry.identifier.toList,
      char.isAlphanum = true) ∧
    (∀ index found, (flatten groups)[index]? = some found →
      isTakenAt (flatten groups) found.2.candidate.1 index = true →
        ∃ earlier owner, earlier < index ∧ (flatten groups)[earlier]? = some owner ∧
          owner.2.candidate.1 = found.2.candidate.1 ∧
          Entry.ofClass space owner.1 owner.2 ∈ (ofGroups space groups).entries) ∧
    (∀ dropped ∈ (ofGroups space groups).dropped,
      dropped.identifier ∈ (ofGroups space groups).entries.map Entry.identifier) ∧
    (ofGroups space groups).entries.length + (ofGroups space groups).dropped.length =
      (flatten groups).length := by
  refine ⟨entries_eq_selected, dropped_eq_selected, nodup_identifiers, ?_, ?_, ?_,
    length_entries_add_length_dropped⟩
  · intro entry member char within
    exact isAlphanum_of_mem_identifier member within
  · intro index found _ late
    exact exists_owner late
  · intro dropped member
    rw [dropped_eq_selected] at member
    obtain ⟨found, chosen, rfl⟩ := List.mem_map.mp member
    obtain ⟨index, _, late⟩ := mem_selected.mp chosen
    obtain ⟨_, owner, _, _, same, kept⟩ := exists_owner late
    exact List.mem_map.mpr ⟨_, kept, same⟩

def lateGroups : List Group :=
  [⟨"G", [⟨"", "A.", "first"⟩]⟩, ⟨"H", [⟨"A", "!", "second"⟩, ⟨"", "", ""⟩]⟩]

theorem classes_accounted_late :
    (ofGroups "ns" lateGroups).entries =
      [⟨"A", .name, "a-", "ns-a-", "first", "G"⟩, ⟨"", .id, "", "ns-", "", "H"⟩] ∧
    (ofGroups "ns" lateGroups).dropped = [⟨"A", "H", ⟨"A", "!", "second"⟩⟩] ∧
    ∃ earlier owner, earlier < 1 ∧ (flatten lateGroups)[earlier]? = some owner ∧
      owner.2.candidate.1 = "A" ∧
      Entry.ofClass "ns" owner.1 owner.2 ∈ (ofGroups "ns" lateGroups).entries := by
  obtain ⟨entries, dropped, _, _, owned, _⟩ := classes_accounted "ns" lateGroups
  refine ⟨entries.trans (by decide), dropped.trans (by decide), ?_⟩
  exact owned 1 ("H", ⟨"A", "!", "second"⟩) rfl (by decide)

end Normalization

end RiskRules
