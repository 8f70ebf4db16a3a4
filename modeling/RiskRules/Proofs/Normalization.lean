import Mathlib.Data.List.Nodup
import RiskRules.Normalization

/-!
What normalization makes of the classes of a catalog. Every class is either kept or dropped; the
identifiers that are kept are distinct and consist of ASCII letters and digits, whatever the
catalog.
-/

namespace RiskRules

def candidates (classes : List (String × ThreatClass)) : List String :=
  classes.map (·.2.candidate.1)

theorem isAlphanum_of_mem_sanitize {text : String} {char : Char}
    (member : char ∈ (sanitize text).toList) : char.isAlphanum = true := by
  rw [sanitize, String.toList_ofList] at member
  exact (List.mem_filter.mp member).2

theorem ThreatClass.isAlphanum_of_mem_candidate {threat : ThreatClass} {char : Char}
    (member : char ∈ threat.candidate.1.toList) : char.isAlphanum = true := by
  simp only [candidate] at member
  split at member
  · exact isAlphanum_of_mem_sanitize member
  · exact isAlphanum_of_mem_sanitize member

/-- One more text and the rest: it has not been seen, and the rest repeat neither it nor one that
has. -/
theorem nodup_unseen_cons {first : String} {rest seen : List String} :
    (first :: rest).Nodup ∧ (∀ text ∈ first :: rest, text ∉ seen) ↔
      first ∉ seen ∧ rest.Nodup ∧ ∀ text ∈ rest, text ∉ first :: seen := by
  rw [List.nodup_cons, List.forall_mem_cons]
  simp only [List.mem_cons, not_or]
  constructor
  · rintro ⟨⟨absent, distinct⟩, unseen, fresh⟩
    exact ⟨unseen, distinct, fun text member =>
      ⟨fun same => absent (same ▸ member), fresh text member⟩⟩
  · rintro ⟨unseen, distinct, fresh⟩
    exact ⟨⟨fun member => (fresh first member).1 rfl, distinct⟩, unseen,
      fun text member => (fresh text member).2⟩

namespace Normalization

variable {space : String} {taken : List String} {classes : List (String × ThreatClass)}

theorem ofClasses_taken {group : String} {threat : ThreatClass}
    (owned : threat.candidate.1 ∈ taken) :
    ofClasses space taken ((group, threat) :: classes) =
      { ofClasses space taken classes with
        dropped := ⟨threat.candidate.1, group, threat⟩ ::
          (ofClasses space taken classes).dropped } := by
  rw [ofClasses, if_pos owned]

theorem ofClasses_fresh {group : String} {threat : ThreatClass}
    (fresh : threat.candidate.1 ∉ taken) :
    ofClasses space taken ((group, threat) :: classes) =
      { ofClasses space (threat.candidate.1 :: taken) classes with
        entries := Entry.ofClass space group threat ::
          (ofClasses space (threat.candidate.1 :: taken) classes).entries } := by
  rw [ofClasses, if_neg fresh]

theorem length_entries_add_length_dropped :
    (ofClasses space taken classes).entries.length +
      (ofClasses space taken classes).dropped.length = classes.length := by
  induction classes generalizing taken with
  | nil => rfl
  | cons found classes ih =>
      obtain ⟨group, threat⟩ := found
      by_cases owned : threat.candidate.1 ∈ taken
      · have kept := @ih taken
        rw [ofClasses_taken owned]
        simp only [List.length_cons]
        omega
      · have kept := @ih (threat.candidate.1 :: taken)
        rw [ofClasses_fresh owned]
        simp only [List.length_cons]
        omega

/-- Every entry is made of a class, and nobody owned its identifier before. -/
theorem exists_of_mem_entries {entry : Entry}
    (member : entry ∈ (ofClasses space taken classes).entries) :
    entry.identifier ∉ taken ∧
      ∃ found ∈ classes, entry = Entry.ofClass space found.1 found.2 := by
  induction classes generalizing taken with
  | nil => cases member
  | cons found classes ih =>
      obtain ⟨group, threat⟩ := found
      by_cases owned : threat.candidate.1 ∈ taken
      · rw [ofClasses_taken owned] at member
        obtain ⟨fresh, found, later, made⟩ := ih member
        exact ⟨fresh, found, List.mem_cons_of_mem _ later, made⟩
      · rw [ofClasses_fresh owned] at member
        rcases List.mem_cons.mp member with rfl | member
        · exact ⟨owned, (group, threat), List.mem_cons_self, rfl⟩
        · obtain ⟨fresh, found, later, made⟩ := ih member
          exact ⟨fun before => fresh (List.mem_cons_of_mem _ before), found,
            List.mem_cons_of_mem _ later, made⟩

theorem nodup_identifiers :
    ((ofClasses space taken classes).entries.map Entry.identifier).Nodup := by
  induction classes generalizing taken with
  | nil => exact List.nodup_nil
  | cons found classes ih =>
      obtain ⟨group, threat⟩ := found
      by_cases owned : threat.candidate.1 ∈ taken
      · rw [ofClasses_taken owned]
        exact ih
      · rw [ofClasses_fresh owned, List.map_cons, List.nodup_cons]
        refine ⟨fun repeated => ?_, ih⟩
        obtain ⟨entry, member, same⟩ := List.mem_map.mp repeated
        exact (exists_of_mem_entries member).1 (same ▸ List.mem_cons_self)

theorem isAlphanum_of_mem_identifier {entry : Entry} {char : Char}
    (member : entry ∈ (ofClasses space taken classes).entries)
    (within : char ∈ entry.identifier.toList) : char.isAlphanum = true := by
  obtain ⟨_, found, _, rfl⟩ := exists_of_mem_entries member
  exact ThreatClass.isAlphanum_of_mem_candidate within

/-- Nothing is dropped if and only if all classes ask for different identifiers. -/
theorem dropped_eq_nil_iff :
    (ofClasses space taken classes).dropped = [] ↔
      (candidates classes).Nodup ∧ ∀ identifier ∈ candidates classes, identifier ∉ taken := by
  induction classes generalizing taken with
  | nil => simp [ofClasses, candidates]
  | cons found classes ih =>
      obtain ⟨group, threat⟩ := found
      rw [candidates, List.map_cons, ← candidates, nodup_unseen_cons]
      by_cases owned : threat.candidate.1 ∈ taken
      · simp [ofClasses_taken owned, owned]
      · rw [ofClasses_fresh owned, ih]
        simp [owned]

theorem entries_of_dropped_eq_nil (kept : (ofClasses space taken classes).dropped = []) :
    (ofClasses space taken classes).entries =
      classes.map fun found => Entry.ofClass space found.1 found.2 := by
  induction classes generalizing taken with
  | nil => rfl
  | cons found classes ih =>
      obtain ⟨group, threat⟩ := found
      by_cases owned : threat.candidate.1 ∈ taken
      · rw [ofClasses_taken owned] at kept
        cases kept
      · rw [ofClasses_fresh owned] at kept ⊢
        rw [List.map_cons, ih kept]

end Normalization

end RiskRules
