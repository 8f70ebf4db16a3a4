import RiskRules.Proofs.Json.Reading
import RiskRules.Proofs.Version.Precedence

/-!
How versions are written: three numbers with dots between them, then the segments of a pre-release
after a hyphen and those of the build metadata after a plus sign, each if there are any. A text is
read as a version exactly when it is written so.
-/

namespace RiskRules.Version

/-! ### The grammar -/

structure IsNumber (digits : List Char) : Prop where
  nonempty : digits ≠ []
  numeric : isNumeric digits = true
  alone : digits.head? = some '0' → digits = ['0']
  small : numberOf digits < numberLimit

structure IsSegment (part : Part) (segment : List Char) : Prop where
  nonempty : segment ≠ []
  spelled : ∀ char ∈ segment, isIdentifierChar char = true
  alone : part = .prerelease → isNumeric segment = true → segment.head? = some '0' →
    segment = ['0']

def dotted (segments : List (List Char)) : List Char :=
  segments.flatMap ('.' :: ·)

def marked (mark : Char) : List (List Char) → List Char
  | [] => []
  | segment :: later => mark :: (segment ++ dotted later)

inductive Spells : List Char → Version → Prop
  | intro {major minor patch : List Char} {prerelease build : List (List Char)}
      (isMajor : IsNumber major) (isMinor : IsNumber minor) (isPatch : IsNumber patch)
      (prereleaseSegments : ∀ segment ∈ prerelease, IsSegment .prerelease segment)
      (buildSegments : ∀ segment ∈ build, IsSegment .build segment) :
      Spells (major ++ '.' :: (minor ++ '.' :: (patch ++
          (marked '-' prerelease ++ marked '+' build))))
        ⟨numberOf major, numberOf minor, numberOf patch, prerelease, build⟩

theorem Spells.plain {text : List Char} {version : Version} (spelled : Spells text version) :
    version.Plain := by
  cases spelled with
  | intro _ _ _ prereleaseSegments _ =>
      intro segment member
      have isSegment := prereleaseSegments segment member
      exact ⟨isSegment.nonempty, isSegment.alone rfl⟩

/-! ### Numbers -/

theorem readDigits_eq_ok {part : Part} {value number : Nat} {text rest : List Char}
    (small : value < numberLimit) (read : readDigits part value text = .ok (number, rest)) :
    ∃ digits, text = digits ++ rest ∧ isNumeric digits = true ∧ (digits ≠ [] → value ≠ 0) ∧
      number = digits.foldl (fun value char => value * 10 + digitValue char) value ∧
      number < numberLimit := by
  induction text generalizing value with
  | nil =>
      cases read
      exact ⟨[], rfl, rfl, fun some => absurd rfl some, rfl, small⟩
  | cons char tail ih =>
      rw [readDigits] at read
      split at read
      next digit =>
        split at read
        next => cases read
        next nonzero =>
          split at read
          next fits =>
            obtain ⟨digits, rfl, numeric, _, same, fitsToo⟩ := ih fits read
            refine ⟨char :: digits, rfl, ?_, fun _ => nonzero, same, fitsToo⟩
            rw [isNumeric, List.all_cons, digit, Bool.true_and]
            exact numeric
          next => cases read
      next =>
        cases read
        exact ⟨[], rfl, rfl, fun some => absurd rfl some, rfl, small⟩

theorem readDigits_digits (part : Part) {value : Nat} {digits rest : List Char}
    (numeric : isNumeric digits = true) (nonzero : digits ≠ [] → value ≠ 0)
    (small : digits.foldl (fun value char => value * 10 + digitValue char) value < numberLimit)
    (ends : Json.EndsDigits rest) :
    readDigits part value (digits ++ rest) =
      .ok (digits.foldl (fun value char => value * 10 + digitValue char) value, rest) := by
  induction digits generalizing value with
  | nil =>
      cases rest with
      | nil => rfl
      | cons char rest => rw [List.nil_append, readDigits, if_neg (by simp [ends char rfl])]; rfl
  | cons char digits ih =>
      rw [isNumeric, List.all_cons, Bool.and_eq_true] at numeric
      have least : (value * 10 + digitValue char) * 1 ≤
          digits.foldl (fun value char => value * 10 + digitValue char)
            (value * 10 + digitValue char) :=
        Nat.le_trans (Nat.mul_le_mul_left _ (Nat.one_le_pow _ _ (by omega)))
          (le_foldl_digits digits _)
      rw [Nat.mul_one] at least
      have positive := nonzero (List.cons_ne_nil _ _)
      rw [List.foldl_cons] at small
      rw [List.cons_append, readDigits, if_pos numeric.1, if_neg positive,
        if_pos (Nat.lt_of_le_of_lt least small), ih numeric.2 (fun _ => by omega) small]
      rfl

theorem numberOf_cons (first : Char) (rest : List Char) :
    numberOf (first :: rest) =
      rest.foldl (fun value char => value * 10 + digitValue char) (digitValue first) := by
  rw [numberOf, List.foldl_cons, Nat.zero_mul, Nat.zero_add]

theorem digitValue_eq_zero_iff {char : Char} (digit : char.isDigit = true) :
    digitValue char = 0 ↔ char = '0' := by
  have bounds := Json.toNat_of_isDigit digit
  have value : digitValue char = char.toNat - 48 := rfl
  rw [← Char.toNat_inj, value]
  exact show char.toNat - 48 = 0 ↔ char.toNat = 48 by omega

theorem readNumber_eq_ok {part : Part} {number : Nat} {text rest : List Char}
    (read : readNumber part text = .ok (number, rest)) :
    ∃ digits, text = digits ++ rest ∧ IsNumber digits ∧ number = numberOf digits := by
  cases text with
  | nil => cases read
  | cons first tail =>
      rw [readNumber] at read
      split at read
      next digit =>
        have small : digitValue first < numberLimit :=
          Nat.lt_of_lt_of_le (digitValue_lt digit) (by decide)
        obtain ⟨digits, rfl, numeric, nonzero, same, fits⟩ := readDigits_eq_ok small read
        rw [← numberOf_cons] at same
        refine ⟨first :: digits, rfl, ⟨List.cons_ne_nil _ _, ?_, ?_, same ▸ fits⟩, same⟩
        · rw [isNumeric, List.all_cons, digit, Bool.true_and]
          exact numeric
        · intro zero
          have isZero := (digitValue_eq_zero_iff digit).mpr (Option.some.inj zero)
          have none : digits = [] := by
            by_contra some
            exact nonzero some isZero
          rw [none, Option.some.inj zero]
      next => cases read

theorem readNumber_number (part : Part) {digits rest : List Char} (isNumber : IsNumber digits)
    (ends : Json.EndsDigits rest) :
    readNumber part (digits ++ rest) = .ok (numberOf digits, rest) := by
  obtain ⟨first, more, rfl⟩ := List.exists_cons_of_ne_nil isNumber.nonempty
  have numeric := isNumber.numeric
  have small := isNumber.small
  rw [isNumeric, List.all_cons, Bool.and_eq_true] at numeric
  rw [numberOf_cons] at small
  have nonzero : more ≠ [] → digitValue first ≠ 0 := by
    intro several zero
    have same := (digitValue_eq_zero_iff numeric.1).mp zero
    exact several (List.cons.inj (isNumber.alone (congrArg some same))).2
  rw [List.cons_append, readNumber, if_pos numeric.1,
    readDigits_digits part numeric.2 nonzero small ends, numberOf_cons]

theorem readDot_eq_ok {part : Part} {text rest : List Char} :
    readDot part text = .ok rest ↔ text = '.' :: rest := by
  cases text with
  | nil => exact iff_of_false nofun nofun
  | cons char tail => by_cases dot : char = '.' <;> simp [readDot, dot]

/-! ### Segments -/

theorem checkSegment_eq_ok {part : Part} {segment : List Char} {done : Unit} :
    checkSegment part segment = .ok done ↔
      segment ≠ [] ∧ (part = .prerelease → isNumeric segment = true →
        segment.head? = some '0' → segment = ['0']) := by
  rw [checkSegment]
  cases segment with
  | nil => simp
  | cons first rest =>
      by_cases isPrerelease : part = .prerelease <;>
        by_cases numeric : isNumeric (first :: rest) = true <;>
          by_cases zero : first = '0' <;> cases rest <;> simp [*]

theorem dotted_cons (segment : List Char) (later : List (List Char)) :
    dotted (segment :: later) = '.' :: (segment ++ dotted later) :=
  rfl

section

variable {part : Part} {segment rest : List Char} {done : List (List Char)}

theorem isSegment_of_check (spelled : ∀ char ∈ segment, isIdentifierChar char = true)
    {checked : Unit} (check : checkSegment part segment.reverse = .ok checked) :
    IsSegment part segment.reverse := by
  obtain ⟨nonempty, alone⟩ := checkSegment_eq_ok.mp check
  exact ⟨nonempty, fun char member => spelled char (List.mem_reverse.mp member), alone⟩

/-- What is read completes the segment that has begun and may bring others. -/
theorem readSegments_eq_ok {text : List Char} {segments : List (List Char)}
    (spelled : ∀ char ∈ segment, isIdentifierChar char = true)
    (read : readSegments part segment done text = .ok (segments, rest)) :
    ∃ piece later, text = piece ++ (dotted later ++ rest) ∧
      segments = done.reverse ++ (segment.reverse ++ piece) :: later ∧
      ∀ one ∈ (segment.reverse ++ piece) :: later, IsSegment part one := by
  induction text generalizing segment done with
  | nil =>
      rw [readSegments, bind_eq_ok] at read
      obtain ⟨_, check, same⟩ := read
      cases same
      refine ⟨[], [], rfl, by simp, ?_⟩
      simpa using isSegment_of_check spelled check
  | cons char tail ih =>
      rw [readSegments] at read
      split at read
      next goesOn =>
        obtain ⟨piece, later, rfl, same, areSegments⟩ :=
          ih (List.forall_mem_cons.mpr ⟨goesOn, spelled⟩) read
        rw [List.reverse_cons, List.append_assoc] at same areSegments
        exact ⟨char :: piece, later, rfl, same, areSegments⟩
      next =>
        rw [bind_eq_ok] at read
        obtain ⟨_, check, read⟩ := read
        have isSegment := isSegment_of_check spelled check
        split at read
        next dot =>
          subst dot
          obtain ⟨piece, later, rfl, same, areSegments⟩ :=
            ih (fun _ member => absurd member List.not_mem_nil) read
          refine ⟨[], piece :: later, by rw [dotted_cons]; simp, by simpa using same, ?_⟩
          rw [List.append_nil]
          exact List.forall_mem_cons.mpr ⟨isSegment, areSegments⟩
        next =>
          cases read
          refine ⟨[], [], rfl, by simp, ?_⟩
          simpa using isSegment

def EndsSegments (rest : List Char) : Prop :=
  ∀ char, rest.head? = some char → isIdentifierChar char = false ∧ char ≠ '.'

theorem readSegments_piece {piece : List Char}
    (spelled : ∀ char ∈ piece, isIdentifierChar char = true) :
    readSegments part segment done (piece ++ rest) =
      readSegments part (piece.reverse ++ segment) done rest := by
  induction piece generalizing segment with
  | nil => rfl
  | cons char piece ih =>
      obtain ⟨first, others⟩ := List.forall_mem_cons.mp spelled
      rw [List.cons_append, readSegments, if_pos first, ih others, List.reverse_cons,
        List.append_assoc]
      rfl

theorem readSegments_segments {later : List (List Char)}
    (areSegments : ∀ one ∈ segment :: later, IsSegment part one) (ends : EndsSegments rest) :
    readSegments part [] done (segment ++ (dotted later ++ rest)) =
      .ok (done.reverse ++ segment :: later, rest) := by
  induction later generalizing segment done with
  | nil =>
      have isSegment := areSegments segment List.mem_cons_self
      have check : checkSegment part segment = .ok () :=
        checkSegment_eq_ok.mpr ⟨isSegment.nonempty, isSegment.alone⟩
      rw [readSegments_piece isSegment.spelled, List.append_nil]
      cases rest with
      | nil =>
          rw [dotted, List.flatMap_nil, List.nil_append, readSegments, List.reverse_reverse, check]
          simp [bind, Except.bind, pure, Except.pure]
      | cons char rest =>
          obtain ⟨outside, notDot⟩ := ends char rfl
          rw [dotted, List.flatMap_nil, List.nil_append, readSegments, List.reverse_reverse, check,
            if_neg (by simp [outside])]
          simp [bind, Except.bind, pure, Except.pure, notDot]
  | cons next later ih =>
      obtain ⟨isSegment, others⟩ := List.forall_mem_cons.mp areSegments
      have check : checkSegment part segment = .ok () :=
        checkSegment_eq_ok.mpr ⟨isSegment.nonempty, isSegment.alone⟩
      have outside : ¬isIdentifierChar '.' = true := by decide
      rw [readSegments_piece isSegment.spelled, List.append_nil, dotted_cons, List.cons_append,
        readSegments, List.reverse_reverse, check, if_neg outside, List.append_assoc]
      change readSegments part [] (segment :: done) _ = _
      rw [ih others, List.reverse_cons, List.append_assoc]
      rfl

theorem readMarked_eq_ok {mark : Char} {text : List Char} {segments : List (List Char)}
    (read : readMarked part mark text = .ok (segments, rest)) :
    text = marked mark segments ++ rest ∧ ∀ one ∈ segments, IsSegment part one := by
  cases text with
  | nil =>
      cases read
      exact ⟨rfl, fun _ member => absurd member List.not_mem_nil⟩
  | cons char tail =>
      rw [readMarked] at read
      split at read
      next found =>
        subst found
        obtain ⟨piece, later, rfl, rfl, areSegments⟩ :=
          readSegments_eq_ok (fun _ member => absurd member List.not_mem_nil) read
        refine ⟨?_, areSegments⟩
        simp [marked]
      next =>
        cases read
        exact ⟨rfl, fun _ member => absurd member List.not_mem_nil⟩

theorem readMarked_marked {mark : Char} {segments : List (List Char)}
    (areSegments : ∀ one ∈ segments, IsSegment part one) (ends : EndsSegments rest)
    (unmarked : rest.head? ≠ some mark) :
    readMarked part mark (marked mark segments ++ rest) = .ok (segments, rest) := by
  cases segments with
  | nil =>
      cases rest with
      | nil => rfl
      | cons char rest => exact if_neg fun same => unmarked (congrArg some same)
  | cons segment later =>
      rw [marked, List.cons_append, readMarked, if_pos rfl, List.append_assoc,
        readSegments_segments areSegments ends]
      rfl

end

/-! ### Versions -/

theorem spells_of_ofChars {text : List Char} {version : Version}
    (read : ofChars text = .ok version) : Spells text version := by
  unfold ofChars at read
  split at read
  next => cases read
  simp only [bind_eq_ok] at read
  obtain ⟨⟨_, _⟩, readMajor, _, dot, ⟨_, _⟩, readMinor, _, second, ⟨_, _⟩, readPatch, ⟨_, _⟩,
    readPrerelease, ⟨_, afterBuild⟩, readBuild, ended⟩ := read
  obtain ⟨major, rfl, isMajor, rfl⟩ := readNumber_eq_ok readMajor
  obtain rfl := readDot_eq_ok.mp dot
  obtain ⟨minor, rfl, isMinor, rfl⟩ := readNumber_eq_ok readMinor
  obtain rfl := readDot_eq_ok.mp second
  obtain ⟨patch, rfl, isPatch, rfl⟩ := readNumber_eq_ok readPatch
  obtain ⟨rfl, prereleaseSegments⟩ := readMarked_eq_ok readPrerelease
  obtain ⟨rfl, buildSegments⟩ := readMarked_eq_ok readBuild
  cases afterBuild with
  | nil =>
      cases ended
      rw [List.append_nil]
      exact .intro isMajor isMinor isPatch prereleaseSegments buildSegments
  | cons found rest => cases ended

theorem head?_marked (mark : Char) (segments : List (List Char)) :
    ∀ char, (marked mark segments).head? = some char → char = mark := by
  intro char first
  cases segments with
  | nil => cases first
  | cons segment later => exact (Option.some.inj first).symm

theorem endsDigits_of_head? {rest : List Char}
    (outside : ∀ char, rest.head? = some char → char = '.' ∨ char = '-' ∨ char = '+') :
    Json.EndsDigits rest := by
  intro char first
  rcases outside char first with rfl | rfl | rfl <;> decide

theorem ofChars_of_spells {text : List Char} {version : Version} (spelled : Spells text version) :
    ofChars text = .ok version := by
  cases spelled with
  | @intro major minor patch prerelease build isMajor isMinor isPatch prereleaseSegments
      buildSegments =>
      have dot : ∀ rest, Json.EndsDigits ('.' :: rest) := fun rest =>
        endsDigits_of_head? fun char first => .inl (Option.some.inj first).symm
      have marks : Json.EndsDigits (marked '-' prerelease ++ marked '+' build) :=
        endsDigits_of_head? fun char first => by
          cases prerelease with
          | nil => exact .inr (.inr (head?_marked '+' build char first))
          | cons segment later => exact .inr (.inl (Option.some.inj first).symm)
      have plus : EndsSegments (marked '+' build) := by
        intro char first
        rw [head?_marked '+' build char first]
        decide
      have notHyphen : (marked '+' build).head? ≠ some '-' := fun first =>
        absurd (head?_marked '+' build '-' first) (by decide)
      have readBuild : readMarked .build '+' (marked '+' build ++ []) = .ok (build, []) :=
        readMarked_marked buildSegments nofun nofun
      rw [List.append_nil] at readBuild
      rw [ofChars, if_neg (by simp [isMajor.nonempty])]
      exact bind_eq_ok.mpr ⟨_, readNumber_number .major isMajor (dot _),
        bind_eq_ok.mpr ⟨_, readDot_eq_ok.mpr rfl,
        bind_eq_ok.mpr ⟨_, readNumber_number .minor isMinor (dot _),
        bind_eq_ok.mpr ⟨_, readDot_eq_ok.mpr rfl,
        bind_eq_ok.mpr ⟨_, readNumber_number .patch isPatch marks,
        bind_eq_ok.mpr ⟨_, readMarked_marked prereleaseSegments plus notHyphen,
        bind_eq_ok.mpr ⟨_, readBuild, rfl⟩⟩⟩⟩⟩⟩⟩

theorem ofChars_eq_ok_iff {text : List Char} {version : Version} :
    ofChars text = .ok version ↔ Spells text version :=
  ⟨spells_of_ofChars, ofChars_of_spells⟩

theorem plain_of_ofText {text : String} {version : Version} (read : ofText text = .ok version) :
    version.Plain :=
  (ofChars_eq_ok_iff.mp read).plain

/-! ### Build metadata -/

theorem IsNumber.plus_notMem {digits : List Char} (isNumber : IsNumber digits) : '+' ∉ digits :=
  fun member => absurd (List.all_eq_true.mp isNumber.numeric '+' member) (by decide)

theorem IsSegment.plus_notMem {part : Part} {segment : List Char}
    (isSegment : IsSegment part segment) : '+' ∉ segment :=
  fun member => absurd (isSegment.spelled '+' member) (by decide)

theorem plus_notMem_marked {part : Part} {segments : List (List Char)}
    (areSegments : ∀ segment ∈ segments, IsSegment part segment) : '+' ∉ marked '-' segments := by
  cases segments with
  | nil => exact List.not_mem_nil
  | cons segment later =>
      obtain ⟨isSegment, others⟩ := List.forall_mem_cons.mp areSegments
      have noneLater : '+' ∉ dotted later := by
        intro member
        obtain ⟨one, oneMember, found⟩ := List.mem_flatMap.mp member
        rcases List.mem_cons.mp found with dot | found
        · exact absurd dot (by decide)
        · exact (others one oneMember).plus_notMem found
      simp [marked, isSegment.plus_notMem, noneLater]

/-- The first plus sign of a version text is where its build metadata begins. -/
theorem Spells.exists_front {text : List Char} {version : Version} (spelled : Spells text version) :
    ∃ front, text = front ++ marked '+' version.build ∧ '+' ∉ front ∧
      Spells front version.bare := by
  cases spelled with
  | @intro major minor patch prerelease build isMajor isMinor isPatch prereleaseSegments
      buildSegments =>
      refine ⟨major ++ '.' :: (minor ++ '.' :: (patch ++ marked '-' prerelease)), by simp, ?_, ?_⟩
      · simp [isMajor.plus_notMem, isMinor.plus_notMem, isPatch.plus_notMem,
          plus_notMem_marked prereleaseSegments]
      · have noSegments : ∀ segment ∈ ([] : List (List Char)), IsSegment .build segment := nofun
        have spelled := Spells.intro isMajor isMinor isPatch prereleaseSegments noSegments
        rwa [marked, List.append_nil] at spelled

theorem eq_of_append_eq_append {mark : Char} {front other rest more : List Char}
    (unmarked : mark ∉ front) (otherUnmarked : mark ∉ other)
    (begins : ∀ char, rest.head? = some char → char = mark)
    (moreBegins : ∀ char, more.head? = some char → char = mark)
    (same : front ++ rest = other ++ more) : front = other ∧ rest = more := by
  rcases List.append_eq_append_iff.mp same with ⟨between, rfl, rfl⟩ | ⟨between, rfl, rfl⟩
  · cases between with
    | nil => simp
    | cons char between =>
        have found := begins char rfl
        simp [found] at otherUnmarked
  · cases between with
    | nil => simp
    | cons char between =>
        have found := moreBegins char rfl
        simp [found] at unmarked

def withMetadata (text : String) : Option String → String
  | none => text
  | some metadata => text ++ "+" ++ metadata

theorem ofText_withMetadata {text : String} {metadata : Option String} {version : Version}
    (unmarked : '+' ∉ text.toList) (read : ofText (withMetadata text metadata) = .ok version) :
    ofText text = .ok version.bare ∧ (version.build = [] ↔ metadata = none) := by
  obtain ⟨front, same, frontUnmarked, spelled⟩ := (ofChars_eq_ok_iff.mp read).exists_front
  cases metadata with
  | none =>
      have same : text.toList ++ [] = front ++ marked '+' version.build :=
        (List.append_nil _).trans same
      obtain ⟨rfl, none⟩ := eq_of_append_eq_append unmarked frontUnmarked (by simp)
        (head?_marked '+' version.build) same
      refine ⟨ofChars_eq_ok_iff.mpr spelled, iff_of_true ?_ rfl⟩
      cases build : version.build with
      | nil => rfl
      | cons segment later => simp [build, marked] at none
  | some metadata =>
      have same : text.toList ++ '+' :: metadata.toList = front ++ marked '+' version.build :=
        Eq.trans (by simp [withMetadata]) same
      obtain ⟨rfl, some⟩ := eq_of_append_eq_append unmarked frontUnmarked (by simp)
        (head?_marked '+' version.build) same
      refine ⟨ofChars_eq_ok_iff.mpr spelled, iff_of_false (fun none => ?_) nofun⟩
      rw [none, marked] at some
      cases some

end RiskRules.Version
