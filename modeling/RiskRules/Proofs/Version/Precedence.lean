import Mathlib.Algebra.Order.Ring.Nat
import Mathlib.Tactic.MkIffOfInductiveProp
import RiskRules.Proofs.Json.Numeral
import RiskRules.Version

/-!
The precedence of versions, said without comparing texts: major, minor and patch number first, then
the segments of the pre-release, of which numbers count by their value. A release comes after its
pre-releases, and build metadata has no part in it.
-/

namespace RiskRules.Version

/-! ### Precedence -/

def numberOf (digits : List Char) : Nat :=
  digits.foldl (fun value char => value * 10 + digitValue char) 0

/-- Numbers come before words and count by their value. Words go by the codes of their
characters. -/
@[mk_iff]
inductive SegmentPrecedes (left right : List Char) : Prop
  | numbers (leftNumeric : isNumeric left = true) (rightNumeric : isNumeric right = true)
      (less : numberOf left < numberOf right)
  | mixed (leftNumeric : isNumeric left = true) (rightWord : isNumeric right = false)
  | words (leftWord : isNumeric left = false) (rightWord : isNumeric right = false)
      (less : left < right)

def PrereleasePrecedes (left right : List (List Char)) : Prop :=
  left ≠ [] ∧ (right = [] ∨ List.Lex SegmentPrecedes left right)

def Precedes (left right : Version) : Prop :=
  left.major < right.major ∨ left.major = right.major ∧
    (left.minor < right.minor ∨ left.minor = right.minor ∧
      (left.patch < right.patch ∨ left.patch = right.patch ∧
        PrereleasePrecedes left.prerelease right.prerelease))

def bare (version : Version) : Version :=
  { version with build := [] }

structure PlainSegment (segment : List Char) : Prop where
  nonempty : segment ≠ []
  alone : isNumeric segment = true → segment.head? = some '0' → segment = ['0']

def Plain (version : Version) : Prop :=
  ∀ segment ∈ version.prerelease, PlainSegment segment

/-! ### Numbers -/

theorem digitValue_lt {char : Char} (digit : char.isDigit = true) : digitValue char < 10 := by
  have bounds := Json.toNat_of_isDigit digit
  have value : digitValue char = char.toNat - 48 := rfl
  omega

theorem foldl_digits_lt {digits : List Char} (numeric : isNumeric digits = true) (value : Nat) :
    digits.foldl (fun value char => value * 10 + digitValue char) value <
      (value + 1) * 10 ^ digits.length := by
  induction digits generalizing value with
  | nil => simp
  | cons char rest ih =>
      rw [isNumeric, List.all_cons, Bool.and_eq_true] at numeric
      have small := digitValue_lt numeric.1
      calc _ < (value * 10 + digitValue char + 1) * 10 ^ rest.length := ih numeric.2 _
        _ ≤ ((value + 1) * 10) * 10 ^ rest.length :=
            Nat.mul_le_mul_right _ (by omega)
        _ = (value + 1) * 10 ^ (char :: rest).length := by
            rw [List.length_cons, Nat.pow_succ', Nat.mul_assoc]

theorem le_foldl_digits (digits : List Char) (value : Nat) :
    value * 10 ^ digits.length ≤
      digits.foldl (fun value char => value * 10 + digitValue char) value := by
  induction digits generalizing value with
  | nil => simp
  | cons char rest ih =>
      calc value * 10 ^ (char :: rest).length = (value * 10) * 10 ^ rest.length := by
            rw [List.length_cons, Nat.pow_succ', Nat.mul_assoc]
        _ ≤ (value * 10 + digitValue char) * 10 ^ rest.length :=
            Nat.mul_le_mul_right _ (Nat.le_add_right _ _)
        _ ≤ _ := ih _

theorem numberOf_lt_of_length {left right : List Char} (leftNumeric : isNumeric left = true)
    (rightNumeric : isNumeric right = true) (leftPlain : PlainSegment left)
    (rightPlain : PlainSegment right) (shorter : left.length < right.length) :
    numberOf left < numberOf right := by
  obtain ⟨first, rest, rfl⟩ := List.exists_cons_of_ne_nil rightPlain.nonempty
  have several : 0 < left.length := List.length_pos_iff.mpr leftPlain.nonempty
  rw [List.length_cons] at shorter
  have positive : 1 ≤ digitValue first := by
    have notZero : first ≠ '0' := by
      rintro rfl
      have short := congrArg List.length (rightPlain.alone rightNumeric rfl)
      rw [List.length_cons, List.length_singleton] at short
      omega
    rw [isNumeric, List.all_cons, Bool.and_eq_true] at rightNumeric
    have bounds := Json.toNat_of_isDigit rightNumeric.1
    have different : first.toNat ≠ 48 := fun same => notZero (Char.toNat_inj.mp same)
    have value : digitValue first = first.toNat - 48 := rfl
    omega
  calc numberOf left < (0 + 1) * 10 ^ left.length := foldl_digits_lt leftNumeric 0
    _ ≤ digitValue first * 10 ^ rest.length :=
        Nat.mul_le_mul positive (Nat.pow_le_pow_right (by omega) (by omega))
    _ ≤ rest.foldl (fun value char => value * 10 + digitValue char) (digitValue first) :=
        le_foldl_digits rest _
    _ = numberOf (first :: rest) := by simp [numberOf]

/-! ### Comparing segments -/

theorem compare_char_eq_lt_iff {left right : Char} : compare left right = .lt ↔ left < right :=
  compareOfLessAndEq_eq_lt

theorem compare_chars_eq_lt_iff {left right : List Char} :
    compare left right = .lt ↔ left < right := by
  induction left generalizing right with
  | nil => cases right <;> simp [List.compare_nil_cons]
  | cons first rest ih =>
      cases right with
      | nil => simp [List.compare_cons_nil]
      | cons other more =>
          rw [List.compare_cons_cons, Ordering.then_eq_lt, Std.compare_eq_iff_eq,
            compare_char_eq_lt_iff, ih, List.cons_lt_cons_iff]

theorem compare_next {first second : Char} (digit : first.isDigit = true)
    (otherDigit : second.isDigit = true) (value other : Nat) :
    compare (value * 10 + digitValue first) (other * 10 + digitValue second) =
      (compare value other).then (compare first second) := by
  have bounds := Json.toNat_of_isDigit digit
  have otherBounds := Json.toNat_of_isDigit otherDigit
  have firstValue : digitValue first = first.toNat - 48 := rfl
  have secondValue : digitValue second = second.toNat - 48 := rfl
  rcases Nat.lt_trichotomy value other with less | rfl | greater
  · rw [Nat.compare_eq_lt.mpr less, Nat.compare_eq_lt.mpr (by omega)]
    rfl
  · rw [Nat.compare_eq_eq.mpr rfl]
    rcases Nat.lt_trichotomy first.toNat second.toNat with less | same | greater
    · rw [Nat.compare_eq_lt.mpr (by omega), compare_char_eq_lt_iff.mpr less]
      rfl
    · rw [Char.toNat_inj.mp same]
      simp
    · rw [Nat.compare_eq_gt.mpr (by omega),
        Std.OrientedCmp.gt_iff_lt.mpr (compare_char_eq_lt_iff.mpr greater)]
      rfl
  · rw [Nat.compare_eq_gt.mpr greater, Nat.compare_eq_gt.mpr (by omega)]
    rfl

theorem compare_foldl_digits {left right : List Char} (sameLength : left.length = right.length)
    (leftNumeric : isNumeric left = true) (rightNumeric : isNumeric right = true)
    (value other : Nat) :
    compare (left.foldl (fun value char => value * 10 + digitValue char) value)
        (right.foldl (fun value char => value * 10 + digitValue char) other) =
      (compare value other).then (compare left right) := by
  induction left generalizing right value other with
  | nil =>
      obtain rfl := List.eq_nil_of_length_eq_zero sameLength.symm
      simp
  | cons first rest ih =>
      obtain ⟨second, more, rfl⟩ := List.exists_cons_of_length_eq_add_one sameLength.symm
      rw [isNumeric, List.all_cons, Bool.and_eq_true] at leftNumeric rightNumeric
      rw [List.foldl_cons, List.foldl_cons,
        ih (by simpa using sameLength) leftNumeric.2 rightNumeric.2,
        compare_next leftNumeric.1 rightNumeric.1, List.compare_cons_cons, Ordering.then_assoc]

section

variable {left right : List Char}

/-- Of two numbers without leading zeros the one with more digits is the greater one. -/
theorem compare_numberOf (leftNumeric : isNumeric left = true)
    (rightNumeric : isNumeric right = true) (leftPlain : PlainSegment left)
    (rightPlain : PlainSegment right) :
    (compare left.length right.length).then (compare left right) =
      compare (numberOf left) (numberOf right) := by
  rcases Nat.lt_trichotomy left.length right.length with shorter | same | longer
  · have less := numberOf_lt_of_length leftNumeric rightNumeric leftPlain rightPlain shorter
    rw [Nat.compare_eq_lt.mpr shorter, Nat.compare_eq_lt.mpr less]
    rfl
  · have values := compare_foldl_digits same leftNumeric rightNumeric 0 0
    rw [Nat.compare_eq_eq.mpr same, numberOf, numberOf, values]
    rfl
  · have less := numberOf_lt_of_length rightNumeric leftNumeric rightPlain leftPlain longer
    rw [Nat.compare_eq_gt.mpr longer, Nat.compare_eq_gt.mpr less]
    rfl

theorem comparePrereleaseSegment_eq_lt_iff (leftPlain : PlainSegment left)
    (rightPlain : PlainSegment right) :
    comparePrereleaseSegment left right = .lt ↔ SegmentPrecedes left right := by
  rw [comparePrereleaseSegment, segmentPrecedes_iff]
  cases number : isNumeric left <;> cases other : isNumeric right
  · simp [compare_chars_eq_lt_iff]
  · simp
  · simp
  · simp [compare_numberOf number other leftPlain rightPlain, Nat.compare_eq_lt]

theorem comparePrereleaseSegment_eq_eq_iff :
    comparePrereleaseSegment left right = .eq ↔ left = right := by
  rw [comparePrereleaseSegment]
  split
  next word number =>
    refine iff_of_false nofun ?_
    rintro rfl
    rw [word] at number
    cases number
  next number word =>
    refine iff_of_false nofun ?_
    rintro rfl
    rw [word] at number
    cases number
  next => exact Std.compare_eq_iff_eq
  next =>
    rw [Ordering.then_eq_eq, Std.compare_eq_iff_eq, Std.compare_eq_iff_eq]
    exact ⟨And.right, fun same => ⟨congrArg List.length same, same⟩⟩

end

/-! ### Comparing versions -/

section

variable {lefts rights : List (List Char)}

theorem compareSegments_eq_lt_iff (leftsPlain : ∀ segment ∈ lefts, PlainSegment segment)
    (rightsPlain : ∀ segment ∈ rights, PlainSegment segment) :
    compareSegments comparePrereleaseSegment lefts rights = .lt ↔
      List.Lex SegmentPrecedes lefts rights := by
  induction lefts generalizing rights with
  | nil =>
      cases rights with
      | nil => exact iff_of_false nofun nofun
      | cons right rights => exact iff_of_true rfl .nil
  | cons left lefts ih =>
      cases rights with
      | nil => exact iff_of_false nofun nofun
      | cons right rights =>
          obtain ⟨leftPlain, leftsPlain⟩ := List.forall_mem_cons.mp leftsPlain
          obtain ⟨rightPlain, rightsPlain⟩ := List.forall_mem_cons.mp rightsPlain
          rw [compareSegments, Ordering.then_eq_lt, comparePrereleaseSegment_eq_eq_iff,
            comparePrereleaseSegment_eq_lt_iff leftPlain rightPlain, ih leftsPlain rightsPlain,
            List.cons_lex_cons_iff]

theorem compareSegments_eq_eq_iff :
    compareSegments comparePrereleaseSegment lefts rights = .eq ↔ lefts = rights := by
  induction lefts generalizing rights with
  | nil => cases rights <;> simp [compareSegments]
  | cons left lefts ih =>
      cases rights with
      | nil => simp [compareSegments]
      | cons right rights =>
          rw [compareSegments, Ordering.then_eq_eq, comparePrereleaseSegment_eq_eq_iff, ih,
            List.cons.injEq]

theorem comparePrerelease_eq_lt_iff (leftsPlain : ∀ segment ∈ lefts, PlainSegment segment)
    (rightsPlain : ∀ segment ∈ rights, PlainSegment segment) :
    comparePrerelease lefts rights = .lt ↔ PrereleasePrecedes lefts rights := by
  cases lefts with
  | nil => cases rights <;> exact iff_of_false nofun fun precedes => precedes.1 rfl
  | cons left lefts =>
      cases rights with
      | nil => exact iff_of_true rfl ⟨List.cons_ne_nil _ _, Or.inl rfl⟩
      | cons right rights =>
          have segments := compareSegments_eq_lt_iff leftsPlain rightsPlain
          simpa [comparePrerelease, PrereleasePrecedes] using segments

theorem comparePrerelease_eq_eq_iff : comparePrerelease lefts rights = .eq ↔ lefts = rights := by
  cases lefts with
  | nil => cases rights <;> simp [comparePrerelease]
  | cons left lefts =>
      cases rights with
      | nil => simp [comparePrerelease]
      | cons right rights => exact compareSegments_eq_eq_iff

end

section

variable {left right : Version}

theorem precedence_eq_lt_iff (leftPlain : left.Plain) (rightPlain : right.Plain) :
    left.precedence right = .lt ↔ left.Precedes right := by
  simp only [precedence, Precedes, Ordering.then_eq_lt, Ordering.then_eq_eq, Nat.compare_eq_lt,
    Nat.compare_eq_eq, comparePrerelease_eq_lt_iff leftPlain rightPlain]
  tauto

/-- Versions that differ at most in their build metadata have the same precedence, and no others. -/
theorem precedence_eq_eq_iff : left.precedence right = .eq ↔ left.bare = right.bare := by
  simp only [precedence, bare, Ordering.then_eq_eq, Nat.compare_eq_eq, comparePrerelease_eq_eq_iff,
    Version.mk.injEq, and_true, and_assoc]

/-- A version without build metadata comes before those of higher precedence, and before those that
add build metadata to it. -/
theorem order_eq_lt_iff (leftPlain : left.Plain) (rightPlain : right.Plain)
    (plain : left.build = []) :
    left.order right = .lt ↔
      left.Precedes right ∨ left.bare = right.bare ∧ right.build ≠ [] := by
  have metadata : compareSegments compareBuildSegment [] right.build = .lt ↔ right.build ≠ [] := by
    cases right.build with
    | nil => exact iff_of_false nofun fun some => some rfl
    | cons segment segments => exact iff_of_true rfl (List.cons_ne_nil _ _)
  rw [order, Ordering.then_eq_lt, precedence_eq_lt_iff leftPlain rightPlain, precedence_eq_eq_iff,
    plain, metadata]

end

end RiskRules.Version
