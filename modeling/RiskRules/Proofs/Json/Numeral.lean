import RiskRules.Json.Token

/-!
How a number may be written, said without the reader. What is spelled so is read as the number, if
nothing follows that would go on with it, and every number that is read was spelled so.
-/

namespace RiskRules.Json

def digitText (digits : List Nat) : List Char :=
  digits.map Nat.digitChar

def AreDigits (digits : List Nat) : Prop :=
  ∀ digit ∈ digits, digit < 10

def fractionText (digits : List Nat) : List Char :=
  if digits = [] then [] else '.' :: digitText digits

inductive SpellExponent : Option (Bool × List Nat) → List Char → Prop
  | absent : SpellExponent none []
  | present {mark : Char} {negative : Bool} {sign : List Char} {digits : List Nat}
      (marked : mark = 'e' ∨ mark = 'E')
      (signed : (negative, sign) ∈ [(true, ['-']), (false, ['+']), (false, [])])
      (nonempty : digits ≠ []) (areDigits : AreDigits digits) :
      SpellExponent (some (negative, digits)) (mark :: sign ++ digitText digits)

inductive Numeral.SpellsSize : Numeral → List Char → Prop
  | intro {negative : Bool} {whole fraction : List Nat} {exponent : Option (Bool × List Nat)}
      {tail : List Char} (nonempty : whole ≠ []) (areDigits : AreDigits whole)
      (alone : whole.head? = some 0 → whole = [0]) (fractionDigits : AreDigits fraction)
      (scaled : SpellExponent exponent tail) :
      SpellsSize ⟨negative, whole, fraction, exponent⟩
        (digitText whole ++ (fractionText fraction ++ tail))

def Delimits (rest : List Char) : Prop :=
  ∀ char, rest.head? = some char → char.isDigit = false ∧ char ≠ '.' ∧ char ≠ 'e' ∧ char ≠ 'E'

theorem delimits_nil : Delimits [] := by
  simp [Delimits]

theorem delimits_cons {char : Char} (rest : List Char)
    (ends : char.isDigit = false ∧ char ≠ '.' ∧ char ≠ 'e' ∧ char ≠ 'E') :
    Delimits (char :: rest) := by
  simpa [Delimits] using ends

theorem digitValue_digitChar {digit : Nat} (small : digit < 10) :
    digitValue (Nat.digitChar digit) = digit :=
  Nat.toNat_digitChar_sub_48_of_lt_ten small

theorem toNat_of_isDigit {char : Char} (digit : char.isDigit = true) :
    48 ≤ char.toNat ∧ char.toNat ≤ 57 := by
  simp only [Char.isDigit, Bool.and_eq_true, decide_eq_true_eq, ge_iff_le,
    UInt32.le_iff_toNat_le] at digit
  exact digit

theorem digitChar_digitValue {char : Char} (digit : char.isDigit = true) :
    Nat.digitChar (digitValue char) = char := by
  have bounds := toNat_of_isDigit digit
  have value : digitValue char = char.toNat - 48 := rfl
  apply Char.toNat_inj.mp
  rw [value, Nat.toNat_digitChar_of_lt_ten (by omega)]
  omega

theorem isDigit_digitChar {digit : Nat} (small : digit < 10) :
    (Nat.digitChar digit).isDigit = true := by
  have all : ∀ digit < 10, (Nat.digitChar digit).isDigit = true := by decide
  exact all digit small

theorem isDigit_of_mem_digitText {digits : List Nat} (areDigits : AreDigits digits) {char : Char}
    (member : char ∈ digitText digits) : char.isDigit = true := by
  obtain ⟨digit, found, rfl⟩ := List.mem_map.mp member
  exact isDigit_digitChar (areDigits digit found)

def EndsDigits (rest : List Char) : Prop :=
  ∀ char, rest.head? = some char → char.isDigit = false

theorem Delimits.endsDigits {rest : List Char} (ends : Delimits rest) : EndsDigits rest :=
  fun char first => (ends char first).1

theorem digits_digitText {digits : List Nat} (areDigits : AreDigits digits) {rest : List Char}
    (ends : EndsDigits rest) :
    digitsOf (digitText digits ++ rest) = digits ∧
      afterDigits (digitText digits ++ rest) = rest := by
  have all := fun char member => @isDigit_of_mem_digitText digits areDigits char member
  have stops : rest.takeWhile Char.isDigit = [] ∧ rest.dropWhile Char.isDigit = rest := by
    cases rest with
    | nil => exact ⟨rfl, rfl⟩
    | cons char rest => simp [ends char rfl]
  have values : (digitText digits).map digitValue = digits := by
    rw [digitText, List.map_map]
    exact (List.map_congr_left fun digit member =>
      digitValue_digitChar (areDigits digit member)).trans (List.map_id digits)
  rw [digitsOf, afterDigits, List.takeWhile_append_of_pos all, List.dropWhile_append_of_pos all,
    stops.1, stops.2, List.append_nil, values]
  exact ⟨rfl, rfl⟩

theorem areDigits_map {chars : List Char} (digits : ∀ char ∈ chars, char.isDigit = true) :
    AreDigits (chars.map digitValue) := by
  intro digit member
  obtain ⟨char, found, rfl⟩ := List.mem_map.mp member
  have bounds := toNat_of_isDigit (digits char found)
  have value : digitValue char = char.toNat - 48 := rfl
  omega

theorem digitText_map {chars : List Char} (digits : ∀ char ∈ chars, char.isDigit = true) :
    digitText (chars.map digitValue) = chars := by
  induction chars with
  | nil => rfl
  | cons char rest ih =>
      obtain ⟨first, others⟩ := List.forall_mem_cons.mp digits
      rw [digitText] at ih ⊢
      rw [List.map_cons, List.map_cons, digitChar_digitValue first, ih others]

theorem isDigit_of_mem_takeWhile (chars : List Char) :
    ∀ char ∈ chars.takeWhile Char.isDigit, char.isDigit = true :=
  List.all_eq_true.mp List.all_takeWhile

theorem areDigits_digitsOf (chars : List Char) : AreDigits (digitsOf chars) :=
  areDigits_map (isDigit_of_mem_takeWhile chars)

theorem digitText_digitsOf (chars : List Char) :
    digitText (digitsOf chars) ++ afterDigits chars = chars := by
  rw [digitsOf, digitText_map (isDigit_of_mem_takeWhile chars), afterDigits,
    List.takeWhile_append_dropWhile]

theorem ne_of_isDigit {char other : Char} (digit : char.isDigit = true)
    (notDigit : other.isDigit = false) : char ≠ other := by
  rintro rfl
  simp [digit] at notDigit

theorem readSign_of_signed {negative : Bool} {sign : List Char} {digits : List Nat}
    (signed : (negative, sign) ∈ [(true, ['-']), (false, ['+']), (false, [])])
    (nonempty : digits ≠ []) (areDigits : AreDigits digits) (rest : List Char) :
    readSign (sign ++ (digitText digits ++ rest)) = (negative, digitText digits ++ rest) := by
  obtain ⟨digit, others, rfl⟩ := List.exists_cons_of_ne_nil nonempty
  have isDigit := isDigit_digitChar (areDigits digit List.mem_cons_self)
  have different := fun other => @ne_of_isDigit (Nat.digitChar digit) other isDigit
  simp only [List.mem_cons, Prod.mk.injEq, List.not_mem_nil, or_false] at signed
  rcases signed with ⟨rfl, rfl⟩ | ⟨rfl, rfl⟩ | ⟨rfl, rfl⟩
  · rfl
  · rfl
  · rw [digitText, List.map_cons, List.nil_append, List.cons_append, readSign]
    · exact fun _ minus => different '-' rfl (List.cons.inj minus).1
    · exact fun _ plus => different '+' rfl (List.cons.inj plus).1

theorem readExponent_of_spells {exponent : Option (Bool × List Nat)} {tail : List Char}
    (spells : SpellExponent exponent tail) {rest : List Char} (ends : Delimits rest) :
    readExponent (tail ++ rest) = .ok (exponent, rest) := by
  cases spells with
  | absent =>
      cases rest with
      | nil => rfl
      | cons char rest => simp [readExponent, (ends char rfl).2.2]
  | @present mark negative sign digits marked signed nonempty areDigits =>
      have sign := readSign_of_signed signed nonempty areDigits rest
      obtain ⟨read, after⟩ := digits_digitText areDigits ends.endsDigits
      simp only [List.cons_append, List.append_assoc, readExponent, if_pos marked, sign, read,
        after, List.isEmpty_iff, nonempty, if_false]

/-- What stands after the digits of a fraction is no digit and no decimal point. -/
theorem endsDigits_exponent {exponent : Option (Bool × List Nat)} {tail : List Char}
    (spells : SpellExponent exponent tail) {rest : List Char} (ends : Delimits rest) :
    EndsDigits (tail ++ rest) ∧ (tail ++ rest).head? ≠ some '.' := by
  cases spells with
  | absent => exact ⟨ends.endsDigits, fun point => (ends '.' point).2.1 rfl⟩
  | present marked => rcases marked with rfl | rfl <;> simp [EndsDigits]

theorem readFraction_of_text {digits : List Nat} (areDigits : AreDigits digits)
    {rest : List Char} (ends : EndsDigits rest) (noPoint : rest.head? ≠ some '.') :
    readFraction (fractionText digits ++ rest) = .ok (digits, rest) := by
  by_cases absent : digits = []
  · subst absent
    cases rest with
    | nil => rfl
    | cons char rest =>
        have different : char ≠ '.' := fun same => noPoint (congrArg some same)
        simp [fractionText, readFraction, different]
  · obtain ⟨read, after⟩ := digits_digitText areDigits ends
    simp [fractionText, absent, readFraction, read, after]

theorem readWhole_of_digits {digits : List Nat} (nonempty : digits ≠ [])
    (areDigits : AreDigits digits) (alone : digits.head? = some 0 → digits = [0])
    {rest : List Char} (ends : EndsDigits rest) :
    readWhole (digitText digits ++ rest) = .ok (digits, rest) := by
  obtain ⟨read, after⟩ := digits_digitText areDigits ends
  rw [readWhole, read, after]
  split
  · contradiction
  · simp at alone
  · rfl

theorem endsDigits_fraction (digits : List Nat) {rest : List Char} (ends : EndsDigits rest) :
    EndsDigits (fractionText digits ++ rest) := by
  by_cases absent : digits = []
  · simpa [fractionText, absent] using ends
  · simp [fractionText, absent, EndsDigits]

theorem readNumeral_of_spells {numeral : Numeral} {size : List Char}
    (spells : numeral.SpellsSize size) {rest : List Char} (ends : Delimits rest) :
    readNumeral numeral.negative (size ++ rest) = .ok (numeral, rest) := by
  cases spells with
  | @intro negative whole fraction exponent tail nonempty areDigits alone fractionDigits scaled =>
      obtain ⟨tailEnds, noPoint⟩ := endsDigits_exponent scaled ends
      have readFirst := readWhole_of_digits nonempty areDigits alone
        (endsDigits_fraction fraction tailEnds)
      have readSecond := readFraction_of_text fractionDigits tailEnds noPoint
      have readThird := readExponent_of_spells scaled ends
      simp only [List.append_assoc, readNumeral, readFirst, readSecond, readThird, bind,
        Except.bind, pure, Except.pure]

theorem Numeral.SpellsSize.starts {numeral : Numeral} {size : List Char}
    (spells : numeral.SpellsSize size) :
    ∃ first rest, size = first :: rest ∧ first.isDigit = true := by
  cases spells with
  | @intro _ whole _ _ _ nonempty areDigits =>
      obtain ⟨digit, others, rfl⟩ := List.exists_cons_of_ne_nil nonempty
      exact ⟨Nat.digitChar digit, _, rfl, isDigit_digitChar (areDigits digit List.mem_cons_self)⟩

/-! ### What is read was spelled so -/

theorem spells_of_readWhole {chars rest : List Char} {digits : List Nat}
    (read : readWhole chars = .ok (digits, rest)) :
    digits ≠ [] ∧ AreDigits digits ∧ (digits.head? = some 0 → digits = [0]) ∧
      chars = digitText digits ++ rest := by
  have areDigits := areDigits_digitsOf chars
  have written := digitText_digitsOf chars
  unfold readWhole at read
  split at read
  · cases read
  · cases read
  next first notEmpty notZero =>
    cases read
    refine ⟨notEmpty, areDigits, ?_, written.symm⟩
    intro zero
    cases shape : digitsOf chars with
    | nil => exact absurd shape notEmpty
    | cons digit others =>
        simp only [shape, List.head?_cons, Option.some.injEq] at zero
        subst zero
        cases others with
        | nil => rfl
        | cons next others => exact absurd shape (notZero next others)

theorem spells_of_readFraction {chars rest : List Char} {digits : List Nat}
    (read : readFraction chars = .ok (digits, rest)) :
    AreDigits digits ∧ chars = fractionText digits ++ rest := by
  have none : AreDigits [] := fun _ member => absurd member List.not_mem_nil
  unfold readFraction at read
  split at read
  · cases read
    exact ⟨none, rfl⟩
  next mark after =>
    split at read
    next point =>
      split at read
      · cases read
      next nonempty =>
        cases read
        rw [List.isEmpty_iff] at nonempty
        rw [fractionText, if_neg nonempty, List.cons_append, digitText_digitsOf, point]
        exact ⟨areDigits_digitsOf after, rfl⟩
    next =>
      cases read
      exact ⟨none, rfl⟩

theorem signed_readSign (chars : List Char) :
    ∃ sign, ((readSign chars).1, sign) ∈ [(true, ['-']), (false, ['+']), (false, [])] ∧
      chars = sign ++ (readSign chars).2 := by
  unfold readSign
  split
  · exact ⟨['-'], by simp, rfl⟩
  · exact ⟨['+'], by simp, rfl⟩
  · exact ⟨[], by simp, rfl⟩

theorem spells_of_readExponent {chars rest : List Char} {exponent : Option (Bool × List Nat)}
    (read : readExponent chars = .ok (exponent, rest)) :
    ∃ tail, SpellExponent exponent tail ∧ chars = tail ++ rest := by
  unfold readExponent at read
  split at read
  · cases read
    exact ⟨[], .absent, rfl⟩
  next mark after =>
    obtain ⟨sign, signed, split⟩ := signed_readSign after
    split at read
    next marked =>
      dsimp only at read
      split at read
      · cases read
      next nonempty =>
        cases read
        rw [List.isEmpty_iff] at nonempty
        refine ⟨_, .present marked signed nonempty (areDigits_digitsOf _), ?_⟩
        rw [List.append_assoc, digitText_digitsOf, List.cons_append, ← split]
    next =>
      cases read
      exact ⟨[], .absent, rfl⟩

theorem spells_of_readNumeral {negative : Bool} {chars rest : List Char} {numeral : Numeral}
    (read : readNumeral negative chars = .ok (numeral, rest)) :
    numeral.negative = negative ∧ ∃ size, numeral.SpellsSize size ∧ chars = size ++ rest := by
  simp only [readNumeral, bind, Except.bind, pure, Except.pure] at read
  split at read
  · cases read
  next readFirst =>
  split at read
  · cases read
  next readSecond =>
  split at read
  · cases read
  next readThird =>
  obtain ⟨nonempty, areDigits, alone, splitFirst⟩ := spells_of_readWhole readFirst
  obtain ⟨fractionDigits, splitSecond⟩ := spells_of_readFraction readSecond
  obtain ⟨tail, scaled, splitThird⟩ := spells_of_readExponent readThird
  cases read
  refine ⟨rfl, _, .intro nonempty areDigits alone fractionDigits scaled, ?_⟩
  rw [splitFirst, splitSecond, splitThird]
  simp only [List.append_assoc]

end RiskRules.Json
