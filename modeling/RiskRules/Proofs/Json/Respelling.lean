import RiskRules.Json.Reading

/-!
Strings by their UTF-16 units. A character may be written as it is, by a short escape or by the
codes of its units, so two spellings of one string have the same units, and then they are read as
the same text.
-/

namespace RiskRules.Json

def unitsOfChar (char : Char) : List Nat :=
  if char.toNat < 0x10000 then [char.toNat]
  else [0xD800 + (char.toNat - 0x10000) / 0x400, 0xDC00 + (char.toNat - 0x10000) % 0x400]

def unitsOfPiece : Piece → List Nat
  | .char char => unitsOfChar char
  | .unit code => [code]

def Literal.units (literal : Literal) : List Nat :=
  literal.pieces.flatMap unitsOfPiece

structure Literal.Respells (literal other : Literal) : Prop where
  ended : literal.fault = none
  otherEnded : other.fault = none
  sameUnits : literal.units = other.units

def charsOfUnits : List Nat → Option (List Char)
  | [] => some []
  | code :: rest =>
      if isLowSurrogate code then none
      else if isHighSurrogate code then
        match rest with
        | [] => none
        | low :: rest =>
            if isLowSurrogate low then (charsOfUnits rest).map (surrogatePair code low :: ·)
            else none
      else (charsOfUnits rest).map (Char.ofNat code :: ·)

/-- A character is no surrogate, and there are no more than seventeen planes of them. -/
theorem toNat_of_char (char : Char) :
    (char.toNat < 0xD800 ∨ 0xDFFF < char.toNat) ∧ char.toNat < 0x110000 := by
  have valid : char.toNat < 0xD800 ∨ 0xDFFF < char.toNat ∧ char.toNat < 0x110000 := char.valid
  omega

theorem surrogatePair_units (char : Char) (large : 0x10000 ≤ char.toNat) :
    surrogatePair (0xD800 + (char.toNat - 0x10000) / 0x400)
      (0xDC00 + (char.toNat - 0x10000) % 0x400) = char := by
  have sum : 0x10000 + (0xD800 + (char.toNat - 0x10000) / 0x400 - 0xD800) * 0x400
      + (0xDC00 + (char.toNat - 0x10000) % 0x400 - 0xDC00) = char.toNat := by omega
  rw [surrogatePair, sum, Char.ofNat_toNat]

theorem charsOfUnits_single {code : Nat} (notLow : isLowSurrogate code = false)
    (notHigh : isHighSurrogate code = false) (rest : List Nat) :
    charsOfUnits (code :: rest) = (charsOfUnits rest).map (Char.ofNat code :: ·) := by
  rw [charsOfUnits.eq_def]
  simp [notLow, notHigh]

theorem not_isLow_of_isHigh {code : Nat} (high : isHighSurrogate code = true) :
    isLowSurrogate code = false := by
  simp [isHighSurrogate] at high
  simp [isLowSurrogate]
  omega

theorem charsOfUnits_pair {code low : Nat} (isHigh : isHighSurrogate code = true)
    (isLow : isLowSurrogate low = true) (rest : List Nat) :
    charsOfUnits (code :: low :: rest) =
      (charsOfUnits rest).map (surrogatePair code low :: ·) := by
  simp [charsOfUnits, not_isLow_of_isHigh isHigh, isHigh, isLow]

theorem charsOfUnits_low {code : Nat} (isLow : isLowSurrogate code = true) (rest : List Nat) :
    charsOfUnits (code :: rest) = none := by
  rw [charsOfUnits.eq_def]
  simp [isLow]

/-- A high surrogate stands alone unless a low one follows. -/
theorem charsOfUnits_high {code : Nat} (isHigh : isHighSurrogate code = true) {rest : List Nat}
    (alone : ∀ low ∈ rest.head?, isLowSurrogate low = false) :
    charsOfUnits (code :: rest) = none := by
  rw [charsOfUnits.eq_def]
  cases rest with
  | nil => simp [isHigh]
  | cons low rest => simp [isHigh, alone low rfl]

theorem charsOfUnits_char (char : Char) (rest : List Nat) :
    charsOfUnits (unitsOfChar char ++ rest) = (charsOfUnits rest).map (char :: ·) := by
  have bounds := toNat_of_char char
  unfold unitsOfChar
  split
  next small =>
    have notLow : isLowSurrogate char.toNat = false := by simp [isLowSurrogate]; omega
    have notHigh : isHighSurrogate char.toNat = false := by simp [isHighSurrogate]; omega
    rw [List.singleton_append, charsOfUnits_single notLow notHigh, Char.ofNat_toNat]
  next large =>
    have isHigh : isHighSurrogate (0xD800 + (char.toNat - 0x10000) / 0x400) = true := by
      simp [isHighSurrogate]; omega
    have isLow : isLowSurrogate (0xDC00 + (char.toNat - 0x10000) % 0x400) = true := by
      simp [isLowSurrogate]; omega
    rw [List.cons_append, List.singleton_append, charsOfUnits_pair isHigh isLow,
      surrogatePair_units char (by omega)]

theorem notLow_of_char (char : Char) (rest : List Nat) :
    ∀ low ∈ (unitsOfChar char ++ rest).head?, isLowSurrogate low = false := by
  have bounds := toNat_of_char char
  unfold unitsOfChar
  split <;> simp [isLowSurrogate] <;> omega

theorem map_reverse_append (char : Char) (done : List Char) (chars : Option (List Char)) :
    chars.map ((char :: done).reverse ++ ·) = (chars.map (char :: ·)).map (done.reverse ++ ·) := by
  cases chars <;> simp

/-- The characters that pieces stand for depend on their units only. -/
theorem toOption_joinPieces (done : List Char) (pieces : List Piece) :
    (joinPieces none done pieces).toOption =
      (charsOfUnits (pieces.flatMap unitsOfPiece)).map (done.reverse ++ ·) := by
  fun_induction joinPieces none done pieces with
  | case1 done => simp [charsOfUnits, Except.toOption]
  | case2 done fault impossible => cases impossible
  | case3 done char rest ih =>
      rw [ih, List.flatMap_cons, unitsOfPiece, charsOfUnits_char, map_reverse_append]
  | case4 done code rest isLow =>
      rw [List.flatMap_cons, unitsOfPiece, List.singleton_append, charsOfUnits_low isLow]
      rfl
  | case5 done code _ isHigh =>
      rw [List.flatMap_cons, unitsOfPiece, List.singleton_append,
        charsOfUnits_high isHigh (by simp)]
      rfl
  | case6 done code _ isHigh char rest =>
      rw [List.flatMap_cons, unitsOfPiece, List.singleton_append, List.flatMap_cons, unitsOfPiece,
        charsOfUnits_high isHigh (notLow_of_char char _)]
      rfl
  | case7 done code _ isHigh low rest isLow ih =>
      rw [ih, List.flatMap_cons, unitsOfPiece, List.singleton_append, List.flatMap_cons,
        unitsOfPiece, List.singleton_append, charsOfUnits_pair isHigh isLow, map_reverse_append]
  | case8 done code _ isHigh low rest notLow =>
      rw [List.flatMap_cons, unitsOfPiece, List.singleton_append, List.flatMap_cons,
        unitsOfPiece, List.singleton_append, charsOfUnits_high isHigh (by simpa using notLow)]
      rfl
  | case9 done code rest notLow notHigh ih =>
      rw [ih, List.flatMap_cons, unitsOfPiece, List.singleton_append,
        charsOfUnits_single (by simpa using notLow) (by simpa using notHigh), map_reverse_append]

theorem Literal.text_eq_ok {literal : Literal} (ended : literal.fault = none) {text : String} :
    literal.text = .ok text ↔
      (charsOfUnits literal.units).map String.ofList = some text := by
  have joined : (joinPieces none [] literal.pieces).toOption = charsOfUnits literal.units := by
    simpa [units] using toOption_joinPieces [] literal.pieces
  rw [Literal.text, ended, ← joined]
  cases joinPieces none [] literal.pieces <;> simp [Except.toOption, malformed]

theorem Literal.Respells.text {literal other : Literal} (respells : literal.Respells other)
    {text : String} (read : literal.text = .ok text) : other.text = .ok text := by
  rw [Literal.text_eq_ok respells.ended] at read
  rw [Literal.text_eq_ok respells.otherEnded, ← respells.sameUnits, read]

example : (Literal.mk [.char 'é', .char '😀'] none).Respells
    ⟨[.unit 0xE9, .unit 0xD83D, .unit 0xDE00], none⟩ :=
  ⟨rfl, rfl, rfl⟩

end RiskRules.Json
