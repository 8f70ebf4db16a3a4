import RiskRules.Text.Bytes

/-!
Reading UTF-8 back. The bytes of a character are a sequence of one to four that is read as this
character, and so the bytes of characters in a row are read as these.
-/

namespace RiskRules.Text

/-! ### Sequences by their length -/

section

variable {index : Nat} {decoded : List Char} {first second third fourth : UInt8}
  {rest : List UInt8}

theorem le_of_toNat_le {lower byte : UInt8} (above : lower.toNat ≤ byte.toNat) : lower ≤ byte :=
  UInt8.le_iff_toNat_le.mpr above

theorem not_le_of_toNat_lt {upper byte : UInt8} (above : upper.toNat < byte.toNat) :
    ¬byte ≤ upper :=
  fun below => Nat.not_le_of_lt above (UInt8.le_iff_toNat_le.mp below)

theorem not_lt_of_toNat_le {lower byte : UInt8} (above : lower.toNat ≤ byte.toNat) :
    ¬byte < lower :=
  fun below => Nat.not_lt_of_le above (UInt8.lt_iff_toNat_lt.mp below)

theorem decodeFrom_one (low : first.toNat < 0x80) :
    decodeFrom index decoded (first :: rest) =
      decodeFrom (index + 1) (assemble first.toNat [] :: decoded) rest := by
  have ascii : first < 0x80 := UInt8.lt_iff_toNat_lt.mpr low
  rw [decodeFrom.eq_def]
  simp only [if_pos ascii]

theorem decodeFrom_two (lower : 0xC2 ≤ first.toNat) (upper : first.toNat ≤ 0xDF)
    (continued : isContinuation second = true) :
    decodeFrom index decoded (first :: second :: rest) =
      decodeFrom (index + 2) (assemble (first.toNat % 32) [second] :: decoded) rest := by
  have high : ¬first < 0x80 := not_lt_of_toNat_le (Nat.le_trans (by decide) lower)
  have leads : 0xC2 ≤ first ∧ first ≤ 0xDF := ⟨le_of_toNat_le lower, le_of_toNat_le upper⟩
  rw [decodeFrom.eq_def]
  simp only [if_neg high, if_pos leads, if_pos continued]

theorem decodeFrom_three (lower : 0xE0 ≤ first.toNat) (upper : first.toNat ≤ 0xEF)
    (fits : fitsThree first second = true) (continued : isContinuation third = true) :
    decodeFrom index decoded (first :: second :: third :: rest) =
      decodeFrom (index + 3) (assemble (first.toNat % 16) [second, third] :: decoded) rest := by
  have high : ¬first < 0x80 := not_lt_of_toNat_le (Nat.le_trans (by decide) lower)
  have longer : ¬(0xC2 ≤ first ∧ first ≤ 0xDF) := fun both =>
    not_le_of_toNat_lt (Nat.lt_of_lt_of_le (by decide) lower) both.2
  have leads : 0xE0 ≤ first ∧ first ≤ 0xEF := ⟨le_of_toNat_le lower, le_of_toNat_le upper⟩
  rw [decodeFrom.eq_def]
  simp only [if_neg high, if_neg longer, if_pos leads, if_pos fits, if_pos continued]

theorem decodeFrom_four (lower : 0xF0 ≤ first.toNat) (upper : first.toNat ≤ 0xF4)
    (fits : fitsFour first second = true) (continued : isContinuation third = true)
    (ended : isContinuation fourth = true) :
    decodeFrom index decoded (first :: second :: third :: fourth :: rest) =
      decodeFrom (index + 4) (assemble (first.toNat % 8) [second, third, fourth] :: decoded)
        rest := by
  have high : ¬first < 0x80 := not_lt_of_toNat_le (Nat.le_trans (by decide) lower)
  have notTwo : ¬(0xC2 ≤ first ∧ first ≤ 0xDF) := fun both =>
    not_le_of_toNat_lt (Nat.lt_of_lt_of_le (by decide) lower) both.2
  have notThree : ¬(0xE0 ≤ first ∧ first ≤ 0xEF) := fun both =>
    not_le_of_toNat_lt (Nat.lt_of_lt_of_le (by decide) lower) both.2
  have leads : 0xF0 ≤ first ∧ first ≤ 0xF4 := ⟨le_of_toNat_le lower, le_of_toNat_le upper⟩
  rw [decodeFrom.eq_def]
  simp only [if_neg high, if_neg notTwo, if_neg notThree, if_pos leads, if_pos fits,
    if_pos continued, if_pos ended]

end

theorem toNat_ofNat_of_lt {code : Nat} (small : code < 256) : (UInt8.ofNat code).toNat = code := by
  rw [UInt8.toNat_ofNat']
  omega

theorem isContinuation_ofNat : ∀ bits < 64, isContinuation (UInt8.ofNat (bits + 128)) = true := by
  decide

/-- No overlong form, and no surrogate. -/
theorem fitsThree_ofNat : ∀ high < 16, ∀ middle < 64,
    (high = 0 → 32 ≤ middle) → (high = 13 → middle < 32) →
      fitsThree (UInt8.ofNat (high + 224)) (UInt8.ofNat (middle + 128)) = true := by
  decide +kernel

/-- No overlong form, and nothing above U+10FFFF. -/
theorem fitsFour_ofNat : ∀ high < 5, ∀ middle < 64,
    (high = 0 → 16 ≤ middle) → (high = 4 → middle < 16) →
      fitsFour (UInt8.ofNat (high + 240)) (UInt8.ofNat (middle + 128)) = true := by
  decide +kernel

theorem decodeFrom_utf8EncodeChar (index : Nat) (decoded : List Char) (char : Char)
    (rest : List UInt8) :
    decodeFrom index decoded (String.utf8EncodeChar char ++ rest) =
      decodeFrom (index + (String.utf8EncodeChar char).length) (char :: decoded) rest := by
  have own : ∀ code, code = char.val.toNat → Char.ofNat code = char := by
    rintro code rfl
    exact Char.ofNat_toNat char
  have valid : char.val.toNat < 0xD800 ∨ 0xDFFF < char.val.toNat ∧ char.val.toNat < 0x110000 :=
    char.valid
  rw [String.utf8EncodeChar.eq_1]
  generalize char.val.toNat = code at own valid ⊢
  have tail : ∀ bits, isContinuation (UInt8.ofNat (bits % 64 + 128)) = true ∧
      (UInt8.ofNat (bits % 64 + 128)).toNat = bits % 64 + 128 := fun bits =>
    ⟨isContinuation_ofNat _ (Nat.mod_lt _ (by decide)), toNat_ofNat_of_lt (by omega)⟩
  split
  next one =>
    have first : (UInt8.ofNat code).toNat = code := toNat_ofNat_of_lt (by omega)
    have read : assemble (UInt8.ofNat code).toNat [] = char := own _ first
    rw [List.singleton_append, decodeFrom_one (by omega), read]
    rfl
  split
  next two =>
    have first : (UInt8.ofNat (code / 64 % 32 + 192)).toNat = code / 64 + 192 := by
      rw [toNat_ofNat_of_lt (by omega)]
      omega
    have read : assemble ((UInt8.ofNat (code / 64 % 32 + 192)).toNat % 32)
        [UInt8.ofNat (code % 64 + 128)] = char := by
      apply own
      simp only [List.foldl_cons, List.foldl_nil, first, (tail _).2]
      omega
    rw [List.cons_append, List.singleton_append,
      decodeFrom_two (by omega) (by omega) (tail _).1, read]
    rfl
  split
  next three =>
    have first : (UInt8.ofNat (code / 4096 % 16 + 224)).toNat = code / 4096 + 224 := by
      rw [toNat_ofNat_of_lt (by omega)]
      omega
    have read : assemble ((UInt8.ofNat (code / 4096 % 16 + 224)).toNat % 16)
        [UInt8.ofNat (code / 64 % 64 + 128), UInt8.ofNat (code % 64 + 128)] = char := by
      apply own
      simp only [List.foldl_cons, List.foldl_nil, first, (tail _).2]
      omega
    have fits := fitsThree_ofNat (code / 4096 % 16) (by omega) (code / 64 % 64) (by omega)
      (by omega) (by omega)
    rw [List.cons_append, List.cons_append, List.singleton_append,
      decodeFrom_three (by omega) (by omega) fits (tail _).1, read]
    rfl
  next four =>
    have first : (UInt8.ofNat (code / 262144 % 8 + 240)).toNat = code / 262144 + 240 := by
      rw [toNat_ofNat_of_lt (by omega)]
      omega
    have read : assemble ((UInt8.ofNat (code / 262144 % 8 + 240)).toNat % 8)
        [UInt8.ofNat (code / 4096 % 64 + 128), UInt8.ofNat (code / 64 % 64 + 128),
          UInt8.ofNat (code % 64 + 128)] = char := by
      apply own
      simp only [List.foldl_cons, List.foldl_nil, first, (tail _).2]
      omega
    have fits := fitsFour_ofNat (code / 262144 % 8) (by omega) (code / 4096 % 64) (by omega)
      (by omega) (by omega)
    rw [List.cons_append, List.cons_append, List.cons_append, List.singleton_append,
      decodeFrom_four (by omega) (by omega) fits (tail _).1 (tail _).1, read]
    rfl

theorem decodeFrom_flatMap (index : Nat) (decoded chars : List Char) :
    decodeFrom index decoded (chars.flatMap String.utf8EncodeChar) =
      .ok (decoded.reverse ++ chars) := by
  induction chars generalizing index decoded with
  | nil => simp [decodeFrom]
  | cons char chars ih =>
      rw [List.flatMap_cons, decodeFrom_utf8EncodeChar, ih]
      simp

/-! ### Bytes that go on -/

theorem decodeFrom_append {index : Nat} {decoded chars : List Char} {bytes : List UInt8}
    (read : decodeFrom index decoded bytes = .ok chars) (more : List UInt8) :
    decodeFrom index decoded (bytes ++ more) =
      decodeFrom (index + bytes.length) chars.reverse more := by
  fun_induction decodeFrom index decoded bytes
  case case1 =>
    cases read
    rw [List.reverse_reverse]
    rfl
  case case2 first rest one ih =>
    rw [List.cons_append, decodeFrom.eq_def]
    simp only [if_pos one, ih read, List.length_cons]
    rw [Nat.add_assoc, Nat.add_comm 1]
  case case4 first notOne two second rest continued ih =>
    rw [List.cons_append, List.cons_append, decodeFrom.eq_def]
    simp only [if_neg notOne, if_pos two, if_pos continued, ih read, List.length_cons]
    rw [Nat.add_assoc, Nat.add_comm 2]
  case case8 first notOne notTwo three second fits third rest continued ih =>
    rw [List.cons_append, List.cons_append, List.cons_append, decodeFrom.eq_def]
    simp only [if_neg notOne, if_neg notTwo, if_pos three, if_pos fits, if_pos continued, ih read,
      List.length_cons]
    rw [Nat.add_assoc, Nat.add_comm 3]
  case case14 first notOne notTwo notThree four second fits third continued fourth rest ended ih =>
    rw [List.cons_append, List.cons_append, List.cons_append, List.cons_append, decodeFrom.eq_def]
    simp only [if_neg notOne, if_neg notTwo, if_neg notThree, if_pos four, if_pos fits,
      if_pos continued, if_pos ended, ih read, List.length_cons]
    rw [Nat.add_assoc, Nat.add_comm 4]
  all_goals cases read

theorem exists_of_decodeFrom {index : Nat} {decoded chars : List Char} {bytes : List UInt8}
    (read : decodeFrom index decoded bytes = .ok chars) :
    ∃ tail, chars = decoded.reverse ++ tail ∧ (tail = [] → bytes = []) := by
  fun_induction decodeFrom index decoded bytes
  case case1 =>
    cases read
    exact ⟨[], (List.append_nil _).symm, fun _ => rfl⟩
  case case2 ih | case4 ih | case8 ih | case14 ih =>
    obtain ⟨tail, same, _⟩ := ih read
    rw [List.reverse_cons, List.append_assoc, List.singleton_append] at same
    exact ⟨_, same, fun none => absurd none (List.cons_ne_nil _ tail)⟩
  all_goals cases read
end RiskRules.Text
