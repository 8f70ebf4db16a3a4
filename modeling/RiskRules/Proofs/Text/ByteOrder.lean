import Mathlib.Algebra.Ring.Nat
import RiskRules.Proofs.Text.Bytes

/-!
The order of texts. Texts are ordered by the code points of their characters, and their UTF-8 bytes
are in the same order: a character's bytes are its digits to the base 64 behind a mark that grows
with their number.
-/

namespace RiskRules.Text

def sequence (mark : Nat) : (count code : Nat) → List UInt8
  | 0, code => [.ofNat (code + mark)]
  | count + 1, code => sequence mark count (code / 64) ++ [.ofNat (code % 64 + 128)]

inductive Width : (mark count code : Nat) → Prop
  | one {code : Nat} (upper : code ≤ 127) : Width 0 0 code
  | two {code : Nat} (lower : 127 < code) (upper : code ≤ 2047) : Width 192 1 code
  | three {code : Nat} (lower : 2047 < code) (upper : code ≤ 65535) : Width 224 2 code
  | four {code : Nat} (lower : 65535 < code) (upper : code < 0x110000) : Width 240 3 code

theorem exists_width (char : Char) :
    ∃ mark count, Width mark count char.val.toNat ∧
      String.utf8EncodeChar char = sequence mark count char.val.toNat := by
  have bounded : char.val.toNat < 0x110000 := by
    have valid : char.val.toNat < 0xD800 ∨ 0xDFFF < char.val.toNat ∧ char.val.toNat < 0x110000 :=
      char.valid
    omega
  rw [String.utf8EncodeChar.eq_1]
  generalize char.val.toNat = code at bounded ⊢
  split
  next one => exact ⟨_, _, .one one, rfl⟩
  split
  next many two =>
    have high : code / 64 % 32 = code / 64 := by omega
    exact ⟨_, _, .two (by omega) two, by rw [high]; rfl⟩
  split
  next many _ three =>
    have high : code / 4096 % 16 = code / 64 / 64 := by omega
    exact ⟨_, _, .three (by omega) three, by rw [high]; rfl⟩
  next many _ four =>
    have high : code / 262144 % 8 = code / 64 / 64 / 64 := by omega
    have second : code / 4096 % 64 = code / 64 / 64 % 64 := by omega
    exact ⟨_, _, .four (by omega) bounded, by rw [high, second]; rfl⟩

theorem Width.small {mark count code : Nat} (width : Width mark count code) :
    code / 64 ^ count + mark < 256 := by
  cases width <;> omega

/-- A higher code of another width has more bytes, and so a higher mark. -/
theorem Width.compare {mark count low other number high : Nat} (width : Width mark count low)
    (second : Width other number high) (below : low < high) :
    (mark = other ∧ count = number) ∨
      low / 64 ^ count + mark < high / 64 ^ number + other := by
  cases width <;> cases second <;> omega

theorem ofNat_lt_ofNat {low high : Nat} (below : low < high) (small : high < 256) :
    UInt8.ofNat low < UInt8.ofNat high := by
  rw [UInt8.lt_iff_toNat_lt, toNat_ofNat_of_lt (Nat.lt_trans below small),
    toNat_ofNat_of_lt small]
  exact below

theorem exists_sequence_cons (mark count code : Nat) :
    ∃ tail, sequence mark count code = .ofNat (code / 64 ^ count + mark) :: tail := by
  induction count generalizing code with
  | zero => exact ⟨[], by simp [sequence]⟩
  | succ count ih =>
      obtain ⟨tail, same⟩ := ih (code / 64)
      rw [Nat.div_div_eq_div_mul, ← Nat.pow_succ'] at same
      exact ⟨tail ++ [_], by rw [sequence, same, List.cons_append]⟩

theorem sequence_lt_of_head {mark count low other number high : Nat}
    (heads : low / 64 ^ count + mark < high / 64 ^ number + other)
    (small : high / 64 ^ number + other < 256) (left right : List UInt8) :
    sequence mark count low ++ left < sequence other number high ++ right := by
  obtain ⟨tail, first⟩ := exists_sequence_cons mark count low
  obtain ⟨more, second⟩ := exists_sequence_cons other number high
  rw [first, second, List.cons_append, List.cons_append, List.cons_lt_cons_iff]
  exact Or.inl (ofNat_lt_ofNat heads small)

theorem sequence_lt {mark count low high : Nat} (below : low < high)
    (small : high / 64 ^ count + mark < 256) (left right : List UInt8) :
    sequence mark count low ++ left < sequence mark count high ++ right := by
  induction count generalizing low high left right with
  | zero =>
      rw [Nat.pow_zero, Nat.div_one] at small
      exact List.cons_lt_cons_iff.mpr (Or.inl (ofNat_lt_ofNat (by omega) small))
  | succ count ih =>
      rw [sequence, sequence, List.append_assoc, List.append_assoc]
      by_cases higher : low / 64 < high / 64
      · rw [Nat.pow_succ', ← Nat.div_div_eq_div_mul] at small
        exact ih higher small _ _
      · -- All digits but the last are the same.
        have same : low / 64 = high / 64 := by omega
        rw [same]
        apply List.append_left_lt
        exact List.cons_lt_cons_iff.mpr (Or.inl (ofNat_lt_ofNat (by omega) (by omega)))

theorem utf8EncodeChar_lt {first second : Char} (less : first < second) (left right : List UInt8) :
    String.utf8EncodeChar first ++ left < String.utf8EncodeChar second ++ right := by
  obtain ⟨mark, count, width, bytes⟩ := exists_width first
  obtain ⟨other, number, secondWidth, secondBytes⟩ := exists_width second
  rw [bytes, secondBytes]
  rcases width.compare secondWidth less with ⟨rfl, rfl⟩ | heads
  · exact sequence_lt less secondWidth.small left right
  · exact sequence_lt_of_head heads secondWidth.small left right

theorem flatMap_utf8EncodeChar_lt {left right : List Char} (less : left < right) :
    left.flatMap String.utf8EncodeChar < right.flatMap String.utf8EncodeChar := by
  induction less with
  | @nil char rest =>
      obtain ⟨mark, count, _, bytes⟩ := exists_width char
      obtain ⟨tail, same⟩ := exists_sequence_cons mark count char.val.toNat
      rw [List.flatMap_cons, bytes, same]
      exact List.nil_lt_cons _ _
  | rel less => exact utf8EncodeChar_lt less _ _
  | cons _ ih => exact List.append_left_lt ih

theorem encodeUtf8_lt {left right : String} (less : left < right) :
    encodeUtf8 left < encodeUtf8 right := by
  rw [encodeUtf8_eq, encodeUtf8_eq]
  exact flatMap_utf8EncodeChar_lt (String.lt_iff.mp less)

end RiskRules.Text
