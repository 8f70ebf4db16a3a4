import RiskRules.Proofs.Text.Utf8
import RiskRules.Text.Bytes

/-!
Texts and bytes. Every text is read back from its UTF-8 bytes, so different texts have different
bytes; different bytes have different hexadecimal digits.
-/

namespace RiskRules.Text

theorem toList_loop (bytes : ByteArray) (index : Nat) (done : List UInt8) :
    ByteArray.toList.loop bytes index done = done.reverse ++ bytes.data.toList.drop index := by
  rw [ByteArray.toList.loop]
  split
  next inside =>
    have size : index < bytes.data.toList.length := inside
    have byte : bytes.get! index = bytes.data.toList[index] := by
      rw [ByteArray.get!]
      exact getElem!_pos bytes.data index inside
    rw [toList_loop, List.drop_eq_getElem_cons size, byte, List.reverse_cons, List.append_assoc]
    rfl
  next beyond =>
    have none : bytes.data.toList.length ≤ index := Nat.le_of_not_lt beyond
    rw [List.drop_eq_nil_of_le none, List.append_nil]
termination_by bytes.size - index

theorem toList_bytes (bytes : ByteArray) : bytes.toList = bytes.data.toList := by
  rw [ByteArray.toList, toList_loop, List.reverse_nil, List.nil_append, List.drop_zero]

theorem encodeUtf8_eq (text : String) :
    encodeUtf8 text = text.toList.flatMap String.utf8EncodeChar := by
  have bytes : text.toUTF8 = (text.toList.flatMap String.utf8EncodeChar).toByteArray := by
    rw [String.toUTF8_eq_toByteArray, ← List.utf8Encode, ← String.toByteArray_ofList,
      String.ofList_toList]
  rw [encodeUtf8, bytes, toList_bytes, List.toList_data_toByteArray]

theorem decodeUtf8_flatMap (chars : List Char) :
    decodeUtf8 (chars.flatMap String.utf8EncodeChar) = .ok (String.ofList chars) := by
  rw [decodeUtf8, decodeFrom_flatMap]
  rfl

theorem decodeUtf8_encodeUtf8 (text : String) : decodeUtf8 (encodeUtf8 text) = .ok text := by
  rw [encodeUtf8_eq, decodeUtf8_flatMap, String.ofList_toList]

theorem encodeUtf8_injective {left right : String} (same : encodeUtf8 left = encodeUtf8 right) :
    left = right := by
  have read := decodeUtf8_encodeUtf8 left
  rw [same, decodeUtf8_encodeUtf8] at read
  exact (Except.ok.inj read).symm

/-- What a part of some bytes is read as, all of them begin with. -/
theorem exists_of_decodeUtf8 {bytes more : List UInt8} {piece whole : String}
    (read : decodeUtf8 bytes = .ok piece) (readWhole : decodeUtf8 (bytes ++ more) = .ok whole) :
    ∃ tail, whole.toList = piece.toList ++ tail ∧ (tail = [] → more = []) := by
  rw [decodeUtf8] at read readWhole
  cases first : decodeFrom 0 [] bytes with
  | error fault =>
      rw [first] at read
      cases read
  | ok chars =>
      rw [decodeFrom_append first more] at readWhole
      cases later : decodeFrom (0 + bytes.length) chars.reverse more with
      | error fault =>
          rw [later] at readWhole
          cases readWhole
      | ok all =>
          rw [first] at read
          rw [later] at readWhole
          cases read
          cases readWhole
          obtain ⟨tail, rfl, ends⟩ := exists_of_decodeFrom later
          refine ⟨tail, ?_, ends⟩
          rw [String.toList_ofList, String.toList_ofList, List.reverse_reverse]

def asciiBytes (chars : List Char) : List UInt8 :=
  chars.map fun char => .ofNat char.toNat

theorem asciiBytes_eq {chars : List Char} (ascii : ∀ char ∈ chars, char.toNat < 0x80) :
    asciiBytes chars = chars.flatMap String.utf8EncodeChar := by
  induction chars with
  | nil => rfl
  | cons char chars ih =>
      have small : char.val.toNat ≤ 127 := Nat.le_of_lt_succ (ascii char List.mem_cons_self)
      rw [asciiBytes, List.map_cons, ← asciiBytes, List.flatMap_cons, String.utf8EncodeChar.eq_1,
        if_pos small, ih fun other member => ascii other (List.mem_cons_of_mem char member)]
      rfl

theorem decodeUtf8_ascii {chars : List Char} (ascii : ∀ char ∈ chars, char.toNat < 0x80) :
    decodeUtf8 (asciiBytes chars) = .ok (String.ofList chars) := by
  rw [asciiBytes_eq ascii, decodeUtf8_flatMap]

theorem hexDigit_injective :
    ∀ left < 16, ∀ right < 16, hexDigit left = hexDigit right → left = right := by
  decide

theorem hexOfByte_injective {left right : UInt8} (same : hexOfByte left = hexOfByte right) :
    left = right := by
  have leftSmall := left.toNat_lt
  have rightSmall := right.toNat_lt
  simp only [hexOfByte, List.cons.injEq, and_true] at same
  have high := hexDigit_injective _ (by omega) _ (by omega) same.1
  have low := hexDigit_injective _ (by omega) _ (by omega) same.2
  exact UInt8.toNat_inj.mp (by omega)

theorem hexOfBytes_injective {left right : List UInt8}
    (same : hexOfBytes left = hexOfBytes right) : left = right := by
  have digits : left.flatMap hexOfByte = right.flatMap hexOfByte := String.ofList_injective same
  clear same
  induction left generalizing right with
  | nil =>
      cases right with
      | nil => rfl
      | cons second right => cases digits
  | cons first left ih =>
      cases right with
      | nil => cases digits
      | cons second right =>
          simp only [List.flatMap_cons] at digits
          obtain ⟨heads, tails⟩ := List.append_inj digits rfl
          rw [hexOfByte_injective heads, ih tails]

end RiskRules.Text
