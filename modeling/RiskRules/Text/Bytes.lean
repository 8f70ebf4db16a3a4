/-!
Texts and bytes: UTF-8, and bytes in lowercase hexadecimal. A text that is not UTF-8 is refused at
its first faulty sequence, and the fault says where the sequence starts and how much of it could
still have been valid.
-/

namespace RiskRules.Text

/-! ### Hexadecimal -/

def hexDigit (digit : Nat) : Char :=
  Nat.digitChar digit

def hexOfByte (byte : UInt8) : List Char :=
  [hexDigit (byte.toNat / 16), hexDigit (byte.toNat % 16)]

def hexOfBytes (bytes : List UInt8) : String :=
  String.ofList (bytes.flatMap hexOfByte)

def hexValue? (char : Char) : Option Nat :=
  if '0' ≤ char ∧ char ≤ '9' then some (char.toNat - '0'.toNat)
  else if 'a' ≤ char ∧ char ≤ 'f' then some (char.toNat - 'a'.toNat + 10)
  else if 'A' ≤ char ∧ char ≤ 'F' then some (char.toNat - 'A'.toNat + 10)
  else none

/-! ### UTF-8 -/

inductive Utf8Fault
  | incomplete (index : Nat)
  | invalid (length index : Nat)
  deriving DecidableEq, Repr

def Utf8Fault.message : Utf8Fault → String
  | .incomplete index => s!"incomplete utf-8 byte sequence from index {index}"
  | .invalid length index => s!"invalid utf-8 sequence of {length} bytes from index {index}"

def isContinuation (byte : UInt8) : Bool :=
  decide (0x80 ≤ byte) && decide (byte ≤ 0xBF)

/-- Whether `second` can follow the first byte of a three-byte sequence: no overlong forms, no
surrogates. -/
def fitsThree (first second : UInt8) : Bool :=
  if first = 0xE0 then decide (0xA0 ≤ second) && decide (second ≤ 0xBF)
  else if first = 0xED then decide (0x80 ≤ second) && decide (second ≤ 0x9F)
  else isContinuation second

def fitsFour (first second : UInt8) : Bool :=
  if first = 0xF0 then decide (0x90 ≤ second) && decide (second ≤ 0xBF)
  else if first = 0xF4 then decide (0x80 ≤ second) && decide (second ≤ 0x8F)
  else isContinuation second

def assemble (lead : Nat) (continuation : List UInt8) : Char :=
  Char.ofNat (continuation.foldl (fun code byte => code * 64 + byte.toNat % 64) lead)

/-- Decode from byte number `index` on; `decoded` holds the characters before it, last first. -/
def decodeFrom (index : Nat) (decoded : List Char) : List UInt8 → Except Utf8Fault (List Char)
  | [] => .ok decoded.reverse
  | first :: rest =>
      if first < 0x80 then
        decodeFrom (index + 1) (assemble first.toNat [] :: decoded) rest
      else if 0xC2 ≤ first ∧ first ≤ 0xDF then
        match rest with
        | [] => .error (.incomplete index)
        | second :: rest =>
            if isContinuation second then
              decodeFrom (index + 2) (assemble (first.toNat % 32) [second] :: decoded) rest
            else .error (.invalid 1 index)
      else if 0xE0 ≤ first ∧ first ≤ 0xEF then
        match rest with
        | [] => .error (.incomplete index)
        | second :: rest =>
            if fitsThree first second then
              match rest with
              | [] => .error (.incomplete index)
              | third :: rest =>
                  if isContinuation third then
                    decodeFrom (index + 3)
                      (assemble (first.toNat % 16) [second, third] :: decoded) rest
                  else .error (.invalid 2 index)
            else .error (.invalid 1 index)
      else if 0xF0 ≤ first ∧ first ≤ 0xF4 then
        match rest with
        | [] => .error (.incomplete index)
        | second :: rest =>
            if fitsFour first second then
              match rest with
              | [] => .error (.incomplete index)
              | third :: rest =>
                  if isContinuation third then
                    match rest with
                    | [] => .error (.incomplete index)
                    | fourth :: rest =>
                        if isContinuation fourth then
                          decodeFrom (index + 4)
                            (assemble (first.toNat % 8) [second, third, fourth] :: decoded) rest
                        else .error (.invalid 3 index)
                  else .error (.invalid 2 index)
            else .error (.invalid 1 index)
      else .error (.invalid 1 index)

def decodeUtf8 (bytes : List UInt8) : Except Utf8Fault String :=
  (decodeFrom 0 [] bytes).map String.ofList

def encodeUtf8 (text : String) : List UInt8 :=
  text.toUTF8.toList

end RiskRules.Text
