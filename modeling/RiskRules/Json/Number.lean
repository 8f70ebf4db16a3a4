import RiskRules.Decimal.Notation

/-!
Numbers of a JSON text. An integer that fits in 64 bits stays exact; every other number becomes a
64-bit floating-point number.
-/

namespace RiskRules.Json

structure Numeral where
  negative : Bool
  whole : List Nat
  fraction : List Nat
  /-- Whether the exponent is negative, and its digits. -/
  exponent : Option (Bool × List Nat)
  deriving DecidableEq, Repr

inductive Number
  | integer (value : Int)
  | float (bits : UInt64)
  deriving DecidableEq, Repr

def Number.text : Number → List Char
  | .integer value =>
      (if value < 0 then ['-'] else []) ++ Nat.toDigits 10 value.natAbs
  | .float bits => Decimal.floatText bits

def significandLimit : Nat := 0x10000000000000000

/-- Appends digits to `significand` while it stays below the limit. Gives it, the number of digits
appended and the number left over. -/
def gather (significand appended : Nat) : List Nat → Nat × Nat × Nat
  | [] => (significand, appended, 0)
  | digit :: rest =>
      if significand * 10 + digit < significandLimit then
        gather (significand * 10 + digit) (appended + 1) rest
      else (significand, appended, rest.length + 1)

def largestPower : Nat := 308

def powerOfTen (exponent : Nat) : Float :=
  Float.ofScientific 1 false exponent

def scaleDown (value : Float) (exponent : Nat) : Float :=
  if exponent ≤ largestPower then value / powerOfTen exponent
  else if value == 0 then value
  else scaleDown (value / powerOfTen largestPower) (exponent - largestPower)
termination_by exponent
decreasing_by simp only [largestPower] at *; omega

def scale (significand : Nat) (exponent : Int) : Option Float :=
  let value := (UInt64.ofNat significand).toFloat
  if exponent < 0 then some (scaleDown value (-exponent).toNat)
  else if exponent.toNat ≤ largestPower then
    let scaled := value * powerOfTen exponent.toNat
    if scaled.isInf then none else some scaled
  else if significand = 0 then some value
  else none

def Numeral.writtenExponent (numeral : Numeral) : Int :=
  match numeral.exponent with
  | none => 0
  | some (negative, digits) =>
      let size : Nat := digits.foldl (fun total digit => total * 10 + digit) 0
      if negative then -size else size

def Numeral.toFloat (numeral : Numeral) : Option Number :=
  let (whole, _, dropped) := gather 0 0 numeral.whole
  let (significand, places, _) := gather whole 0 numeral.fraction
  let magnitude := scale significand (dropped - places + numeral.writtenExponent)
  magnitude.map fun value => .float (if numeral.negative then -value else value).toBits

def Numeral.isWhole (numeral : Numeral) : Bool :=
  numeral.fraction.isEmpty && numeral.exponent.isNone

/-- The number that a numeral stands for: none when it is too large for a floating-point number.
The negative zero is not an integer. -/
def Numeral.value (numeral : Numeral) : Option Number :=
  let size : Nat := numeral.whole.foldl (fun total digit => total * 10 + digit) 0
  if numeral.isWhole && !numeral.negative && decide (size < 0x10000000000000000) then
    some (.integer size)
  else if numeral.isWhole && numeral.negative &&
      decide (0 < size ∧ size ≤ 0x8000000000000000) then
    some (.integer (-size))
  else numeral.toFloat

end RiskRules.Json
