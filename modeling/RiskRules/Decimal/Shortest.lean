/-!
The decimal with the fewest digits that reads back as a given binary floating-point number. A
decimal reads back as the number when it lies in the interval of reals that round to it.
-/

namespace RiskRules.Decimal

/-- A positive value `significand * 2 ^ exponent`. The gap to the value below is half as wide as
the one above when `narrowBelow` holds, as at a power of two. -/
structure Binary where
  significand : Nat
  exponent : Int
  narrowBelow : Bool

def Binary.ofBits (bits : UInt64) : Binary :=
  let exponent : Nat := bits.toNat / Nat.pow 2 52 % Nat.pow 2 11
  let fraction : Nat := bits.toNat % Nat.pow 2 52
  if exponent = 0 then ⟨fraction, -1074, false⟩
  else ⟨Nat.pow 2 52 + fraction, (exponent : Int) - 1075, decide (fraction = 0 ∧ 1 < exponent)⟩

structure Scaled where
  digits : Nat
  exponent : Int
  deriving DecidableEq, Repr

def compareScaled (digits : Nat) (tens : Int) (quarters : Nat) (twos : Int) : Ordering :=
  compare (digits * Nat.pow 10 tens.toNat * Nat.pow 2 (-twos).toNat)
    (quarters * Nat.pow 2 twos.toNat * Nat.pow 10 (-tens).toNat)

/-- Whether a decimal lies among the reals that round to `value`. The ends of that interval round
to the neighbour whose significand is even. -/
def Binary.readsBack (value : Binary) (decimal : Scaled) : Bool :=
  let low := 4 * value.significand - (if value.narrowBelow then 1 else 2)
  let high := 4 * value.significand + 2
  let closed := value.significand % 2 == 0
  let fromLow := compareScaled decimal.digits decimal.exponent low (value.exponent - 2)
  let fromHigh := compareScaled decimal.digits decimal.exponent high (value.exponent - 2)
  (fromLow == .gt || (closed && fromLow == .eq)) && (fromHigh == .lt || (closed && fromHigh == .eq))

def Binary.scaledDown (value : Binary) (tens : Int) : Nat :=
  value.significand * Nat.pow 2 value.exponent.toNat * Nat.pow 10 (-tens).toNat
    / (Nat.pow 2 (-value.exponent).toNat * Nat.pow 10 tens.toNat)

def Binary.nearer (value : Binary) (tens : Int) (below : Nat) : Nat :=
  match compareScaled (2 * below + 1) tens (2 * value.significand) value.exponent with
  | .gt => below
  | .lt => below + 1
  | .eq => if below % 2 = 0 then below else below + 1

def Binary.onGrid? (value : Binary) (tens : Int) : Option Scaled :=
  let below := value.scaledDown tens
  match value.readsBack ⟨below, tens⟩, value.readsBack ⟨below + 1, tens⟩ with
  | true, true => some ⟨value.nearer tens below, tens⟩
  | true, false => some ⟨below, tens⟩
  | false, true => some ⟨below + 1, tens⟩
  | false, false => none

/-- The grids from `10 ^ tens` on, each ten times finer than the one before; on the last of them
the decimal just below the value. -/
def Binary.search (value : Binary) : Nat → Int → Scaled
  | 0, tens => ⟨value.scaledDown tens, tens⟩
  | count + 1, tens => (value.onGrid? tens).getD (value.search count (tens - 1))

def digitCount (number : Nat) : Nat :=
  (Nat.toDigits 10 number).length

def Binary.leadingExponent (value : Binary) : Int :=
  let whole := value.scaledDown 0
  if whole = 0 then
    -(digitCount ((Nat.pow 2 (-value.exponent).toNat - 1) / value.significand) : Int)
  else (digitCount whole : Int) - 1

def Scaled.stripFrom : Nat → Nat → Int → Scaled
  | 0, digits, exponent => ⟨digits, exponent⟩
  | count + 1, digits, exponent =>
      if digits % 10 = 0 ∧ digits ≠ 0 then Scaled.stripFrom count (digits / 10) (exponent + 1)
      else ⟨digits, exponent⟩

def Scaled.strip (decimal : Scaled) : Scaled :=
  Scaled.stripFrom (digitCount decimal.digits) decimal.digits decimal.exponent

def Binary.shortest (value : Binary) : Scaled :=
  (value.search 17 value.leadingExponent).strip

end RiskRules.Decimal
