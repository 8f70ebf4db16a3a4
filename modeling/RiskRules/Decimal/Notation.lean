import RiskRules.Decimal.Shortest

/-! How a 64-bit floating-point number is written in a JSON text. -/

namespace RiskRules.Decimal

def plainExponents : Int × Int := (-5, 16)

def plainText (digits : List Char) (exponent : Int) : List Char :=
  if 0 ≤ exponent then digits ++ List.replicate exponent.toNat '0' ++ ['.', '0']
  else
    let places := (-exponent).toNat
    if places < digits.length then
      digits.take (digits.length - places) ++ '.' :: digits.drop (digits.length - places)
    else '0' :: '.' :: List.replicate (places - digits.length) '0' ++ digits

def scientificText (digits : List Char) (leading : Int) : List Char :=
  let mantissa := match digits with
    | [] => []
    | [digit] => [digit]
    | digit :: rest => digit :: '.' :: rest
  mantissa ++ 'e' :: (if leading < 0 then '-' else '+') :: Nat.toDigits 10 leading.natAbs

def Scaled.text (decimal : Scaled) : List Char :=
  let digits := Nat.toDigits 10 decimal.digits
  let leading := decimal.exponent + digits.length - 1
  if plainExponents.1 ≤ leading ∧ leading < plainExponents.2 then
    plainText digits decimal.exponent
  else scientificText digits leading

def floatText (bits : UInt64) : List Char :=
  let sign := if Nat.pow 2 63 ≤ bits.toNat then ['-'] else []
  let value := Binary.ofBits bits
  sign ++ (if value.significand = 0 then ['0', '.', '0'] else value.shortest.text)

end RiskRules.Decimal
