/-!
# Decimal notation

A `Decimal` is a whole number of units `10 ^ exponent`. It is written in one of two ways: with a
decimal point in its place, or as a number with one digit before the point and a power of ten.
-/

namespace WindowReduction.Text

/-- The number `coefficient * 10 ^ exponent`. -/
structure Decimal where
  coefficient : Nat
  exponent : Int
  deriving DecidableEq, Repr

namespace Decimal

/-- The digits of the coefficient. -/
def digits (d : Decimal) : List Char :=
  Nat.toDigits 10 d.coefficient

/-- How many digits stand before the decimal point; negative when zeros follow it. -/
def point (d : Decimal) : Int :=
  d.digits.length + d.exponent

/-- The power of ten of the first digit. -/
def magnitude (d : Decimal) : Int :=
  d.point - 1

/-- The number with its decimal point in place. Whole numbers are followed by `ending`. -/
def positional (d : Decimal) (ending : String) : String :=
  if d.point ≤ 0 then
    "0." ++ String.ofList (List.replicate (-d.point).toNat '0' ++ d.digits)
  else if d.point < d.digits.length then
    String.ofList (d.digits.take d.point.toNat) ++ "."
      ++ String.ofList (d.digits.drop d.point.toNat)
  else
    String.ofList (d.digits ++ List.replicate d.exponent.toNat '0') ++ ending

/-- The number with one digit before the point and a power of ten, which has a sign only when it is
negative. -/
def scientific (d : Decimal) : String :=
  let mantissa := match d.digits with
    | [] => []
    | [c] => [c]
    | c :: rest => c :: '.' :: rest
  String.ofList mantissa ++ "e" ++ toString d.magnitude

example : positional ⟨25, -1⟩ ".0" = "2.5" := by decide +kernel
example : positional ⟨25, -4⟩ ".0" = "0.0025" := by decide +kernel
example : positional ⟨25, 2⟩ ".0" = "2500.0" := by decide +kernel
example : scientific ⟨25, -9⟩ = "2.5e-8" := by decide +kernel

end Decimal

end WindowReduction.Text
