import WindowReduction.Word

/-!
# Sizes in text

A size is written as ASCII digits, with or without a plus sign in front, and stays below the limit
of sizes. No other sign, blank or separator is accepted.
-/

namespace WindowReduction.Text

/-- The value of a list of decimal digits. -/
def digitsValue (digits : List Char) : Nat :=
  digits.foldl (fun n c => 10 * n + (c.toNat - '0'.toNat)) 0

/-- The digits of a text that may start with a plus sign. -/
def afterPlus : List Char → List Char
  | '+' :: rest => rest
  | chars => chars

/-- The size that a text denotes, if it denotes one. -/
def parseSize? (text : String) : Option Nat :=
  let digits := afterPlus text.toList
  if digits ≠ [] ∧ digits.all Char.isDigit ∧ digitsValue digits < sizeLimit then
    some (digitsValue digits)
  else none

example : parseSize? "+007" = some 7 := by decide +kernel
example : parseSize? "18446744073709551615" = some 18446744073709551615 := by decide +kernel
example : parseSize? "18446744073709551616" = none := by decide +kernel
example : parseSize? "+" = none := by decide +kernel

end WindowReduction.Text
