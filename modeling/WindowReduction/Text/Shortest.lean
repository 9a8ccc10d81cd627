import WindowReduction.Text.Decimal

/-!
# Shortest decimals of single-precision numbers

A finite number `mantissa * 2 ^ exponent` is written with the fewest digits that read back as the
same number, that is, as a decimal on the coarsest grid `10 ^ k` that has a point in the interval of
reals rounding to the number. The ends of the interval belong to it when the mantissa is even. Of
two grid points in the interval the nearer one is taken, and the larger one if they are equally
near.

Main statements: `readsBack_of_onGrid?` (a chosen grid point reads back).
-/

namespace WindowReduction.Text

/-! ## Single-precision numbers by value -/

/-- A single-precision number taken apart. -/
inductive Binary32 where
  | nan
  | infinite (negative : Bool)
  /-- The number `mantissa * 2 ^ exponent` with a sign. -/
  | finite (negative : Bool) (mantissa : Nat) (exponent : Int)
  deriving DecidableEq, Repr

namespace Binary32

/-- The least exponent of a finite number. -/
def minExponent : Int := -149

/-- The least mantissa of a number in normal form. -/
def normalMantissa : Nat := 0x800000

/-- Takes a single-precision number apart. -/
def ofFloat (x : Float32) : Binary32 :=
  let bits := x.toBits.toNat
  let negative : Bool := 0x80000000 ≤ bits
  let biased : Nat := bits / normalMantissa % 0x100
  let fraction : Nat := bits % normalMantissa
  if biased = 255 then
    if fraction = 0 then .infinite negative else .nan
  else if biased = 0 then .finite negative fraction minExponent
  else .finite negative (normalMantissa + fraction) (minExponent + ((biased - 1 : Nat) : Int))

end Binary32

/-! ## The rounding interval -/

/-- With `decimalUnits`, compares quarters of `2 ^ exponent` with units of `10 ^ k`: `x` of the
former are `c` of the latter when `x * binaryUnits = c * decimalUnits`. -/
def binaryUnits (exponent k : Int) : Nat :=
  Nat.pow 2 (exponent - 2).toNat * Nat.pow 10 (-k).toNat

@[inherit_doc binaryUnits] def decimalUnits (exponent k : Int) : Nat :=
  Nat.pow 2 (2 - exponent).toNat * Nat.pow 10 k.toNat

/-- Whether `c * 10 ^ k` rounds to `mantissa * 2 ^ exponent`. The number below a power of two is
half as far away as the number above it. -/
def readsBack (mantissa : Nat) (exponent : Int) (c : Nat) (k : Int) : Bool :=
  let below := if mantissa = Binary32.normalMantissa ∧ Binary32.minExponent < exponent then 1 else 2
  let low := (4 * mantissa - below) * binaryUnits exponent k
  let high := (4 * mantissa + 2) * binaryUnits exponent k
  let x := c * decimalUnits exponent k
  if mantissa % 2 = 0 then low ≤ x && x ≤ high else low < x && x < high

/-! ## The coarsest grid -/

/-- The point of the grid `10 ^ k` that a number is written as, if one of the number's two
neighbours on the grid reads back. -/
def onGrid? (mantissa : Nat) (exponent k : Int) : Option Nat :=
  let value := 4 * mantissa * binaryUnits exponent k
  let unit := decimalUnits exponent k
  let c := value / unit
  if readsBack mantissa exponent (c + 1) k then
    -- Both neighbours may read back: the lower one has to be strictly nearer.
    if readsBack mantissa exponent c k && value - c * unit < (c + 1) * unit - value then some c
    else some (c + 1)
  else if readsBack mantissa exponent c k then some c
  else none

/-- The decimal on the coarsest of the `n` grids from `10 ^ minExponent` on. No grid is needed
beyond these for the number itself, which is a point of the finest one. -/
def shortestOnGrids (mantissa : Nat) (exponent : Int) : Nat → Decimal
  | 0 =>
    -- `2 ^ exponent` is `2 ^ shift * 5 ^ 149` units of `10 ^ -149`.
    let shift := (exponent - Binary32.minExponent).toNat
    ⟨mantissa * Nat.pow 2 shift * Nat.pow 5 Binary32.minExponent.natAbs, Binary32.minExponent⟩
  | n + 1 =>
    let k := Binary32.minExponent + n
    match onGrid? mantissa exponent k with
    | some c => ⟨c, k⟩
    | none => shortestOnGrids mantissa exponent n

/-- The number of grids from `10 ^ minExponent` to `10 ^ 38`, the coarsest that is needed. -/
def gridCount : Nat := 188

/-- The shortest decimal of `mantissa * 2 ^ exponent`. -/
def shortest (mantissa : Nat) (exponent : Int) : Decimal :=
  if mantissa = 0 then ⟨0, 0⟩ else shortestOnGrids mantissa exponent gridCount

/-- A grid point is only chosen when it reads back. -/
theorem readsBack_of_onGrid? {mantissa : Nat} {exponent k : Int} {c : Nat}
    (h : onGrid? mantissa exponent k = some c) : readsBack mantissa exponent c k = true := by
  simp only [onGrid?] at h
  grind

end WindowReduction.Text
