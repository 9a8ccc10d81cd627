/-!
# Word sizes

The ranges of the integers that sizes and kernels are computed in.

Main statements: `any_fitsKernelInt_addSizes?` (a sum of sizes that leaves their range does not pass
for a small one).
-/

namespace WindowReduction

/-- Sizes are 64-bit unsigned integers: they stay below two to the power of 64. -/
def sizeLimit : Nat := 0x10000000000000000

/-- The largest 64-bit signed integer. -/
def maxInt64 : Nat := 0x7FFFFFFFFFFFFFFF

/-- The largest `int` of a shader, which has 32 bits. -/
def maxKernelInt : Nat := 0x7FFFFFFF

/-- Whether a size is an `int` of a shader. -/
def fitsKernelInt (n : Nat) : Bool :=
  n ≤ maxKernelInt

theorem fitsKernelInt_iff {n : Nat} : fitsKernelInt n = true ↔ n ≤ maxKernelInt :=
  decide_eq_true_iff

/-- The sum of two sizes, unless it leaves the range of sizes. -/
def addSizes? (m n : Nat) : Option Nat :=
  if m + n < sizeLimit then some (m + n) else none

/-- The sum of two sizes is an `int` of a shader exactly when the sum of the numbers is one. -/
theorem any_fitsKernelInt_addSizes? {m n : Nat} :
    (addSizes? m n).any fitsKernelInt = true ↔ m + n ≤ maxKernelInt := by
  unfold addSizes?
  by_cases h : m + n < sizeLimit
  · rw [if_pos h]
    exact fitsKernelInt_iff
  · rw [if_neg h]
    have hlarge : ¬ m + n ≤ maxKernelInt := by
      unfold sizeLimit at h
      unfold maxKernelInt
      omega
    simp [hlarge]

end WindowReduction
