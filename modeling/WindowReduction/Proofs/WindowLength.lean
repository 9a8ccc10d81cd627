import Mathlib.Data.Nat.Prime.Basic
import Mathlib.Order.Bounds.Basic
import WindowReduction.Divisor

/-!
# How long windows are

Divisors come in pairs with product `n`, so a number that is neither one nor prime has a divisor
between its square root and itself, and looking upwards from the root finds the least one. The root
is rounded down. With `s` for the rounded root, `n` is at most `s * (s + 2)`, so windows of at least
`s` elements leave at most `s + 2` of them.

Main statements: `isLeast_optimalWindow` (what the search finds), `windowDivisors_nonempty` (where
there is something to find), `div_optimalWindow_le` (how many windows there are) and
`optimalWindow_exact`.
-/

namespace WindowReduction

variable {threshold n : Nat}

/-- The root is the integer square root. -/
theorem floorSqrt_eq_sqrt (n : Nat) : floorSqrt n = Nat.sqrt n :=
  Nat.eq_sqrt.2 ⟨floorSqrt_sq_le n, lt_succ_floorSqrt_sq n⟩

/-! ## Divisors above the root -/

/-- The proper divisors that make a window: at least two, and at least the root. -/
def windowDivisors (n : Nat) : Set Nat :=
  {d | d ∣ n ∧ max 2 (Nat.sqrt n) ≤ d ∧ d < n}

/-- A number above one that is not prime has such a divisor, the partner of its least factor. -/
theorem windowDivisors_nonempty (hn : 2 ≤ n) (hprime : ¬ n.Prime) :
    (windowDivisors n).Nonempty := by
  have hpos : 0 < n := by omega
  have hfactor : 2 ≤ n.minFac := (Nat.minFac_prime (by omega)).two_le
  have hmul : n.minFac * (n / n.minFac) = n := Nat.mul_div_cancel' n.minFac_dvd
  have hle : n.minFac ≤ n / n.minFac := Nat.minFac_le_div hpos hprime
  have hroot : Nat.sqrt n ≤ n / n.minFac := by
    have hsquare : n ≤ n / n.minFac * (n / n.minFac) := by
      calc n = n.minFac * (n / n.minFac) := hmul.symm
        _ ≤ n / n.minFac * (n / n.minFac) := Nat.mul_le_mul_right _ hle
    exact Nat.mul_self_le_mul_self_iff.1 (Nat.le_trans (Nat.sqrt_le n) hsquare)
  exact ⟨n / n.minFac, Nat.div_dvd_of_dvd n.minFac_dvd, max_le (Nat.le_trans hfactor hle) hroot,
    Nat.div_lt_self hpos hfactor⟩

/-- One and the primes have none. -/
theorem windowDivisors_eq_empty (h : n = 1 ∨ n.Prime) : windowDivisors n = ∅ := by
  apply Set.eq_empty_of_forall_notMem
  rintro d ⟨hdvd, hlow, hlt⟩
  have htwo : 2 ≤ d := le_trans (le_max_left _ _) hlow
  rcases h with rfl | hprime
  · omega
  · rcases (Nat.dvd_prime hprime).1 hdvd with rfl | rfl <;> omega

/-! ## Window lengths -/

theorem optimalWindow_of_le (h : n ≤ threshold) : optimalWindow threshold n = n :=
  if_pos h

theorem optimalWindow_of_lt (h : threshold < n) :
    optimalWindow threshold n = leastDivisorFrom n (max 2 (Nat.sqrt n)) := by
  rw [optimalWindow, if_neg (Nat.not_le_of_lt h), floorSqrt_eq_sqrt, max_comm]

/-- Beyond the threshold the window length is the least of these divisors, and the whole row when
there are none. -/
theorem isLeast_optimalWindow (h : threshold < n) :
    IsLeast (windowDivisors n) (optimalWindow threshold n)
      ∨ windowDivisors n = ∅ ∧ optimalWindow threshold n = n := by
  have hpos : 0 < max 2 (Nat.sqrt n) := lt_of_lt_of_le Nat.two_pos (le_max_left _ _)
  rw [optimalWindow_of_lt h, leastDivisorFrom_eq_find? hpos]
  cases hsearch : (List.range' (max 2 (Nat.sqrt n)) (n - max 2 (Nat.sqrt n))).find?
      fun d => n % d = 0 with
  | some d =>
      rcases List.find?_range'_eq_some.1 hsearch with ⟨hmod, hmem, hfirst⟩
      have hrange := List.mem_range'_1.1 hmem
      have hdvd : d ∣ n := Nat.dvd_of_mod_eq_zero (of_decide_eq_true hmod)
      have hbelow : d < n := by omega
      refine Or.inl ⟨⟨hdvd, hrange.1, hbelow⟩, ?_⟩
      rintro e ⟨he, hlow, -⟩
      refine Nat.le_of_not_lt fun hlt => ?_
      have hpassed := hfirst e hlow hlt
      exact absurd (Nat.mod_eq_zero_of_dvd he) (by simpa using hpassed)
  | none =>
      refine Or.inr ⟨?_, rfl⟩
      apply Set.eq_empty_of_forall_notMem
      rintro e ⟨he, hlow, hlt⟩
      have hpassed := List.find?_range'_eq_none.1 hsearch e hlow (by omega)
      exact absurd (Nat.mod_eq_zero_of_dvd he) (by simpa using hpassed)

/-- Windows are at least as long as the root. -/
theorem sqrt_le_optimalWindow (threshold n : Nat) : Nat.sqrt n ≤ optimalWindow threshold n := by
  rcases Nat.lt_or_ge threshold n with h | h
  · rcases isLeast_optimalWindow h with ⟨⟨-, hlow, -⟩, -⟩ | ⟨-, heq⟩
    · exact le_trans (le_max_right _ _) hlow
    · rw [heq]
      exact Nat.sqrt_le_self n
  · rw [optimalWindow_of_le h]
    exact Nat.sqrt_le_self n

/-- There are at most two windows more than the root says. -/
theorem div_optimalWindow_le (threshold n : Nat) :
    n / optimalWindow threshold n ≤ Nat.sqrt n + 2 := by
  apply Nat.div_le_of_le_mul
  have hnext : n < (Nat.sqrt n + 1) * (Nat.sqrt n + 1) := Nat.lt_succ_sqrt n
  calc n ≤ Nat.sqrt n * (Nat.sqrt n + 2) := by grind
    _ ≤ optimalWindow threshold n * (Nat.sqrt n + 2) :=
        Nat.mul_le_mul_right _ (sqrt_le_optimalWindow threshold n)

/-- A row up to the threshold is one window. Beyond it the window length is the least divisor of the
row length that is at least two and at least the integer square root, and below the row length; only
a row of one element or of prime length has no such divisor and stays whole. There are never more
than two windows above the integer square root. -/
theorem optimalWindow_exact (threshold n : Nat) :
    (n ≤ threshold → optimalWindow threshold n = n)
      ∧ (threshold < n →
          (IsLeast (windowDivisors n) (optimalWindow threshold n)
            ∨ windowDivisors n = ∅ ∧ optimalWindow threshold n = n)
          ∧ (optimalWindow threshold n = n ↔ n = 1 ∨ n.Prime)
          ∧ n / optimalWindow threshold n ≤ Nat.sqrt n + 2) := by
  refine ⟨optimalWindow_of_le, fun h => ⟨isLeast_optimalWindow h, ?_, div_optimalWindow_le _ _⟩⟩
  constructor
  · intro heq
    by_contra hsmall
    rw [not_or] at hsmall
    -- The least divisor below the row length cannot be the row length.
    have hsome := windowDivisors_nonempty (by omega) hsmall.2
    rcases isLeast_optimalWindow h with ⟨⟨-, -, hlt⟩, -⟩ | ⟨hempty, -⟩
    · omega
    · exact hsome.ne_empty hempty
  · intro hsmall
    have hempty := windowDivisors_eq_empty hsmall
    rcases isLeast_optimalWindow h with ⟨hmem, -⟩ | ⟨-, heq⟩
    · rw [hempty] at hmem
      exact absurd hmem (Set.notMem_empty _)
    · exact heq

/-- For thirty-five elements the root is rounded down to five, and there are seven windows. -/
theorem optimalWindow_exact_thirty_five :
    defaultThreshold < 35 ∧ optimalWindow defaultThreshold 35 = 5 ∧ Nat.sqrt 35 = 5
      ∧ 35 / optimalWindow defaultThreshold 35 ≤ Nat.sqrt 35 + 2
      ∧ IsLeast (windowDivisors 35) 5 := by
  have hlong : defaultThreshold < 35 := by decide
  have hwindow : optimalWindow defaultThreshold 35 = 5 := by decide +kernel
  rcases (optimalWindow_exact defaultThreshold 35).2 hlong with ⟨hleast | ⟨-, heq⟩, -, hle⟩
  · exact ⟨hlong, hwindow, by decide +kernel, hle, hwindow ▸ hleast⟩
  · rw [hwindow] at heq
    cases heq

end WindowReduction
