/-!
# Divisors near the square root

The window length that splits a row into about as many windows as each window has elements.

Main statements: `floorSqrt_sq_le` and `lt_succ_floorSqrt_sq` (the root is exact),
`leastDivisorFrom_eq_find?` (the divisor is the first that a search upwards meets),
`two_le_optimalWindow`.
-/

namespace WindowReduction

/-! ## Square roots -/

/-- The integer part of the square root. Each step finds one more binary digit. -/
def floorSqrt (n : Nat) : Nat :=
  if h : n = 0 then 0
  else
    -- The root of a quarter is half the root, up to its last binary digit.
    let r := 2 * floorSqrt (n / 4)
    if (r + 1) * (r + 1) ≤ n then r + 1 else r
termination_by n
decreasing_by omega

/-- The root's square is at most the number, and the next square is above it. -/
theorem floorSqrt_bounds (n : Nat) :
    floorSqrt n * floorSqrt n ≤ n ∧ n < (floorSqrt n + 1) * (floorSqrt n + 1) := by
  induction n using Nat.strongRecOn with
  | _ n ih =>
    rw [floorSqrt]
    split
    · omega
    · have ⟨hlow, hhigh⟩ := ih (n / 4) (by omega)
      have hsq : 2 * floorSqrt (n / 4) * (2 * floorSqrt (n / 4))
          = 4 * (floorSqrt (n / 4) * floorSqrt (n / 4)) := by
        rw [Nat.mul_mul_mul_comm]
      have hnext : (2 * floorSqrt (n / 4) + 1 + 1) * (2 * floorSqrt (n / 4) + 1 + 1)
          = 4 * ((floorSqrt (n / 4) + 1) * (floorSqrt (n / 4) + 1)) := by
        rw [show 2 * floorSqrt (n / 4) + 1 + 1 = 2 * (floorSqrt (n / 4) + 1) by omega,
          Nat.mul_mul_mul_comm]
      simp only
      split <;> omega

/-- The root's square is at most the number. -/
theorem floorSqrt_sq_le (n : Nat) : floorSqrt n * floorSqrt n ≤ n :=
  (floorSqrt_bounds n).1

/-- The square after the root's is above the number. -/
theorem lt_succ_floorSqrt_sq (n : Nat) : n < (floorSqrt n + 1) * (floorSqrt n + 1) :=
  (floorSqrt_bounds n).2

/-- The integer part of the square root of a number above one is below the number. -/
theorem floorSqrt_lt {n : Nat} (h : 2 ≤ n) : floorSqrt n < n := by
  have hsq := floorSqrt_sq_le n
  rcases Nat.lt_or_ge (floorSqrt n) 2 with hroot | hroot
  · omega
  · have := Nat.mul_le_mul_right (floorSqrt n) hroot
    omega

/-! ## Divisors -/

/-- The largest divisor of `n` that is at most `q`; one when there is none. -/
def largestDivisorUpTo (n : Nat) : Nat → Nat
  | 0 => 1
  | q + 1 => if n % (q + 1) = 0 then q + 1 else largestDivisorUpTo n q

/-- The result is a divisor. -/
theorem largestDivisorUpTo_dvd (n q : Nat) : largestDivisorUpTo n q ∣ n := by
  induction q with
  | zero => exact Nat.one_dvd n
  | succ q ih =>
    rw [largestDivisorUpTo]
    split
    · exact Nat.dvd_of_mod_eq_zero ‹_›
    · exact ih

/-- The result is in range. -/
theorem largestDivisorUpTo_le (n : Nat) {q : Nat} (h : 0 < q) : largestDivisorUpTo n q ≤ q := by
  induction q with
  | zero => omega
  | succ q ih =>
    rw [largestDivisorUpTo]
    split
    · exact Nat.le_refl _
    · rcases Nat.eq_zero_or_pos q with rfl | hq
      · exact Nat.le_refl _
      · exact Nat.le_succ_of_le (ih hq)

/-- No divisor in range is larger than the result. -/
theorem le_largestDivisorUpTo {n q d : Nat} (hd : d ∣ n) (hq : d ≤ q) :
    d ≤ largestDivisorUpTo n q := by
  induction q with
  | zero => omega
  | succ q ih =>
    rw [largestDivisorUpTo]
    split
    · exact hq
    · rename_i hmod
      have hne : d ≠ q + 1 := by
        rintro rfl
        exact hmod (Nat.mod_eq_zero_of_dvd hd)
      exact ih (by omega)

/-- The largest divisor in range is positive. -/
theorem largestDivisorUpTo_pos (n q : Nat) : 0 < largestDivisorUpTo n q := by
  induction q with
  | zero => exact Nat.one_pos
  | succ q ih =>
    rw [largestDivisorUpTo]
    split
    · exact Nat.succ_pos q
    · exact ih

/-- The least divisor of `n` that is at least `start`, and `n` itself for a `start` beyond it.
Divisors come in pairs with product `n`, and the larger the partner, the less the divisor. -/
def leastDivisorFrom (n start : Nat) : Nat :=
  n / largestDivisorUpTo n (n / start)

/-- The result is a divisor. -/
theorem leastDivisorFrom_dvd (n start : Nat) : leastDivisorFrom n start ∣ n :=
  ⟨largestDivisorUpTo n (n / start),
    (Nat.div_mul_cancel (largestDivisorUpTo_dvd n (n / start))).symm⟩

/-- The result is in range when the number itself is. -/
theorem le_leastDivisorFrom {n start : Nat} (hstart : 0 < start) (h : start ≤ n) :
    start ≤ leastDivisorFrom n start := by
  have hle : largestDivisorUpTo n (n / start) ≤ n / start :=
    largestDivisorUpTo_le n (Nat.div_pos h hstart)
  rw [leastDivisorFrom, Nat.le_div_iff_mul_le (largestDivisorUpTo_pos n (n / start))]
  calc start * largestDivisorUpTo n (n / start)
      ≤ start * (n / start) := Nat.mul_le_mul_left start hle
    _ ≤ n := Nat.mul_div_le n start

/-- No divisor in range is less than the result. -/
theorem leastDivisorFrom_le {n start d : Nat} (hn : 0 < n) (hstart : 0 < start) (hd : d ∣ n)
    (h : start ≤ d) : leastDivisorFrom n start ≤ d := by
  rcases hd with ⟨e, rfl⟩
  have hpartner : e ≤ largestDivisorUpTo (d * e) (d * e / start) := by
    apply le_largestDivisorUpTo (Nat.dvd_mul_left e d)
    rw [Nat.le_div_iff_mul_le hstart, Nat.mul_comm e start]
    exact Nat.mul_le_mul_right e h
  have he : 0 < e := Nat.pos_of_mul_pos_left hn
  calc leastDivisorFrom (d * e) start
      ≤ d * e / e := Nat.div_le_div_left hpartner he
    _ = d := Nat.mul_div_cancel d he

/-- A search that starts beyond the number ends with the number itself. -/
theorem leastDivisorFrom_of_lt {n start : Nat} (h : n < start) : leastDivisorFrom n start = n := by
  rw [leastDivisorFrom, Nat.div_eq_of_lt h, largestDivisorUpTo, Nat.div_one]

/-- The result is the first divisor that a search upwards from `start` meets, or the number itself if
it meets none below that. -/
theorem leastDivisorFrom_eq_find? {n start : Nat} (hstart : 0 < start) :
    leastDivisorFrom n start
      = ((List.range' start (n - start)).find? fun d => n % d = 0).getD n := by
  have hself : n % leastDivisorFrom n start = 0 :=
    Nat.mod_eq_zero_of_dvd (leastDivisorFrom_dvd n start)
  cases hsearch : (List.range' start (n - start)).find? fun d => n % d = 0 with
  | some d =>
    rcases List.find?_range'_eq_some.1 hsearch with ⟨hmod, hmem, hfirst⟩
    have hd := List.mem_range'_1.1 hmem
    have hrange : start ≤ n := by omega
    have hle : leastDivisorFrom n start ≤ d :=
      leastDivisorFrom_le (by omega) hstart (Nat.dvd_of_mod_eq_zero (of_decide_eq_true hmod)) hd.1
    refine Nat.le_antisymm hle (Nat.le_of_not_lt fun hlt => ?_)
    -- The search would have met the result before `d`.
    have hpassed := hfirst _ (le_leastDivisorFrom hstart hrange) hlt
    exact absurd hself (by simpa using hpassed)
  | none =>
    rw [List.find?_range'_eq_none] at hsearch
    rcases Nat.lt_or_ge n start with hbeyond | hrange
    · exact leastDivisorFrom_of_lt hbeyond
    · have hle : leastDivisorFrom n start ≤ n :=
        leastDivisorFrom_le (by omega) hstart (Nat.dvd_refl n) hrange
      refine Nat.le_antisymm hle (Nat.le_of_not_lt fun hlt : leastDivisorFrom n start < n => ?_)
      -- The search would have met the result.
      have hpassed := hsearch _ (le_leastDivisorFrom hstart hrange) (by omega)
      exact absurd hself (by simpa using hpassed)

/-! ## Window lengths -/

/-- The row length up to which a row is reduced by one window, unless asked otherwise. -/
def defaultThreshold : Nat := 30

/-- The window length for rows of `n` elements: the whole row up to the threshold, and beyond it the
least divisor of `n` that is at least two and at least the integer part of the square root. -/
def optimalWindow (threshold n : Nat) : Nat :=
  if n ≤ threshold then n else leastDivisorFrom n (max (floorSqrt n) 2)

/-- A window length divides the row length. -/
theorem optimalWindow_dvd (threshold n : Nat) : optimalWindow threshold n ∣ n := by
  unfold optimalWindow
  split
  · exact Nat.dvd_refl n
  · exact leastDivisorFrom_dvd n (max (floorSqrt n) 2)

/-- Rows of two or more elements get windows of two or more. -/
theorem two_le_optimalWindow (threshold : Nat) {n : Nat} (h : 2 ≤ n) :
    2 ≤ optimalWindow threshold n := by
  unfold optimalWindow
  split
  · exact h
  · have hroot := floorSqrt_lt h
    have hrange : max (floorSqrt n) 2 ≤ leastDivisorFrom n (max (floorSqrt n) 2) :=
      le_leastDivisorFrom (by omega) (by omega)
    omega

end WindowReduction
