import WindowReduction.Proofs.PlanChain
import WindowReduction.Proofs.WindowLength

/-!
# How many passes a plan takes

A pass over `n` elements that is not the last one leaves at most `√n + 2` of them. Taken from the
longest row that a descriptor accepts downwards, this brings the row length below any small bound
within a few passes. Near four elements the square root no longer shortens a row, and there it counts
that a pass at least halves it.

Main definitions: `Planning.GoesOn` (one round of planning) and `Planning.StopsWithin`.
Main statements: `Planning.StopsWithin.root` and `Planning.StopsWithin.halve` (one more round allows
for longer rows) and `Plan.length_passes_le`.
-/

namespace WindowReduction

variable {kind : Kind} {batch threshold k m n n' : Nat} {passes : List Descriptor}

/-! ## One round -/

/-- Planning goes on from rows of `n` elements to rows of `n'`: the pass that it takes over the former
is accepted and leaves the latter, which are not down to one element. -/
def Planning.GoesOn (kind : Kind) (batch threshold n n' : Nat) : Prop :=
  ∃ d, Descriptor.new kind (passWindow threshold n) batch n = .ok d ∧ d.geometry.outSize = n'
    ∧ 1 < n'

namespace Planning

/-- The windows of a pass that planning goes on from tile the row. -/
theorem GoesOn.mul_passWindow (h : GoesOn kind batch threshold n n') :
    n' * passWindow threshold n = n := by
  rcases h with ⟨d, hnew, rfl, -⟩
  have hmul := Descriptor.outSize_mul_window (Planned.window_dvd_of_new hnew)
  rwa [Descriptor.window_of_new hnew, Descriptor.rowLength_of_new hnew] at hmul

/-- A pass that planning goes on from at least halves the row. -/
theorem GoesOn.two_mul_le (h : GoesOn kind batch threshold n n') : 2 * n' ≤ n := by
  have hmul := h.mul_passWindow
  rcases h with ⟨d, hnew, rfl, hout⟩
  have htwo := two_le_passWindow hnew hout
  rw [Descriptor.window_of_new hnew] at htwo
  calc 2 * d.geometry.outSize
      ≤ passWindow threshold n * d.geometry.outSize := Nat.mul_le_mul_right _ htwo
    _ = n := by rw [Nat.mul_comm, hmul]

/-- A pass leaves at most two elements more than the root says. -/
theorem GoesOn.le_sqrt (h : GoesOn kind batch threshold n n') : n' ≤ Nat.sqrt n + 2 := by
  have hmul := h.mul_passWindow
  have hlong := h.two_mul_le
  rcases h with ⟨d, hnew, rfl, hout⟩
  have htwo : 2 ≤ optimalWindow threshold n := two_le_optimalWindow threshold (by omega)
  have hwindow : passWindow threshold n = optimalWindow threshold n :=
    Nat.max_eq_right (by omega)
  have hdiv : n / optimalWindow threshold n = d.geometry.outSize := by
    rw [hwindow] at hmul
    exact Nat.div_eq_of_eq_mul_left (by omega) hmul.symm
  exact hdiv ▸ div_optimalWindow_le threshold n

/-- Planning only goes on beyond the threshold. -/
theorem GoesOn.threshold_lt (h : GoesOn kind batch threshold n n') : threshold < n := by
  by_contra hle
  have hmul := h.mul_passWindow
  have hlong := h.two_mul_le
  have hwindow : passWindow threshold n = n := by
    rw [passWindow, optimalWindow_of_le (Nat.le_of_not_lt hle)]
    exact Nat.max_eq_right (by rcases h with ⟨-, -, -, hout⟩; omega)
  rw [hwindow] at hmul
  rcases h with ⟨-, -, -, hout⟩
  have hmore : 2 * n ≤ n' * n := Nat.mul_le_mul_right n hout
  omega

/-- Planning only goes on from rows that a descriptor accepts. -/
theorem GoesOn.le_maxKernelInt (h : GoesOn kind batch threshold n n') : n ≤ maxKernelInt := by
  rcases h with ⟨d, hnew, -, -⟩
  have hlast := d.lastIndex_le
  rw [Descriptor.rowLength_of_new hnew] at hlast
  omega

/-! ## All rounds -/

/-- Planning for rows of at most `m` elements stops within `k` rounds: no sequence of row lengths that
it goes through is longer. -/
def StopsWithin (kind : Kind) (batch threshold k m : Nat) : Prop :=
  ∀ n ≤ m, ∀ lengths, (n :: lengths).IsChain (GoesOn kind batch threshold) →
    (n :: lengths).length ≤ k

/-- Rows from which planning does not go on take one round. -/
theorem stopsWithin_one (h : ∀ n ≤ m, ∀ n', ¬ GoesOn kind batch threshold n n') :
    StopsWithin kind batch threshold 1 m := by
  intro n hn lengths hchain
  cases lengths with
  | nil => exact Nat.le_refl 1
  | cons n' lengths => exact absurd (List.isChain_cons_cons.1 hchain).1 (h n hn n')

/-- Rows that lead to shorter ones in one round take one round more than these. -/
theorem StopsWithin.succ {m' : Nat} (hstop : StopsWithin kind batch threshold k m)
    (h : ∀ n ≤ m', ∀ n', GoesOn kind batch threshold n n' → n' ≤ m) :
    StopsWithin kind batch threshold (k + 1) m' := by
  intro n hn lengths hchain
  cases lengths with
  | nil => exact Nat.succ_le_succ (Nat.zero_le k)
  | cons n' lengths =>
      rcases List.isChain_cons_cons.1 hchain with ⟨hround, hrest⟩
      exact Nat.succ_le_succ (hstop n' (h n hn n' hround) lengths hrest)

/-- One more round allows for rows of twice the length. -/
theorem StopsWithin.halve (hstop : StopsWithin kind batch threshold k m) :
    StopsWithin kind batch threshold (k + 1) (2 * m + 1) := by
  apply hstop.succ
  intro n hn n' hround
  have := hround.two_mul_le
  omega

/-- One more round allows for rows of about the square of the length. -/
theorem StopsWithin.root (hstop : StopsWithin kind batch threshold k (m + 2)) :
    StopsWithin kind batch threshold (k + 1) (m * (m + 2)) := by
  apply hstop.succ
  intro n hn n' hround
  have hsmall : Nat.sqrt n < m + 1 := by
    rw [Nat.sqrt_lt]
    calc n ≤ m * (m + 2) := hn
      _ < (m + 1) * (m + 1) := by grind
  have := hround.le_sqrt
  omega

/-- Whatever the threshold, planning stops within six rounds. -/
theorem stopsWithin_six (kind : Kind) (batch threshold : Nat) :
    StopsWithin kind batch threshold 6 maxKernelInt := by
  have hone : StopsWithin kind batch threshold 1 3 := by
    apply stopsWithin_one
    intro n hn n' hround
    have hhalf := hround.two_mul_le
    rcases hround with ⟨-, -, -, hout⟩
    omega
  have htwo : StopsWithin kind batch threshold 2 7 := hone.halve
  have hthree : StopsWithin kind batch threshold 3 35 := htwo.root
  have hfour : StopsWithin kind batch threshold 4 1155 := hthree.root
  have hfive : StopsWithin kind batch threshold 5 1331715 := hfour.root
  intro n hn
  exact hfive.root n (Nat.le_trans hn (by decide))

/-- With a threshold of sixteen or more, planning stops within four rounds. -/
theorem stopsWithin_four (kind : Kind) (batch : Nat) (hthreshold : 16 ≤ threshold) :
    StopsWithin kind batch threshold 4 maxKernelInt := by
  have hone : StopsWithin kind batch threshold 1 16 := by
    apply stopsWithin_one
    intro n hn n' hround
    have := hround.threshold_lt
    omega
  have htwo : StopsWithin kind batch threshold 2 224 := hone.root
  have hthree : StopsWithin kind batch threshold 3 49728 := htwo.root
  intro n hn
  exact hthree.root n (Nat.le_trans hn (by decide))

/-- A bound for the rows that a descriptor accepts is one for all rows, since planning does not go on
from others. -/
theorem StopsWithin.length_le (hstop : StopsWithin kind batch threshold k maxKernelInt) (hk : 0 < k)
    {lengths : List Nat} (hchain : (n :: lengths).IsChain (GoesOn kind batch threshold)) :
    (n :: lengths).length ≤ k := by
  cases lengths with
  | nil => exact hk
  | cons n' lengths =>
      have hround := (List.isChain_cons_cons.1 hchain).1
      exact hstop n hround.le_maxKernelInt _ hchain

end Planning

/-! ## Passes -/

/-- The row lengths of a chain of passes are those that planning goes through. -/
theorem Planned.isChain_goesOn (h : Planned kind batch threshold n passes) :
    ∃ lengths, passes.map Descriptor.rowLength = n :: lengths
      ∧ (n :: lengths).IsChain (Planning.GoesOn kind batch threshold) := by
  induction h with
  | @last n d hnew hout =>
      exact ⟨[], congrArg (fun m => [m]) (Descriptor.rowLength_of_new hnew), .singleton n⟩
  | @more n d rest hnew hout hrest ih =>
      rcases ih with ⟨lengths, hmap, hchain⟩
      refine ⟨d.geometry.outSize :: lengths, ?_, List.isChain_cons_cons.2 ⟨?_, hchain⟩⟩
      · rw [List.map_cons, hmap, Descriptor.rowLength_of_new hnew]
      · exact ⟨d, hnew, rfl, hout⟩

/-- Planning stops: it goes through at most six row lengths, whether it ends with a plan or a pass is
refused, and through at most four with a threshold of sixteen or more. A plan has as many passes at
most. -/
theorem Plan.length_passes_le (kind : Kind) (batch threshold n : Nat) :
    (∀ lengths, (n :: lengths).IsChain (Planning.GoesOn kind batch threshold) →
        (n :: lengths).length ≤ 6 ∧ (16 ≤ threshold → (n :: lengths).length ≤ 4))
      ∧ ∀ p, Plan.new kind batch threshold n = .ok p →
          p.passes.length ≤ 6 ∧ (16 ≤ threshold → p.passes.length ≤ 4) := by
  have hrounds : ∀ lengths, (n :: lengths).IsChain (Planning.GoesOn kind batch threshold) →
      (n :: lengths).length ≤ 6 ∧ (16 ≤ threshold → (n :: lengths).length ≤ 4) := by
    intro lengths hchain
    refine ⟨(Planning.stopsWithin_six kind batch threshold).length_le (by decide) hchain, ?_⟩
    intro hthreshold
    exact (Planning.stopsWithin_four kind batch hthreshold).length_le (by decide) hchain
  refine ⟨hrounds, ?_⟩
  intro p hp
  rcases (Plan.planned_of_new hp).isChain_goesOn with ⟨lengths, hmap, hchain⟩
  have hlength : p.passes.length = (n :: lengths).length := by
    rw [← hmap, List.length_map]
  rw [hlength]
  exact hrounds lengths hchain

/-- Both bounds are met by rows of as many elements as the eighth power of twelve. -/
theorem Plan.length_passes_le_twelve_pow :
    ∃ p q, Plan.new .sum 1 0 429981696 = .ok p ∧ p.passes.length = 6
      ∧ Plan.new .sum 1 defaultThreshold 429981696 = .ok q ∧ q.passes.length = 4
      ∧ p.passes.length ≤ 6 ∧ 16 ≤ defaultThreshold ∧ q.passes.length ≤ 4 := by
  let pass (window n : Nat) (hw : 0 < window) (hn : n + (window - 1) ≤ maxKernelInt) : Descriptor :=
    ⟨.sum, window, 1, n, hw, by decide, hn⟩
  have hp : Plan.new .sum 1 0 429981696 = .ok ⟨[pass 20736 429981696 (by decide) (by decide),
      pass 144 20736 (by decide) (by decide), pass 12 144 (by decide) (by decide),
      pass 3 12 (by decide) (by decide), pass 2 4 (by decide) (by decide),
      pass 2 2 (by decide) (by decide)]⟩ := by
    decide +kernel
  have hq : Plan.new .sum 1 defaultThreshold 429981696
      = .ok ⟨[pass 20736 429981696 (by decide) (by decide),
        pass 144 20736 (by decide) (by decide), pass 12 144 (by decide) (by decide),
        pass 12 12 (by decide) (by decide)]⟩ := by
    decide +kernel
  have hlong : 16 ≤ defaultThreshold := by decide
  exact ⟨_, _, hp, rfl, hq, rfl, ((Plan.length_passes_le .sum 1 0 429981696).2 _ hp).1, hlong,
    ((Plan.length_passes_le .sum 1 defaultThreshold 429981696).2 _ hq).2 hlong⟩

end WindowReduction
