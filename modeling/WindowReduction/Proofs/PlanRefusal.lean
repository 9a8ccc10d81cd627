import WindowReduction.Proofs.IntRange
import WindowReduction.Proofs.PlanLength

/-!
# Which plans are refused

A descriptor is checked anew for every pass, with a window that may be as long as what is left of
the row, so the last index of a later pass may come near twice its row length. It still stays below
the row length of the pass before, since every pass that planning goes on from at least halves the
row. So a plan is refused for its first pass or not at all.

Main statements: `Planning.GoesOn.exists_new` (a later pass is accepted),
`Planning.refusal?_eq_none_of_exists_new` and `Plan.refused_iff_first_pass`.
-/

namespace WindowReduction

variable {kind : Kind} {batch threshold n n' : Nat}

/-! ## One pass -/

/-- Every pass has windows, even one over empty rows. -/
theorem Planning.one_le_passWindow (threshold n : Nat) : 1 ≤ Planning.passWindow threshold n :=
  Nat.le_max_left 1 _

/-- A descriptor whose windows have elements is only refused for its sizes. -/
theorem Descriptor.new_eq_ok_or_oversize (kind : Kind) (batch n : Nat) {w : Nat} (hw : 0 < w) :
    (∃ d, Descriptor.new kind w batch n = .ok d)
      ∨ Descriptor.new kind w batch n = .error (.oversize w batch n) := by
  unfold Descriptor.new
  rw [dif_pos hw]
  split
  · exact Or.inl ⟨_, rfl⟩
  · exact Or.inr rfl

/-- Which first passes are accepted. -/
theorem Planning.exists_new_iff (kind : Kind) :
    (∃ d, Descriptor.new kind (passWindow threshold n) batch n = .ok d)
      ↔ batch ≤ maxKernelInt ∧ n + passWindow threshold n - 1 ≤ maxKernelInt := by
  have hpos := one_le_passWindow threshold n
  rw [Descriptor.exists_new_eq_ok_iff]
  omega

/-- The pass that planning goes on to is accepted, since its window is no longer than its row, and
its row is at most half of the one before. -/
theorem Planning.GoesOn.exists_new (h : GoesOn kind batch threshold n n') :
    ∃ d, Descriptor.new kind (passWindow threshold n') batch n' = .ok d := by
  have hhalf := h.two_mul_le
  have hrow := h.le_maxKernelInt
  rcases h with ⟨d, hnew, -, hout⟩
  have hbatch := d.batch_le
  rw [Descriptor.batch_of_new hnew] at hbatch
  have hwindow : passWindow threshold n' ≤ n' :=
    Nat.le_of_dvd (by omega) (passWindow_dvd threshold n')
  rw [exists_new_iff]
  exact ⟨hbatch, by omega⟩

/-! ## All passes -/

/-- Planning whose first pass is accepted is not refused. -/
theorem Planning.refusal?_eq_none_of_exists_new
    (h : ∃ d, Descriptor.new kind (passWindow threshold n) batch n = .ok d) :
    (run kind batch threshold n).refusal? = none := by
  fun_induction run kind batch threshold n with
  | case1 n f hnew =>
      rcases h with ⟨d, hd⟩
      rw [hnew] at hd
      cases hd
  | case2 n d hnew hout => rfl
  | case3 n d hnew hout hlt rest ih =>
      have hround : GoesOn kind batch threshold n d.geometry.outSize :=
        ⟨d, hnew, rfl, Nat.lt_of_not_le hout⟩
      exact ih hround.exists_new

/-- Planning whose first pass is refused takes no pass. -/
theorem Planning.run_of_refused {f : Fault}
    (h : Descriptor.new kind (passWindow threshold n) batch n = .error f) :
    run kind batch threshold n = ⟨[], some f⟩ := by
  fun_cases run kind batch threshold n with
  | case1 f' hnew =>
      rw [hnew] at h
      cases h
      rfl
  | case2 d hnew hout =>
      rw [hnew] at h
      cases h
  | case3 d hnew hout =>
      rw [hnew] at h
      cases h

/-! ## Plans -/

/-- A first pass that is accepted leads to a plan. -/
theorem Plan.exists_new_of_exists_new
    (h : ∃ d, Descriptor.new kind (Planning.passWindow threshold n) batch n = .ok d) :
    ∃ p, Plan.new kind batch threshold n = .ok p := by
  simp only [Plan.new, Planning.refusal?_eq_none_of_exists_new h]
  exact ⟨_, rfl⟩

/-- A first pass that is refused is what the plan is refused for. -/
theorem Plan.new_of_refused {f : Fault}
    (h : Descriptor.new kind (Planning.passWindow threshold n) batch n = .error f) :
    Plan.new kind batch threshold n = .error f := by
  simp only [Plan.new, Planning.run_of_refused h]

/-- A plan is refused exactly when its first pass does not fit: when the number of rows or the last
index of a window in them is no kernel `int`. Then the sizes of the first pass are reported and no
pass has been taken. No plan is refused for a window without elements, and none once a pass has been
taken. -/
theorem Plan.refused_iff_first_pass (kind : Kind) (batch threshold n : Nat) :
    ((∃ p, Plan.new kind batch threshold n = .ok p)
        ↔ batch ≤ maxKernelInt ∧ n + Planning.passWindow threshold n - 1 ≤ maxKernelInt)
      ∧ (¬ (batch ≤ maxKernelInt ∧ n + Planning.passWindow threshold n - 1 ≤ maxKernelInt) →
          ∃ f, Plan.new kind batch threshold n = .error f ∧ f.code = .sizeOutOfRange
            ∧ f.message? = some ("sizes don't fit a kernel int: window="
              ++ toString (Planning.passWindow threshold n) ++ " batch=" ++ toString batch ++ " in="
              ++ toString n)
            ∧ (Planning.run kind batch threshold n).events = [])
      ∧ (∀ f, Plan.new kind batch threshold n = .error f → f.code ≠ .invalidWindowSize)
      ∧ ((Planning.run kind batch threshold n).passes ≠ [] →
          (Planning.run kind batch threshold n).refusal? = none) := by
  rw [← Planning.exists_new_iff kind]
  rcases Descriptor.new_eq_ok_or_oversize kind batch n (Planning.one_le_passWindow threshold n) with
    haccepted | hrefused
  · -- The first pass is accepted, and with it all others.
    have hplan := Plan.exists_new_of_exists_new haccepted
    refine ⟨iff_of_true hplan haccepted, fun hnone => absurd haccepted hnone, ?_, ?_⟩
    · intro f hf
      rcases hplan with ⟨p, hp⟩
      rw [hp] at hf
      cases hf
    · intro _
      exact Planning.refusal?_eq_none_of_exists_new haccepted
  · have hplan := Plan.new_of_refused hrefused
    have hrun := Planning.run_of_refused hrefused
    refine ⟨iff_of_false ?_ ?_, ?_, ?_, ?_⟩
    · rintro ⟨p, hp⟩
      rw [hplan] at hp
      cases hp
    · rintro ⟨d, hd⟩
      rw [hrefused] at hd
      cases hd
    · intro _
      rw [hrun]
      exact ⟨_, hplan, rfl, rfl, rfl⟩
    · intro f hf
      rw [hplan] at hf
      cases hf
      exact ErrorCode.noConfusion
    · intro hpasses
      rw [hrun] at hpasses
      exact absurd rfl hpasses

/-- With a threshold as long as the row, the longest row that can be planned has two to the power of
30 elements. -/
theorem Plan.refused_iff_first_pass_longest :
    (∃ p, Plan.new .sum 1 0x40000000 0x40000000 = .ok p)
      ∧ ∃ f, Plan.new .sum 1 0x40000001 0x40000001 = .error f ∧ f.code = .sizeOutOfRange
        ∧ f.message? = some ("sizes don't fit a kernel int: window=1073741825 batch=1 "
          ++ "in=1073741825") := by
  have hfits : 1 ≤ maxKernelInt
      ∧ 0x40000000 + Planning.passWindow 0x40000000 0x40000000 - 1 ≤ maxKernelInt := by decide
  have hmisfit : ¬ (1 ≤ maxKernelInt
      ∧ 0x40000001 + Planning.passWindow 0x40000001 0x40000001 - 1 ≤ maxKernelInt) := by decide
  have hwindow : Planning.passWindow 0x40000001 0x40000001 = 0x40000001 := by decide
  rcases (Plan.refused_iff_first_pass .sum 1 0x40000001 0x40000001).2.1 hmisfit with
    ⟨f, hf, hcode, hmessage, -⟩
  rw [hwindow] at hmessage
  have hplan := (Plan.refused_iff_first_pass .sum 1 0x40000000 0x40000000).1.2 hfits
  exact ⟨hplan, f, hf, hcode, hmessage⟩

end WindowReduction
