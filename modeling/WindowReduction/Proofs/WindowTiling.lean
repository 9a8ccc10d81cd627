import WindowReduction.Proofs.FetchTrace
import WindowReduction.Proofs.WindowFold

/-!
# How windows tile a row

The windows of a row follow one another without gaps, each of them starts inside the row, and only
the last one can run past its end. An index therefore belongs to the window that its quotient by the
window length names, and to no other. The offsets of the full groups of a window, and then those
after them, run through the window.

Main statements: `Descriptor.inWindow_iff` (the window of an index) and `Descriptor.windows_tile`.
-/

namespace WindowReduction

namespace Descriptor

/-- The window covers the index, which may lie past the end of the row. -/
def InWindow (d : Descriptor) (o i : Nat) : Prop :=
  ∃ first last, d.windowRange o = .ok (first, last) ∧ first ≤ i ∧ i < last

variable {d : Descriptor} {o o' i : Nat}

/-- The window of an index is named by the quotient of the index. -/
theorem inWindow_iff (ho : o < d.geometry.outSize) : d.InWindow o i ↔ i / d.window = o := by
  have hrange := windowRange_eq_ok ho
  constructor
  · rintro ⟨first, last, heq, hfirst, hlast⟩
    rw [hrange] at heq
    cases heq
    exact Nat.div_eq_of_lt_le hfirst (by rwa [Nat.succ_mul])
  · rintro rfl
    have hfirst := Nat.div_mul_le_self i d.window
    have hlast := Nat.lt_div_mul_add (a := i) d.window_pos
    exact ⟨_, _, hrange, hfirst, hlast⟩

theorem div_lt_outSize (hi : i < d.rowLength) : i / d.window < d.geometry.outSize :=
  (Geometry.lt_outSize_iff d.window_pos).2 (Nat.lt_of_le_of_lt (Nat.div_mul_le_self i d.window) hi)

/-- A window ends where the next one starts. -/
theorem exists_windowRange_succ (ho : o + 1 < d.geometry.outSize) :
    ∃ first middle last,
      d.windowRange o = .ok (first, middle) ∧ d.windowRange (o + 1) = .ok (middle, last) := by
  have hrange := windowRange_eq_ok (Nat.lt_of_succ_lt ho)
  have hnext := windowRange_eq_ok ho
  rw [Nat.succ_mul] at hnext
  exact ⟨_, _, _, hrange, hnext⟩

theorem not_inWindow_of_ne (ho : o < d.geometry.outSize) (ho' : o' < d.geometry.outSize)
    (hne : o ≠ o') : ¬(d.InWindow o i ∧ d.InWindow o' i) := by
  rw [inWindow_iff ho, inWindow_iff ho']
  rintro ⟨rfl, rfl⟩
  exact hne rfl

/-- A window starts inside the row. -/
theorem exists_lt_inWindow (ho : o < d.geometry.outSize) : ∃ i < d.rowLength, d.InWindow o i := by
  have hstart := (d.index_le_of_lt_outSize ho).1
  exact ⟨o * d.window, hstart, (inWindow_iff ho).2 (Nat.mul_div_cancel o d.window_pos)⟩

theorem existsUnique_inWindow (hi : i < d.rowLength) :
    ∃! o, o < d.geometry.outSize ∧ d.InWindow o i := by
  have ho := div_lt_outSize hi
  refine ⟨i / d.window, ⟨ho, (inWindow_iff ho).2 rfl⟩, ?_⟩
  rintro o' ⟨ho', hin⟩
  exact ((inWindow_iff ho').1 hin).symm

/-- The bounds check is there exactly when the last window runs past the end of the row. -/
theorem needsGuard_iff :
    d.geometry.needsGuard = true ↔ ∃ o first last, o + 1 = d.geometry.outSize
      ∧ d.windowRange o = .ok (first, last) ∧ d.rowLength < last := by
  have hguard : d.geometry.needsGuard = true ↔ ¬d.window ∣ d.rowLength := by
    rw [Nat.dvd_iff_mod_eq_zero]
    exact decide_eq_true_iff.trans Nat.pos_iff_ne_zero
  rw [hguard]
  constructor
  · intro hdvd
    have hne : d.geometry.outSize ≠ 0 := by
      intro hzero
      have hstart : ¬0 * d.window < d.rowLength := fun h =>
        absurd ((Geometry.lt_outSize_iff d.window_pos).2 h) (by rw [← geometry, hzero]; decide)
      rw [Nat.zero_mul, Nat.not_lt, Nat.le_zero] at hstart
      exact hdvd (hstart ▸ Nat.dvd_zero d.window)
    obtain ⟨o, ho⟩ := Nat.exists_eq_succ_of_ne_zero hne
    refine ⟨o, _, _, ho.symm, windowRange_eq_ok (by omega), ?_⟩
    -- No window starts at the end of the last one, and the row does not end there either.
    have hend : ¬(o + 1) * d.window < d.rowLength := fun h =>
      absurd ((Geometry.lt_outSize_iff d.window_pos).2 h) (by rw [← geometry, ho]; omega)
    have hrow : d.rowLength ≠ (o + 1) * d.window := fun h =>
      hdvd (h ▸ Nat.dvd_mul_left d.window (o + 1))
    rw [Nat.succ_mul] at hend hrow
    omega
  · rintro ⟨o, first, last, hlastWindow, hrange, hpast⟩ hdvd
    have hrow := outSize_mul_window hdvd
    rw [windowRange_eq_ok (by omega)] at hrange
    cases hrange
    rw [← Nat.succ_mul, Nat.succ_eq_add_one, hlastWindow, hrow] at hpast
    exact Nat.lt_irrefl _ hpast

/-- The windows of an accepted descriptor have ranges, which follow one another, have no index in
common, start inside the row and together cover it; the last one runs past the row exactly when
indices are checked. The offsets in a window run through it in order, and at these a run of the
built kernel fetches. -/
theorem windows_tile {k : Kind} {w b n : Nat} {d : Descriptor}
    (hd : Descriptor.new k w b n = .ok d) :
    (∀ o < d.geometry.outSize, ∃ first last, d.windowRange o = .ok (first, last))
      ∧ (∀ o, o + 1 < d.geometry.outSize → ∃ first middle last,
          d.windowRange o = .ok (first, middle) ∧ d.windowRange (o + 1) = .ok (middle, last))
      ∧ (∀ o < d.geometry.outSize, ∀ o' < d.geometry.outSize, o ≠ o' →
          ∀ i, ¬(d.InWindow o i ∧ d.InWindow o' i))
      ∧ (∀ o < d.geometry.outSize, ∃ i < n, d.InWindow o i)
      ∧ (∀ i < n, ∃! o, o < d.geometry.outSize ∧ d.InWindow o i)
      ∧ (d.geometry.needsGuard = true ↔ ∃ o first last, o + 1 = d.geometry.outSize
          ∧ d.windowRange o = .ok (first, last) ∧ n < last)
      ∧ d.geometry.offsets = List.range w
      ∧ ∀ (u : IntUnit) (input : Tensor), u.HoldsKernelInts → input.shape = ⟨b, n⟩ →
          ∀ row < b, ∀ o < d.geometry.outSize, ∃ first last, d.windowRange o = .ok (first, last)
            ∧ Invocation.fetches ⟨u, (Program.build d).kernel, input, row, o⟩
              = d.geometry.offsets.map fun j => ((row : Int), ((first + j : Nat) : Int)) := by
  obtain ⟨rfl, rfl, rfl, rfl⟩ := new_eq_ok_iff.1 hd
  refine ⟨?_, fun o => exists_windowRange_succ, ?_, fun o => exists_lt_inWindow,
    fun i => existsUnique_inWindow, needsGuard_iff, Geometry.offsets_of d.window d.rowLength, ?_⟩
  · intro o ho
    exact ⟨_, _, windowRange_eq_ok ho⟩
  · intro o ho o' ho' hne i
    exact not_inWindow_of_ne ho ho' hne
  · intro u input hu hshape row hrow o ho
    exact ⟨_, _, windowRange_eq_ok ho, Program.fetches_build hu hshape hrow ho⟩

/-- Three windows of six elements, of which the last one has but one element of the row. -/
theorem windows_tile_thirteen :
    ∃ d, Descriptor.new .max 6 1 13 = .ok d ∧ d.geometry.offsets = [0, 1, 2, 3, 4, 5]
      ∧ d.geometry.needsGuard = true
      ∧ (∃ o first last, o + 1 = d.geometry.outSize ∧ d.windowRange o = .ok (first, last)
          ∧ 13 < last)
      ∧ (∃! o, o < d.geometry.outSize ∧ d.InWindow o 12) := by
  have hd : Descriptor.new .max 6 1 13
      = .ok ⟨.max, 6, 1, 13, by decide, by decide, by decide⟩ := rfl
  obtain ⟨-, -, -, -, hone, hguard, hoffsets, -⟩ := windows_tile hd
  exact ⟨_, hd, hoffsets, rfl, hguard.1 rfl, hone 12 (by decide)⟩

end Descriptor

end WindowReduction
