import Mathlib.Algebra.BigOperators.Group.List.Basic
import Mathlib.Data.List.Chain
import WindowReduction.Plan

/-!
# The chain of passes of a plan

What planning decides at each row length, as an inductive predicate, and what follows for the whole
chain. The window of every pass divides its row length, so that no row length has to be rounded up:
a pass turns `n` elements into exactly `n / window`, and the windows of all passes multiply up to
the row length.

Main statements: `Plan.planned_of_new` (every plan is such a chain) and `Plan.wellChained_of_new`.
-/

namespace WindowReduction

/-! ## Passes -/

/-- The window of a pass divides the row length. -/
theorem Planning.passWindow_dvd (threshold n : Nat) : Planning.passWindow threshold n ∣ n := by
  rcases Nat.eq_zero_or_pos n with rfl | hn
  · exact Nat.dvd_zero _
  · have hdvd := optimalWindow_dvd threshold n
    have hpos : 1 ≤ optimalWindow threshold n := Nat.pos_of_dvd_of_pos hdvd hn
    rw [Planning.passWindow, Nat.max_eq_right hpos]
    exact hdvd

/-- A pass that leaves at most one element leaves one exactly when there was one. -/
theorem Descriptor.outSize_eq_min {d : Descriptor} (h : d.window ∣ d.rowLength)
    (hout : d.geometry.outSize ≤ 1) : d.geometry.outSize = min d.rowLength 1 := by
  have hmul := Descriptor.outSize_mul_window h
  have hpos := d.window_pos
  rcases Nat.le_one_iff_eq_zero_or_eq_one.1 hout with hzero | hone
  · rw [hzero, Nat.zero_mul] at hmul
    omega
  · rw [hone, Nat.one_mul] at hmul
    omega

/-! ## Chains -/

/-- The chains of passes that planning takes over rows of a given length. -/
inductive Planned (kind : Kind) (batch threshold : Nat) : Nat → List Descriptor → Prop
  /-- A pass that leaves at most one element in a row is the last one. -/
  | last {n : Nat} {d : Descriptor}
      (hnew : Descriptor.new kind (Planning.passWindow threshold n) batch n = .ok d)
      (hout : d.geometry.outSize ≤ 1) : Planned kind batch threshold n [d]
  /-- Any other pass is followed by a chain for the elements that it leaves. -/
  | more {n : Nat} {d : Descriptor} {rest : List Descriptor}
      (hnew : Descriptor.new kind (Planning.passWindow threshold n) batch n = .ok d)
      (hout : 1 < d.geometry.outSize)
      (hrest : Planned kind batch threshold d.geometry.outSize rest) :
      Planned kind batch threshold n (d :: rest)

variable {kind : Kind} {batch threshold n : Nat} {passes : List Descriptor} {p : Plan}

/-- Planning that is not refused takes such a chain. -/
theorem Planning.planned_of_run (h : (Planning.run kind batch threshold n).refusal? = none) :
    Planned kind batch threshold n (Planning.run kind batch threshold n).passes := by
  fun_induction Planning.run kind batch threshold n with
  | case1 n f hnew => cases h
  | case2 n d hnew hout => exact .last hnew hout
  | case3 n d hnew hout hlt rest ih => exact .more hnew (Nat.lt_of_not_le hout) (ih h)

theorem Plan.planned_of_new (h : Plan.new kind batch threshold n = .ok p) :
    Planned kind batch threshold n p.passes := by
  simp only [Plan.new] at h
  split at h
  · cases h
  · rename_i hrefusal
    cases h
    exact Planning.planned_of_run hrefusal

namespace Planned

theorem ne_nil (h : Planned kind batch threshold n passes) : passes ≠ [] := by
  cases h with
  | last => exact List.cons_ne_nil _ _
  | more => exact List.cons_ne_nil _ _

/-- The first pass takes rows of the given length. -/
theorem rowLength_head (h : Planned kind batch threshold n passes) :
    passes.head?.map Descriptor.rowLength = some n := by
  cases h with
  | last hnew => exact congrArg some (Descriptor.rowLength_of_new hnew)
  | more hnew => exact congrArg some (Descriptor.rowLength_of_new hnew)

/-- Every pass is one that planning takes at some row length. -/
theorem exists_new_of_mem {d : Descriptor} (h : Planned kind batch threshold n passes)
    (hd : d ∈ passes) :
    ∃ m, Descriptor.new kind (Planning.passWindow threshold m) batch m = .ok d := by
  induction h with
  | last hnew hout =>
      rw [List.mem_singleton.1 hd]
      exact ⟨_, hnew⟩
  | more hnew hout hrest ih =>
      rcases List.mem_cons.1 hd with rfl | hd
      · exact ⟨_, hnew⟩
      · exact ih hd

theorem window_dvd_of_new {d : Descriptor}
    (h : Descriptor.new kind (Planning.passWindow threshold n) batch n = .ok d) :
    d.window ∣ d.rowLength := by
  rw [Descriptor.window_of_new h, Descriptor.rowLength_of_new h]
  exact Planning.passWindow_dvd threshold n

/-- Each pass takes the rows that the pass before it leaves. -/
theorem isChain (h : Planned kind batch threshold n passes) :
    passes.IsChain fun d e => e.rowLength = d.geometry.outSize := by
  induction h with
  | last hnew hout => exact List.IsChain.singleton _
  | more hnew hout hrest ih =>
      rename_i d rest
      -- The rest is planned for what this pass leaves, so its first pass takes just that.
      have hhead := hrest.rowLength_head
      cases rest with
      | nil => exact List.IsChain.singleton _
      | cons e rest => exact List.isChain_cons_cons.2 ⟨Option.some.inj hhead, ih⟩

/-- Rows do not get longer. -/
theorem rowLength_le {d : Descriptor} (h : Planned kind batch threshold n passes)
    (hd : d ∈ passes) : d.rowLength ≤ n := by
  induction h with
  | last hnew hout =>
      rw [List.mem_singleton.1 hd]
      exact Nat.le_of_eq (Descriptor.rowLength_of_new hnew)
  | more hnew hout hrest ih =>
      rcases List.mem_cons.1 hd with rfl | hd
      · exact Nat.le_of_eq (Descriptor.rowLength_of_new hnew)
      · exact Nat.le_trans (ih hd) (Nat.le_of_lt (Planning.outSize_lt_of_new hnew hout))

/-- Rows get shorter with every pass. -/
theorem pairwise_rowLength (h : Planned kind batch threshold n passes) :
    passes.Pairwise fun d e => e.rowLength < d.rowLength := by
  induction h with
  | last hnew hout => exact List.pairwise_singleton _ _
  | more hnew hout hrest ih =>
      refine List.pairwise_cons.2 ⟨?_, ih⟩
      intro e he
      rw [Descriptor.rowLength_of_new hnew]
      exact Nat.lt_of_le_of_lt (hrest.rowLength_le he) (Planning.outSize_lt_of_new hnew hout)

/-- Only the last pass may leave fewer than two elements. -/
theorem two_le_outSize {d : Descriptor} (h : Planned kind batch threshold n passes)
    (hd : d ∈ passes.dropLast) : 2 ≤ d.geometry.outSize := by
  induction h with
  | last hnew hout => cases hd
  | more hnew hout hrest ih =>
      rw [List.dropLast_cons_of_ne_nil hrest.ne_nil] at hd
      rcases List.mem_cons.1 hd with rfl | hd
      · exact hout
      · exact ih hd

/-- The last pass leaves one element, and none only if there was none from the beginning. -/
theorem outSize_getLast (h : Planned kind batch threshold n passes) :
    passes.getLast?.map (fun d => d.geometry.outSize) = some (min n 1) := by
  induction h with
  | last hnew hout =>
      have hlast := Descriptor.outSize_eq_min (window_dvd_of_new hnew) hout
      rw [Descriptor.rowLength_of_new hnew] at hlast
      exact congrArg some hlast
  | more hnew hout hrest ih =>
      rename_i n d rest
      -- Before and after this pass there is more than one element.
      have hlt := Planning.outSize_lt_of_new hnew hout
      have hmin : min d.geometry.outSize 1 = min n 1 := by omega
      have hcons : (d :: rest).getLast? = rest.getLast? := by
        cases rest with
        | nil => exact absurd rfl hrest.ne_nil
        | cons e rest => rfl
      rw [hcons, ih, hmin]

/-- The windows of all passes multiply up to the row length. -/
theorem prod_windows (h : Planned kind batch threshold n passes) (hn : 1 ≤ n) :
    (passes.map Descriptor.window).prod = n := by
  induction h with
  | last hnew hout =>
      have hmul := Descriptor.outSize_mul_window (window_dvd_of_new hnew)
      have hlast := Descriptor.outSize_eq_min (window_dvd_of_new hnew) hout
      rw [Descriptor.rowLength_of_new hnew] at hmul hlast
      rw [hlast, Nat.min_eq_right hn, Nat.one_mul] at hmul
      rw [List.map_singleton, List.prod_singleton, hmul]
  | more hnew hout hrest ih =>
      -- The rest multiplies up to the number of windows, which times their length is the row.
      have hmul := Descriptor.outSize_mul_window (window_dvd_of_new hnew)
      rw [Descriptor.rowLength_of_new hnew] at hmul
      rw [List.map_cons, List.prod_cons, ih (Nat.le_of_lt hout), Nat.mul_comm, hmul]

end Planned

/-! ## Plans -/

/-- A plan whose passes lead without gap or remainder from rows of `n` elements to single numbers. -/
structure Plan.WellChained (p : Plan) (kind : Kind) (batch n : Nat) : Prop where
  passes_ne_nil : p.passes ≠ []
  kind_eq : ∀ d ∈ p.passes, d.kind = kind
  batch_eq : ∀ d ∈ p.passes, d.batch = batch
  rowLength_head : p.passes.head?.map Descriptor.rowLength = some n
  isChain : p.passes.IsChain fun d e => e.rowLength = d.geometry.outSize
  window_dvd : ∀ d ∈ p.passes, d.window ∣ d.rowLength
  guard?_eq_none : ∀ d ∈ p.passes, (Program.build d).kernel.guard? = none
  pairwise_rowLength : p.passes.Pairwise fun d e => e.rowLength < d.rowLength
  two_le_outSize : ∀ d ∈ p.passes.dropLast, 2 ≤ d.geometry.outSize
  outSize_getLast : p.passes.getLast?.map (fun d => d.geometry.outSize) = some (min n 1)
  outputShape_eq : p.outputShape = ⟨batch, min n 1⟩
  prod_windows : 1 ≤ n → (p.passes.map Descriptor.window).prod = n

/-- The shape of a plan's results is that of its last pass. -/
theorem Planned.outputShape_eq (h : Planned kind batch threshold n p.passes) :
    p.outputShape = ⟨batch, min n 1⟩ := by
  have hlast := h.outSize_getLast
  unfold Plan.outputShape
  cases hget : p.passes.getLast? with
  | none =>
      rw [hget] at hlast
      cases hlast
  | some d =>
      rw [hget] at hlast
      rcases h.exists_new_of_mem (List.mem_of_getLast? hget) with ⟨m, hnew⟩
      exact congrArg₂ Shape.mk (Descriptor.batch_of_new hnew) (Option.some.inj hlast)

/-- Every plan is well chained. -/
theorem Plan.wellChained_of_new (h : Plan.new kind batch threshold n = .ok p) :
    p.WellChained kind batch n := by
  have hplanned := Plan.planned_of_new h
  have hdvd : ∀ d ∈ p.passes, d.window ∣ d.rowLength := by
    intro d hd
    rcases hplanned.exists_new_of_mem hd with ⟨m, hnew⟩
    exact Planned.window_dvd_of_new hnew
  constructor
  case passes_ne_nil => exact hplanned.ne_nil
  case kind_eq =>
    intro d hd
    rcases hplanned.exists_new_of_mem hd with ⟨m, hnew⟩
    exact Descriptor.kind_of_new hnew
  case batch_eq =>
    intro d hd
    rcases hplanned.exists_new_of_mem hd with ⟨m, hnew⟩
    exact Descriptor.batch_of_new hnew
  case rowLength_head => exact hplanned.rowLength_head
  case isChain => exact hplanned.isChain
  case window_dvd => exact hdvd
  case guard?_eq_none =>
    intro d hd
    rw [Program.build_guard?, if_pos (Nat.mod_eq_zero_of_dvd (hdvd d hd))]
  case pairwise_rowLength => exact hplanned.pairwise_rowLength
  case two_le_outSize => exact fun d hd => hplanned.two_le_outSize hd
  case outSize_getLast => exact hplanned.outSize_getLast
  case outputShape_eq => exact hplanned.outputShape_eq
  case prod_windows => exact hplanned.prod_windows

/-- Rows of twelve elements become rows of four, of two and of one. -/
theorem Plan.wellChained_of_new_twelve :
    ∃ p, Plan.new .min 3 2 12 = .ok p ∧ p.passes.map Descriptor.window = [3, 2, 2]
      ∧ p.WellChained .min 3 12 := by
  let first : Descriptor := ⟨.min, 3, 3, 12, by decide, by decide, by decide⟩
  let second : Descriptor := ⟨.min, 2, 3, 4, by decide, by decide, by decide⟩
  let third : Descriptor := ⟨.min, 2, 3, 2, by decide, by decide, by decide⟩
  have hnew : Plan.new .min 3 2 12 = .ok ⟨[first, second, third]⟩ := by decide +kernel
  exact ⟨_, hnew, rfl, Plan.wellChained_of_new hnew⟩

end WindowReduction
