import WindowReduction.Proofs.CacheHistory
import WindowReduction.Proofs.CellValue
import WindowReduction.Proofs.PlanChain

/-!
# Running a plan

A plan that gets a matrix of the shape it was made for cannot fail, for each pass gets just what its
program reduces; any other matrix is turned away by the first pass. The cache has no part in this.
It only gains programs: those of all passes if the plan runs, and at most that of the first pass if
it does not.

Main statements: `Planned.runBuilt_eq_ok` (the result of a chain of passes),
`Plan.isSome_get?_runPasses` (what a plan that runs leaves in a cache), `Plan.execute_transparent`.
-/

namespace WindowReduction

variable {kind : Kind} {batch threshold n : Nat} {passes rest : List Descriptor} {p : Plan}
  {input : Tensor} {c : Cache} {d d' : Descriptor}

/-! ## Results -/

/-- The results of the last of some passes, each pass reducing the results of the one before. -/
def Plan.reduceAll (passes : List Descriptor) (input : Tensor) : Tensor :=
  passes.foldl (fun t d => d.reduce t) input

/-- The programs of a chain of passes fit together, so they run to the end. -/
theorem Planned.runBuilt_eq_ok (h : Planned kind batch threshold n passes)
    (hshape : input.shape = ⟨batch, n⟩) :
    Plan.runBuilt passes input = .ok (Plan.reduceAll passes input) := by
  induction h generalizing input with
  | @last n d hnew hout =>
      rcases Descriptor.new_eq_ok_iff.1 hnew with ⟨-, -, rfl, rfl⟩
      rw [Plan.runBuilt_cons, Program.execute_build hshape]
      rfl
  | @more n d rest hnew hout hrest ih =>
      rcases Descriptor.new_eq_ok_iff.1 hnew with ⟨-, -, rfl, rfl⟩
      rw [Plan.runBuilt_cons, Program.execute_build hshape]
      exact @ih (d.reduce input) rfl

/-- A plan runs on every matrix of the shape that it was made for, with the programs of any cache. -/
theorem Planned.execute_eq_ok (h : Planned kind batch threshold n p.passes) (hc : c.Reachable)
    (hshape : input.shape = ⟨batch, n⟩) :
    (p.execute input c).result = .ok (Plan.reduceAll p.passes input) := by
  rw [Plan.execute, (Plan.runPasses_of_sound hc.sound p.passes input).1]
  exact h.runBuilt_eq_ok hshape

theorem Planned.shape_reduceAll (h : Planned kind batch threshold n passes) (input : Tensor) :
    (Plan.reduceAll passes input).shape = ⟨batch, min n 1⟩ := by
  induction h generalizing input with
  | @last n d hnew hout =>
      have hlast := Descriptor.outSize_eq_min (window_dvd_of_new hnew) hout
      rcases Descriptor.new_eq_ok_iff.1 hnew with ⟨-, -, rfl, rfl⟩
      exact congrArg (Shape.mk d.batch) hlast
  | @more n d rest hnew hout hrest ih =>
      -- Before and after this pass there is more than one element.
      have hlt := Planning.outSize_lt_of_new hnew hout
      have hmin : min d.geometry.outSize 1 = min n 1 := by omega
      rw [← hmin]
      exact ih (d.reduce input)

/-- The first pass of a chain takes the matrices that the chain is made for. -/
theorem Planned.exists_eq_cons (h : Planned kind batch threshold n passes) :
    ∃ first rest, passes = first :: rest ∧ first.inputShape = ⟨batch, n⟩ := by
  cases h with
  | last hnew =>
      exact ⟨_, _, rfl,
        congrArg₂ Shape.mk (Descriptor.batch_of_new hnew) (Descriptor.rowLength_of_new hnew)⟩
  | more hnew =>
      exact ⟨_, _, rfl,
        congrArg₂ Shape.mk (Descriptor.batch_of_new hnew) (Descriptor.rowLength_of_new hnew)⟩

/-- No pass is taken twice, since rows get shorter. -/
theorem Planned.nodup (h : Planned kind batch threshold n passes) : passes.Nodup := by
  apply h.pairwise_rowLength.imp
  rintro d _ hlt rfl
  exact Nat.lt_irrefl _ hlt

/-! ## What is left in the cache -/

/-- A request adds its descriptor to those with an entry. -/
theorem Cache.isSome_get?_request (c : Cache) (d d' : Descriptor) :
    ((c.request d).cache.get? d').isSome ↔ (c.get? d').isSome ∨ d' = d := by
  rw [Cache.get?_request]
  by_cases hd : d' = d <;> simp [hd]

/-- A chain of passes that runs to its end leaves the programs of all passes in the cache, and no
others but those that were there. -/
theorem Plan.isSome_get?_runPasses {out : Tensor}
    (hrun : (Plan.runPasses passes input c).result = .ok out) (d' : Descriptor) :
    ((Plan.runPasses passes input c).cache.get? d').isSome
      ↔ (c.get? d').isSome ∨ d' ∈ passes :=
  have hevolves := Plan.evolves_runPasses passes input c
  hevolves.isSome_get?_of_areRequests (Plan.areRequests_of_ok hrun) d'

/-- A chain of distinct passes that runs to its end with a new cache leaves as many programs as it
has passes. -/
theorem Plan.size_runPasses_empty {out : Tensor} (hnodup : passes.Nodup)
    (hrun : (Plan.runPasses passes input Cache.empty).result = .ok out) :
    (Plan.runPasses passes input Cache.empty).cache.size = passes.length := by
  have hevolves := Plan.evolves_runPasses passes input Cache.empty
  have hnone : ∀ d, (Cache.empty.get? d).isSome ↔ d ∈ ([] : List Descriptor) := by
    simp [Cache.get?_empty]
  rw [hevolves.size_eq_card hnone rfl, (Plan.areRequests_of_ok hrun).foldl_track, List.append_nil,
    List.toFinset_reverse, List.toFinset_card_of_nodup hnodup]

/-- The first pass turns away a matrix of another shape. Its program is in the cache by then. -/
theorem Plan.runPasses_of_wrongShape (hc : c.Sound) (hshape : input.shape ≠ d.inputShape)
    (rest : List Descriptor) :
    Plan.runPasses (d :: rest) input c
      = ⟨.error (.fault (.wrongShape input.shape d.inputShape)), (c.request d).cache,
        (c.request d).events⟩ := by
  have hexecute : (c.request d).entry.program.execute input
      = .error (.fault (.wrongShape input.shape d.inputShape)) := by
    rw [hc.program_request, Program.execute, Program.executeOn, Program.build_descriptor,
      if_neg hshape]
  rw [Plan.runPasses, hexecute]
  simp [Halt.events]

/-! ## Transparency -/

/-- A plan ends in the same way with every cache. On a matrix of the shape that its first pass takes
it gives a result of its output shape, and the cache gains the programs of its passes, which are all
distinct; on any other matrix it fails for that shape, and the cache gains no program but that of
the first pass. -/
theorem Plan.execute_transparent (hp : Plan.new kind batch threshold n = .ok p)
    (hc : c.Reachable) (input : Tensor) :
    (p.execute input c).result = (p.execute input Cache.empty).result
      ∧ p.passes.Nodup
      ∧ ∃ first rest, p.passes = first :: rest ∧ first.inputShape = ⟨batch, n⟩
        ∧ (input.shape = first.inputShape →
            (∃ out, (p.execute input c).result = .ok out ∧ out.shape = p.outputShape)
              ∧ (∀ d, ((p.execute input c).cache.get? d).isSome
                  ↔ (c.get? d).isSome ∨ d ∈ p.passes)
              ∧ (p.execute input Cache.empty).cache.size = p.passes.length)
        ∧ (input.shape ≠ first.inputShape →
            (p.execute input c).result
                = .error (.fault (.wrongShape input.shape first.inputShape))
              ∧ ∀ d, ((p.execute input c).cache.get? d).isSome
                  ↔ (c.get? d).isSome ∨ d = first) := by
  have hplanned := Plan.planned_of_new hp
  have hresult : ∀ {c : Cache}, c.Sound →
      (p.execute input c).result = Plan.runBuilt p.passes input :=
    fun hc => (Plan.runPasses_of_sound hc p.passes input).1
  rcases hplanned.exists_eq_cons with ⟨first, rest, hpasses, hfirst⟩
  refine ⟨(hresult hc.sound).trans (hresult Cache.sound_empty).symm, hplanned.nodup, first, rest,
    hpasses, hfirst, ?_, ?_⟩
  · intro hshape
    have hrun := hplanned.execute_eq_ok hc (hshape.trans hfirst)
    have hrunEmpty := hplanned.execute_eq_ok .empty (hshape.trans hfirst)
    refine ⟨⟨_, hrun, ?_⟩, ?_, ?_⟩
    · rw [hplanned.shape_reduceAll, hplanned.outputShape_eq]
    · exact Plan.isSome_get?_runPasses hrun
    · exact Plan.size_runPasses_empty hplanned.nodup hrunEmpty
  · intro hshape
    rw [Plan.execute, hpasses, Plan.runPasses_of_wrongShape hc.sound hshape]
    exact ⟨rfl, Cache.isSome_get?_request c first⟩

/-- Twelve elements are added up in three passes, with a cache that already has the second program
and lost the third; a row of eleven elements only brings in the first program. -/
theorem Plan.execute_transparent_twelve :
    ∃ p first second third c, Plan.new .sum 1 2 12 = .ok p ∧ p.passes = [first, second, third]
      ∧ c = ((Cache.empty.request third).cache.clear.request second).cache ∧ c.Reachable
      ∧ (∃ out, (p.execute (Tensor.ofFn ⟨1, 12⟩ fun _ _ => 1.0) c).result = .ok out
          ∧ out.shape = ⟨1, 1⟩)
      ∧ (((p.execute (Tensor.ofFn ⟨1, 12⟩ fun _ _ => 1.0) c).cache.get? third).isSome)
      ∧ (p.execute (Tensor.ofFn ⟨1, 12⟩ fun _ _ => 1.0) Cache.empty).cache.size = 3
      ∧ (p.execute (Tensor.ofFn ⟨1, 11⟩ fun _ _ => 1.0) c).result
          = .error (.fault (.wrongShape ⟨1, 11⟩ ⟨1, 12⟩))
      ∧ ¬ ((p.execute (Tensor.ofFn ⟨1, 11⟩ fun _ _ => 1.0) c).cache.get? third).isSome := by
  let first : Descriptor := ⟨.sum, 3, 1, 12, by decide, by decide, by decide⟩
  let second : Descriptor := ⟨.sum, 2, 1, 4, by decide, by decide, by decide⟩
  let third : Descriptor := ⟨.sum, 2, 1, 2, by decide, by decide, by decide⟩
  let c := ((Cache.empty.request third).cache.clear.request second).cache
  have hnew : Plan.new .sum 1 2 12 = .ok ⟨[first, second, third]⟩ := by decide +kernel
  have hshape : (Plan.mk [first, second, third]).outputShape = ⟨1, 1⟩ := by decide
  have hc : c.Reachable := ((Cache.Reachable.empty.request third).clear).request second
  have hthird : ¬ (c.get? third).isSome := by
    rw [Cache.isSome_get?_request, Cache.get?_clear]
    decide
  rcases Plan.execute_transparent hnew hc (Tensor.ofFn ⟨1, 12⟩ fun _ _ => 1.0) with
    ⟨-, -, _, _, hpasses, -, hright, -⟩
  cases hpasses
  rcases hright rfl with ⟨⟨out, hrun, hout⟩, hkeys, hsize⟩
  rcases Plan.execute_transparent hnew hc (Tensor.ofFn ⟨1, 11⟩ fun _ _ => 1.0) with
    ⟨-, -, _, _, hpasses, -, -, hwrong⟩
  cases hpasses
  rcases hwrong (by decide) with ⟨herror, hkeys'⟩
  refine ⟨_, first, second, third, c, hnew, rfl, rfl, hc, ⟨out, hrun, hout.trans hshape⟩,
    (hkeys third).2 (Or.inr (by simp)), hsize, herror, ?_⟩
  rw [hkeys' third]
  exact not_or.2 ⟨hthird, by decide⟩

end WindowReduction
