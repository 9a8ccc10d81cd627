import WindowReduction.Plan
import WindowReduction.Proofs.EmittedExprs

/-!
# Soundness of caches

A cache only ever holds programs that were built for the descriptors under which they are kept, so
running a plan with a cache is running the built programs one after the other, and what a cache
answers is as good as new.

Main statements: `Plan.runPasses_of_sound`, `Cache.Reachable.sound` and
`Cache.Reachable.agrees_request`.
-/

namespace WindowReduction

variable {c : Cache} {d : Descriptor}

/-- Every program in a cache is the one that is built for its descriptor. -/
def Cache.Sound (c : Cache) : Prop :=
  ∀ d entry, c.get? d = some entry → entry.program = Program.build d

/-- The caches that one gets from the empty one. -/
inductive Cache.Reachable : Cache → Prop
  | empty : Reachable Cache.empty
  | request {c : Cache} (h : Reachable c) (d : Descriptor) : Reachable (c.request d).cache
  | clear {c : Cache} (h : Reachable c) : Reachable c.clear
  | execute {c : Cache} (h : Reachable c) (p : Plan) (input : Tensor) :
      Reachable (p.execute input c).cache

namespace Cache

theorem sound_empty : Cache.empty.Sound := by
  intro d entry h
  have hnone : Cache.empty.get? d = none := by simp [Cache.empty, Cache.get?]
  rw [hnone] at h
  cases h

theorem sound_clear (c : Cache) : c.clear.Sound := by
  intro d entry h
  rw [Cache.get?_clear] at h
  cases h

/-- A request is answered with the built program, be it old or new. -/
theorem Sound.program_request (h : c.Sound) :
    (c.request d).entry.program = Program.build d := by
  unfold Cache.request
  split
  · rename_i entry hget
    exact h d entry hget
  · rfl

theorem Sound.request (h : c.Sound) : (c.request d).cache.Sound := by
  intro d' entry hget
  -- Only the entry that was asked for can be new.
  rw [Cache.get?_request] at hget
  by_cases hd : d' = d
  · rw [if_pos hd] at hget
    cases hget
    rw [hd]
    exact h.program_request
  · rw [if_neg hd] at hget
    exact h d' entry hget

end Cache

/-! ## Plans -/

/-- The built programs of a chain of passes, run one after the other. -/
def Plan.runBuilt (passes : List Descriptor) (input : Tensor) : Except Halt Tensor :=
  passes.foldlM (fun t d => (Program.build d).execute t) input

theorem Plan.runBuilt_cons (d : Descriptor) (rest : List Descriptor) (input : Tensor) :
    Plan.runBuilt (d :: rest) input
      = (Program.build d).execute input >>= Plan.runBuilt rest :=
  List.foldlM_cons

/-- A plan run with a sound cache gives what the built programs give, and leaves a sound cache
behind. -/
theorem Plan.runPasses_of_sound (h : c.Sound) (passes : List Descriptor) (input : Tensor) :
    (Plan.runPasses passes input c).result = Plan.runBuilt passes input
      ∧ (Plan.runPasses passes input c).cache.Sound := by
  -- The passes that follow run on another matrix and with another cache, itself sound.
  induction passes generalizing c input with
  | nil => exact ⟨rfl, h⟩
  | cons d rest ih =>
      rw [Plan.runBuilt_cons, Plan.runPasses, ← h.program_request]
      cases (c.request d).entry.program.execute input with
      | error halt => exact ⟨rfl, h.request⟩
      | ok output => exact ih h.request output

/-- Every cache that can be reached is sound. -/
theorem Cache.Reachable.sound (h : c.Reachable) : c.Sound := by
  induction h with
  | empty => exact Cache.sound_empty
  | request _ d ih => exact ih.request
  | clear _ _ => exact Cache.sound_clear _
  | execute _ p input ih => exact (Plan.runPasses_of_sound ih p.passes input).2

/-- What a cache answers agrees with a program that is built anew. -/
theorem Cache.Reachable.agrees_request (h : c.Reachable) (d : Descriptor) :
    (c.request d).entry.program.agrees (Program.build d) = true := by
  rw [h.sound.program_request]
  exact Program.agrees_self_build d

end WindowReduction
