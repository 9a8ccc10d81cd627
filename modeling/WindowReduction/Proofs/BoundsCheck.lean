import WindowReduction.Proofs.TwoRuns

/-!
# The bounds check

A kernel is run with and without the bounds check of its fetch helper. Up to the first fetch outside
the row the two runs are the same. There the run with the check goes on with the neutral element,
while the run without it halts.

Main definitions: `Kernel.withGuard`, `Strays` (a run that halts outside its input).
Main statements: `Kernel.run_withGuard_none` (leaving out the check changes nothing but strays) and
`Program.execute_withGuard_none`.
-/

namespace WindowReduction

/-! ## Bounds checks -/

/-- A kernel with another bounds check. -/
def Kernel.withGuard (k : Kernel) (guard? : Option Nat) : Kernel :=
  { k with guard? := guard? }

/-- A program whose kernel has another bounds check. -/
def Program.withGuard (p : Program) (guard? : Option Nat) : Program :=
  { p with kernel := p.kernel.withGuard guard? }

/-- A fetch outside the input ended the run. -/
def Halt.IsStray (h : Halt) : Prop :=
  ∃ i j shape, h = .fault (.fetchOutOfRange i j shape)

/-- The computation halts at a fetch outside the input. -/
def Strays {α : Type} (x : Except Halt α) : Prop :=
  ∃ h, x = .error h ∧ h.IsStray

theorem Strays.bind {α β : Type} {x : Except Halt α} (h : Strays x) (f : α → Except Halt β) :
    Strays (x >>= f) := by
  rcases h with ⟨halt, rfl, hstray⟩
  exact ⟨halt, rfl, hstray⟩

/-- A computation strays if it does so at the latest after its first part. -/
theorem Strays.of_bind {α β : Type} {x : Except Halt α} {f : α → Except Halt β}
    (hx : Strays x ∨ ∃ a, x = .ok a) (hf : ∀ a, Strays (f a)) : Strays (x >>= f) := by
  rcases hx with hx | ⟨a, rfl⟩
  · exact hx.bind f
  · exact hf a

/-! ## With and without the check -/

/-- Equality is kept by all operations. -/
theorem kept_eq {excused : Halt → Prop} : Kept excused Eq where
  int := fun _ => rfl
  float := fun _ => rfl
  ty := fun h => congrArg Value.ty h
  asInt := by
    rintro x _ rfl
    exact .of_refl (fun _ => rfl) _
  asFloat := by
    rintro x _ rfl
    exact Matches.of_refl (S := RelatedFloats Eq) (fun _ => rfl) _
  asBoolVector := by
    rintro x _ rfl
    apply Matches.of_refl
    exact fun _ => rfl
  toFloat := by
    rintro x _ rfl
    exact Matches.of_refl (S := RelatedFloats Eq) (fun _ => rfl) _
  lane := by
    rintro x _ k rfl
    exact .of_refl (fun _ => rfl) _
  pack := by
    rintro ⟨_, _, _, _⟩ ⟨_, _, _, _⟩ ty rfl rfl rfl rfl
    exact .of_refl (fun _ => rfl) _
  splat := by
    rintro x _ ty rfl
    exact .of_refl (fun _ => rfl) _
  admits := fun op h => congrArg op.admit h
  binary := by
    rintro x y _ _ u op rfl rfl
    exact .of_refl (fun _ => rfl) _
  builtin := by
    rintro x y _ _ fn rfl rfl
    exact .of_refl (fun _ => rfl) _

/-- An index that a check against the row turns away is not in the input. -/
theorem Invocation.atInt?_of_rejects {c : Invocation} {n : Nat} {i j : Int}
    (hguard : c.kernel.guard? = some n) (hn : n ≤ maxKernelInt) (hcols : c.input.shape.cols = n)
    (hj : c.rejects j = true) : c.input.atInt? i j = none := by
  have hmin : min n maxInt64 = n := by
    unfold maxInt64
    unfold maxKernelInt at hn
    omega
  simp only [Invocation.rejects, hguard, hmin, Bool.or_eq_true, decide_eq_true_eq] at hj
  unfold Tensor.atInt?
  split
  · have hout : ¬ (i.toNat < c.input.shape.rows ∧ j.toNat < c.input.shape.cols) := by omega
    rw [Tensor.at?, if_neg hout]
  · rfl

/-- A kernel is run without its bounds check and with a check against the row. -/
theorem twoRuns_withGuard_none {u : IntUnit} {k : Kernel} {t : Tensor} {n : Nat}
    (hn : n ≤ maxKernelInt) (hcols : t.shape.cols = n) (row col : Nat) :
    TwoRuns Halt.IsStray Eq ⟨u, k.withGuard none, t, row, col⟩
      ⟨u, k.withGuard (some n), t, row, col⟩ where
  kept := kept_eq
  unit := rfl
  neutral := rfl
  body := rfl
  row := rfl
  col := rfl
  fetch := by
    intro i j
    let c : Invocation := ⟨u, k.withGuard (some n), t, row, col⟩
    by_cases hj : c.rejects j = true
    · -- Where the check gives the neutral element, the run without it has nothing to read.
      have hnone : t.atInt? i j = none := Invocation.atInt?_of_rejects (c := c) rfl hn hcols hj
      have hstray : Invocation.fetch ⟨u, k.withGuard none, t, row, col⟩ i j
          = .error (.fault (.fetchOutOfRange i j t.shape)) := by
        simp [Invocation.fetch, Invocation.rejects, Kernel.withGuard, hnone]
      rw [hstray]
      exact .excused ⟨i, j, t.shape, rfl⟩ _
    · have hsame : Invocation.fetch ⟨u, k.withGuard none, t, row, col⟩ i j = c.fetch i j := by
        unfold Invocation.fetch
        rw [if_neg hj]
        rfl
      rw [hsame]
      exact Matches.of_refl (S := RelatedFloats Eq) (fun _ => rfl) _

/-! ## Matrices -/

theorem Tensor.Matched.eq {t t' : Tensor} (h : t.Matched (RelatedFloats Eq) t') : t = t' := by
  have hcells : List.Forall₂ Eq t.cells.toList t'.cells.toList :=
    h.cells.imp fun _ _ hab => Value.float.inj hab
  rw [List.forall₂_eq_eq_eq] at hcells
  rcases t with ⟨shape, cells, hsize⟩
  rcases t' with ⟨shape', cells', hsize'⟩
  cases h.shape
  cases Array.toList_inj.1 hcells
  rfl

/-- Without its check against the row a kernel does what it does with the check, or it strays. -/
theorem Kernel.run_withGuard_none {u : IntUnit} {input : Tensor} (k : Kernel) {n : Nat}
    (hn : n ≤ maxKernelInt) (hcols : input.shape.cols = n) (shape : Shape) :
    (k.withGuard none).run u input shape = (k.withGuard (some n)).run u input shape
      ∨ Strays ((k.withGuard none).run u input shape) := by
  have hmatch := Kernel.run_matches (u := u) (t := input) shape
    fun row col => twoRuns_withGuard_none (k := k) hn hcols row col
  generalize (k.withGuard none).run u input shape = x at hmatch
  generalize (k.withGuard (some n)).run u input shape = y at hmatch
  cases hmatch with
  | ok h => exact Or.inl (congrArg Except.ok h.eq)
  | halt e => exact Or.inl rfl
  | excused h => exact Or.inr ⟨_, rfl, h⟩

/-- Without a bounds check a program, whatever its kernel and its output shape, ends as it does with
a check against the row, or it ends with the fault of a fetch outside its input. -/
theorem Program.execute_withGuard_none (p : Program) (input : Tensor) :
    (p.withGuard none).execute input = (p.withGuard (some p.descriptor.rowLength)).execute input
      ∨ ∃ f, (p.withGuard none).execute input = .error (.fault f)
        ∧ f.report = ⟨.indexOutOfBounds, none⟩ := by
  have hexecute : ∀ guard?, (p.withGuard guard?).execute input
      = if input.shape = p.descriptor.inputShape then
          (p.kernel.withGuard guard?).run .trapping64 input p.outputShape
        else .error (.fault (.wrongShape input.shape p.descriptor.inputShape)) :=
    fun _ => rfl
  rw [hexecute, hexecute]
  by_cases hshape : input.shape = p.descriptor.inputShape
  · have hrow := p.descriptor.lastIndex_le
    have hcols : input.shape.cols = p.descriptor.rowLength := congrArg Shape.cols hshape
    rw [if_pos hshape, if_pos hshape]
    rcases p.kernel.run_withGuard_none (by omega) hcols p.outputShape with
      hsame | ⟨halt, hhalt, i, j, shape, rfl⟩
    · exact Or.inl hsame
    · exact Or.inr ⟨_, hhalt, rfl⟩
  · -- An input of another shape is refused before the kernel is run.
    rw [if_neg hshape, if_neg hshape]
    exact Or.inl rfl

/-- A fetch outside the row ends the run without a check; with one the run gets as far as an
overflow. -/
example :
    let k : Kernel := ⟨0.0, none, [.output (.fetch (.int 0) (.int 1)),
      .output (.toFloat (.binary .mul (.int 0x4000000000000000) (.int 2)))]⟩
    let input := Tensor.ofFn ⟨1, 1⟩ fun _ _ => 0.0
    (k.withGuard none).run .trapping64 input ⟨1, 1⟩
        = .error (.fault (.fetchOutOfRange 0 1 ⟨1, 1⟩))
      ∧ (k.withGuard (some 1)).run .trapping64 input ⟨1, 1⟩ = .error (.overflow .mul) := by
  decide +kernel

end WindowReduction
