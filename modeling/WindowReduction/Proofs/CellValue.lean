import WindowReduction.Proofs.Accumulation

/-!
# The value of an output cell

An emitted kernel body is run for one cell: the prologue fixes the first index of the window, the
loop folds in the full groups and the tail the padded rest. `Ready` is the invariant that holds
between these parts: the coordinates are in place and the accumulator holds the groups so far. The
bounds check of the fetch helper is left open; a run only has to be told what its fetches give.

Main statements: `Invocation.run_emitted` (a cell's value is that of the groups of its window),
`Program.executeOn_build` (a built program computes `Descriptor.reduce`).
-/

namespace WindowReduction

/-! ## What a run relies on -/

/-- The fetches of a cell's window give the sequence `p`, which goes on with the neutral element
after the window, and the integers on the way are exact. -/
structure Invocation.Covers (c : Invocation) (d : Descriptor) (p : Nat → Float32) : Prop where
  holds : c.unit.HoldsKernelInts
  row_le : c.row ≤ maxKernelInt
  window_le : d.window ≤ maxKernelInt
  last_le : c.col * d.window + (d.window - 1) ≤ maxKernelInt
  fetch : ∀ j < d.window, c.fetch c.row (c.col * d.window + j : Nat) = .ok (p j)
  pad : ∀ j, d.window ≤ j → p j = c.kernel.neutral

/-- Between two parts of a body the coordinates stand in their variables, and the accumulator holds
the value `a`. -/
structure Ready (c : Invocation) (d : Descriptor) {s : Scheme} (m : s.Meaning) (a : m.Acc)
    (st : CellState) : Prop where
  batch : st.vars.get? .batch = some (.int c.row)
  inOffset : st.vars.get? .inOffset = some (.int (c.col * d.window : Nat))
  accumulator : st.vars.get? .accumulator = some (m.encode a)

variable {c : Invocation} {d : Descriptor} {s : Scheme} {m : s.Meaning} {a : m.Acc}
  {st : CellState} {p : Nat → Float32}

/-- Other variables may be written freely. -/
theorem Ready.set (h : Ready c d m a st) {v : Var} (x : Value)
    (hv : v ≠ .batch ∧ v ≠ .inOffset ∧ v ≠ .accumulator) : Ready c d m a (st.set v x) where
  batch := by rw [CellState.get?_set_of_ne st x hv.1.symm, h.batch]
  inOffset := by rw [CellState.get?_set_of_ne st x hv.2.1.symm, h.inOffset]
  accumulator := by rw [CellState.get?_set_of_ne st x hv.2.2.symm, h.accumulator]

/-! ## Groups -/

/-- The index that a live lane of a group fetches at. -/
def Kernel.laneIndex (k : Nat) : Expr :=
  if k = 0 then .var .inIdx else .binary .add (.var .inIdx) (Kernel.sizeConstant k)

theorem Kernel.groupLane_eq (live k : Nat) :
    Kernel.groupLane live k
      = if k < live then .fetch (.var .batch) (Kernel.laneIndex k) else .neutral := by
  unfold Kernel.groupLane Kernel.laneIndex
  by_cases hk : k < live
  · rw [if_neg (Nat.not_le_of_lt hk), if_pos hk]
    split <;> rfl
  · rw [if_pos (Nat.le_of_not_lt hk), if_neg hk]

theorem eval_laneIndex {vars : Store} {n k : Nat} (hu : c.unit.HoldsKernelInts)
    (hinIdx : vars.get? .inIdx = some (.int n)) (h : n + k ≤ maxKernelInt) :
    (Kernel.laneIndex k).eval c vars = .ok (.int (n + k : Nat)) := by
  unfold Kernel.laneIndex
  by_cases hzero : k = 0
  · rw [if_pos hzero]
    subst hzero
    exact Expr.eval_var hinIdx
  · rw [if_neg hzero]
    have hconst : (Kernel.sizeConstant k).eval c vars = .ok (.int k) :=
      Expr.eval_sizeConstant hu (by omega)
    exact Expr.eval_add hu (Expr.eval_var hinIdx) hconst h

theorem eval_groupLane {vars : Store} {first live k : Nat} (hc : c.Covers d p)
    (hbatch : vars.get? .batch = some (.int c.row))
    (hinIdx : vars.get? .inIdx = some (.int (c.col * d.window + first : Nat)))
    (hlive : k < live ↔ first + k < d.window) :
    (Kernel.groupLane live k).eval c vars = .ok (.float (p (first + k))) := by
  rw [Kernel.groupLane_eq]
  by_cases hk : k < live
  · have hin := hlive.1 hk
    have hlast := hc.last_le
    have hindex := eval_laneIndex hc.holds hinIdx (k := k) (by omega)
    rw [Nat.add_assoc] at hindex
    rw [if_pos hk]
    exact Expr.eval_fetch (Expr.eval_var hbatch) hindex (hc.fetch _ hin)
  · have hout : d.window ≤ first + k := by omega
    rw [if_neg hk, hc.pad _ hout]
    rfl

/-- The four lanes of a group are packed into one vector. -/
theorem eval_groupPack {vars : Store} {first live : Nat} (hc : c.Covers d p)
    (hbatch : vars.get? .batch = some (.int c.row))
    (hinIdx : vars.get? .inIdx = some (.int (c.col * d.window + first : Nat)))
    (hlive : ∀ k < 4, k < live ↔ first + k < d.window) :
    (Expr.pack s.groupTy (Kernel.groupLane live 0) (Kernel.groupLane live 1)
        (Kernel.groupLane live 2) (Kernel.groupLane live 3)).eval c vars
      = .ok (m.group ⟨p first, p (first + 1), p (first + 2), p (first + 3)⟩) := by
  have hlane : ∀ k < 4,
      (Kernel.groupLane live k).eval c vars = .ok (.float (p (first + k))) := by
    intro k hk
    exact eval_groupLane hc hbatch hinIdx (hlive k hk)
  rw [← m.pack_group]
  exact Expr.eval_pack (hlane 0 (by decide)) (hlane 1 (by decide)) (hlane 2 (by decide))
    (hlane 3 (by decide))

/-- Reading a group and folding it in goes on from one value of the accumulator to the next. -/
theorem execAll_groupStmts {e : Expr} {first live : Nat} (hc : c.Covers d p)
    (hst : Ready c d m a st)
    (he : e.eval c st.vars = .ok (.int (c.col * d.window + first : Nat)))
    (hlive : ∀ k < 4, k < live ↔ first + k < d.window) :
    ∃ st', Stmt.execAll c (Kernel.groupStmts s e live) st = .ok st'
      ∧ Ready c d m (m.update a ⟨p first, p (first + 1), p (first + 2), p (first + 3)⟩) st' := by
  let g : Vec4 Float32 := ⟨p first, p (first + 1), p (first + 2), p (first + 3)⟩
  let st₁ := st.set .inIdx (.int (c.col * d.window + first : Nat))
  let st₂ := st₁.set .values (m.group g)
  have hst₁ : Ready c d m a st₁ := hst.set _ (by decide)
  have hst₂ : Ready c d m a st₂ := hst₁.set _ (by decide)
  have hpack := eval_groupPack (m := m) hc hst₁.batch (CellState.get?_set_self st _ _) hlive
  have hvalues : st₂.vars.get? .values = some (m.group g) := CellState.get?_set_self st₁ _ _
  rcases m.execAll_updateStmts c st₂ a g hst₂.accumulator hvalues with ⟨st₃, hrun, hacc, hframe⟩
  refine ⟨st₃, ?_, ?_, ?_, hacc⟩
  · calc Stmt.execAll c (Kernel.groupStmts s e live) st
        = Stmt.execAll c (_ :: s.updateStmts) st₁ := Stmt.execAll_cons _ (Stmt.exec_declare he rfl)
      _ = Stmt.execAll c s.updateStmts st₂ :=
          Stmt.execAll_cons _ (Stmt.exec_declare hpack (m.ty_group g))
      _ = .ok st₃ := hrun
  · rw [hframe .batch (by decide) (by decide), hst₂.batch]
  · rw [hframe .inOffset (by decide) (by decide), hst₂.inOffset]

/-! ## The parts of a body -/

/-- The two coordinates are kernel `int`s, since the window starts no earlier than its number. -/
theorem eval_coord (hc : c.Covers d p) (vars : Store) :
    (Expr.coord 0).eval c vars = .ok (.int c.row)
      ∧ (Expr.coord 1).eval c vars = .ok (.int c.col) := by
  have hlast := hc.last_le
  have hcol : c.col ≤ c.col * d.window := Nat.le_mul_of_pos_right c.col d.window_pos
  constructor
  · rw [Expr.eval]
    change Except.ok (Value.int (c.unit.wrap c.row)) = _
    rw [hc.holds c.row hc.row_le]
  · rw [Expr.eval]
    change Except.ok (Value.int (c.unit.wrap c.col)) = _
    rw [hc.holds c.col (by omega)]

theorem eval_inOffset {vars : Store} (hc : c.Covers d p)
    (houtIdx : vars.get? .outIdx = some (.int c.col)) :
    (Expr.binary .mul (.var .outIdx) (Kernel.sizeConstant d.window)).eval c vars
      = .ok (.int (c.col * d.window : Nat)) := by
  have hlast := hc.last_le
  have hconst : (Kernel.sizeConstant d.window).eval c vars = .ok (.int d.window) :=
    Expr.eval_sizeConstant hc.holds hc.window_le
  exact Expr.eval_mul hc.holds (Expr.eval_var houtIdx) hconst (by omega)

theorem execAll_prologue (hc : c.Covers d p) (hneutral : c.kernel.neutral = s.neutral)
    (st : CellState) :
    ∃ st', Stmt.execAll c (Kernel.prologue d s) st = .ok st' ∧ Ready c d m m.init st' := by
  let st₁ := st.set .batch (.int c.row)
  let st₂ := st₁.set .outIdx (.int c.col)
  let st₃ := st₂.set .inOffset (.int (c.col * d.window : Nat))
  let st₄ := st₃.set .accumulator (m.encode m.init)
  have hrow := (eval_coord hc st.vars).1
  have hcol := (eval_coord hc st₁.vars).2
  have hoffset := eval_inOffset hc (CellState.get?_set_self st₁ .outIdx (.int c.col))
  have hinit := m.eval_initExpr c st₃.vars hneutral
  refine ⟨st₄, ?_, ?_, ?_, ?_⟩
  · calc Stmt.execAll c (Kernel.prologue d s) st
        = Stmt.execAll c (_ :: _ :: [_]) st₁ := Stmt.execAll_cons _ (Stmt.exec_declare hrow rfl)
      _ = Stmt.execAll c (_ :: [_]) st₂ := Stmt.execAll_cons _ (Stmt.exec_declare hcol rfl)
      _ = Stmt.execAll c [_] st₃ := Stmt.execAll_cons _ (Stmt.exec_declare hoffset rfl)
      _ = .ok st₄ := Stmt.execAll_cons [] (Stmt.exec_declare hinit (m.ty_encode m.init))
  · rw [CellState.get?_set_of_ne st₃ _ (by decide), CellState.get?_set_of_ne st₂ _ (by decide),
      CellState.get?_set_of_ne st₁ _ (by decide), CellState.get?_set_self]
  · rw [CellState.get?_set_of_ne st₃ _ (by decide), CellState.get?_set_self]
  · exact CellState.get?_set_self st₃ _ _

/-- The value of the accumulator after the first `count` groups. -/
def Scheme.Meaning.after (m : s.Meaning) (p : Nat → Float32) (count : Nat) : m.Acc :=
  (groupsOfFour p count).foldl m.update m.init

theorem Scheme.Meaning.after_succ (m : s.Meaning) (p : Nat → Float32) (count : Nat) :
    m.after p (count + 1) = m.update (m.after p count)
      ⟨p (4 * count), p (4 * count + 1), p (4 * count + 2), p (4 * count + 3)⟩ := by
  unfold Scheme.Meaning.after
  rw [groupsOfFour_succ, List.foldl_append]
  rfl

theorem mul_laneCount (k : Nat) : k * laneCount = 4 * k :=
  Nat.mul_comm k laneCount

/-- The counter of the loop leads from the start of the window to the start of a group. -/
theorem eval_loopFirst (hu : c.unit.HoldsKernelInts) (hst : Ready c d m a st) {k : Nat}
    (hk : c.col * d.window + 4 * k ≤ maxKernelInt) :
    (Expr.binary .add (.var .inOffset) (.var .i)).eval c
        (st.set .i (.int (c.unit.wrap (k * laneCount : Nat)))).vars
      = .ok (.int (c.col * d.window + 4 * k : Nat)) := by
  have hcounter : c.unit.wrap (k * laneCount : Nat) = (4 * k : Nat) := by
    rw [mul_laneCount]
    exact hu (4 * k) (by omega)
  rw [hcounter]
  have hready := hst.set (.int (4 * k : Nat)) (v := .i) (by decide)
  exact Expr.eval_add hu (Expr.eval_var hready.inOffset)
    (Expr.eval_var (CellState.get?_set_self st _ _)) hk

/-- One iteration of the loop folds in one full group. -/
theorem execAll_loopGroup (hc : c.Covers d p) {k : Nat} (hk : k < d.window / 4)
    (hst : Ready c d m (m.after p k) st) :
    ∃ st', Stmt.execAll c
        (Kernel.groupStmts s (.binary .add (.var .inOffset) (.var .i)) laneCount)
        (st.set .i (.int (c.unit.wrap (k * laneCount : Nat)))) = .ok st'
      ∧ Ready c d m (m.after p (k + 1)) st' := by
  -- The counter stops short of the last full group, so all four lanes are in the window.
  have hlast := hc.last_le
  have hlanes : laneCount = 4 := rfl
  have hin : 4 * k + 3 < d.window := by omega
  rw [m.after_succ]
  have hready := hst.set (.int (c.unit.wrap (k * laneCount : Nat))) (v := .i) (by decide)
  exact execAll_groupStmts hc hready (eval_loopFirst hc.holds hst (by omega)) (by omega)

theorem Descriptor.vectorizedCount_eq (d : Descriptor) :
    d.geometry.vectorizedCount = 4 * (d.window / 4) :=
  Nat.mul_comm _ _

/-- The loop runs once for each full group. -/
theorem Descriptor.tripCount_vectorizedCount (d : Descriptor) :
    tripCount d.geometry.vectorizedCount laneCount = d.window / 4 := by
  have hfull := d.vectorizedCount_eq
  unfold tripCount laneCount
  omega

/-- The loop goes on as long as there is a full group left. -/
theorem Descriptor.mul_laneCount_lt_iff (d : Descriptor) {k : Nat} :
    k * laneCount < d.geometry.vectorizedCount ↔ k < d.window / 4 := by
  rw [← lt_tripCount_iff (by decide), d.tripCount_vectorizedCount]

/-- The loop folds in the full groups of the window. The invariant is that after `k` iterations the
accumulator holds the first `k` groups. -/
theorem execAll_vectorLoop (hc : c.Covers d p) (hst : Ready c d m m.init st) :
    ∃ st', Stmt.execAll c (Kernel.vectorLoop d.geometry s) st = .ok st'
      ∧ Ready c d m (m.after p (d.window / 4)) st' := by
  have hfull := d.vectorizedCount_eq
  unfold Kernel.vectorLoop
  by_cases hzero : d.geometry.vectorizedCount = 0
  · rw [if_pos hzero]
    have hnone : d.window / 4 = 0 := by omega
    rw [hnone]
    exact ⟨st, rfl, hst⟩
  · rw [if_neg hzero]
    have hbody : ∀ k st, k * laneCount < d.geometry.vectorizedCount →
        Ready c d m (m.after p k) st →
        ∃ st', Stmt.execAll c
            (Kernel.groupStmts s (.binary .add (.var .inOffset) (.var .i)) laneCount)
            (st.set .i (.int (c.unit.wrap (k * laneCount : Nat)))) = .ok st'
          ∧ Ready c d m (m.after p (k + 1)) st' := by
      intro k st hk hst
      exact execAll_loopGroup hc (d.mul_laneCount_lt_iff.1 hk) hst
    rcases Stmt.exec_loop_of_invariant (v := .i) (by decide) hbody hst with ⟨st', hrun, hready⟩
    rw [d.tripCount_vectorizedCount] at hready
    exact ⟨st', Stmt.execAll_cons [] hrun, hready⟩

/-- The tail folds in the padded group, if the full groups leave a rest. -/
theorem execAll_tailBlock (hc : c.Covers d p) (hst : Ready c d m (m.after p (d.window / 4)) st) :
    ∃ st', Stmt.execAll c (Kernel.tailBlock d.geometry s) st = .ok st'
      ∧ Ready c d m (m.after p ((d.window + 3) / 4)) st' := by
  have hrest : d.geometry.remainder = d.window % 4 := rfl
  unfold Kernel.tailBlock
  by_cases hzero : d.geometry.remainder = 0
  · rw [if_pos hzero]
    have hgroups : (d.window + 3) / 4 = d.window / 4 := by omega
    rw [hgroups]
    exact ⟨st, rfl, hst⟩
  · rw [if_neg hzero]
    -- The rest makes one more group, whose lanes from the rest on are padding.
    have hlast := hc.last_le
    have hgroups : (d.window + 3) / 4 = d.window / 4 + 1 := by omega
    have hfull := d.vectorizedCount_eq
    have hfirst := Expr.eval_add hc.holds (Expr.eval_var hst.inOffset)
      (Expr.eval_sizeConstant hc.holds (n := 4 * (d.window / 4)) (by omega)) (by omega)
    have hlive : ∀ k < 4,
        k < d.geometry.remainder ↔ 4 * (d.window / 4) + k < d.window := by omega
    rcases execAll_groupStmts hc hst hfirst hlive with ⟨st', hrun, hready⟩
    rw [hgroups, m.after_succ, hfull]
    refine ⟨st', Stmt.execAll_cons [] ?_, hready⟩
    rw [Stmt.exec]
    exact hrun

/-! ## Cells -/

/-- An emitted body gives the value of the groups of its window, whatever its bounds check. -/
theorem Invocation.run_emitted (m : s.Meaning) (hc : c.Covers d p)
    (hneutral : c.kernel.neutral = s.neutral)
    (hbody : c.kernel.body = (Kernel.emit d d.geometry s).body) :
    c.run = .ok (m.result (m.after p ((d.window + 3) / 4))) := by
  rcases execAll_prologue (m := m) hc hneutral .initial with ⟨st₁, hprologue, hst₁⟩
  rcases execAll_vectorLoop hc hst₁ with ⟨st₂, hloop, hst₂⟩
  rcases execAll_tailBlock hc hst₂ with ⟨st₃, htail, hst₃⟩
  have houtput := m.eval_combineExpr c st₃.vars _ hst₃.accumulator
  have hrun : Stmt.execAll c c.kernel.body .initial
      = .ok { st₃ with output? := some (m.result (m.after p ((d.window + 3) / 4))) } := by
    rw [hbody]
    simp only [Kernel.emit, List.append_assoc]
    rw [Stmt.execAll_append_of_ok _ hprologue, Stmt.execAll_append_of_ok _ hloop,
      Stmt.execAll_append_of_ok _ htail]
    exact Stmt.execAll_cons [] (Stmt.exec_output houtput)
  rw [Invocation.run, hrun]
  rfl

/-! ## Fetches of a built kernel -/

section

variable {row i n : Nat} {x : Float32}

theorem Tensor.atInt?_natCast (t : Tensor) (row col : Nat) : t.atInt? row col = t.at? row col := by
  simp [Tensor.atInt?]

theorem Invocation.fetch_of_accepts (hreject : c.rejects i = false)
    (hx : c.input.at? row i = some x) : c.fetch row i = .ok x := by
  simp only [Invocation.fetch, hreject, Bool.false_eq_true, if_false, Tensor.atInt?_natCast, hx]

theorem Invocation.fetch_of_rejects {i : Int} (hreject : c.rejects i = true) :
    c.fetch row i = .ok c.kernel.neutral := by
  simp only [Invocation.fetch, hreject, if_true]

theorem Invocation.rejects_of_guard_none (hguard : c.kernel.guard? = none) (i : Int) :
    c.rejects i = false := by
  rw [Invocation.rejects, hguard]

/-- A bounds check turns away exactly the indices past the row. -/
theorem Invocation.rejects_of_guard_some (hguard : c.kernel.guard? = some n)
    (hn : n ≤ maxKernelInt) (i : Nat) : c.rejects i = decide (n ≤ i) := by
  have hmin : min n maxInt64 = n := by
    unfold maxInt64
    unfold maxKernelInt at hn
    omega
  have hneg : ¬ (i : Int) < 0 := by omega
  simp [Invocation.rejects, hguard, hmin, hneg]

end

/-- When windows tile the row, every index of a window is inside it. -/
theorem Descriptor.index_lt_of_mod_eq_zero {o j : Nat} (htile : d.rowLength % d.window = 0)
    (ho : o < d.geometry.outSize) (hj : j < d.window) : o * d.window + j < d.rowLength := by
  have hrow := Descriptor.outSize_mul_window (Nat.dvd_of_mod_eq_zero htile)
  have hnext := Nat.mul_le_mul_right d.window (Nat.succ_le_of_lt ho)
  rw [Nat.succ_mul, hrow] at hnext
  omega

/-- The window of an output cell starts inside the row, so its indices are kernel `int`s. -/
theorem Descriptor.index_le_of_lt_outSize {o : Nat} (ho : o < d.geometry.outSize) :
    o * d.window < d.rowLength ∧ o * d.window + (d.window - 1) ≤ maxKernelInt
      ∧ d.window ≤ maxKernelInt := by
  have hstart := (Geometry.lt_outSize_iff d.window_pos).1 ho
  have hlast := d.lastIndex_le
  exact ⟨hstart, by omega, by omega⟩

/-- A kernel fetches the padded elements of a window if it checks indices against the row, and also
without a check if windows tile the row. -/
theorem Invocation.covers_of_guard (hu : c.unit.HoldsKernelInts)
    (hshape : c.input.shape = d.inputShape) (hrow : c.row < d.batch)
    (ho : c.col < d.geometry.outSize) (hneutral : c.kernel.neutral = d.kind.neutral)
    (hguard : c.kernel.guard? = some d.rowLength
      ∨ c.kernel.guard? = none ∧ d.rowLength % d.window = 0) :
    c.Covers d (d.kind.paddedElement d.window d.rowLength c.input c.row c.col) := by
  rcases d.index_le_of_lt_outSize ho with ⟨hstart, hlast, hwindow⟩
  have hbatch := d.batch_le
  have hrowLength := d.lastIndex_le
  have hrejects : ∀ j < d.window,
      c.rejects (c.col * d.window + j : Nat) = decide (d.rowLength ≤ c.col * d.window + j) := by
    intro j hj
    -- Without a check nothing is turned away, and nothing has to be when windows tile the row.
    rcases hguard with hsome | ⟨hnone, htile⟩
    · exact Invocation.rejects_of_guard_some hsome (by omega) _
    · have hin := Descriptor.index_lt_of_mod_eq_zero htile ho hj
      rw [Invocation.rejects_of_guard_none hnone]
      exact (decide_eq_false (Nat.not_le_of_lt hin)).symm
  refine ⟨hu, by omega, hwindow, hlast, ?_, ?_⟩
  · intro j hj
    have hreject := hrejects j hj
    unfold Kind.paddedElement
    by_cases hin : c.col * d.window + j < d.rowLength
    · rw [if_pos ⟨hj, hin⟩]
      rw [decide_eq_false (Nat.not_le_of_lt hin)] at hreject
      have hr : c.row < c.input.shape.rows := by rw [hshape]; exact hrow
      have hc : c.col * d.window + j < c.input.shape.cols := by rw [hshape]; exact hin
      rcases Tensor.exists_at?_eq_some hr hc with ⟨x, hx⟩
      rw [Tensor.elementOr, hx]
      exact Invocation.fetch_of_accepts hreject hx
    · have hout : ¬ (j < d.window ∧ c.col * d.window + j < d.rowLength) := fun h => hin h.2
      rw [decide_eq_true (Nat.le_of_not_lt hin)] at hreject
      rw [if_neg hout, ← hneutral]
      exact Invocation.fetch_of_rejects hreject
  · intro j hj
    have hout : ¬ (j < d.window ∧ c.col * d.window + j < d.rowLength) := by omega
    rw [Kind.paddedElement, if_neg hout]
    exact hneutral.symm

/-! ## Programs -/

/-- A matrix whose cells can all be computed is the matrix of the computed values. -/
theorem Tensor.tabulate_eq_ofFn {ε : Type} {shape : Shape} {cell : Nat → Nat → Except ε Float32}
    {f : Nat → Nat → Float32}
    (h : ∀ row < shape.rows, ∀ col < shape.cols, cell row col = .ok (f row col)) :
    Tensor.tabulate shape cell = .ok (Tensor.ofFn shape f) := by
  rcases Tensor.exists_tabulate_eq_ok (fun row hr col hc => ⟨_, h row hr col hc⟩) with ⟨t, ht⟩
  have hshape := Tensor.shape_of_tabulate ht
  have heq : t = Tensor.ofFn shape f := by
    refine Tensor.ext_at? hshape ?_
    intro row hr col hc
    rw [hshape] at hr hc
    rcases Tensor.at?_tabulate ht hr hc with ⟨x, hx, hat⟩
    rw [h row hr col hc] at hx
    cases hx
    rw [hat, Tensor.at?_ofFn hr hc]
  rw [ht, heq]

/-- A kernel with an emitted body computes the values of all windows, provided its bounds check is
there or not needed. -/
theorem Kernel.run_emitted {u : IntUnit} {k : Kernel} {input : Tensor} (hu : u.HoldsKernelInts)
    (hshape : input.shape = d.inputShape) (hneutral : k.neutral = d.kind.neutral)
    (hbody : k.body = (Kernel.emit d d.geometry (Scheme.ofKind d.kind)).body)
    (hguard : k.guard? = some d.rowLength ∨ k.guard? = none ∧ d.rowLength % d.window = 0) :
    k.run u input d.outputShape = .ok (d.reduce input) := by
  apply Tensor.tabulate_eq_ofFn
  intro row hrow o ho
  let c : Invocation := ⟨u, k, input, row, o⟩
  have hcovers : c.Covers d _ := Invocation.covers_of_guard hu hshape hrow ho hneutral hguard
  have hscheme : c.kernel.neutral = (Scheme.ofKind d.kind).neutral := by
    rw [Scheme.ofKind_neutral]
    exact hneutral
  have hrun := Invocation.run_emitted (Scheme.meaning d.kind) hcovers hscheme hbody
  rw [hrun, Scheme.Meaning.after, Scheme.meaning_result_foldl]
  rfl

theorem Program.guard_of_build (d : Descriptor) :
    (Program.build d).kernel.guard? = some d.rowLength
      ∨ (Program.build d).kernel.guard? = none ∧ d.rowLength % d.window = 0 := by
  rw [Program.build_guard?]
  by_cases htile : d.rowLength % d.window = 0
  · exact Or.inr ⟨if_pos htile, htile⟩
  · exact Or.inl (if_neg htile)

/-- The program of a descriptor computes the values of all windows, with the integers of direct
execution as with those of a shader. -/
theorem Program.executeOn_build {u : IntUnit} {input : Tensor} (hu : u.HoldsKernelInts)
    (hshape : input.shape = d.inputShape) :
    (Program.build d).executeOn u input = .ok (d.reduce input) := by
  rw [Program.executeOn, Program.build_descriptor, if_pos hshape]
  exact Kernel.run_emitted hu hshape (Scheme.ofKind_neutral d.kind) rfl (Program.guard_of_build d)

theorem Program.execute_build {input : Tensor} (hshape : input.shape = d.inputShape) :
    (Program.build d).execute input = .ok (d.reduce input) :=
  Program.executeOn_build trapping64_holdsKernelInts hshape

/-! ## The exact result -/

/-- The number of windows in a row is the quotient rounded up. -/
theorem Geometry.outSize_eq_ceil {w n : Nat} (hw : 0 < w) :
    (Geometry.of w n).outSize = (n + w - 1) / w := by
  have hrow := Nat.div_add_mod n w
  have hmod := Nat.mod_lt n hw
  simp only [Geometry.of]
  symm
  rw [Nat.div_eq_iff hw]
  split
  · rw [Nat.add_zero, Nat.mul_comm]
    omega
  · rw [Nat.mul_comm, Nat.mul_add]
    omega

/-- Every accepted descriptor has a program that runs without a fault or an overflow on every matrix
of its shape, and each cell of the result is, to the bit, the value of the padded groups of its
window. -/
theorem execute_build_exact {k : Kind} {w b n : Nat} {d : Descriptor}
    (hd : Descriptor.new k w b n = .ok d) {input : Tensor} (hshape : input.shape = ⟨b, n⟩) :
    ∃ out, (Program.build d).execute input = .ok out
      ∧ out.shape = ⟨b, (n + w - 1) / w⟩
      ∧ ∀ row < b, ∀ o < (n + w - 1) / w,
          out.at? row o = some (k.reduceGroups (k.paddedGroups w n input row o)) := by
  rcases Descriptor.new_eq_ok_iff.1 hd with ⟨rfl, rfl, rfl, rfl⟩
  have hout : d.outputShape = ⟨d.batch, (d.rowLength + d.window - 1) / d.window⟩ := by
    rw [← Geometry.outSize_eq_ceil d.window_pos]
    rfl
  refine ⟨d.reduce input, Program.execute_build hshape, hout, ?_⟩
  intro row hrow o ho
  have hr : row < d.outputShape.rows := hrow
  have hc : o < d.outputShape.cols := by rw [hout]; exact ho
  exact Tensor.at?_ofFn hr hc

/-- Windows of five elements, one with a NaN in it and one of which only two elements are left in the
row: the NaN makes its lane forget what came before, and padding loses against every number. -/
theorem execute_build_exact_with_nan :
    ∃ d, Descriptor.new .max 5 1 7 = .ok d
      ∧ (Tensor.ofRow [0.0 / 0.0, 3.0, -1.0, 4.0, 1.0, -9.0, -2.0]).shape = ⟨1, 7⟩
      ∧ ∃ out, (Program.build d).execute
          (Tensor.ofRow [0.0 / 0.0, 3.0, -1.0, 4.0, 1.0, -9.0, -2.0]) = .ok out
        ∧ out.shape = ⟨1, 2⟩ ∧ out.at? 0 0 = some 4.0 ∧ out.at? 0 1 = some (-2.0) := by
  have hd : Descriptor.new .max 5 1 7
      = .ok ⟨.max, 5, 1, 7, by decide, by decide, by decide⟩ := rfl
  have hinput : (Tensor.ofRow [0.0 / 0.0, 3.0, -1.0, 4.0, 1.0, -9.0, -2.0]).shape = ⟨1, 7⟩ := rfl
  refine ⟨_, hd, hinput, ?_⟩
  rcases execute_build_exact hd hinput with ⟨out, hrun, hshape, hcells⟩
  refine ⟨out, hrun, hshape, ?_, ?_⟩
  · rw [hcells 0 (by decide) 0 (by decide)]
    decide +kernel
  · rw [hcells 0 (by decide) 1 (by decide)]
    decide +kernel

end WindowReduction
