import WindowReduction.Proofs.BoundsCheck
import WindowReduction.Proofs.CellValue

/-!
# Leaving out the bounds check

Without the bounds check of its fetch helper a built kernel makes a fetch outside the row exactly
when windows do not tile the row: the last window of the first row then reads past the end of the
row, in the loop or in the tail.

Main statements: `Leaves.strays_run` (a window that leaves the row strays), `guard_elision_exact`.
-/

namespace WindowReduction

/-! ## Runs that stray -/

/-- A store is determined by the values of its variables. -/
theorem Store.ext_get? {s s' : Store} (h : ∀ v, s.get? v = s'.get? v) : s = s' := by
  have hslot : ∀ i : Fin 8, ∃ v : Var, v.slot = i := fun
    | 0 => ⟨.batch, rfl⟩
    | 1 => ⟨.outIdx, rfl⟩
    | 2 => ⟨.inOffset, rfl⟩
    | 3 => ⟨.i, rfl⟩
    | 4 => ⟨.inIdx, rfl⟩
    | 5 => ⟨.accumulator, rfl⟩
    | 6 => ⟨.values, rfl⟩
    | 7 => ⟨.groupAll, rfl⟩
  rcases s with ⟨slots⟩
  rcases s' with ⟨slots'⟩
  congr 1
  apply Vector.ext
  intro i hi
  rcases hslot ⟨i, hi⟩ with ⟨v, hv⟩
  have hget := h v
  simp only [Store.get?, hv] at hget
  exact hget

theorem eq_of_rel_eq {α : Type} {x y : Option α} (h : Option.Rel Eq x y) : x = y := by
  cases h with
  | some h => rw [h]
  | none => rfl

theorem CellState.Matched.eq {s s' : CellState} (h : s.Matched Eq s') : s = s' := by
  have hvars : s.vars = s'.vars := Store.ext_get? fun v => eq_of_rel_eq (h.vars v)
  have hout := h.output
  rcases s with ⟨vars, output⟩
  rcases s' with ⟨vars', output'⟩
  cases hvars
  cases hout with
  | none => rfl
  | some hab =>
      cases hab
      rfl

theorem CellState.matched_eq_refl (s : CellState) : s.Matched Eq s where
  vars := by
    intro v
    cases s.vars.get? v with
    | none => exact .none
    | some x => exact .some rfl
  output := by
    cases s.output? with
    | none => exact .none
    | some x => exact .some rfl

/-- A first run does what the second one does or strays. -/
theorem Matches.eq_or_strays {α : Type} {S : α → α → Prop} (hS : ∀ a b, S a b → a = b)
    {x : Except Halt α} {b : α} (h : Matches Halt.IsStray S x (.ok b)) : x = .ok b ∨ Strays x := by
  cases h with
  | ok h => exact Or.inl (congrArg Except.ok (hS _ _ h))
  | excused h => exact Or.inr ⟨_, rfl, h⟩

section

variable {c c' : Invocation} {s s' : CellState}

theorem execAll_eq_or_strays (h : TwoRuns Halt.IsStray Eq c c') {body : List Stmt}
    (hrun : Stmt.execAll c' body s = .ok s') :
    Stmt.execAll c body s = .ok s' ∨ Strays (Stmt.execAll c body s) := by
  have hmatch := Stmt.execAll_matches h body s.matched_eq_refl
  rw [hrun] at hmatch
  exact hmatch.eq_or_strays fun _ _ => CellState.Matched.eq

/-- A run strays if it does so after a part that the run with the check gets through. -/
theorem strays_execAll_append (h : TwoRuns Halt.IsStray Eq c c') {first rest : List Stmt}
    (hrun : Stmt.execAll c' first s = .ok s') (hrest : Strays (Stmt.execAll c rest s')) :
    Strays (Stmt.execAll c (first ++ rest) s) := by
  rw [Stmt.execAll_append]
  rcases execAll_eq_or_strays h hrun with heq | hstray
  · rw [heq]
    exact hrest
  · exact hstray.bind _

theorem strays_execAll_append_left {first : List Stmt} (rest : List Stmt)
    (hfirst : Strays (Stmt.execAll c first s)) : Strays (Stmt.execAll c (first ++ rest) s) := by
  rw [Stmt.execAll_append]
  exact hfirst.bind _

/-- Iterations stray if one of them does, in the state in which the iterations with the check reach
it. -/
theorem strays_iterateFrom {f g : Nat → CellState → Except Halt CellState}
    (hfg : ∀ k s t, s.Matched Eq t → Matches Halt.IsStray (CellState.Matched Eq) (f k s) (g k t))
    {first done left : Nat} (hrun : iterateFrom g first done s = .ok s')
    (hstray : Strays (f (first + done) s')) :
    Strays (iterateFrom f first (done + (left + 1)) s) := by
  have hmatch : Matches Halt.IsStray (CellState.Matched Eq) (iterateFrom f first done s)
      (iterateFrom g first done s) := iterateFrom_matches hfg s.matched_eq_refl
  rw [hrun] at hmatch
  rw [iterateFrom_add]
  rcases hmatch.eq_or_strays (fun _ _ => CellState.Matched.eq) with heq | hbefore
  · rw [heq]
    rcases hstray with ⟨halt, hhalt, his⟩
    refine ⟨halt, ?_, his⟩
    change iterateFrom f (first + done) (left + 1) s' = _
    rw [iterateFrom, hhalt]
  · exact hbefore.bind _

end

/-! ## A window that leaves the row -/

/-- A cell's window goes on past the elements that can be fetched: with the check `c'` its fetches
give the sequence `p`, and without it `c` strays at its element `limit`. -/
structure Leaves (c c' : Invocation) (d : Descriptor) (p : Nat → Float32) (limit : Nat) : Prop where
  runs : TwoRuns Halt.IsStray Eq c c'
  covers : c'.Covers d p
  limit_lt : limit < d.window
  stray : Strays (c.fetch c.row (c.col * d.window + limit : Nat))

section

variable {c c' : Invocation} {d : Descriptor} {s : Scheme} {m : s.Meaning} {a : m.Acc}
  {st : CellState} {p : Nat → Float32} {limit : Nat}

/-- What stands in the variables does not depend on the check. -/
theorem Ready.of_twoRuns (h : TwoRuns Halt.IsStray Eq c c') (hst : Ready c' d m a st) :
    Ready c d m a st where
  batch := by rw [hst.batch, h.row]
  inOffset := by rw [hst.inOffset, h.col]
  accumulator := hst.accumulator

theorem Leaves.holds (h : Leaves c c' d p limit) : c.unit.HoldsKernelInts := by
  rw [h.runs.unit]
  exact h.covers.holds

theorem Leaves.last_le (h : Leaves c c' d p limit) :
    c.col * d.window + (d.window - 1) ≤ maxKernelInt := by
  rw [h.runs.col]
  exact h.covers.last_le

theorem eval_fetch_eq {vars : Store} {e₁ e₂ : Expr} {i j : Int}
    (h₁ : e₁.eval c vars = .ok (.int i)) (h₂ : e₂.eval c vars = .ok (.int j)) :
    (Expr.fetch e₁ e₂).eval c vars = c.fetch i j >>= fun x => pure (Value.float x) := by
  rw [Expr.eval, h₁, h₂]
  rfl

/-- The lane of the element at the limit strays. -/
theorem Leaves.strays_groupLane (h : Leaves c c' d p limit) {vars : Store} {first live k : Nat}
    (hbatch : vars.get? .batch = some (.int c.row))
    (hinIdx : vars.get? .inIdx = some (.int (c.col * d.window + first : Nat)))
    (hlive : k < live) (hk : first + k = limit) :
    Strays ((Kernel.groupLane live k).eval c vars) := by
  have hstray := h.stray
  have hlimit := h.limit_lt
  have hlast := h.last_le
  have hindex := eval_laneIndex h.holds hinIdx (k := k) (by omega)
  rw [Nat.add_assoc, hk] at hindex
  rw [Kernel.groupLane_eq, if_pos hlive, eval_fetch_eq (Expr.eval_var hbatch) hindex]
  exact hstray.bind _

/-- Every lane of a group strays or has a value, as it has one with the check. -/
theorem Leaves.groupLane_strays_or_ok (h : Leaves c c' d p limit) {vars : Store}
    {first live k : Nat} (hbatch : vars.get? .batch = some (.int c'.row))
    (hinIdx : vars.get? .inIdx = some (.int (c'.col * d.window + first : Nat)))
    (hlive : k < live ↔ first + k < d.window) :
    Strays ((Kernel.groupLane live k).eval c vars)
      ∨ ∃ x, (Kernel.groupLane live k).eval c vars = .ok x := by
  have hvars : vars.Matched Eq vars := (CellState.matched_eq_refl ⟨vars, none⟩).vars
  have hmatch := (Kernel.groupLane live k).eval_matches h.runs hvars
  rw [eval_groupLane h.covers hbatch hinIdx hlive] at hmatch
  rcases hmatch.eq_or_strays (fun _ _ => id) with heq | hstray
  · exact Or.inr ⟨_, heq⟩
  · exact Or.inl hstray

theorem strays_pack {vars : Store} {ty : Ty} {e : Nat → Expr}
    (hlanes : ∀ k < 4, Strays ((e k).eval c vars) ∨ ∃ x, (e k).eval c vars = .ok x)
    {k : Nat} (hk : k < 4) (hstray : Strays ((e k).eval c vars)) :
    Strays ((Expr.pack ty (e 0) (e 1) (e 2) (e 3)).eval c vars) := by
  rw [Expr.eval]
  have hcases : k = 0 ∨ k = 1 ∨ k = 2 ∨ k = 3 := by omega
  rcases hcases with rfl | rfl | rfl | rfl
  · exact hstray.bind _
  · refine Strays.of_bind (hlanes 0 (by decide)) fun _ => ?_
    exact hstray.bind _
  · refine Strays.of_bind (hlanes 0 (by decide)) fun _ => ?_
    refine Strays.of_bind (hlanes 1 (by decide)) fun _ => ?_
    exact hstray.bind _
  · refine Strays.of_bind (hlanes 0 (by decide)) fun _ => ?_
    refine Strays.of_bind (hlanes 1 (by decide)) fun _ => ?_
    refine Strays.of_bind (hlanes 2 (by decide)) fun _ => ?_
    exact hstray.bind _

/-- Reading the group of the limit strays. -/
theorem Leaves.strays_groupStmts (h : Leaves c c' d p limit) {e : Expr} {first live : Nat}
    (hst : Ready c' d m a st)
    (he : e.eval c st.vars = .ok (.int (c.col * d.window + first : Nat)))
    (hlive : ∀ k < 4, k < live ↔ first + k < d.window) (hfirst : first ≤ limit)
    (hgroup : limit < first + 4) :
    Strays (Stmt.execAll c (Kernel.groupStmts s e live) st) := by
  let st₁ := st.set .inIdx (.int (c.col * d.window + first : Nat))
  have hst₁ : Ready c' d m a st₁ := hst.set _ (by decide)
  have hinIdx : st₁.vars.get? .inIdx = some (.int (c.col * d.window + first : Nat)) :=
    CellState.get?_set_self st _ _
  have hinIdx' := hinIdx
  rw [h.runs.col] at hinIdx'
  have hlimit := h.limit_lt
  have hpack : Strays ((Expr.pack s.groupTy (Kernel.groupLane live 0) (Kernel.groupLane live 1)
      (Kernel.groupLane live 2) (Kernel.groupLane live 3)).eval c st₁.vars) := by
    refine strays_pack (e := Kernel.groupLane live) (k := limit - first) (fun k hk => ?_)
      (by omega) ?_
    · exact h.groupLane_strays_or_ok hst₁.batch hinIdx' (hlive k hk)
    · have hin := (hlive (limit - first) (by omega)).2 (by omega)
      exact h.strays_groupLane (hst₁.of_twoRuns h.runs).batch hinIdx hin (by omega)
  have hdeclare : Stmt.exec c (.declare .inIdx .int e) st = .ok st₁ := Stmt.exec_declare he rfl
  rw [Kernel.groupStmts, List.cons_append, Stmt.execAll_cons _ hdeclare, List.cons_append,
    Stmt.execAll, Stmt.exec]
  exact (hpack.bind _).bind _

/-- One iteration of the loop over the full groups. -/
def loopIteration (s : Scheme) (c : Invocation) (k : Nat) (st : CellState) :
    Except Halt CellState :=
  Stmt.execAll c (Kernel.groupStmts s (.binary .add (.var .inOffset) (.var .i)) laneCount)
    (st.set .i (.int (c.unit.wrap (k * laneCount : Nat))))

theorem loopIteration_matches (h : TwoRuns Halt.IsStray Eq c c') (k : Nat) (st st' : CellState)
    (hst : st.Matched Eq st') :
    Matches Halt.IsStray (CellState.Matched Eq) (loopIteration s c k st)
      (loopIteration s c' k st') := by
  unfold loopIteration
  rw [h.unit]
  exact Stmt.execAll_matches h _ (hst.set .i rfl)

/-- With the check the groups before the limit are folded in. -/
theorem Leaves.exists_iterate_eq_ok (h : Leaves c c' d p limit) (hst : Ready c' d m m.init st)
    {n : Nat} (hn : n ≤ d.window / 4) :
    ∃ st', iterateFrom (loopIteration s c') 0 n st = .ok st' ∧ Ready c' d m (m.after p n) st' := by
  have hstart : Ready c' d m (m.after p 0) st := hst
  have hrun := exists_iterateFrom_eq_ok (P := fun k st => Ready c' d m (m.after p k) st)
    (fun k st _ hk hst => execAll_loopGroup h.covers (by omega) hst) hstart (n := n)
  rw [Nat.zero_add] at hrun
  exact hrun

/-- The iteration with the group of the limit strays. -/
theorem Leaves.strays_loopIteration (h : Leaves c c' d p limit) (hst : Ready c' d m a st)
    (hfull : limit < 4 * (d.window / 4)) : Strays (loopIteration s c (limit / 4) st) := by
  have hlast := h.last_le
  have hlimit := h.limit_lt
  have hlanes : laneCount = 4 := rfl
  have hfirst := eval_loopFirst (k := limit / 4) h.holds (hst.of_twoRuns h.runs) (by omega)
  exact h.strays_groupStmts (hst.set _ (by decide)) hfirst (by omega) (by omega) (by omega)

/-- The loop strays if the group of the limit is a full one. -/
theorem Leaves.strays_vectorLoop (h : Leaves c c' d p limit) (hst : Ready c' d m m.init st)
    (hfull : limit < 4 * (d.window / 4)) :
    Strays (Stmt.execAll c (Kernel.vectorLoop d.geometry s) st) := by
  have hcount : d.geometry.vectorizedCount = 4 * (d.window / 4) := Nat.mul_comm _ _
  have htrips : tripCount d.geometry.vectorizedCount laneCount
      = limit / 4 + ((d.window / 4 - limit / 4 - 1) + 1) := by
    unfold tripCount laneCount
    omega
  rcases h.exists_iterate_eq_ok hst (n := limit / 4) (by omega) with ⟨st', hrun, hst'⟩
  have hgroup : Strays (loopIteration s c (0 + limit / 4) st') := by
    rw [Nat.zero_add]
    exact h.strays_loopIteration hst' hfull
  have hloop : Strays (iterateFrom (loopIteration s c) 0
      (tripCount d.geometry.vectorizedCount laneCount) st) := by
    rw [htrips]
    exact strays_iterateFrom (loopIteration_matches h.runs) hrun hgroup
  unfold Kernel.vectorLoop
  -- There is a full group, so the kernel has the loop.
  rw [if_neg (by omega), Stmt.execAll, Stmt.exec, if_neg (by decide)]
  exact hloop.bind _

/-- The tail strays if the limit comes after the full groups. -/
theorem Leaves.strays_tailBlock (h : Leaves c c' d p limit)
    (hst : Ready c' d m (m.after p (d.window / 4)) st) (hrest : 4 * (d.window / 4) ≤ limit) :
    Strays (Stmt.execAll c (Kernel.tailBlock d.geometry s) st) := by
  have hcount : d.geometry.vectorizedCount = 4 * (d.window / 4) := Nat.mul_comm _ _
  have hremainder : d.geometry.remainder = d.window % 4 := rfl
  have hlimit := h.limit_lt
  have hlast := h.last_le
  have hfirst := Expr.eval_add h.holds (Expr.eval_var (hst.of_twoRuns h.runs).inOffset)
    (Expr.eval_sizeConstant h.holds (n := 4 * (d.window / 4)) (by omega)) (by omega)
  rw [← hcount] at hfirst
  unfold Kernel.tailBlock
  rw [if_neg (by omega), Stmt.execAll, Stmt.exec]
  refine Strays.bind ?_ _
  exact h.strays_groupStmts hst hfirst (by omega) (by omega) (by omega)

/-- An emitted body strays on a window that leaves the row. -/
theorem Leaves.strays_run (h : Leaves c c' d p limit) (m : s.Meaning)
    (hneutral : c'.kernel.neutral = s.neutral)
    (hbody : c.kernel.body = (Kernel.emit d d.geometry s).body) : Strays c.run := by
  rcases execAll_prologue (m := m) h.covers hneutral .initial with ⟨st₁, hprologue, hst₁⟩
  rcases execAll_vectorLoop h.covers hst₁ with ⟨st₂, hloop, hst₂⟩
  have hstray : Strays (Stmt.execAll c c.kernel.body .initial) := by
    rw [hbody]
    simp only [Kernel.emit, List.append_assoc]
    refine strays_execAll_append h.runs hprologue ?_
    rcases Nat.lt_or_ge limit (4 * (d.window / 4)) with hfull | hrest
    · exact strays_execAll_append_left _ (h.strays_vectorLoop hst₁ hfull)
    · refine strays_execAll_append h.runs hloop ?_
      exact strays_execAll_append_left _ (h.strays_tailBlock hst₂ hrest)
  exact hstray.bind _

end

/-! ## Matrices -/

variable {u : IntUnit} {d : Descriptor} {input : Tensor}

/-- When windows do not tile the row, the last one starts inside the row and ends past it. -/
theorem Descriptor.exists_last_window (h : 0 < d.rowLength % d.window) :
    ∃ o < d.geometry.outSize, ∃ limit < d.window, o * d.window + limit = d.rowLength := by
  have hrow := Nat.div_add_mod' d.rowLength d.window
  refine ⟨d.rowLength / d.window, ?_, d.rowLength % d.window, Nat.mod_lt _ d.window_pos, hrow⟩
  exact (Geometry.lt_outSize_iff d.window_pos).2 (by omega)

/-- The last window of the first row reads past the row. -/
theorem strays_run_last_window (hu : u.HoldsKernelInts) (hbatch : 0 < d.batch)
    (hshape : input.shape = d.inputShape) {o limit : Nat} (ho : o < d.geometry.outSize)
    (hlimit : limit < d.window) (hend : o * d.window + limit = d.rowLength) :
    Strays (Invocation.run ⟨u, (Program.build d).kernel.withGuard none, input, 0, o⟩) := by
  let checked : Invocation :=
    ⟨u, (Program.build d).kernel.withGuard (some d.rowLength), input, 0, o⟩
  have hrow := d.lastIndex_le
  have hcols : input.shape.cols = d.rowLength := by rw [hshape]; rfl
  have hneutral : (Program.build d).kernel.neutral = d.kind.neutral := Scheme.ofKind_neutral d.kind
  have hcovers : checked.Covers d _ :=
    Invocation.covers_of_guard hu hshape hbatch ho hneutral (Or.inl rfl)
  have hnone : input.atInt? 0 (d.rowLength : Nat) = none := by
    have hout : ¬ (0 < input.shape.rows ∧ d.rowLength < input.shape.cols) := by omega
    rw [← Int.natCast_zero, Tensor.atInt?_natCast, Tensor.at?, if_neg hout]
  have hleaves : Leaves _ checked d _ limit :=
    { runs := twoRuns_withGuard_none (by omega) hcols 0 o
      covers := hcovers
      limit_lt := hlimit
      stray := by
        refine ⟨.fault (.fetchOutOfRange 0 d.rowLength input.shape), ?_, 0, d.rowLength, _, rfl⟩
        change Invocation.fetch _ ((0 : Nat) : Int) ((o * d.window + limit : Nat) : Int) = _
        rw [hend]
        simp [Invocation.fetch, Invocation.rejects, Kernel.withGuard, hnone] }
  exact hleaves.strays_run (Scheme.meaning d.kind) rfl rfl

/-- Leaving out the bounds check is exactly right when windows tile the row. Then a built kernel has
no check, and with or without one its result is the same. Otherwise it has the check and runs to its
end, and without the check it would halt outside the row, whatever the kind and the numbers. -/
theorem guard_elision_exact {k : Kind} {w b n : Nat} {d : Descriptor}
    (hd : Descriptor.new k w b n = .ok d) (hb : 1 ≤ b) {input : Tensor}
    (hshape : input.shape = ⟨b, n⟩) :
    (n % w = 0 → (Program.build d).kernel.guard? = none
        ∧ ∃ out, ((Program.build d).withGuard none).execute input = .ok out
          ∧ ((Program.build d).withGuard (some n)).execute input = .ok out)
      ∧ (0 < n % w → (Program.build d).kernel.guard? = some n
        ∧ (∃ out, (Program.build d).execute input = .ok out)
        ∧ ∃ f, ((Program.build d).withGuard none).execute input = .error (.fault f)
          ∧ f.code = .indexOutOfBounds) := by
  rcases Descriptor.new_eq_ok_iff.1 hd with ⟨rfl, rfl, rfl, rfl⟩
  have hexecute : ∀ guard?, ((Program.build d).withGuard guard?).execute input
      = ((Program.build d).kernel.withGuard guard?).run .trapping64 input d.outputShape :=
    fun _ => if_pos hshape
  have hneutral : (Program.build d).kernel.neutral = d.kind.neutral := Scheme.ofKind_neutral d.kind
  have hchecked : ((Program.build d).kernel.withGuard (some d.rowLength)).run .trapping64 input
      d.outputShape = .ok (d.reduce input) :=
    Kernel.run_emitted trapping64_holdsKernelInts hshape hneutral rfl (Or.inl rfl)
  constructor
  · intro htile
    have hunchecked : ((Program.build d).kernel.withGuard none).run .trapping64 input
        d.outputShape = .ok (d.reduce input) :=
      Kernel.run_emitted trapping64_holdsKernelInts hshape hneutral rfl (Or.inr ⟨rfl, htile⟩)
    refine ⟨by rw [Program.build_guard?, if_pos htile], d.reduce input, ?_, ?_⟩
    · rw [hexecute, hunchecked]
    · rw [hexecute, hchecked]
  · intro hpartial
    refine ⟨by rw [Program.build_guard?, if_neg (Nat.ne_of_gt hpartial)],
      ⟨_, Program.execute_build hshape⟩, ?_⟩
    rcases d.exists_last_window hpartial with ⟨o, ho, limit, hlimit, hend⟩
    have hcell := strays_run_last_window trapping64_holdsKernelInts hb hshape ho hlimit hend
    have hrow := d.lastIndex_le
    have hcols : input.shape.cols = d.rowLength := by rw [hshape]
    rw [hexecute]
    rcases Kernel.run_withGuard_none (Program.build d).kernel (by omega) hcols d.outputShape with
      hsame | ⟨halt, hhalt, i, j, shape, rfl⟩
    · -- A result would hold a value for the cell that strays.
      rw [hchecked] at hsame
      have hfirst : 0 < d.outputShape.rows := hb
      rcases Tensor.at?_tabulate hsame hfirst ho with ⟨x, hx, -⟩
      rcases hcell with ⟨halt, hhalt, -⟩
      rw [hhalt] at hx
      cases hx
    · exact ⟨_, hhalt, rfl⟩

/-- Twelve elements in windows of three need no check, and in windows of five they do. -/
theorem guard_elision_exact_twelve :
    (∃ d, Descriptor.new .min 3 2 12 = .ok d ∧ (Program.build d).kernel.guard? = none)
      ∧ ∃ d, Descriptor.new .min 5 2 12 = .ok d
        ∧ (Tensor.ofFn ⟨2, 12⟩ fun _ _ => 0.0).shape = ⟨2, 12⟩
        ∧ (Program.build d).kernel.guard? = some 12
        ∧ ∃ f, ((Program.build d).withGuard none).execute (Tensor.ofFn ⟨2, 12⟩ fun _ _ => 0.0)
            = .error (.fault f) ∧ f.code = .indexOutOfBounds := by
  have hthree : Descriptor.new .min 3 2 12
      = .ok ⟨.min, 3, 2, 12, by decide, by decide, by decide⟩ := rfl
  have hfive : Descriptor.new .min 5 2 12
      = .ok ⟨.min, 5, 2, 12, by decide, by decide, by decide⟩ := rfl
  have hshape : (Tensor.ofFn ⟨2, 12⟩ fun _ _ => 0.0).shape = ⟨2, 12⟩ := rfl
  have hpartial := (guard_elision_exact hfive (by decide) hshape).2 (by decide)
  refine ⟨⟨_, hthree, ?_⟩, _, hfive, hshape, hpartial.1, hpartial.2.2⟩
  exact ((guard_elision_exact hthree (by decide) hshape).1 (by decide)).1

end WindowReduction
