import WindowReduction.Proofs.CellValue
import WindowReduction.Proofs.IntTrace
import WindowReduction.Proofs.ScopedRun

/-!
# The fetches of a run

The elements that a kernel body fetches while it runs for an output cell, listed in order. A built
kernel fetches the elements of the cell's window and no others: the loop those at the offsets of the
full groups, the block after it those at the offsets that are left.

Main definitions: `Invocation.fetches` and `Geometry.offsets`.
Main statements: `Invocation.fetches_emitted` (an emitted body fetches at the offsets of its
geometry) and `Program.fetches_build`.
-/

namespace WindowReduction

/-! ## Fetches of expressions and statements -/

/-- The row and the index that an expression fetches, if its outermost constructor does so. -/
def Expr.fetch? (c : Invocation) (vars : Store) : Expr → Option (Int × Int)
  | .fetch row index => do
    let r ← (row.eval c vars).toOption.bind Value.int?
    let i ← (index.eval c vars).toOption.bind Value.int?
    some (r, i)
  | _ => none

/-- The rows and indices that an expression and its parts fetch. -/
def Expr.fetches (c : Invocation) (vars : Store) (e : Expr) : List (Int × Int) :=
  e.subterms.filterMap (Expr.fetch? c vars)

mutual

/-- The rows and indices that are fetched while a statement runs. -/
def Stmt.fetches (c : Invocation) : Stmt → CellState → List (Int × Int)
  | .declare _ _ e, s => e.fetches c s.vars
  | .assign _ e, s => e.fetches c s.vars
  | .loop v count step body, s =>
    recordFrom
      (fun k s => Stmt.execAll c body (s.set v (.int (c.unit.wrap (k * step : Nat)))))
      (fun k s => Stmt.fetchesAll c body (s.set v (.int (c.unit.wrap (k * step : Nat)))))
      0 (tripCount count step) s
  | .block body, s => Stmt.fetchesAll c body s
  | .output e, s => e.fetches c s.vars

/-- The rows and indices that are fetched while statements run in order. -/
def Stmt.fetchesAll (c : Invocation) : List Stmt → CellState → List (Int × Int)
  | [], _ => []
  | stmt :: rest, s =>
    stmt.fetches c s ++
      match stmt.exec c s with
      | .error _ => []
      | .ok s => Stmt.fetchesAll c rest s

end

/-- The rows and indices that a kernel fetches while it runs for an output cell. -/
def Invocation.fetches (c : Invocation) : List (Int × Int) :=
  Stmt.fetchesAll c c.kernel.body .initial

variable {c : Invocation} {vars : Store} {st st' : CellState}

theorem Stmt.fetchesAll_cons {stmt : Stmt} (rest : List Stmt) (h : stmt.exec c st = .ok st') :
    Stmt.fetchesAll c (stmt :: rest) st = stmt.fetches c st ++ Stmt.fetchesAll c rest st' := by
  rw [Stmt.fetchesAll, h]

theorem Stmt.fetchesAll_singleton (stmt : Stmt) :
    Stmt.fetchesAll c [stmt] st = stmt.fetches c st := by
  rw [Stmt.fetchesAll]
  cases stmt.exec c st with
  | error e => exact List.append_nil _
  | ok st' => exact List.append_nil _

theorem Stmt.fetchesAll_append {first : List Stmt} (rest : List Stmt)
    (h : Stmt.execAll c first st = .ok st') :
    Stmt.fetchesAll c (first ++ rest) st
      = Stmt.fetchesAll c first st ++ Stmt.fetchesAll c rest st' := by
  induction first generalizing st with
  | nil =>
      rw [Stmt.execAll] at h
      cases h
      rfl
  | cons stmt first ih =>
      rw [Stmt.execAll, bind_eq_ok_iff] at h
      obtain ⟨st₁, hstmt, hfirst⟩ := h
      rw [List.cons_append, Stmt.fetchesAll_cons _ hstmt, Stmt.fetchesAll_cons _ hstmt, ih hfirst,
        List.append_assoc]

/-! ### Bodies that fetch nothing -/

theorem Expr.fetches_eq_nil {e : Expr} (h : ∀ part ∈ e.subterms, part.isFetch = false) :
    e.fetches c vars = [] := by
  rw [Expr.fetches, List.filterMap_eq_nil_iff]
  intro part hpart
  have hnone := h part hpart
  cases part with
  | fetch row index => cases hnone
  | _ => rfl

theorem recordFrom_eq_nil {ε σ τ : Type} {body : Nat → σ → Except ε σ} {record : Nat → σ → List τ}
    (h : ∀ k s, record k s = []) (first n : Nat) (s : σ) :
    recordFrom body record first n s = [] := by
  induction n generalizing first s with
  | zero => rfl
  | succ n ih =>
      rw [recordFrom, h, List.nil_append]
      cases body first s with
      | error e => rfl
      | ok s' => exact ih (first + 1) s'

mutual

/-- A statement without a fetch in it fetches nothing, however often its loops run. -/
theorem Stmt.fetches_eq_nil :
    ∀ (s : Stmt) (st : CellState), (∀ part ∈ s.exprs, part.isFetch = false) → s.fetches c st = []
  | .declare _ _ _, _, h => Expr.fetches_eq_nil h
  | .assign _ _, _, h => Expr.fetches_eq_nil h
  | .loop _ _ _ body, st, h => by
      rw [Stmt.fetches]
      exact recordFrom_eq_nil (fun _ _ => Stmt.fetchesAll_eq_nil body _ h) 0 _ st
  | .block body, st, h => Stmt.fetchesAll_eq_nil body st h
  | .output _, _, h => Expr.fetches_eq_nil h

theorem Stmt.fetchesAll_eq_nil :
    ∀ (body : List Stmt) (st : CellState), (∀ part ∈ Stmt.exprsAll body, part.isFetch = false) →
      Stmt.fetchesAll c body st = []
  | [], _, _ => rfl
  | s :: rest, st, h => by
      rw [Stmt.exprsAll, List.forall_mem_append] at h
      rw [Stmt.fetchesAll, Stmt.fetches_eq_nil s st h.1, List.nil_append]
      cases s.exec c st with
      | error e => rfl
      | ok st' => exact Stmt.fetchesAll_eq_nil rest st' h.2

end

/-! ### Loops -/

/-- What iterations that keep an invariant leave on the record is what each of them leaves there. -/
theorem recordFrom_eq_flatMap {ε σ τ : Type} {body : Nat → σ → Except ε σ}
    {record : Nat → σ → List τ} {I : Nat → σ → Prop} {f : Nat → List τ} {first n : Nat} {s : σ}
    (hrecord : ∀ k s, k < first + n → I k s → record k s = f k)
    (hstep : ∀ k s, k < first + n → I k s → ∃ s', body k s = .ok s' ∧ I (k + 1) s')
    (hs : I first s) : recordFrom body record first n s = (List.range' first n).flatMap f := by
  induction n generalizing first s with
  | zero => rfl
  | succ n ih =>
      obtain ⟨s₁, hrun, hs₁⟩ := hstep first s (by omega) hs
      have hrest : recordFrom body record (first + 1) n s₁
          = (List.range' (first + 1) n).flatMap f := by
        refine ih ?_ ?_ hs₁
        · intro k s hk
          exact hrecord k s (by omega)
        · intro k s hk
          exact hstep k s (by omega)
      rw [recordFrom, hrun, hrecord first s (by omega) hs, List.range'_succ, List.flatMap_cons]
      exact congrArg _ hrest

/-- The fetches of a loop are those of its body at each value of the counter. -/
theorem Stmt.fetches_loop {v : Var} {count step : Nat} {body : List Stmt}
    {I : Nat → CellState → Prop} {f : Nat → List (Int × Int)} (hstep : 0 < step)
    (hfetches : ∀ k st, k * step < count → I k st →
      Stmt.fetchesAll c body (st.set v (.int (c.unit.wrap (k * step : Nat)))) = f (k * step))
    (hbody : ∀ k st, k * step < count → I k st →
      ∃ st', Stmt.execAll c body (st.set v (.int (c.unit.wrap (k * step : Nat)))) = .ok st'
        ∧ I (k + 1) st')
    (hst : I 0 st) :
    Stmt.fetches c (.loop v count step body) st = (counters count step).flatMap f := by
  have hlt : ∀ k, k < 0 + tripCount count step → k * step < count := by
    intro k hk
    rw [Nat.zero_add] at hk
    exact (lt_tripCount_iff hstep).1 hk
  rw [Stmt.fetches, counters_eq_map count hstep, List.flatMap_map, List.range_eq_range']
  exact recordFrom_eq_flatMap (fun k st hk => hfetches k st (hlt k hk))
    (fun k st hk => hbody k st (hlt k hk)) hst

/-! ## Groups -/

/-- Element `j` of the window of an output cell, by its row and its index in the row. -/
def Invocation.windowElement (c : Invocation) (d : Descriptor) (j : Nat) : Int × Int :=
  (c.row, (c.col * d.window + j : Nat))

theorem Expr.fetches_fetch {row index : Expr} {r i : Int} (hrow : row.eval c vars = .ok (.int r))
    (hindex : index.eval c vars = .ok (.int i)) (hrowNone : row.fetches c vars = [])
    (hindexNone : index.fetches c vars = []) :
    (Expr.fetch row index).fetches c vars = [(r, i)] := by
  have hself : (Expr.fetch row index).fetch? c vars = some (r, i) := by
    simp [Expr.fetch?, hrow, hindex, Except.toOption, Value.int?]
  unfold Expr.fetches at hrowNone hindexNone ⊢
  rw [Expr.subterms, List.filterMap_cons_some hself, List.filterMap_append, hrowNone, hindexNone,
    List.append_nil]

theorem Expr.fetches_pack (ty : Ty) (e₀ e₁ e₂ e₃ : Expr) :
    (Expr.pack ty e₀ e₁ e₂ e₃).fetches c vars
      = e₀.fetches c vars ++ e₁.fetches c vars ++ e₂.fetches c vars ++ e₃.fetches c vars := by
  have hself : (Expr.pack ty e₀ e₁ e₂ e₃).fetch? c vars = none := rfl
  unfold Expr.fetches
  rw [Expr.subterms, List.filterMap_cons_none hself]
  simp only [List.filterMap_append]

variable {d : Descriptor} {s : Scheme} {m : s.Meaning} {a : m.Acc} {p : Nat → Float32}

theorem Kernel.isFetch_laneIndex (k : Nat) :
    ∀ part ∈ (Kernel.laneIndex k).subterms, part.isFetch = false := by
  unfold Kernel.laneIndex Kernel.sizeConstant
  split <;> simp [Expr.subterms, Expr.isFetch]

/-- A lane of a group fetches its element of the window, and nothing where it is padding. -/
theorem fetches_groupLane {first live k : Nat} (hc : c.Covers d p)
    (hbatch : vars.get? .batch = some (.int c.row))
    (hinIdx : vars.get? .inIdx = some (.int (c.col * d.window + first : Nat)))
    (hlive : k < live → first + k < d.window) :
    (Kernel.groupLane live k).fetches c vars
      = if k < live then [c.windowElement d (first + k)] else [] := by
  rw [Kernel.groupLane_eq]
  by_cases hk : k < live
  · have hin := hlive hk
    have hlast := hc.last_le
    have hindex := eval_laneIndex hc.holds hinIdx (k := k) (by omega)
    rw [Nat.add_assoc] at hindex
    rw [if_pos hk, if_pos hk]
    exact Expr.fetches_fetch (Expr.eval_var hbatch) hindex rfl
      (Expr.fetches_eq_nil (Kernel.isFetch_laneIndex k))
  · rw [if_neg hk, if_neg hk]
    rfl

theorem Scheme.isFetch_updateStmts (s : Scheme) :
    ∀ part ∈ Stmt.exprsAll s.updateStmts, part.isFetch = false := by
  unfold Scheme.updateStmts
  cases s.update <;> decide

/-- Reading a group fetches as many elements as are live, in order. -/
theorem fetchesAll_groupStmts {e : Expr} {first live : Nat} (hc : c.Covers d p)
    (hst : Ready c d m a st)
    (he : e.eval c st.vars = .ok (.int (c.col * d.window + first : Nat)))
    (hnone : ∀ part ∈ e.subterms, part.isFetch = false) (hfour : live ≤ 4)
    (hlive : ∀ k < 4, k < live ↔ first + k < d.window) :
    Stmt.fetchesAll c (Kernel.groupStmts s e live) st
      = (List.range live).map fun k => c.windowElement d (first + k) := by
  let st₁ := st.set .inIdx (.int (c.col * d.window + first : Nat))
  have hst₁ : Ready c d m a st₁ := hst.set _ (by decide)
  have hinIdx := CellState.get?_set_self st .inIdx (.int (c.col * d.window + first : Nat))
  have hpack := eval_groupPack (m := m) hc hst₁.batch hinIdx hlive
  have hlane : ∀ k < 4, (Kernel.groupLane live k).fetches c st₁.vars
      = if k < live then [c.windowElement d (first + k)] else [] := by
    intro k hk
    exact fetches_groupLane hc hst₁.batch hinIdx (hlive k hk).1
  have hgroup : ∀ live ≤ 4, (if 0 < live then [c.windowElement d (first + 0)] else [])
        ++ (if 1 < live then [c.windowElement d (first + 1)] else [])
        ++ (if 2 < live then [c.windowElement d (first + 2)] else [])
        ++ (if 3 < live then [c.windowElement d (first + 3)] else [])
      = (List.range live).map fun k => c.windowElement d (first + k) := by
    intro live hfour
    have hcases : live = 0 ∨ live = 1 ∨ live = 2 ∨ live = 3 ∨ live = 4 := by omega
    rcases hcases with rfl | rfl | rfl | rfl | rfl <;> rfl
  have hdeclare : Stmt.exec c (.declare .inIdx .int e) st = .ok st₁ := Stmt.exec_declare he rfl
  have hvalues := Stmt.exec_declare (v := .values) hpack (m.ty_group _)
  rw [Kernel.groupStmts, List.cons_append, List.cons_append, List.nil_append,
    Stmt.fetchesAll_cons _ hdeclare, Stmt.fetchesAll_cons _ hvalues,
    Stmt.fetchesAll_eq_nil _ _ s.isFetch_updateStmts, Stmt.fetches, Stmt.fetches,
    Expr.fetches_eq_nil hnone, Expr.fetches_pack, hlane 0 (by decide), hlane 1 (by decide),
    hlane 2 (by decide), hlane 3 (by decide), List.nil_append, List.append_nil, hgroup live hfour]

/-! ## Offsets -/

/-- The offsets in a window at which a kernel fetches: four from each value of the loop's counter
on, and then those after the full groups. -/
def Geometry.offsets (g : Geometry) : List Nat :=
  ((counters g.vectorizedCount laneCount).flatMap fun i => (List.range laneCount).map (i + ·))
    ++ (List.range g.remainder).map (g.vectorizedCount + ·)

theorem flatMap_range_map_add (count size : Nat) :
    ((List.range count).flatMap fun k => (List.range size).map (k * size + ·))
      = List.range (count * size) := by
  induction count with
  | zero => rw [Nat.zero_mul]; rfl
  | succ count ih =>
      rw [List.range_succ, List.flatMap_append, ih, List.flatMap_singleton, Nat.succ_mul,
        List.range_add]

/-- The offsets run through the window once, in order. -/
theorem Geometry.offsets_of (window rowLength : Nat) :
    (Geometry.of window rowLength).offsets = List.range window := by
  have hfull : tripCount (Geometry.of window rowLength).vectorizedCount laneCount * laneCount
      = (Geometry.of window rowLength).vectorizedCount :=
    tripCount_mul_of_dvd (by decide) (Nat.dvd_mul_left laneCount _)
  have hgroups := flatMap_range_map_add
    (tripCount (Geometry.of window rowLength).vectorizedCount laneCount) laneCount
  rw [Geometry.offsets, counters_eq_map _ (by decide), List.flatMap_map, hgroups, hfull,
    ← List.range_add, Geometry.vectorizedCount_add_remainder]

/-! ## Emitted bodies -/

theorem fetchesAll_vectorLoop (hc : c.Covers d p) (hst : Ready c d m m.init st) :
    Stmt.fetchesAll c (Kernel.vectorLoop d.geometry s) st
      = (counters d.geometry.vectorizedCount laneCount).flatMap fun i =>
          (List.range laneCount).map fun k => c.windowElement d (i + k) := by
  unfold Kernel.vectorLoop
  by_cases hzero : d.geometry.vectorizedCount = 0
  · rw [if_pos hzero, hzero]
    rfl
  · rw [if_neg hzero, Stmt.fetchesAll_singleton]
    -- The same invariant as for the value: after `k` iterations the first `k` groups are in.
    refine Stmt.fetches_loop (I := fun k st => Ready c d m (m.after p k) st) (by decide) ?_ ?_ hst
    · intro k st hk hst
      have hfull := d.mul_laneCount_lt_iff.1 hk
      have hlast := hc.last_le
      have hready := hst.set (.int (c.unit.wrap (k * laneCount : Nat))) (v := .i) (by decide)
      have hfirst := eval_loopFirst hc.holds hst (k := k) (by omega)
      rw [mul_laneCount]
      rw [mul_laneCount] at hready hfirst
      exact fetchesAll_groupStmts hc hready hfirst (by simp [Expr.subterms, Expr.isFetch])
        (Nat.le_refl 4) (by unfold laneCount; omega)
    · intro k st hk hst
      exact execAll_loopGroup hc (d.mul_laneCount_lt_iff.1 hk) hst

theorem fetchesAll_tailBlock (hc : c.Covers d p)
    (hst : Ready c d m (m.after p (d.window / 4)) st) :
    Stmt.fetchesAll c (Kernel.tailBlock d.geometry s) st
      = (List.range d.geometry.remainder).map fun k =>
          c.windowElement d (d.geometry.vectorizedCount + k) := by
  have hrest : d.geometry.remainder = d.window % 4 := rfl
  have hfull := d.vectorizedCount_eq
  unfold Kernel.tailBlock
  by_cases hzero : d.geometry.remainder = 0
  · rw [if_pos hzero, hzero]
    rfl
  · rw [if_neg hzero, Stmt.fetchesAll_singleton, Stmt.fetches]
    have hlast := hc.last_le
    have hfirst := Expr.eval_add hc.holds (Expr.eval_var hst.inOffset)
      (Expr.eval_sizeConstant hc.holds (n := d.geometry.vectorizedCount) (by omega)) (by omega)
    exact fetchesAll_groupStmts hc hst hfirst
      (by simp [Expr.subterms, Expr.isFetch, Kernel.sizeConstant]) (by omega) (by omega)

theorem Kernel.isFetch_prologue (d : Descriptor) (s : Scheme) :
    ∀ part ∈ Stmt.exprsAll (Kernel.prologue d s), part.isFetch = false := by
  unfold Kernel.prologue Scheme.initExpr
  cases s.accumulator <;>
    simp [Stmt.exprsAll, Stmt.exprs, Expr.subterms, Expr.isFetch, Kernel.sizeConstant]

theorem Scheme.isFetch_combineExpr (s : Scheme) :
    ∀ part ∈ s.combineExpr.subterms, part.isFetch = false := by
  unfold Scheme.combineExpr
  cases s.combine <;> decide

/-- An emitted body fetches the elements of its window at the offsets of its geometry, in order. -/
theorem Invocation.fetches_emitted (m : s.Meaning) (hc : c.Covers d p)
    (hneutral : c.kernel.neutral = s.neutral)
    (hbody : c.kernel.body = (Kernel.emit d d.geometry s).body) :
    c.fetches = d.geometry.offsets.map (c.windowElement d) := by
  obtain ⟨st₁, hprologue, hst₁⟩ := execAll_prologue (m := m) hc hneutral .initial
  obtain ⟨st₂, hloop, hst₂⟩ := execAll_vectorLoop hc hst₁
  obtain ⟨st₃, htail, hst₃⟩ := execAll_tailBlock hc hst₂
  have houtput : Stmt.fetchesAll c [.output s.combineExpr] st₃ = [] := by
    rw [Stmt.fetchesAll_singleton, Stmt.fetches]
    exact Expr.fetches_eq_nil s.isFetch_combineExpr
  rw [Invocation.fetches, hbody]
  simp only [Kernel.emit, List.append_assoc]
  rw [Stmt.fetchesAll_append _ hprologue, Stmt.fetchesAll_append _ hloop,
    Stmt.fetchesAll_append _ htail, Stmt.fetchesAll_eq_nil _ _ (Kernel.isFetch_prologue d s),
    fetchesAll_vectorLoop hc hst₁, fetchesAll_tailBlock hc hst₂, houtput, List.nil_append,
    List.append_nil, Geometry.offsets, List.map_append, List.map_flatMap]
  simp only [List.map_map, Function.comp_def]

/-- Every cell of a built program fetches the elements of its window, one after the other. -/
theorem Program.fetches_build {u : IntUnit} {input : Tensor} {row o : Nat}
    (hu : u.HoldsKernelInts) (hshape : input.shape = d.inputShape) (hrow : row < d.batch)
    (ho : o < d.geometry.outSize) :
    Invocation.fetches ⟨u, (Program.build d).kernel, input, row, o⟩
      = d.geometry.offsets.map fun j => ((row : Int), ((o * d.window + j : Nat) : Int)) := by
  let c : Invocation := ⟨u, (Program.build d).kernel, input, row, o⟩
  have hneutral := Scheme.ofKind_neutral d.kind
  have hcovers : c.Covers d _ :=
    Invocation.covers_of_guard hu hshape hrow ho hneutral (Program.guard_of_build d)
  exact Invocation.fetches_emitted (Scheme.meaning d.kind) hcovers rfl rfl

end WindowReduction
