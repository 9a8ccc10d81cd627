import Mathlib.Data.List.Nodup
import WindowReduction.Proofs.ScopedRun

/-!
# One store for all blocks

The executor keeps the variables of a kernel body in one store, in which a value outlives the block
that it was declared in. For a well-scoped body this makes no difference: the bindings in scope
always stand in the store, a well-scoped expression reads nothing else, and what is left over from
an earlier block or iteration is written anew before it is read. The kernels of all descriptors are
well scoped.

Main definitions: `StandsIn` (the store holds the bindings) and `KeepsScope` (what a body does to
them).
Main statements: `StandsIn.exec_loop`, `Stmt.WellScoped.keepsScope`, `Kernel.wellScoped_emit` and
`Invocation.run_eq_runScoped`.
-/

namespace WindowReduction

/-! ## The store and the bindings in scope -/

/-- The variables of `scope` are those that have a binding, each one has one, and its value stands
in the store. Nothing is said about other variables in the store. -/
structure StandsIn (scope : List Var) (s : CellState) (t : ScopedState) : Prop where
  scope_eq : t.scope = scope
  nodup : scope.Nodup
  values : ∀ b ∈ t.bindings, s.vars.get? b.1 = some b.2
  output : s.output? = t.output?

/-- The same for some scope that goes on from `scope`: what comes after an unfinished block. -/
def StandsInFrom (scope : List Var) (s : CellState) (t : ScopedState) : Prop :=
  ∃ inner, scope <:+ inner ∧ StandsIn inner s t

theorem standsIn_initial : StandsIn [] .initial .initial where
  scope_eq := rfl
  nodup := List.nodup_nil
  values := fun _ hb => absurd hb List.not_mem_nil
  output := rfl

section

variable {c : Invocation} {scope : List Var} {s : CellState} {t : ScopedState} {v : Var} {e : Expr}
  {body rest : List Stmt}

namespace StandsIn

/-- A variable in scope has the same value in the store and by its binding. -/
theorem exists_get? (h : StandsIn scope s t) (hv : v ∈ scope) :
    ∃ x, s.vars.get? v = some x ∧ t.visible.get? v = some x := by
  rcases ScopedState.exists_visible (h.scope_eq ▸ hv) with ⟨x, hx, hget⟩
  exact ⟨x, h.values _ hx, hget⟩

theorem readsAlike (h : StandsIn scope s t) (hreads : e.reads ⊆ scope) :
    e.ReadsAlike s.vars t.visible :=
  fun _ hv => h.exists_get? (hreads hv)

/-- A declaration writes over whatever an earlier block has left. -/
theorem declare (h : StandsIn scope s t) (hnew : v ∉ scope) (x : Value) :
    StandsIn (v :: scope) (s.set v x) (t.declare v x) where
  scope_eq := congrArg (v :: ·) h.scope_eq
  nodup := List.nodup_cons.2 ⟨hnew, h.nodup⟩
  values := by
    intro b hb
    rcases List.mem_cons.1 hb with rfl | hmem
    · exact CellState.get?_set_self s v x
    · have hne : b.1 ≠ v := by
        rintro rfl
        exact hnew (h.scope_eq ▸ List.mem_map_of_mem hmem)
      rw [CellState.get?_set_of_ne s x hne, h.values b hmem]
  output := h.output

theorem assign (h : StandsIn scope s t) (v : Var) (x : Value) :
    StandsIn scope (s.set v x) (t.assign v x) where
  scope_eq := (ScopedState.map_fst_rebind v x t.bindings).trans h.scope_eq
  nodup := h.nodup
  values := by
    have hnodup : t.scope.Nodup := h.scope_eq ▸ h.nodup
    intro b hb
    rcases ScopedState.mem_rebind hnodup hb with rfl | ⟨hne, hmem⟩
    · exact CellState.get?_set_self s v x
    · rw [CellState.get?_set_of_ne s x hne, h.values b hmem]
  output := h.output

/-- The end of a scope leaves what was in scope around it. -/
theorem leave {outer : ScopedState} (h : StandsInFrom scope s t) (houter : outer.scope = scope) :
    StandsIn scope s (outer.leave t) := by
  rcases h with ⟨inner, hsuffix, h⟩
  have hscope : outer.scope <:+ t.scope := by rw [houter, h.scope_eq]; exact hsuffix
  constructor
  case scope_eq => rw [ScopedState.scope_leave hscope, houter]
  case nodup => exact h.nodup.sublist hsuffix.sublist
  case values => exact fun b hb => h.values b (List.mem_of_mem_drop hb)
  case output => exact h.output

end StandsIn

/-! ## Statements -/

theorem EndAlike.set_if {σ τ : Type} {R : σ → τ → Prop} {a : σ} {b : τ} (p : Prop) [Decidable p]
    (h : R a b) : EndAlike R (if p then .ok a else mismatch) (if p then .ok b else mismatch) := by
  split
  · exact .ok h
  · exact .halt fun v h => by cases h

theorem StandsIn.exec_declare (h : StandsIn scope s t) (hnew : v ∉ scope) (ty : Ty)
    (hreads : e.reads ⊆ scope) :
    EndAlike (StandsIn (v :: scope)) (Stmt.exec c (.declare v ty e) s)
      (Stmt.execScoped c (.declare v ty e) t) := by
  rw [Stmt.exec, Stmt.execScoped]
  refine (Expr.eval_endAlike (h.readsAlike hreads)).bind_eq fun x => ?_
  exact .set_if _ (h.declare hnew x)

theorem StandsIn.exec_assign (h : StandsIn scope s t) (hv : v ∈ scope)
    (hreads : e.reads ⊆ scope) :
    EndAlike (StandsIn scope) (Stmt.exec c (.assign v e) s)
      (Stmt.execScoped c (.assign v e) t) := by
  rcases h.exists_get? hv with ⟨old, hold, hold'⟩
  have hread : s.vars.read v = .ok old := by rw [Store.read, hold]
  have hread' : t.visible.read v = .ok old := by rw [Store.read, hold']
  rw [Stmt.exec, Stmt.execScoped, hread, hread']
  refine (Expr.eval_endAlike (h.readsAlike hreads)).bind_eq fun x => ?_
  exact .set_if _ (h.assign v x)

theorem StandsIn.exec_output (h : StandsIn scope s t) (hreads : e.reads ⊆ scope) :
    EndAlike (StandsIn scope) (Stmt.exec c (.output e) s) (Stmt.execScoped c (.output e) t) := by
  rw [Stmt.exec, Stmt.execScoped]
  refine (Expr.eval_endAlike (h.readsAlike hreads)).bind_eq fun x => ?_
  refine x.neverUnbound_asFloat.endAlike.bind_eq fun z => ?_
  exact .ok ⟨h.scope_eq, h.nodup, h.values, rfl⟩

/-- Statements that go on from matching states in a scope, whatever the scope they end in. -/
def KeepsScope (c : Invocation) (scope : List Var) (body : List Stmt) : Prop :=
  ∀ s t, StandsIn scope s t →
    EndAlike (StandsInFrom scope) (Stmt.execAll c body s) (Stmt.execScopedAll c body t)

theorem StandsIn.exec_block (h : StandsIn scope s t) (hbody : KeepsScope c scope body) :
    EndAlike (StandsIn scope) (Stmt.exec c (.block body) s)
      (Stmt.execScoped c (.block body) t) := by
  rw [Stmt.exec, Stmt.execScoped, ← bind_pure (Stmt.execAll c body s)]
  refine (hbody s t h).bind fun s' t' ht' => ?_
  exact .ok (StandsIn.leave ht' h.scope_eq)

/-- Iterations that agree one by one agree together. -/
theorem iterateFrom_endAlike {σ τ : Type} {R : σ → τ → Prop} {f : Nat → σ → Except Halt σ}
    {g : τ → Nat → Except Halt τ} (hfg : ∀ k a b, R a b → EndAlike R (f k a) (g b k))
    {first n : Nat} {a : σ} {b : τ} (hab : R a b) :
    EndAlike R (iterateFrom f first n a) ((List.range' first n).foldlM g b) := by
  induction n generalizing first a b with
  | zero => exact .ok hab
  | succ n ih =>
      rw [List.range'_succ, List.foldlM_cons]
      have hstep := hfg first a b hab
      rw [iterateFrom]
      generalize f first a = x at hstep
      generalize g b first = y at hstep
      cases hstep with
      | ok h => exact ih h
      | halt h => exact .halt h

/-- The counter is bound anew in each iteration, as it is written anew in the store. -/
theorem StandsIn.exec_loop (h : StandsIn scope s t) (hnew : v ∉ scope) (count : Nat) {step : Nat}
    (hstep : 0 < step) (hbody : KeepsScope c (v :: scope) body) :
    EndAlike (StandsIn scope) (Stmt.exec c (.loop v count step body) s)
      (Stmt.execScoped c (.loop v count step body) t) := by
  rw [Stmt.exec, Stmt.execScoped, if_neg (Nat.ne_of_gt hstep), counters_eq_map count hstep,
    List.foldlM_map, List.range_eq_range']
  refine iterateFrom_endAlike (fun k s t h => ?_) h
  rw [← bind_pure (Stmt.execAll c body _)]
  refine (hbody _ _ (h.declare hnew _)).bind fun s' t' ht' => ?_
  rcases ht' with ⟨inner, hsuffix, ht'⟩
  have hfrom : StandsInFrom scope s' t' := ⟨inner, (List.suffix_cons v scope).trans hsuffix, ht'⟩
  exact .ok (StandsIn.leave hfrom h.scope_eq)

/-- A first statement that keeps the scope, and the rest. -/
theorem KeepsScope.cons {stmt : Stmt} {scope' : List Var} (hsuffix : scope <:+ scope')
    (hstmt : ∀ s t, StandsIn scope s t →
      EndAlike (StandsIn scope') (stmt.exec c s) (stmt.execScoped c t))
    (hrest : KeepsScope c scope' rest) : KeepsScope c scope (stmt :: rest) := by
  intro s t h
  rw [Stmt.execAll, Stmt.execScopedAll]
  refine (hstmt s t h).bind fun s' t' ht' => ?_
  refine (hrest s' t' ht').imp fun s'' t'' ht'' => ?_
  rcases ht'' with ⟨inner, hinner, ht''⟩
  exact ⟨inner, hsuffix.trans hinner, ht''⟩

/-- A well-scoped body runs on one store as it runs with block scopes. -/
theorem Stmt.WellScoped.keepsScope (h : Stmt.WellScoped scope body) : KeepsScope c scope body := by
  induction h with
  | nil => exact fun s t h => .ok ⟨_, List.suffix_rfl, h⟩
  | declare hnew hreads hrest ih =>
      exact ih.cons (List.suffix_cons _ _) fun s t h => h.exec_declare hnew _ hreads
  | assign hv hreads hrest ih =>
      exact ih.cons List.suffix_rfl fun s t h => h.exec_assign hv hreads
  | loop hnew hstep hfixed hbody hrest ihbody ihrest =>
      exact ihrest.cons List.suffix_rfl fun s t h => h.exec_loop hnew _ hstep ihbody
  | block hbody hrest ihbody ihrest =>
      exact ihrest.cons List.suffix_rfl fun s t h => h.exec_block ihbody
  | output hreads hrest ih =>
      exact ih.cons List.suffix_rfl fun s t h => h.exec_output hreads

end

/-! ## Emitted kernels -/

section

variable {scope : List Var} {first : Expr} {rest : List Stmt}

theorem Kernel.reads_groupLane (live k : Nat) :
    (Kernel.groupLane live k).reads ⊆ [.batch, .inIdx] := by
  unfold Kernel.groupLane
  split
  · exact List.nil_subset _
  · split
    · exact List.Subset.refl [Var.batch, Var.inIdx]
    · exact List.Subset.refl [Var.batch, Var.inIdx]

theorem Scheme.reads_initExpr (s : Scheme) : s.initExpr.reads = [] := by
  unfold Scheme.initExpr
  cases s.accumulator <;> rfl

theorem Scheme.reads_combineExpr (s : Scheme) : s.combineExpr.reads ⊆ [.accumulator] := by
  unfold Scheme.combineExpr
  cases s.combine <;> decide

/-- Packing lanes reads what the lanes read. -/
theorem Expr.reads_pack_subset {ty : Ty} {e₀ e₁ e₂ e₃ : Expr} (h₀ : e₀.reads ⊆ scope)
    (h₁ : e₁.reads ⊆ scope) (h₂ : e₂.reads ⊆ scope) (h₃ : e₃.reads ⊆ scope) :
    (Expr.pack ty e₀ e₁ e₂ e₃).reads ⊆ scope := by
  have hreads : (Expr.pack ty e₀ e₁ e₂ e₃).reads
      = e₀.reads ++ e₁.reads ++ e₂.reads ++ e₃.reads := by
    simp only [Expr.reads, Expr.subterms, Expr.var?, List.filterMap_cons, List.filterMap_append]
  simp only [hreads, List.append_subset]
  exact ⟨⟨⟨h₀, h₁⟩, h₂⟩, h₃⟩

/-- Folding in a group reads the group and the accumulator. -/
theorem Scheme.wellScoped_updateStmts (s : Scheme) (hvalues : .values ∈ scope)
    (haccumulator : .accumulator ∈ scope) (hnew : .groupAll ∉ scope) :
    Stmt.WellScoped scope s.updateStmts := by
  have hboth : [Var.accumulator, Var.values] ⊆ scope := by
    simp [haccumulator, hvalues]
  have hboth' : [Var.values, Var.accumulator] ⊆ scope := by
    simp [haccumulator, hvalues]
  have hgroup : [Var.values] ⊆ scope := by
    simp [hvalues]
  have htruth : [Var.accumulator, Var.groupAll] ⊆ .groupAll :: scope := by
    simp [haccumulator]
  unfold Scheme.updateStmts
  cases s.update with
  | dotOnes => exact .assign haccumulator hboth .nil
  | laneMin => exact .assign haccumulator hboth' .nil
  | laneMax => exact .assign haccumulator hboth' .nil
  | logicalAnd =>
      exact .declare hnew hgroup (.assign (List.mem_cons_of_mem _ haccumulator) htruth .nil)

/-- A group can be folded in wherever its own variables are not in scope: before the loop's end and
again after the loop. -/
theorem Kernel.wellScoped_groupStmts (s : Scheme) (live : Nat) (hbatch : .batch ∈ scope)
    (haccumulator : .accumulator ∈ scope) (hinIdx : .inIdx ∉ scope) (hvalues : .values ∉ scope)
    (hgroupAll : .groupAll ∉ scope) (hfirst : first.reads ⊆ scope) :
    Stmt.WellScoped scope (Kernel.groupStmts s first live) := by
  have hlane : ∀ k, (Kernel.groupLane live k).reads ⊆ .inIdx :: scope := by
    intro k
    refine List.Subset.trans (Kernel.reads_groupLane live k) ?_
    simp [hbatch]
  refine .declare hinIdx hfirst (.declare (by simp [hvalues]) ?_ ?_)
  · exact Expr.reads_pack_subset (hlane 0) (hlane 1) (hlane 2) (hlane 3)
  · exact s.wellScoped_updateStmts List.mem_cons_self (by simp [haccumulator])
      (by simp [hgroupAll])

/-- Folding in a group assigns to the accumulator alone. -/
theorem Kernel.assignedAll_groupStmts (s : Scheme) (first : Expr) (live : Nat) :
    Stmt.assignedAll (Kernel.groupStmts s first live) = [.accumulator] := by
  unfold Kernel.groupStmts Scheme.updateStmts
  cases s.update <;> rfl

/-- The variables of a kernel outside its loop and its tail, the latest first. -/
def Kernel.outerScope : List Var :=
  [.accumulator, .inOffset, .outIdx, .batch]

theorem Kernel.wellScoped_vectorLoop (g : Geometry) (s : Scheme)
    (hrest : Stmt.WellScoped outerScope rest) :
    Stmt.WellScoped outerScope (Kernel.vectorLoop g s ++ rest) := by
  unfold Kernel.vectorLoop
  split
  · exact hrest
  · refine .loop (by decide) (by decide) ?_ ?_ hrest
    · rw [Kernel.assignedAll_groupStmts]
      decide
    · exact Kernel.wellScoped_groupStmts s laneCount (by decide) (by decide) (by decide)
        (by decide) (by decide) (by decide)

theorem Kernel.wellScoped_tailBlock (g : Geometry) (s : Scheme)
    (hrest : Stmt.WellScoped outerScope rest) :
    Stmt.WellScoped outerScope (Kernel.tailBlock g s ++ rest) := by
  unfold Kernel.tailBlock
  split
  · exact hrest
  · refine .block ?_ hrest
    have hfirst : [Var.inOffset] ⊆ outerScope := by decide
    exact Kernel.wellScoped_groupStmts s g.remainder (by decide) (by decide) (by decide)
      (by decide) (by decide) hfirst

/-- Every emitted kernel is well scoped. -/
theorem Kernel.wellScoped_emit (d : Descriptor) (g : Geometry) (s : Scheme) :
    (Kernel.emit d g s).WellScoped := by
  have hoffset : [Var.outIdx] ⊆ [.outIdx, .batch] := by decide
  have hinit : s.initExpr.reads ⊆ [.inOffset, .outIdx, .batch] := by
    rw [s.reads_initExpr]
    exact List.nil_subset _
  have hcombine : s.combineExpr.reads ⊆ outerScope :=
    List.Subset.trans s.reads_combineExpr (by decide)
  have hbody : Stmt.WellScoped outerScope
      (Kernel.vectorLoop g s ++ (Kernel.tailBlock g s ++ [.output s.combineExpr])) :=
    Kernel.wellScoped_vectorLoop g s (Kernel.wellScoped_tailBlock g s (.output hcombine .nil))
  unfold Kernel.WellScoped
  simp only [Kernel.emit, List.append_assoc]
  refine .declare (by decide) (List.nil_subset _) (.declare (by decide) (List.nil_subset _) ?_)
  exact .declare (by decide) hoffset (.declare (by decide) hinit hbody)

end

/-! ## Runs -/

/-- The outcome of a well-scoped kernel for an output cell, its value or its fault, is the same on
one store and with block scopes, and it is never a variable without a value. Every built kernel is
well scoped. -/
theorem Invocation.run_eq_runScoped :
    (∀ c : Invocation, c.kernel.WellScoped →
        c.run = c.runScoped ∧ ∀ v, c.run ≠ .error (.fault (.unbound v)))
      ∧ ∀ d, (Program.build d).kernel.WellScoped := by
  refine ⟨?_, fun d => Kernel.wellScoped_emit d d.geometry (Scheme.ofKind d.kind)⟩
  intro c hscoped
  have hrun : EndAlike Eq c.run c.runScoped := by
    refine (hscoped.keepsScope _ _ standsIn_initial).bind fun s t h => ?_
    rcases h with ⟨_, _, h⟩
    rw [h.output]
    cases t.output? with
    | none => exact .halt fun v h => by cases h
    | some x => exact .ok rfl
  generalize c.run = x at hrun
  generalize c.runScoped = y at hrun
  cases hrun with
  | ok h =>
      cases h
      exact ⟨rfl, neverUnbound_ok _⟩
  | halt h =>
      refine ⟨rfl, fun v hv => ?_⟩
      cases hv
      exact h v rfl

/-- A loop and a block after it declare one variable with different types, and the accumulator
around them keeps what they assign to it. -/
theorem Invocation.run_eq_runScoped_reused :
    ∃ c : Invocation, c.kernel.WellScoped ∧ c.run = .ok 15.0 ∧ c.runScoped = .ok 15.0 := by
  let k : Kernel :=
    { neutral := 0.0
      guard? := none
      body :=
        [.declare .accumulator .float .neutral,
          .loop .i 10 4
            [.declare .values .float (.toFloat (.var .i)),
              .assign .accumulator (.binary .add (.var .accumulator) (.var .values))],
          .block
            [.declare .values .int (.int 3),
              .assign .accumulator (.binary .add (.var .accumulator) (.toFloat (.var .values)))],
          .output (.var .accumulator)] }
  let c : Invocation := ⟨.trapping64, k, Tensor.ofFn ⟨1, 1⟩ fun _ _ => 0.0, 0, 0⟩
  have hloop : Stmt.WellScoped [.i, .accumulator]
      [.declare .values .float (.toFloat (.var .i)),
        .assign .accumulator (.binary .add (.var .accumulator) (.var .values))] :=
    .declare (by decide) (by decide) (.assign (by decide) (by decide) .nil)
  have hblock : Stmt.WellScoped [.accumulator]
      [.declare .values .int (.int 3),
        .assign .accumulator (.binary .add (.var .accumulator) (.toFloat (.var .values)))] :=
    .declare (by decide) (by decide) (.assign (by decide) (by decide) .nil)
  have hscoped : c.kernel.WellScoped :=
    .declare (by decide) (by decide) (.loop (by decide) (by decide) (by decide) hloop
      (.block hblock (.output (by decide) .nil)))
  have hrun : c.run = .ok 15.0 := by decide +kernel
  exact ⟨c, hscoped, hrun, (Invocation.run_eq_runScoped.1 c hscoped).1 ▸ hrun⟩

/-- Outside its block a variable still has its value in the one store, but is not in scope. -/
example :
    let k : Kernel := ⟨0.0, none, [.block [.declare .values .float (.float 1.0)],
      .output (.var .values)]⟩
    let c : Invocation := ⟨.trapping64, k, Tensor.ofFn ⟨1, 1⟩ fun _ _ => 0.0, 0, 0⟩
    c.run = .ok 1.0 ∧ c.runScoped = .error (.fault (.unbound .values)) := by
  decide +kernel

end WindowReduction
