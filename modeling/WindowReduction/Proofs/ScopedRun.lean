import WindowReduction.Proofs.BoundReads

/-!
# Block scopes

A kernel body as a block-structured language reads it. A variable is in scope from its declaration
to the end of the block or of the loop iteration that declares it, and has no value before or after.
`Stmt.WellScoped` says that a body can be read so, and `Stmt.execScoped` runs it so: the variables
in scope are a stack of bindings, and what a block or an iteration has put onto the stack is dropped
at its end.

Main definitions: `Stmt.WellScoped`, `Stmt.execScoped`, `Invocation.runScoped`.
Main statements: `ScopedState.exists_visible` (a variable in scope has a value), `counters_eq_map`
(the values of a loop's counter).
-/

namespace WindowReduction

/-! ## Well-scoped bodies -/

mutual

/-- The variables that a statement assigns to, in nested statements too. -/
def Stmt.assigned : Stmt → List Var
  | .declare _ _ _ => []
  | .assign v _ => [v]
  | .loop _ _ _ body => Stmt.assignedAll body
  | .block body => Stmt.assignedAll body
  | .output _ => []

/-- The variables that a list of statements assigns to. -/
def Stmt.assignedAll : List Stmt → List Var
  | [] => []
  | s :: rest => s.assigned ++ Stmt.assignedAll rest

end

/-- Statements that can be read in order where the variables of `scope` have been declared. Only
variables in scope are read and assigned, no declaration hides another one, loops advance and do not
assign their counters, and what is declared in a block or a loop is in scope up to its end. -/
inductive Stmt.WellScoped : List Var → List Stmt → Prop
  | nil {scope : List Var} : WellScoped scope []
  | declare {scope : List Var} {v : Var} {ty : Ty} {e : Expr} {rest : List Stmt}
      (hnew : v ∉ scope) (hreads : e.reads ⊆ scope) (hrest : WellScoped (v :: scope) rest) :
      WellScoped scope (.declare v ty e :: rest)
  | assign {scope : List Var} {v : Var} {e : Expr} {rest : List Stmt}
      (hv : v ∈ scope) (hreads : e.reads ⊆ scope) (hrest : WellScoped scope rest) :
      WellScoped scope (.assign v e :: rest)
  | loop {scope : List Var} {v : Var} {count step : Nat} {body rest : List Stmt}
      (hnew : v ∉ scope) (hstep : 0 < step) (hfixed : v ∉ Stmt.assignedAll body)
      (hbody : WellScoped (v :: scope) body) (hrest : WellScoped scope rest) :
      WellScoped scope (.loop v count step body :: rest)
  | block {scope : List Var} {body rest : List Stmt}
      (hbody : WellScoped scope body) (hrest : WellScoped scope rest) :
      WellScoped scope (.block body :: rest)
  | output {scope : List Var} {e : Expr} {rest : List Stmt}
      (hreads : e.reads ⊆ scope) (hrest : WellScoped scope rest) :
      WellScoped scope (.output e :: rest)

/-- A kernel whose body is well scoped. -/
def Kernel.WellScoped (k : Kernel) : Prop :=
  Stmt.WellScoped [] k.body

/-! ## Bindings -/

/-- The variables in scope with their values, the latest first, and the value of the output cell. -/
structure ScopedState where
  bindings : List (Var × Value)
  output? : Option Float32

namespace ScopedState

/-- Nothing is declared yet. -/
def initial : ScopedState :=
  ⟨[], none⟩

/-- The variables in scope. -/
def scope (t : ScopedState) : List Var :=
  t.bindings.map Prod.fst

/-- The values that an expression sees: of several bindings of a variable the latest one. -/
def visible (t : ScopedState) : Store :=
  t.bindings.foldr (fun b vars => vars.set b.1 b.2) .empty

/-- Puts a new variable in scope. -/
def declare (t : ScopedState) (v : Var) (x : Value) : ScopedState :=
  { t with bindings := (v, x) :: t.bindings }

/-- Replaces the value of the latest binding of a variable. -/
def rebind (v : Var) (x : Value) : List (Var × Value) → List (Var × Value)
  | [] => []
  | b :: rest => if b.1 = v then (v, x) :: rest else b :: rebind v x rest

/-- Gives a variable in scope a new value. -/
def assign (t : ScopedState) (v : Var) (x : Value) : ScopedState :=
  { t with bindings := rebind v x t.bindings }

/-- Ends a scope that was opened in the state `outer`: the bindings that have been added since are
dropped. -/
def leave (outer t : ScopedState) : ScopedState :=
  { t with bindings := t.bindings.drop (t.bindings.length - outer.bindings.length) }

/-- A variable in scope has a value, that of one of its bindings. -/
theorem exists_visible {t : ScopedState} {v : Var} (hv : v ∈ t.scope) :
    ∃ x, (v, x) ∈ t.bindings ∧ t.visible.get? v = some x := by
  rcases t with ⟨bindings, output⟩
  unfold scope at hv
  unfold visible
  induction bindings with
  | nil => cases hv
  | cons b rest ih =>
      rw [List.foldr_cons]
      by_cases h : v = b.1
      · subst h
        exact ⟨b.2, List.mem_cons_self, by rw [Store.get?_set, if_pos rfl]⟩
      · rcases ih (List.mem_of_ne_of_mem h hv) with ⟨x, hx, hget⟩
        exact ⟨x, List.mem_cons_of_mem _ hx, by rw [Store.get?_set, if_neg h, hget]⟩

theorem map_fst_rebind (v : Var) (x : Value) (bindings : List (Var × Value)) :
    (rebind v x bindings).map Prod.fst = bindings.map Prod.fst := by
  induction bindings with
  | nil => rfl
  | cons b rest ih =>
      rw [rebind]
      split
      · rename_i h
        rw [List.map_cons, List.map_cons, h]
      · rw [List.map_cons, List.map_cons, ih]

/-- Only the bindings of the variable change, if there is but one. -/
theorem mem_rebind {v : Var} {x : Value} {bindings : List (Var × Value)}
    (hnodup : (bindings.map Prod.fst).Nodup) {b : Var × Value} (hb : b ∈ rebind v x bindings) :
    b = (v, x) ∨ b.1 ≠ v ∧ b ∈ bindings := by
  induction bindings with
  | nil => cases hb
  | cons a rest ih =>
      rw [List.map_cons, List.nodup_cons] at hnodup
      rw [rebind] at hb
      split at hb
      · rename_i ha
        rcases List.mem_cons.1 hb with rfl | hrest
        · exact Or.inl rfl
        · refine Or.inr ⟨?_, List.mem_cons_of_mem _ hrest⟩
          rintro rfl
          exact hnodup.1 (ha ▸ List.mem_map_of_mem hrest)
      · rename_i ha
        rcases List.mem_cons.1 hb with rfl | hrest
        · exact Or.inr ⟨ha, List.mem_cons_self⟩
        · rcases ih hnodup.2 hrest with h | ⟨hne, hmem⟩
          · exact Or.inl h
          · exact Or.inr ⟨hne, List.mem_cons_of_mem _ hmem⟩

/-- Ending a scope brings back the variables of the scope around it. -/
theorem scope_leave {outer t : ScopedState} (h : outer.scope <:+ t.scope) :
    (outer.leave t).scope = outer.scope := by
  rcases h with ⟨added, h⟩
  have hlength : t.bindings.length - outer.bindings.length = added.length := by
    have := congrArg List.length h
    simp only [scope, List.length_append, List.length_map] at this
    omega
  have hscope : (outer.leave t).scope = t.scope.drop added.length := by
    simp only [scope, leave, hlength, List.map_drop]
  rw [hscope, ← h, List.drop_left]

end ScopedState

/-! ## Runs -/

/-- The values of a loop's counter: the multiples of the step below the count, in order. -/
def counters (count step : Nat) : List Nat :=
  (List.range count).filter fun i => step ∣ i

theorem tripCount_succ (count : Nat) {step : Nat} (hstep : 0 < step) :
    tripCount (count + 1) step = tripCount count step + if step ∣ count then 1 else 0 := by
  have hsum : count + 1 + (step - 1) = count + (step - 1) + 1 := by omega
  have hlast : count + (step - 1) + 1 = step + count := by omega
  have hdvd : step ∣ count + (step - 1) + 1 ↔ step ∣ count := by
    rw [hlast, Nat.dvd_add_right (Nat.dvd_refl step)]
  simp only [tripCount, hsum, Nat.succ_div, hdvd]

theorem tripCount_mul_of_dvd {count step : Nat} (hstep : 0 < step) (h : step ∣ count) :
    tripCount count step * step = count := by
  rcases h with ⟨k, rfl⟩
  have hlast : (step - 1) / step = 0 := Nat.div_eq_of_lt (by omega)
  rw [tripCount, Nat.mul_add_div hstep, hlast, Nat.add_zero, Nat.mul_comm]

/-- A loop counts in steps from zero, as often as it runs. -/
theorem counters_eq_map (count : Nat) {step : Nat} (hstep : 0 < step) :
    counters count step = (List.range (tripCount count step)).map fun k => k * step := by
  induction count with
  | zero =>
      have hzero : tripCount 0 step = 0 := Nat.div_eq_of_lt (by omega)
      rw [hzero]
      rfl
  | succ count ih =>
      have hsplit : counters (count + 1) step
          = counters count step ++ if step ∣ count then [count] else [] := by
        simp only [counters, List.range_succ, List.filter_append, List.filter_cons, List.filter_nil,
          decide_eq_true_eq]
      rw [hsplit, ih, tripCount_succ count hstep]
      split
      · rename_i h
        rw [List.range_succ, List.map_append, List.map_singleton, tripCount_mul_of_dvd hstep h]
      · rw [List.append_nil, Nat.add_zero]

mutual

/-- Runs a statement in its scope. -/
def Stmt.execScoped (c : Invocation) : Stmt → ScopedState → Except Halt ScopedState
  | .declare v ty e, t => do
    let x ← e.eval c t.visible
    if x.ty = ty then return t.declare v x else mismatch
  | .assign v e, t => do
    let old ← t.visible.read v
    let x ← e.eval c t.visible
    if x.ty = old.ty then return t.assign v x else mismatch
  | .loop v count step body, t =>
    (counters count step).foldlM
      (fun t (i : Nat) => do
        let t' ← Stmt.execScopedAll c body (t.declare v (.int (c.unit.wrap i)))
        return t.leave t') t
  | .block body, t => do
    let t' ← Stmt.execScopedAll c body t
    return t.leave t'
  | .output e, t => do
    let x ← (← e.eval c t.visible).asFloat
    return { t with output? := some x }

/-- Runs statements in order, in one scope. -/
def Stmt.execScopedAll (c : Invocation) : List Stmt → ScopedState → Except Halt ScopedState
  | [], t => .ok t
  | stmt :: rest, t => do
    let t ← stmt.execScoped c t
    Stmt.execScopedAll c rest t

end

/-- Runs the kernel's body with block scopes and gives the value of the output cell. -/
def Invocation.runScoped (c : Invocation) : Except Halt Float32 := do
  let t ← Stmt.execScopedAll c c.kernel.body .initial
  match t.output? with
  | some x => return x
  | none => .error (.fault .missingOutput)

end WindowReduction
