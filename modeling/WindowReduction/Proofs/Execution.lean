import WindowReduction.Program

/-!
# Runs without a failure

What one expression or statement of a kernel does when nothing in it fails, one lemma for each
construct, so that a run is followed without unfolding the executor. The integers of such a run are
kernel `int`s, and the lemmas hold of every integer unit in which these are exact.

Main statements: `Stmt.exec_loop_of_invariant` (what each iteration keeps holds after the loop).
-/

namespace WindowReduction

/-! ## Integers -/

/-- Every nonnegative kernel `int` is a value of the unit. -/
def IntUnit.HoldsKernelInts (u : IntUnit) : Prop :=
  ∀ n : Nat, n ≤ maxKernelInt → u.wrap n = n

theorem IntUnit.holdsKernelInts_of_modulus {u : IntUnit} (h : 2 * maxKernelInt < u.modulus) :
    u.HoldsKernelInts := by
  intro n hn
  exact Int.bmod_eq_of_le (by omega) (by omega)

theorem trapping64_holdsKernelInts : IntUnit.trapping64.HoldsKernelInts :=
  IntUnit.holdsKernelInts_of_modulus (by decide)

theorem wrapping32_holdsKernelInts : IntUnit.wrapping32.HoldsKernelInts :=
  IntUnit.holdsKernelInts_of_modulus (by decide)

variable {u : IntUnit} {m n : Nat}

theorem IntUnit.add_natCast (hu : u.HoldsKernelInts) (h : m + n ≤ maxKernelInt) :
    u.add m n = .ok ((m + n : Nat) : Int) := by
  have hwrap : u.wrap ((m + n : Nat) : Int) = (m + n : Nat) := hu (m + n) h
  exact u.settle_of_wrap_eq .add hwrap

theorem IntUnit.mul_natCast (hu : u.HoldsKernelInts) (h : m * n ≤ maxKernelInt) :
    u.mul m n = .ok ((m * n : Nat) : Int) := by
  have hwrap : u.wrap ((m * n : Nat) : Int) = (m * n : Nat) := hu (m * n) h
  exact u.settle_of_wrap_eq .mul hwrap

/-! ## Expressions -/

section

variable {c : Invocation} {vars : Store} {v : Var} {x y : Value} {e a b : Expr}

theorem Expr.eval_var (h : vars.get? v = some x) : (Expr.var v).eval c vars = .ok x := by
  simp only [Expr.eval, Store.read, h]

theorem Expr.eval_sizeConstant (hu : c.unit.HoldsKernelInts) (h : n ≤ maxKernelInt) :
    (Kernel.sizeConstant n).eval c vars = .ok (.int n) := by
  have hmin : min n maxInt64 = n := by
    unfold maxInt64
    unfold maxKernelInt at h
    omega
  simp only [Kernel.sizeConstant, hmin, Expr.eval, hu n h]

theorem Expr.eval_add (hu : c.unit.HoldsKernelInts) (ha : a.eval c vars = .ok (.int m))
    (hb : b.eval c vars = .ok (.int n)) (h : m + n ≤ maxKernelInt) :
    (Expr.binary .add a b).eval c vars = .ok (.int (m + n : Nat)) := by
  have hadd := IntUnit.add_natCast hu h
  rw [Expr.eval, ha, hb]
  change Value.int <$> c.unit.add m n = _
  rw [hadd]
  rfl

theorem Expr.eval_mul (hu : c.unit.HoldsKernelInts) (ha : a.eval c vars = .ok (.int m))
    (hb : b.eval c vars = .ok (.int n)) (h : m * n ≤ maxKernelInt) :
    (Expr.binary .mul a b).eval c vars = .ok (.int (m * n : Nat)) := by
  have hmul := IntUnit.mul_natCast hu h
  rw [Expr.eval, ha, hb]
  change Value.int <$> c.unit.mul m n = _
  rw [hmul]
  rfl

theorem Expr.eval_fetch {i j : Int} {z : Float32} (ha : a.eval c vars = .ok (.int i))
    (hb : b.eval c vars = .ok (.int j)) (h : c.fetch i j = .ok z) :
    (Expr.fetch a b).eval c vars = .ok (.float z) := by
  rw [Expr.eval, ha, hb]
  change (c.fetch i j >>= fun z => pure (Value.float z)) = _
  rw [h]
  rfl

theorem Expr.eval_pack {ty : Ty} {e₀ e₁ e₂ e₃ : Expr} {lanes : Vec4 Value}
    (h₀ : e₀.eval c vars = .ok lanes.x) (h₁ : e₁.eval c vars = .ok lanes.y)
    (h₂ : e₂.eval c vars = .ok lanes.z) (h₃ : e₃.eval c vars = .ok lanes.w) :
    (Expr.pack ty e₀ e₁ e₂ e₃).eval c vars = Value.pack ty lanes := by
  rw [Expr.eval, h₀, h₁, h₂, h₃]
  rfl

end

/-! ## Statements -/

section

variable {c : Invocation} {s s' : CellState} {v w : Var} {ty : Ty} {e : Expr} {x old : Value}

/-- A write changes the variable that it names and no other. -/
theorem CellState.get?_set (s : CellState) (v w : Var) (x : Value) :
    (s.set v x).vars.get? w = if w = v then some x else s.vars.get? w :=
  Store.get?_set s.vars v w x

theorem CellState.get?_set_self (s : CellState) (v : Var) (x : Value) :
    (s.set v x).vars.get? v = some x := by
  rw [CellState.get?_set, if_pos rfl]

theorem CellState.get?_set_of_ne (s : CellState) (x : Value) (h : w ≠ v) :
    (s.set v x).vars.get? w = s.vars.get? w := by
  rw [CellState.get?_set, if_neg h]

theorem Stmt.exec_declare (he : e.eval c s.vars = .ok x) (hty : x.ty = ty) :
    Stmt.exec c (.declare v ty e) s = .ok (s.set v x) := by
  rw [Stmt.exec, he]
  change (if x.ty = ty then .ok (s.set v x) else mismatch) = _
  rw [if_pos hty]

theorem Stmt.exec_assign (hold : s.vars.get? v = some old) (he : e.eval c s.vars = .ok x)
    (hty : x.ty = old.ty) : Stmt.exec c (.assign v e) s = .ok (s.set v x) := by
  rw [Stmt.exec, Store.read, hold, he]
  change (if x.ty = old.ty then .ok (s.set v x) else mismatch) = _
  rw [if_pos hty]

theorem Stmt.exec_output {z : Float32} (he : e.eval c s.vars = .ok (.float z)) :
    Stmt.exec c (.output e) s = .ok { s with output? := some z } := by
  rw [Stmt.exec, he]
  rfl

theorem Stmt.execAll_cons {stmt : Stmt} (rest : List Stmt) (h : stmt.exec c s = .ok s') :
    Stmt.execAll c (stmt :: rest) s = Stmt.execAll c rest s' := by
  rw [Stmt.execAll, h]
  rfl

theorem Stmt.execAll_append_of_ok {first : List Stmt} (rest : List Stmt)
    (h : Stmt.execAll c first s = .ok s') :
    Stmt.execAll c (first ++ rest) s = Stmt.execAll c rest s' := by
  rw [Stmt.execAll_append, h]
  rfl

end

/-! ## Loops -/

/-- What each iteration keeps holds after all of them. -/
theorem exists_iterateFrom_eq_ok {ε σ : Type} {f : Nat → σ → Except ε σ} {P : Nat → σ → Prop}
    {first n : Nat} {s : σ}
    (hstep : ∀ k s, first ≤ k → k < first + n → P k s → ∃ s', f k s = .ok s' ∧ P (k + 1) s')
    (hs : P first s) : ∃ s', iterateFrom f first n s = .ok s' ∧ P (first + n) s' := by
  -- Induction on the number of iterations left; each run starts one index further.
  induction n generalizing first s with
  | zero => exact ⟨s, rfl, hs⟩
  | succ n ih =>
      rcases hstep first s (Nat.le_refl first) (by omega) hs with ⟨s₁, hrun, hs₁⟩
      have hrest : ∀ k s, first + 1 ≤ k → k < first + 1 + n → P k s →
          ∃ s', f k s = .ok s' ∧ P (k + 1) s' := by
        intro k s hlow hhigh
        exact hstep k s (by omega) (by omega)
      rcases ih hrest hs₁ with ⟨s₂, hrun₂, hs₂⟩
      refine ⟨s₂, ?_, ?_⟩
      · rw [iterateFrom, hrun]
        exact hrun₂
      · rw [Nat.add_right_comm, Nat.add_assoc] at hs₂
        exact hs₂

/-- A loop whose iterations keep an invariant runs to its end and keeps it. The invariant counts the
iterations done, and the body starts with the counter freshly set. -/
theorem Stmt.exec_loop_of_invariant {c : Invocation} {v : Var} {count step : Nat}
    {body : List Stmt} {P : Nat → CellState → Prop} {s : CellState} (hstep : 0 < step)
    (hbody : ∀ k s, k * step < count → P k s →
      ∃ s', Stmt.execAll c body (s.set v (.int (c.unit.wrap (k * step : Nat)))) = .ok s'
        ∧ P (k + 1) s')
    (hs : P 0 s) :
    ∃ s', Stmt.exec c (.loop v count step body) s = .ok s' ∧ P (tripCount count step) s' := by
  let iteration (k : Nat) (s : CellState) : Except Halt CellState :=
    Stmt.execAll c body (s.set v (.int (c.unit.wrap (k * step : Nat))))
  have hiter : ∀ k s, 0 ≤ k → k < 0 + tripCount count step → P k s →
      ∃ s', iteration k s = .ok s' ∧ P (k + 1) s' := by
    intro k s _ hk
    rw [Nat.zero_add, lt_tripCount_iff hstep] at hk
    exact hbody k s hk
  have hrun := exists_iterateFrom_eq_ok hiter hs
  rw [Nat.zero_add] at hrun
  rw [Stmt.exec, if_neg (Nat.ne_of_gt hstep)]
  exact hrun

end WindowReduction
