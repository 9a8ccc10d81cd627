import WindowReduction.Proofs.Execution

/-!
# The integers of a run

While a kernel body runs, its integer expressions and the counters of its loops take values, which
are listed here in the order in which they come up. The list misses none on which the run depends: an
integer unit of fewer bits that can hold every listed value gives the same run.

Main statements: `Stmt.exec_narrow` and `Kernel.run_narrow` (a narrower unit that holds the integers
of a run gives the same run), `Stmt.forall_mem_ints_loop` (integers of a loop, by an invariant).
-/

namespace WindowReduction

/-! ## Integers of expressions -/

/-- The integer that a value is, if it is one. -/
def Value.int? : Value → Option Int
  | .int n => some n
  | _ => none

theorem Value.int?_eq_some_iff {x : Value} {n : Int} : x.int? = some n ↔ x = .int n := by
  cases x <;> simp [Value.int?]

/-- The integer values of an expression and its parts. -/
def Expr.ints (c : Invocation) (vars : Store) (e : Expr) : List Int :=
  e.subterms.filterMap fun part => (part.eval c vars).toOption.bind Value.int?

variable {c : Invocation} {vars : Store} {s s' : CellState} {P : Int → Prop}

theorem Expr.mem_ints {e : Expr} {n : Int} :
    n ∈ e.ints c vars ↔ ∃ part ∈ e.subterms, part.eval c vars = .ok (.int n) := by
  have hvalue : ∀ part : Expr, (part.eval c vars).toOption.bind Value.int? = some n
      ↔ part.eval c vars = .ok (.int n) := by
    intro part
    cases part.eval c vars with
    | error e => simp [Except.toOption]
    | ok x => simp [Except.toOption, Value.int?_eq_some_iff]
  simp only [Expr.ints, List.mem_filterMap, hvalue]

/-- The integers of an expression are its own value, if that is one, and those of its operands. -/
theorem Expr.forall_mem_ints_iff {e : Expr} :
    (∀ n ∈ e.ints c vars, P n) ↔
      (∀ n, e.eval c vars = .ok (.int n) → P n)
        ∧ ∀ part ∈ e.operands, ∀ n ∈ part.ints c vars, P n := by
  have hparts : ∀ e : Expr, (∀ n ∈ e.ints c vars, P n) ↔
      ∀ part ∈ e.subterms, ∀ n, part.eval c vars = .ok (.int n) → P n := by
    intro e
    simp only [Expr.mem_ints]
    constructor
    · intro h part hpart n heval
      exact h n ⟨part, hpart, heval⟩
    · rintro h n ⟨part, hpart, heval⟩
      exact h part hpart n heval
  simp only [hparts]
  exact Expr.forall_mem_subterms_iff

/-- An expression whose own value is no integer has only the integers of its operands. -/
theorem Expr.forall_mem_ints_of_ne_int {e : Expr} (h : ∀ n, e.eval c vars ≠ .ok (.int n))
    (hparts : ∀ part ∈ e.operands, ∀ n ∈ part.ints c vars, P n) : ∀ n ∈ e.ints c vars, P n := by
  refine Expr.forall_mem_ints_iff.2 ⟨?_, hparts⟩
  intro n hn
  exact absurd hn (h n)

/-- An expression whose own value is known has one integer besides those of its operands. -/
theorem Expr.forall_mem_ints_of_eval {e : Expr} {m : Int} (he : e.eval c vars = .ok (.int m))
    (hm : P m) (hparts : ∀ part ∈ e.operands, ∀ n ∈ part.ints c vars, P n) :
    ∀ n ∈ e.ints c vars, P n := by
  refine Expr.forall_mem_ints_iff.2 ⟨?_, hparts⟩
  intro n hn
  rw [he] at hn
  cases hn
  exact hm

/-! ## Integers of statements -/

/-- What iterations leave on a record: each adds to it what it finds in the state that it starts
from. -/
def recordFrom {ε σ τ : Type} (body : Nat → σ → Except ε σ) (record : Nat → σ → List τ)
    (first : Nat) : Nat → σ → List τ
  | 0, _ => []
  | n + 1, s =>
    record first s ++
      match body first s with
      | .error _ => []
      | .ok s => recordFrom body record (first + 1) n s

mutual

/-- The integers that come up while a statement runs, the counters of loops included. -/
def Stmt.ints (c : Invocation) : Stmt → CellState → List Int
  | .declare _ _ e, s => e.ints c s.vars
  | .assign _ e, s => e.ints c s.vars
  | .loop v count step body, s =>
    recordFrom
      (fun k s => Stmt.execAll c body (s.set v (.int (c.unit.wrap (k * step : Nat)))))
      (fun k s => c.unit.wrap (k * step : Nat) ::
        Stmt.intsAll c body (s.set v (.int (c.unit.wrap (k * step : Nat)))))
      0 (tripCount count step) s
    -- The counter takes one more value, with which the loop finds that it is at its end.
    ++ [c.unit.wrap (tripCount count step * step : Nat)]
  | .block body, s => Stmt.intsAll c body s
  | .output e, s => e.ints c s.vars

/-- The integers that come up while statements run in order. -/
def Stmt.intsAll (c : Invocation) : List Stmt → CellState → List Int
  | [], _ => []
  | stmt :: rest, s =>
    stmt.ints c s ++
      match stmt.exec c s with
      | .error _ => []
      | .ok s => Stmt.intsAll c rest s

end

/-- The integers that come up while a kernel runs for an output cell. -/
def Invocation.ints (c : Invocation) : List Int :=
  Stmt.intsAll c c.kernel.body .initial

theorem Stmt.intsAll_cons {stmt : Stmt} (rest : List Stmt) (h : stmt.exec c s = .ok s') :
    Stmt.intsAll c (stmt :: rest) s = stmt.ints c s ++ Stmt.intsAll c rest s' := by
  rw [Stmt.intsAll, h]

/-- The integers of statements in order are those of the first one and, if it succeeds, those of the
rest. -/
theorem Stmt.forall_mem_intsAll_cons {stmt : Stmt} {rest : List Stmt}
    (hstmt : ∀ n ∈ stmt.ints c s, P n)
    (hrest : ∀ s', stmt.exec c s = .ok s' → ∀ n ∈ Stmt.intsAll c rest s', P n) :
    ∀ n ∈ Stmt.intsAll c (stmt :: rest) s, P n := by
  rw [Stmt.intsAll, List.forall_mem_append]
  refine ⟨hstmt, ?_⟩
  cases h : stmt.exec c s with
  | error e => exact List.forall_mem_nil _
  | ok s' => exact hrest s' h

theorem Stmt.intsAll_append {first : List Stmt} (rest : List Stmt)
    (h : Stmt.execAll c first s = .ok s') :
    Stmt.intsAll c (first ++ rest) s = Stmt.intsAll c first s ++ Stmt.intsAll c rest s' := by
  induction first generalizing s with
  | nil =>
      rw [Stmt.execAll] at h
      cases h
      rfl
  | cons stmt first ih =>
      rw [List.cons_append, Stmt.intsAll, Stmt.intsAll]
      rw [Stmt.execAll] at h
      cases hstmt : stmt.exec c s with
      | error e =>
          rw [hstmt] at h
          cases h
      | ok s₁ =>
          rw [hstmt] at h
          simp only
          rw [ih h, List.append_assoc]

/-! ## Integers under an invariant -/

/-- What each iteration that starts from the invariant puts on the record is all there is. -/
theorem forall_mem_recordFrom {ε σ τ : Type} {f : Nat → σ → Except ε σ}
    {record : Nat → σ → List τ} {I : Nat → σ → Prop} {Q : τ → Prop} {first n : Nat} {s : σ}
    (hrecord : ∀ k s, first ≤ k → k < first + n → I k s → ∀ t ∈ record k s, Q t)
    (hstep : ∀ k s, first ≤ k → k < first + n → I k s → ∃ s', f k s = .ok s' ∧ I (k + 1) s')
    (hs : I first s) : ∀ t ∈ recordFrom f record first n s, Q t := by
  induction n generalizing first s with
  | zero => exact List.forall_mem_nil _
  | succ n ih =>
      rcases hstep first s (Nat.le_refl first) (by omega) hs with ⟨s₁, hrun, hs₁⟩
      rw [recordFrom, hrun, List.forall_mem_append]
      constructor
      · exact hrecord first s (Nat.le_refl first) (by omega) hs
      · refine ih ?_ ?_ hs₁
        · intro k s hlow hhigh
          exact hrecord k s (by omega) (by omega)
        · intro k s hlow hhigh
          exact hstep k s (by omega) (by omega)

/-- The integers of a loop are its counters, the last of which ends it, and those of its body, which
starts from the invariant each time. -/
theorem Stmt.forall_mem_ints_loop {v : Var} {count step : Nat} {body : List Stmt}
    {I : Nat → CellState → Prop} (hstep : 0 < step)
    (hcounter : ∀ k ≤ tripCount count step, P (c.unit.wrap (k * step : Nat)))
    (hints : ∀ k s, k * step < count → I k s →
      ∀ n ∈ Stmt.intsAll c body (s.set v (.int (c.unit.wrap (k * step : Nat)))), P n)
    (hbody : ∀ k s, k * step < count → I k s →
      ∃ s', Stmt.execAll c body (s.set v (.int (c.unit.wrap (k * step : Nat)))) = .ok s'
        ∧ I (k + 1) s')
    (hs : I 0 s) : ∀ n ∈ Stmt.ints c (.loop v count step body) s, P n := by
  rw [Stmt.ints, List.forall_mem_append]
  constructor
  · refine forall_mem_recordFrom ?_ ?_ hs
    · intro k s _ hk hI
      rw [Nat.zero_add] at hk
      rw [List.forall_mem_cons]
      exact ⟨hcounter k (Nat.le_of_lt hk), hints k s ((lt_tripCount_iff hstep).1 hk) hI⟩
    · intro k s _ hk hI
      rw [Nat.zero_add, lt_tripCount_iff hstep] at hk
      exact hbody k s hk hI
  · rw [List.forall_mem_singleton]
    exact hcounter _ (Nat.le_refl _)

/-! ## Narrower units -/

/-- A unit that wraps around to some of the low bits of another. -/
structure IntUnit.Narrows (u wide : IntUnit) : Prop where
  wraps : u.traps = false
  modulus_dvd : u.modulus ∣ wide.modulus

/-- The unit of a shader keeps the low bits of the integers of direct execution. -/
theorem wrapping32_narrows_trapping64 : IntUnit.wrapping32.Narrows .trapping64 where
  wraps := rfl
  modulus_dvd := by decide

section

variable {u wide : IntUnit}

theorem IntUnit.Narrows.wrap_wrap (h : u.Narrows wide) (n : Int) :
    u.wrap (wide.wrap n) = u.wrap n :=
  Int.bmod_bmod_of_dvd h.modulus_dvd

theorem IntUnit.Narrows.settle (h : u.Narrows wide) {cause : Overflow} {n r : Int}
    (hr : wide.settle cause n = .ok r) (hkeep : u.wrap r = r) : u.settle cause n = .ok r := by
  have hwide : r = wide.wrap n := by
    unfold IntUnit.settle at hr
    split at hr
    · cases hr
    · cases hr
      rfl
  have hu : u.settle cause n = .ok (u.wrap n) := by
    simp [IntUnit.settle, h.wraps]
  rw [hu, ← h.wrap_wrap n, ← hwide, hkeep]

theorem BinaryOp.apply_narrow (h : u.Narrows wide) {op : BinaryOp} {x y z : Value}
    (hz : op.apply wide x y = .ok z) (hkeep : ∀ n, z = .int n → u.wrap n = n) :
    op.apply u x y = .ok z := by
  have harith : ∀ {cause : Overflow} {n : Int},
      Value.int <$> wide.settle cause n = .ok z → Value.int <$> u.settle cause n = .ok z := by
    intro cause n hn
    cases hr : wide.settle cause n with
    | error e =>
        rw [hr] at hn
        cases hn
    | ok r =>
        rw [hr] at hn
        cases hn
        rw [h.settle hr (hkeep r rfl)]
        rfl
  cases op with
  | add =>
      cases x <;> cases y
      case int.int => exact harith hz
      all_goals exact hz
  | mul =>
      cases x <;> cases y
      case int.int => exact harith hz
      all_goals exact hz
  | atLeast => cases x <;> cases y <;> exact hz
  | and => cases x <;> cases y <;> exact hz

end

/-- The same invocation with another integer unit. -/
def Invocation.withUnit (c : Invocation) (u : IntUnit) : Invocation :=
  { c with unit := u }

/-- A computation of two parts gives a result when both do. -/
theorem bind_eq_ok_iff {α β : Type} {x : Except Halt α} {f : α → Except Halt β} {b : β} :
    x >>= f = .ok b ↔ ∃ a, x = .ok a ∧ f a = .ok b := by
  cases x with
  | error e =>
      constructor
      · intro h
        cases h
      · rintro ⟨a, ha, -⟩
        cases ha
  | ok a =>
      constructor
      · intro h
        exact ⟨a, rfl, h⟩
      · rintro ⟨_, ha, h⟩
        cases ha
        exact h

variable {u : IntUnit}

/-- An expression has the same value in a narrower unit that holds the integers of its parts. -/
theorem Expr.eval_narrow (hu : u.Narrows c.unit) {e : Expr} {x : Value}
    (hx : e.eval c vars = .ok x) (hkeep : ∀ n ∈ e.ints c vars, u.wrap n = n) :
    e.eval (c.withUnit u) vars = .ok x := by
  induction e generalizing x with
  | int n =>
      have hwrap := (Expr.forall_mem_ints_iff.1 hkeep).1 _ rfl
      rw [hu.wrap_wrap] at hwrap
      rw [Expr.eval] at hx ⊢
      cases hx
      exact congrArg (fun n => Except.ok (Value.int n)) hwrap
  | float y => exact hx
  | neutral => exact hx
  | var v => exact hx
  | coord axis =>
      have hself := (Expr.forall_mem_ints_iff.1 hkeep).1
      simp only [Expr.eval, bind_eq_ok_iff] at hself hx ⊢
      rcases hx with ⟨n, hn, hx⟩
      cases hx
      have hwrap := hself _ ⟨n, hn, rfl⟩
      rw [hu.wrap_wrap] at hwrap
      exact ⟨n, hn, congrArg (fun n => Except.ok (Value.int n)) hwrap⟩
  | fetch row index ihrow ihindex =>
      have hparts := (Expr.forall_mem_ints_iff.1 hkeep).2
      simp only [Expr.operands, List.forall_mem_cons] at hparts
      rcases hparts with ⟨hrow, hindex, -⟩
      simp only [Expr.eval, bind_eq_ok_iff] at hx ⊢
      rcases hx with ⟨y, hy, i, hi, z, hz, j, hj, hfetch⟩
      exact ⟨y, ihrow hy hrow, i, hi, z, ihindex hz hindex, j, hj, hfetch⟩
  | binary op a b iha ihb =>
      rcases Expr.forall_mem_ints_iff.1 hkeep with ⟨hself, hparts⟩
      simp only [Expr.operands, List.forall_mem_cons] at hparts
      rcases hparts with ⟨ha, hb, -⟩
      have hresult : ∀ n, x = .int n → u.wrap n = n := by
        rintro n rfl
        exact hself n hx
      simp only [Expr.eval, bind_eq_ok_iff] at hx ⊢
      rcases hx with ⟨y, hy, admitted, hadmit, z, hz, happly⟩
      exact ⟨y, iha hy ha, admitted, hadmit, z, ihb hz hb, BinaryOp.apply_narrow hu happly hresult⟩
  | builtin fn a b iha ihb =>
      have hparts := (Expr.forall_mem_ints_iff.1 hkeep).2
      simp only [Expr.operands, List.forall_mem_cons] at hparts
      rcases hparts with ⟨ha, hb, -⟩
      simp only [Expr.eval, bind_eq_ok_iff] at hx ⊢
      rcases hx with ⟨y, hy, z, hz, happly⟩
      exact ⟨y, iha hy ha, z, ihb hz hb, happly⟩
  | lane vector k ih =>
      have hvector := List.forall_mem_singleton.1 (Expr.forall_mem_ints_iff.1 hkeep).2
      simp only [Expr.eval, bind_eq_ok_iff] at hx ⊢
      rcases hx with ⟨y, hy, hlane⟩
      exact ⟨y, ih hy hvector, hlane⟩
  | pack ty e₀ e₁ e₂ e₃ ih₀ ih₁ ih₂ ih₃ =>
      have hparts := (Expr.forall_mem_ints_iff.1 hkeep).2
      simp only [Expr.operands, List.forall_mem_cons] at hparts
      rcases hparts with ⟨h₀, h₁, h₂, h₃, -⟩
      simp only [Expr.eval, bind_eq_ok_iff] at hx ⊢
      rcases hx with ⟨y₀, hy₀, y₁, hy₁, y₂, hy₂, y₃, hy₃, hpack⟩
      exact ⟨y₀, ih₀ hy₀ h₀, y₁, ih₁ hy₁ h₁, y₂, ih₂ hy₂ h₂, y₃, ih₃ hy₃ h₃, hpack⟩
  | splat ty e ih =>
      have he := List.forall_mem_singleton.1 (Expr.forall_mem_ints_iff.1 hkeep).2
      simp only [Expr.eval, bind_eq_ok_iff] at hx ⊢
      rcases hx with ⟨y, hy, hsplat⟩
      exact ⟨y, ih hy he, hsplat⟩
  | allLanes vector ih =>
      have hvector := List.forall_mem_singleton.1 (Expr.forall_mem_ints_iff.1 hkeep).2
      simp only [Expr.eval, bind_eq_ok_iff] at hx ⊢
      rcases hx with ⟨y, hy, hlanes⟩
      exact ⟨y, ih hy hvector, hlanes⟩
  | toFloat e ih =>
      have he := List.forall_mem_singleton.1 (Expr.forall_mem_ints_iff.1 hkeep).2
      simp only [Expr.eval, bind_eq_ok_iff] at hx ⊢
      rcases hx with ⟨y, hy, hfloat⟩
      exact ⟨y, ih hy he, hfloat⟩

/-! ## Runs in a narrower unit -/

/-- Iterations give what others give that they agree with wherever these put only what is wanted on
the record. -/
theorem iterateFrom_of_recordFrom {ε σ τ : Type} {f g : Nat → σ → Except ε σ}
    {record : Nat → σ → List τ} {Q : τ → Prop}
    (hfg : ∀ k s s', f k s = .ok s' → (∀ t ∈ record k s, Q t) → g k s = .ok s')
    {first n : Nat} {s s' : σ} (hrun : iterateFrom f first n s = .ok s')
    (hrecord : ∀ t ∈ recordFrom f record first n s, Q t) : iterateFrom g first n s = .ok s' := by
  induction n generalizing first s with
  | zero => exact hrun
  | succ n ih =>
      rw [iterateFrom] at hrun ⊢
      rw [recordFrom, List.forall_mem_append] at hrecord
      rcases hrecord with ⟨hhead, htail⟩
      cases hf : f first s with
      | error e =>
          rw [hf] at hrun
          cases hrun
      | ok s₁ =>
          rw [hf] at hrun htail
          rw [hfg first s s₁ hf hhead]
          exact ih hrun htail

mutual

/-- A statement does the same in a narrower unit that holds the integers that come up in it. -/
theorem Stmt.exec_narrow (hu : u.Narrows c.unit) :
    ∀ (stmt : Stmt) {s s' : CellState}, stmt.exec c s = .ok s' →
      (∀ n ∈ stmt.ints c s, u.wrap n = n) → stmt.exec (c.withUnit u) s = .ok s'
  | .declare v ty e, s, s', hrun, hkeep => by
      rw [Stmt.exec, bind_eq_ok_iff] at hrun ⊢
      rcases hrun with ⟨x, hx, hset⟩
      exact ⟨x, Expr.eval_narrow hu hx hkeep, hset⟩
  | .assign v e, s, s', hrun, hkeep => by
      simp only [Stmt.exec, bind_eq_ok_iff] at hrun ⊢
      rcases hrun with ⟨old, hold, x, hx, hset⟩
      exact ⟨old, hold, x, Expr.eval_narrow hu hx hkeep, hset⟩
  | .loop v count step body, s, s', hrun, hkeep => by
      rw [Stmt.ints, List.forall_mem_append] at hkeep
      rw [Stmt.exec] at hrun ⊢
      split at hrun
      · cases hrun
      · rename_i hstep
        rw [if_neg hstep]
        refine iterateFrom_of_recordFrom ?_ hrun hkeep.1
        intro k s s' hbody hrecord
        rw [List.forall_mem_cons] at hrecord
        -- The counter is held by the narrower unit, so both runs of the body start alike.
        have hcounter := hrecord.1
        rw [hu.wrap_wrap] at hcounter
        change Stmt.execAll _ body (s.set v (.int (u.wrap (k * step : Nat)))) = _
        rw [hcounter]
        exact Stmt.execAll_narrow hu body hbody hrecord.2
  | .block body, s, s', hrun, hkeep => by
      rw [Stmt.exec] at hrun ⊢
      exact Stmt.execAll_narrow hu body hrun hkeep
  | .output e, s, s', hrun, hkeep => by
      simp only [Stmt.exec, bind_eq_ok_iff] at hrun ⊢
      rcases hrun with ⟨x, hx, hset⟩
      exact ⟨x, Expr.eval_narrow hu hx hkeep, hset⟩

theorem Stmt.execAll_narrow (hu : u.Narrows c.unit) :
    ∀ (body : List Stmt) {s s' : CellState}, Stmt.execAll c body s = .ok s' →
      (∀ n ∈ Stmt.intsAll c body s, u.wrap n = n) → Stmt.execAll (c.withUnit u) body s = .ok s'
  | [], s, s', hrun, hkeep => hrun
  | stmt :: rest, s, s', hrun, hkeep => by
      rw [Stmt.execAll, bind_eq_ok_iff] at hrun ⊢
      rcases hrun with ⟨s₁, hstmt, hrest⟩
      rw [Stmt.intsAll_cons rest hstmt, List.forall_mem_append] at hkeep
      exact ⟨s₁, Stmt.exec_narrow hu stmt hstmt hkeep.1, Stmt.execAll_narrow hu rest hrest hkeep.2⟩

end

/-- An output cell has the same value in a narrower unit that holds the integers of its run. -/
theorem Invocation.run_narrow (hu : u.Narrows c.unit) {x : Float32} (hrun : c.run = .ok x)
    (hkeep : ∀ n ∈ c.ints, u.wrap n = n) : (c.withUnit u).run = .ok x := by
  rw [Invocation.run, bind_eq_ok_iff] at hrun ⊢
  rcases hrun with ⟨s, hs, houtput⟩
  exact ⟨s, Stmt.execAll_narrow hu _ hs hkeep, houtput⟩

/-- A matrix is computed the same way from cells that have the same values. -/
theorem Tensor.tabulate_of_cells {ε : Type} {shape : Shape} {t : Tensor}
    {cell cell' : Nat → Nat → Except ε Float32} (ht : Tensor.tabulate shape cell = .ok t)
    (hcell : ∀ row < shape.rows, ∀ col < shape.cols, ∀ x,
      cell row col = .ok x → cell' row col = .ok x) :
    Tensor.tabulate shape cell' = .ok t := by
  have hvalue : ∀ row < shape.rows, ∀ col < shape.cols, ∃ x, cell' row col = .ok x := by
    intro row hr col hc
    rcases Tensor.at?_tabulate ht hr hc with ⟨x, hx, -⟩
    exact ⟨x, hcell row hr col hc x hx⟩
  rcases Tensor.exists_tabulate_eq_ok hvalue with ⟨t', ht'⟩
  have hshape : t'.shape = t.shape := by
    rw [Tensor.shape_of_tabulate ht', Tensor.shape_of_tabulate ht]
  have heq : t' = t := by
    refine Tensor.ext_at? hshape ?_
    intro row hr col hc
    rw [Tensor.shape_of_tabulate ht'] at hr hc
    rcases Tensor.at?_tabulate ht hr hc with ⟨x, hx, hat⟩
    rcases Tensor.at?_tabulate ht' hr hc with ⟨y, hy, hat'⟩
    rw [hcell row hr col hc x hx] at hy
    cases hy
    rw [hat', hat]
  rw [ht', heq]

/-- A kernel computes the same matrix in a narrower unit that holds the integers of all its cells. -/
theorem Kernel.run_narrow {k : Kernel} {wide : IntUnit} {input out : Tensor} {shape : Shape}
    (hu : u.Narrows wide) (hrun : k.run wide input shape = .ok out)
    (hkeep : ∀ row < shape.rows, ∀ col < shape.cols,
      ∀ n ∈ Invocation.ints ⟨wide, k, input, row, col⟩, u.wrap n = n) :
    k.run u input shape = .ok out := by
  refine Tensor.tabulate_of_cells hrun ?_
  intro row hr col hc x hx
  exact Invocation.run_narrow hu hx (hkeep row hr col hc)

end WindowReduction
