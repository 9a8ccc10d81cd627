import Mathlib.Data.List.Forall2
import WindowReduction.Proofs.Execution

/-!
# Two runs of one kernel body

A kernel body is run twice, with fetches that may give different results. What the runs have in
common is followed through every construct at once: a relation on values that all operations keep is
kept by expressions, statements, loops and whole matrices. One run may halt for a reason that is
excused, after which nothing is said about the other.

Main statements: `Stmt.exec_matches` (the constructs keep the relation), `Kernel.run_matches`.
-/

namespace WindowReduction

/-! ## How two computations end -/

/-- Two computations match when both give related results or both halt for the same reason. A first
computation that halts for an excused reason matches every second one. -/
inductive Matches {α β : Type} (excused : Halt → Prop) (R : α → β → Prop) :
    Except Halt α → Except Halt β → Prop
  | ok {a : α} {b : β} (h : R a b) : Matches excused R (.ok a) (.ok b)
  | halt (e : Halt) : Matches excused R (.error e) (.error e)
  | excused {e : Halt} (h : excused e) (y : Except Halt β) : Matches excused R (.error e) y

variable {excused : Halt → Prop} {R : Value → Value → Prop}

theorem Matches.bind {α β γ δ : Type} {S : α → β → Prop} {T : γ → δ → Prop}
    {x : Except Halt α} {y : Except Halt β} {f : α → Except Halt γ} {g : β → Except Halt δ}
    (hxy : Matches excused S x y) (hfg : ∀ a b, S a b → Matches excused T (f a) (g b)) :
    Matches excused T (x >>= f) (y >>= g) := by
  cases hxy with
  | ok h => exact hfg _ _ h
  | halt e => exact .halt e
  | excused h y => exact .excused h _

theorem Matches.of_refl {α : Type} {S : α → α → Prop} (hS : ∀ a, S a a) (x : Except Halt α) :
    Matches excused S x x := by
  cases x with
  | error e => exact .halt e
  | ok a => exact .ok (hS a)

/-! ## Relations on values -/

/-- Related numbers, as values. -/
def RelatedFloats (R : Value → Value → Prop) (x y : Float32) : Prop :=
  R (.float x) (.float y)

/-- A relation between the values of two runs that all operations on values keep. -/
structure Kept (excused : Halt → Prop) (R : Value → Value → Prop) : Prop where
  int : ∀ n, R (.int n) (.int n)
  float : ∀ x, R (.float x) (.float x)
  ty : ∀ {x y}, R x y → x.ty = y.ty
  asInt : ∀ {x y}, R x y → Matches excused Eq x.asInt y.asInt
  asFloat : ∀ {x y}, R x y → Matches excused (RelatedFloats R) x.asFloat y.asFloat
  asBoolVector : ∀ {x y}, R x y →
    Matches excused (fun v w => R (.bool (v.toList.all id)) (.bool (w.toList.all id)))
      x.asBoolVector y.asBoolVector
  toFloat : ∀ {x y}, R x y → Matches excused (RelatedFloats R) x.toFloat y.toFloat
  lane : ∀ {x y} (k : Nat), R x y → Matches excused R (x.lane k) (y.lane k)
  pack : ∀ {v w : Vec4 Value} (ty : Ty), R v.x w.x → R v.y w.y → R v.z w.z → R v.w w.w →
    Matches excused R (Value.pack ty v) (Value.pack ty w)
  splat : ∀ {x y} (ty : Ty), R x y → Matches excused R (Value.splat ty x) (Value.splat ty y)
  admits : ∀ {x y} (op : BinaryOp), R x y → op.admit x = op.admit y
  binary : ∀ {x y x' y'} (u : IntUnit) (op : BinaryOp), R x x' → R y y' →
    Matches excused R (op.apply u x y) (op.apply u x' y')
  builtin : ∀ {x y x' y'} (fn : Builtin), R x x' → R y y' →
    Matches excused R (fn.apply x y) (fn.apply x' y')

/-- Two runs of one body for one output cell: only their fetches may differ, and these match. -/
structure TwoRuns (excused : Halt → Prop) (R : Value → Value → Prop) (c c' : Invocation) :
    Prop where
  kept : Kept excused R
  unit : c.unit = c'.unit
  neutral : c.kernel.neutral = c'.kernel.neutral
  body : c.kernel.body = c'.kernel.body
  row : c.row = c'.row
  col : c.col = c'.col
  fetch : ∀ i j, Matches excused (RelatedFloats R) (c.fetch i j) (c'.fetch i j)

/-- Two stores in which the same variables have values, and related ones. -/
def Store.Matched (R : Value → Value → Prop) (s s' : Store) : Prop :=
  ∀ v, Option.Rel R (s.get? v) (s'.get? v)

/-- Two states with matched stores and related outputs. -/
structure CellState.Matched (R : Value → Value → Prop) (s s' : CellState) : Prop where
  vars : s.vars.Matched R s'.vars
  output : Option.Rel (RelatedFloats R) s.output? s'.output?

theorem CellState.matched_initial : CellState.initial.Matched R CellState.initial where
  vars := by
    intro v
    rw [CellState.initial, Store.get?_empty]
    exact .none
  output := .none

theorem Store.Matched.read {s s' : Store} (h : s.Matched R s') (v : Var) :
    Matches excused R (s.read v) (s'.read v) := by
  have hv := h v
  unfold Store.read
  cases hx : s.get? v <;> cases hy : s'.get? v <;> rw [hx, hy] at hv <;> cases hv
  · exact .halt _
  · rename_i hR
    exact .ok hR

theorem CellState.Matched.set {s s' : CellState} {x y : Value} (h : s.Matched R s') (v : Var)
    (hxy : R x y) : (s.set v x).Matched R (s'.set v y) where
  vars := by
    intro w
    rw [CellState.get?_set, CellState.get?_set]
    by_cases hw : w = v
    · rw [if_pos hw, if_pos hw]
      exact .some hxy
    · rw [if_neg hw, if_neg hw]
      exact h.vars w
  output := h.output

/-! ## Expressions -/

variable {c c' : Invocation}

theorem TwoRuns.coord (h : TwoRuns excused R c c') (axis : Nat) : c.coord axis = c'.coord axis := by
  unfold Invocation.coord
  rw [h.row, h.col]

/-- An expression has related values in matched stores. -/
theorem Expr.eval_matches (h : TwoRuns excused R c c') {vars vars' : Store}
    (hvars : vars.Matched R vars') (e : Expr) :
    Matches excused R (e.eval c vars) (e.eval c' vars') := by
  induction e with
  | int n =>
      rw [Expr.eval, Expr.eval, h.unit]
      exact .ok (h.kept.int _)
  | float x => exact .ok (h.kept.float x)
  | neutral =>
      rw [Expr.eval, Expr.eval, h.neutral]
      exact .ok (h.kept.float _)
  | var v => exact hvars.read v
  | coord axis =>
      rw [Expr.eval, Expr.eval, h.coord, h.unit]
      refine Matches.bind (Matches.of_refl (S := Eq) (fun _ => rfl) _) ?_
      rintro n _ rfl
      exact .ok (h.kept.int _)
  | fetch row index ihrow ihindex =>
      rw [Expr.eval, Expr.eval]
      refine ihrow.bind fun x y hxy => ?_
      refine (h.kept.asInt hxy).bind ?_
      rintro i _ rfl
      refine ihindex.bind fun x y hxy => ?_
      refine (h.kept.asInt hxy).bind ?_
      rintro j _ rfl
      refine (h.fetch i j).bind fun a b hab => ?_
      exact .ok hab
  | binary op a b iha ihb =>
      rw [Expr.eval, Expr.eval, h.unit]
      refine iha.bind fun x x' hx => ?_
      -- The first operand is rejected before the second one is evaluated, and in both runs.
      rw [h.kept.admits op hx]
      refine Matches.bind (Matches.of_refl (S := Eq) (fun _ => rfl) _) fun _ _ _ => ?_
      refine ihb.bind fun y y' hy => ?_
      exact h.kept.binary _ op hx hy
  | builtin fn a b iha ihb =>
      rw [Expr.eval, Expr.eval]
      refine iha.bind fun x x' hx => ?_
      refine ihb.bind fun y y' hy => ?_
      exact h.kept.builtin fn hx hy
  | lane vector k ih =>
      rw [Expr.eval, Expr.eval]
      exact ih.bind fun x y hxy => h.kept.lane k hxy
  | pack ty e₀ e₁ e₂ e₃ ih₀ ih₁ ih₂ ih₃ =>
      rw [Expr.eval, Expr.eval]
      refine ih₀.bind fun x₀ y₀ h₀ => ?_
      refine ih₁.bind fun x₁ y₁ h₁ => ?_
      refine ih₂.bind fun x₂ y₂ h₂ => ?_
      refine ih₃.bind fun x₃ y₃ h₃ => ?_
      exact h.kept.pack ty h₀ h₁ h₂ h₃
  | splat ty e ih =>
      rw [Expr.eval, Expr.eval]
      exact ih.bind fun x y hxy => h.kept.splat ty hxy
  | allLanes vector ih =>
      rw [Expr.eval, Expr.eval]
      refine ih.bind fun x y hxy => ?_
      refine (h.kept.asBoolVector hxy).bind fun v w hvw => ?_
      exact .ok hvw
  | toFloat e ih =>
      rw [Expr.eval, Expr.eval]
      refine ih.bind fun x y hxy => ?_
      refine (h.kept.toFloat hxy).bind fun a b hab => ?_
      exact .ok hab

/-! ## Statements -/

/-- Iterations that keep a relation one by one keep it together. -/
theorem iterateFrom_matches {σ τ : Type} {S : σ → τ → Prop} {f : Nat → σ → Except Halt σ}
    {g : Nat → τ → Except Halt τ}
    (hfg : ∀ k s t, S s t → Matches excused S (f k s) (g k t)) {first n : Nat} {s : σ} {t : τ}
    (hst : S s t) : Matches excused S (iterateFrom f first n s) (iterateFrom g first n t) := by
  induction n generalizing first s t with
  | zero => exact .ok hst
  | succ n ih =>
      have hstep := hfg first s t hst
      rw [iterateFrom, iterateFrom]
      generalize f first s = x at hstep
      generalize g first t = y at hstep
      cases hstep with
      | ok h => exact ih h
      | halt e => exact .halt e
      | excused h y => exact .excused h _

/-- A value is only written if it has the right type, which related values have together. -/
theorem CellState.Matched.set_if {s s' : CellState} {x y : Value} {ty ty' : Ty}
    (hs : s.Matched R s') (hR : Kept excused R) (v : Var) (hxy : R x y) (hty : ty = ty') :
    Matches excused (CellState.Matched R) (if x.ty = ty then .ok (s.set v x) else mismatch)
      (if y.ty = ty' then .ok (s'.set v y) else mismatch) := by
  rw [hR.ty hxy, hty]
  split
  · exact .ok (hs.set v hxy)
  · exact .halt _

mutual

/-- A statement keeps matched states matched. -/
theorem Stmt.exec_matches (h : TwoRuns excused R c c') :
    ∀ (stmt : Stmt) {s s' : CellState}, s.Matched R s' →
      Matches excused (CellState.Matched R) (stmt.exec c s) (stmt.exec c' s')
  | .declare v ty e, s, s', hs => by
      rw [Stmt.exec, Stmt.exec]
      refine (e.eval_matches h hs.vars).bind fun x y hxy => ?_
      exact hs.set_if h.kept v hxy rfl
  | .assign v e, s, s', hs => by
      rw [Stmt.exec, Stmt.exec]
      refine (hs.vars.read v).bind fun old old' hold => ?_
      refine (e.eval_matches h hs.vars).bind fun x y hxy => ?_
      exact hs.set_if h.kept v hxy (h.kept.ty hold)
  | .loop v count step body, s, s', hs => by
      rw [Stmt.exec, Stmt.exec, h.unit]
      split
      · exact .halt _
      · -- Both runs count alike, so only the body has to be compared.
        refine iterateFrom_matches (fun k s s' hs => ?_) hs
        exact Stmt.execAll_matches h body (hs.set v (h.kept.int _))
  | .block body, s, s', hs => by
      rw [Stmt.exec, Stmt.exec]
      exact Stmt.execAll_matches h body hs
  | .output e, s, s', hs => by
      rw [Stmt.exec, Stmt.exec]
      refine (e.eval_matches h hs.vars).bind fun x y hxy => ?_
      refine (h.kept.asFloat hxy).bind fun a b hab => ?_
      exact .ok ⟨hs.vars, .some hab⟩

theorem Stmt.execAll_matches (h : TwoRuns excused R c c') :
    ∀ (body : List Stmt) {s s' : CellState}, s.Matched R s' →
      Matches excused (CellState.Matched R) (Stmt.execAll c body s) (Stmt.execAll c' body s')
  | [], s, s', hs => by
      rw [Stmt.execAll, Stmt.execAll]
      exact .ok hs
  | stmt :: rest, s, s', hs => by
      rw [Stmt.execAll, Stmt.execAll]
      refine (Stmt.exec_matches h stmt hs).bind fun t t' ht => ?_
      exact Stmt.execAll_matches h rest ht

end

/-! ## Matrices -/

theorem Invocation.run_matches (h : TwoRuns excused R c c') :
    Matches excused (RelatedFloats R) c.run c'.run := by
  rw [Invocation.run, Invocation.run, h.body]
  refine (Stmt.execAll_matches h _ CellState.matched_initial).bind fun s s' hs => ?_
  have hout := hs.output
  cases hx : s.output? <;> cases hy : s'.output? <;> rw [hx, hy] at hout <;> cases hout
  · exact .halt _
  · rename_i hab
    exact .ok hab

/-- Two matrices of one shape with related cells. -/
structure Tensor.Matched (R : Float32 → Float32 → Prop) (t t' : Tensor) : Prop where
  shape : t.shape = t'.shape
  cells : List.Forall₂ R t.cells.toList t'.cells.toList

theorem fill_matches {F : Float32 → Float32 → Prop} {cell cell' : Nat → Except Halt Float32}
    (hcell : ∀ k, Matches excused F (cell k) (cell' k)) {n : Nat} {filled filled' : Array Float32}
    (hfilled : List.Forall₂ F filled.toList filled'.toList) :
    Matches excused (fun out out' : Array Float32 => List.Forall₂ F out.toList out'.toList)
      (fill cell n filled) (fill cell' n filled') := by
  induction n generalizing filled filled' with
  | zero => exact .ok hfilled
  | succ n ih =>
      have hsize : filled.size = filled'.size := hfilled.length_eq
      have hnext := hcell filled.size
      rw [fill, fill, ← hsize]
      generalize cell filled.size = x at hnext
      generalize cell' filled.size = y at hnext
      cases hnext with
      | ok h =>
          apply ih
          rw [Array.toList_push, Array.toList_push]
          exact List.rel_append hfilled (.cons h .nil)
      | halt e => exact .halt e
      | excused h y => exact .excused h _

/-- Matrices are computed in the same order of cells, so the first failure is the same. -/
theorem Tensor.tabulate_matches {F : Float32 → Float32 → Prop} (shape : Shape)
    {cell cell' : Nat → Nat → Except Halt Float32}
    (hcell : ∀ row col, Matches excused F (cell row col) (cell' row col)) :
    Matches excused (Tensor.Matched F) (Tensor.tabulate shape cell)
      (Tensor.tabulate shape cell') := by
  have hfill : Matches excused
      (fun out out' : Array Float32 => List.Forall₂ F out.toList out'.toList)
      (fill (fun k => cell (k / shape.cols) (k % shape.cols)) shape.size #[])
      (fill (fun k => cell' (k / shape.cols) (k % shape.cols)) shape.size #[]) :=
    fill_matches (fun k => hcell (k / shape.cols) (k % shape.cols)) .nil
  unfold Tensor.tabulate
  split <;> rename_i x hx <;> split <;> rename_i y hy <;> rw [hx, hy] at hfill
  · cases hfill with
    | halt => exact .halt _
    | excused h => exact .excused h _
  · cases hfill with
    | excused h => exact .excused h _
  · cases hfill
  · cases hfill with
    | ok h => exact .ok ⟨rfl, h⟩

/-- Two kernels that differ in what they fetch give matched matrices. -/
theorem Kernel.run_matches {u : IntUnit} {k k' : Kernel} {t t' : Tensor} (shape : Shape)
    (h : ∀ row col, TwoRuns excused R ⟨u, k, t, row, col⟩ ⟨u, k', t', row, col⟩) :
    Matches excused (Tensor.Matched (RelatedFloats R)) (k.run u t shape) (k'.run u t' shape) :=
  Tensor.tabulate_matches shape fun row col => Invocation.run_matches (h row col)

end WindowReduction
