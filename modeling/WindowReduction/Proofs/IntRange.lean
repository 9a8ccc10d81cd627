import WindowReduction.Proofs.CellValue
import WindowReduction.Proofs.IntTrace

/-!
# The integers of a built kernel

A built kernel runs with the integers of a shader. The sizes of a descriptor are accepted when the
last index of a window is a kernel `int`, and from this bound every integer that comes up for a cell
is one: the coordinates, the start of the window, the counter of the loop, the indices of groups and
of their lanes. The values that are accumulated are no integers at all.

Main statements: `Invocation.forall_mem_ints_emitted` (the integers of a cell are kernel `int`s),
`kernel_ints_in_range`.
-/

namespace WindowReduction

/-- A nonnegative `int` of a shader. -/
def IsKernelInt (n : Int) : Prop :=
  0 ≤ n ∧ n ≤ maxKernelInt

theorem isKernelInt_natCast {n : Nat} (h : n ≤ maxKernelInt) : IsKernelInt n :=
  ⟨Int.natCast_nonneg n, Int.ofNat_le.2 h⟩

theorem IntUnit.HoldsKernelInts.wrap_eq {u : IntUnit} (hu : u.HoldsKernelInts) {n : Int}
    (hn : IsKernelInt n) : u.wrap n = n := by
  rcases Int.eq_ofNat_of_zero_le hn.1 with ⟨k, rfl⟩
  exact hu k (Int.ofNat_le.1 hn.2)

/-! ## Expressions without integers -/

variable {c : Invocation} {vars : Store} {e : Expr} {P : Int → Prop}

theorem BinaryOp.exists_int_of_apply {u : IntUnit} {op : BinaryOp} {x y : Value} {n : Int}
    (h : op.apply u x y = .ok (.int n)) : ∃ m, x = .int m := by
  cases x with
  | int m => exact ⟨m, rfl⟩
  | float a => cases op <;> cases y <;> cases h
  | bool p => cases op <;> cases y <;> cases h
  | vec4 v => cases op <;> cases y <;> cases h
  | bvec4 v => cases op <;> cases y <;> cases h

theorem Builtin.apply_ne_int (fn : Builtin) (x y : Value) (n : Int) :
    fn.apply x y ≠ .ok (.int n) := by
  intro h
  cases fn <;> cases x <;> cases y <;> cases h

theorem Value.lane_ne_int (x : Value) (k : Nat) (n : Int) : x.lane k ≠ .ok (.int n) := by
  intro h
  unfold Value.lane at h
  split at h
  · split at h <;> cases h
  · split at h <;> cases h
  · cases h

theorem Value.splat_ne_int (ty : Ty) (x : Value) (n : Int) : Value.splat ty x ≠ .ok (.int n) := by
  intro h
  unfold Value.splat at h
  split at h
  · cases hx : x.toFloat <;> rw [hx] at h <;> cases h
  · cases hx : x.toBool <;> rw [hx] at h <;> cases h
  · cases h

theorem Value.pack_ne_int (ty : Ty) (lanes : Vec4 Value) (n : Int) :
    Value.pack ty lanes ≠ .ok (.int n) := by
  intro h
  unfold Value.pack at h
  split at h
  · cases hx : lanes.mapM Value.toFloat <;> rw [hx] at h <;> cases h
  · cases hx : lanes.mapM Value.toBool <;> rw [hx] at h <;> cases h
  · cases h

/-- Expressions over the elements and the accumulator: they name no integer and read only variables
that hold none. -/
inductive Expr.IntFree (vars : Store) : Expr → Prop
  | float (x : Float32) : IntFree vars (.float x)
  | neutral : IntFree vars .neutral
  | var {v : Var} (h : ∀ n, vars.get? v ≠ some (.int n)) : IntFree vars (.var v)
  | binary (op : BinaryOp) {a b : Expr} (ha : IntFree vars a) (hb : IntFree vars b) :
    IntFree vars (.binary op a b)
  | builtin (fn : Builtin) {a b : Expr} (ha : IntFree vars a) (hb : IntFree vars b) :
    IntFree vars (.builtin fn a b)
  | lane {e : Expr} (h : IntFree vars e) (k : Nat) : IntFree vars (.lane e k)
  | splat (ty : Ty) {e : Expr} (h : IntFree vars e) : IntFree vars (.splat ty e)
  | allLanes {e : Expr} (h : IntFree vars e) : IntFree vars (.allLanes e)
  | toFloat {e : Expr} (h : IntFree vars e) : IntFree vars (.toFloat e)

namespace Expr.IntFree

theorem eval_ne_int (h : e.IntFree vars) (n : Int) : e.eval c vars ≠ .ok (.int n) := by
  induction h generalizing n with
  | float x => exact fun hx => by cases hx
  | neutral => exact fun hx => by cases hx
  | @var v hv =>
      intro hx
      rw [Expr.eval, Store.read] at hx
      split at hx
      · rename_i x hget
        cases hx
        exact hv n hget
      · cases hx
  | binary op ha hb iha ihb =>
      intro hx
      simp only [Expr.eval, bind_eq_ok_iff] at hx
      rcases hx with ⟨y, hy, _, -, z, -, happly⟩
      rcases BinaryOp.exists_int_of_apply happly with ⟨m, rfl⟩
      exact iha m hy
  | builtin fn ha hb iha ihb =>
      intro hx
      simp only [Expr.eval, bind_eq_ok_iff] at hx
      rcases hx with ⟨y, -, z, -, happly⟩
      exact fn.apply_ne_int y z n happly
  | lane he k ih =>
      intro hx
      simp only [Expr.eval, bind_eq_ok_iff] at hx
      rcases hx with ⟨y, -, hlane⟩
      exact y.lane_ne_int k n hlane
  | splat ty he ih =>
      intro hx
      simp only [Expr.eval, bind_eq_ok_iff] at hx
      rcases hx with ⟨y, -, hsplat⟩
      exact Value.splat_ne_int ty y n hsplat
  | allLanes he ih =>
      intro hx
      simp only [Expr.eval, bind_eq_ok_iff] at hx
      rcases hx with ⟨_, -, _, -, hlanes⟩
      cases hlanes
  | toFloat he ih =>
      intro hx
      simp only [Expr.eval, bind_eq_ok_iff] at hx
      rcases hx with ⟨_, -, _, -, hfloat⟩
      cases hfloat

/-- No integer comes up in such an expression. -/
theorem forall_mem_ints (h : e.IntFree vars) : ∀ n ∈ e.ints c vars, P n := by
  have hself : ∀ {e : Expr}, e.IntFree vars → (∀ part ∈ e.operands, ∀ n ∈ part.ints c vars, P n) →
      ∀ n ∈ e.ints c vars, P n := by
    intro e he
    exact Expr.forall_mem_ints_of_ne_int he.eval_ne_int
  induction h with
  | float x => exact hself (.float x) (List.forall_mem_nil _)
  | neutral => exact hself .neutral (List.forall_mem_nil _)
  | var hv => exact hself (.var hv) (List.forall_mem_nil _)
  | binary op ha hb iha ihb =>
      refine hself (.binary op ha hb) ?_
      simp only [Expr.operands, List.forall_mem_cons]
      exact ⟨iha, ihb, List.forall_mem_nil _⟩
  | builtin fn ha hb iha ihb =>
      refine hself (.builtin fn ha hb) ?_
      simp only [Expr.operands, List.forall_mem_cons]
      exact ⟨iha, ihb, List.forall_mem_nil _⟩
  | lane he k ih => exact hself (.lane he k) (List.forall_mem_singleton.2 ih)
  | splat ty he ih => exact hself (.splat ty he) (List.forall_mem_singleton.2 ih)
  | allLanes he ih => exact hself (.allLanes he) (List.forall_mem_singleton.2 ih)
  | toFloat he ih => exact hself (.toFloat he) (List.forall_mem_singleton.2 ih)

end Expr.IntFree

/-! ## The fragments of a scheme -/

section

variable {s : Scheme} {m : s.Meaning} {st : CellState}

theorem Scheme.intFree_initExpr (s : Scheme) : s.initExpr.IntFree vars := by
  unfold Scheme.initExpr
  cases s.accumulator with
  | scalar => exact .neutral
  | lanes => exact .splat .vec4 .neutral

theorem Scheme.intFree_combineExpr (s : Scheme)
    (hacc : ∀ n, vars.get? .accumulator ≠ some (.int n)) : s.combineExpr.IntFree vars := by
  have hlane : ∀ k, (Expr.lane (.var .accumulator) k).IntFree vars := fun k => .lane (.var hacc) k
  have hlanes : ∀ fn, (Scheme.foldLanes fn).IntFree vars := by
    intro fn
    exact .builtin fn (.builtin fn (.builtin fn (hlane 0) (hlane 1)) (hlane 2)) (hlane 3)
  unfold Scheme.combineExpr
  cases s.combine with
  | identity => exact .var hacc
  | horizontalMin => exact hlanes .min
  | horizontalMax => exact hlanes .max

/-- No integer comes up while a group is folded in. -/
theorem Scheme.forall_mem_ints_updateStmts (s : Scheme)
    (hacc : ∀ n, st.vars.get? .accumulator ≠ some (.int n))
    (hval : ∀ n, st.vars.get? .values ≠ some (.int n)) :
    ∀ n ∈ Stmt.intsAll c s.updateStmts st, P n := by
  have hassign : ∀ {e : Expr} {st : CellState}, e.IntFree st.vars →
      ∀ n ∈ Stmt.intsAll c [.assign .accumulator e] st, P n := by
    intro e st he
    exact Stmt.forall_mem_intsAll_cons he.forall_mem_ints fun _ _ => List.forall_mem_nil _
  unfold Scheme.updateStmts
  cases s.update with
  | dotOnes => exact hassign (.binary .add (.var hacc) (.builtin .dot (.var hval) (.splat _ (.float _))))
  | laneMin => exact hassign (.builtin .min (.var hval) (.var hacc))
  | laneMax => exact hassign (.builtin .max (.var hval) (.var hacc))
  | logicalAnd =>
      refine Stmt.forall_mem_intsAll_cons (Expr.IntFree.allLanes (.var hval)).forall_mem_ints ?_
      intro st' hrun
      -- The declaration has made the variable a truth value, or there is no next statement.
      rw [Stmt.exec, bind_eq_ok_iff] at hrun
      rcases hrun with ⟨x, -, hset⟩
      split at hset
      · rename_i hty
        cases hset
        have hacc' : ∀ n, (st.set .groupAll x).vars.get? .accumulator ≠ some (.int n) := by
          intro n
          rw [CellState.get?_set_of_ne st x (by decide)]
          exact hacc n
        have hall : ∀ n, (st.set .groupAll x).vars.get? .groupAll ≠ some (.int n) := by
          intro n hn
          rw [CellState.get?_set_self] at hn
          cases hn
          cases hty
        exact hassign (.toFloat (.binary .and (.binary .atLeast (.var hacc') (.float _))
          (.binary .atLeast (.toFloat (.var hall)) (.float _))))
      · cases hset

end

/-! ## The parts of a body -/

variable {d : Descriptor} {s : Scheme} {m : s.Meaning} {a : m.Acc} {st : CellState}
  {p : Nat → Float32} {k first live : Nat}

theorem Scheme.Meaning.encode_ne_int (m : s.Meaning) (a : m.Acc) (n : Int) :
    m.encode a ≠ .int n := by
  intro h
  have hty := m.ty_encode a
  rw [h, Scheme.accumulatorTy] at hty
  split at hty <;> cases hty

theorem Scheme.Meaning.group_ne_int (m : s.Meaning) (g : Vec4 Float32) (n : Int) :
    m.group g ≠ .int n := by
  intro h
  have hpack := m.pack_group g
  rw [h] at hpack
  exact Value.pack_ne_int _ _ n hpack

/-- The accumulator holds no integer. -/
theorem Ready.accumulator_ne_int (h : Ready c d m a st) (n : Int) :
    st.vars.get? .accumulator ≠ some (.int n) := by
  rw [h.accumulator]
  exact fun hn => m.encode_ne_int a n (Option.some.inj hn)

theorem isKernelInt_ints_var {v : Var} (h : vars.get? v = some (.int k)) (hk : k ≤ maxKernelInt) :
    ∀ n ∈ (Expr.var v).ints c vars, IsKernelInt n :=
  Expr.forall_mem_ints_of_eval (Expr.eval_var h) (isKernelInt_natCast hk) (List.forall_mem_nil _)

theorem isKernelInt_ints_sizeConstant (hu : c.unit.HoldsKernelInts) (hk : k ≤ maxKernelInt) :
    ∀ n ∈ (Kernel.sizeConstant k).ints c vars, IsKernelInt n :=
  Expr.forall_mem_ints_of_eval (Expr.eval_sizeConstant hu hk) (isKernelInt_natCast hk)
    (List.forall_mem_nil _)

theorem isKernelInt_ints_binary {op : BinaryOp} {l r : Expr}
    (he : (Expr.binary op l r).eval c vars = .ok (.int k)) (hk : k ≤ maxKernelInt)
    (hl : ∀ n ∈ l.ints c vars, IsKernelInt n) (hr : ∀ n ∈ r.ints c vars, IsKernelInt n) :
    ∀ n ∈ (Expr.binary op l r).ints c vars, IsKernelInt n := by
  refine Expr.forall_mem_ints_of_eval he (isKernelInt_natCast hk) ?_
  simp only [Expr.operands, List.forall_mem_cons]
  exact ⟨hl, hr, List.forall_mem_nil _⟩

/-- A lane is read at a kernel `int`, as the padding begins before the window ends. -/
theorem isKernelInt_ints_groupLane (hc : c.Covers d p)
    (hbatch : vars.get? .batch = some (.int c.row))
    (hinIdx : vars.get? .inIdx = some (.int (c.col * d.window + first : Nat)))
    (hlive : k < live ↔ first + k < d.window) :
    ∀ n ∈ (Kernel.groupLane live k).ints c vars, IsKernelInt n := by
  have hlane := eval_groupLane hc hbatch hinIdx hlive
  have hself : ∀ n, (Kernel.groupLane live k).eval c vars ≠ .ok (.int n) := by
    intro n hn
    rw [hlane] at hn
    cases hn
  refine Expr.forall_mem_ints_of_ne_int hself ?_
  unfold Kernel.groupLane
  by_cases hk : live ≤ k
  · rw [if_pos hk]
    exact List.forall_mem_nil _
  · rw [if_neg hk]
    have hlast := hc.last_le
    have hrow := isKernelInt_ints_var (c := c) hbatch hc.row_le
    have hindex := isKernelInt_ints_var (c := c) hinIdx (by omega)
    by_cases hzero : k = 0
    · rw [if_pos hzero]
      simp only [Expr.operands, List.forall_mem_cons]
      exact ⟨hrow, hindex, List.forall_mem_nil _⟩
    · rw [if_neg hzero]
      simp only [Expr.operands, List.forall_mem_cons]
      have hconst : (Kernel.sizeConstant k).eval c vars = .ok (.int k) :=
        Expr.eval_sizeConstant hc.holds (by omega)
      have hsum := Expr.eval_add hc.holds (Expr.eval_var hinIdx) hconst (by omega)
      refine ⟨hrow, ?_, List.forall_mem_nil _⟩
      exact isKernelInt_ints_binary hsum (by omega) hindex
        (isKernelInt_ints_sizeConstant hc.holds (by omega))

theorem isKernelInt_ints_groupStmts {e : Expr} (hc : c.Covers d p) (hst : Ready c d m a st)
    (he : e.eval c st.vars = .ok (.int (c.col * d.window + first : Nat)))
    (hints : ∀ n ∈ e.ints c st.vars, IsKernelInt n)
    (hlive : ∀ k < 4, k < live ↔ first + k < d.window) :
    ∀ n ∈ Stmt.intsAll c (Kernel.groupStmts s e live) st, IsKernelInt n := by
  let g : Vec4 Float32 := ⟨p first, p (first + 1), p (first + 2), p (first + 3)⟩
  let st₁ := st.set .inIdx (.int (c.col * d.window + first : Nat))
  let st₂ := st₁.set .values (m.group g)
  have hst₁ : Ready c d m a st₁ := hst.set _ (by decide)
  have hst₂ : Ready c d m a st₂ := hst₁.set _ (by decide)
  have hinIdx : st₁.vars.get? .inIdx = some (.int (c.col * d.window + first : Nat)) :=
    CellState.get?_set_self st _ _
  have hpack := eval_groupPack (m := m) hc hst₁.batch hinIdx hlive
  have hlane : ∀ k < 4, ∀ n ∈ (Kernel.groupLane live k).ints c st₁.vars, IsKernelInt n := by
    intro k hk
    exact isKernelInt_ints_groupLane hc hst₁.batch hinIdx (hlive k hk)
  have hindex : Stmt.exec c (.declare .inIdx .int e) st = .ok st₁ := Stmt.exec_declare he rfl
  have hvalues := Stmt.exec_declare (v := .values) hpack (m.ty_group g)
  change ∀ n ∈ Stmt.intsAll c (_ :: _ :: s.updateStmts) st, IsKernelInt n
  rw [Stmt.intsAll_cons _ hindex, Stmt.intsAll_cons _ hvalues, List.forall_mem_append,
    List.forall_mem_append]
  refine ⟨hints, ?_, ?_⟩
  · refine Expr.forall_mem_ints_of_ne_int ?_ ?_
    · intro n hn
      rw [hpack] at hn
      exact m.group_ne_int g n (Except.ok.inj hn)
    · simp only [Expr.operands, List.forall_mem_cons]
      exact ⟨hlane 0 (by decide), hlane 1 (by decide), hlane 2 (by decide), hlane 3 (by decide),
        List.forall_mem_nil _⟩
  · change ∀ n ∈ Stmt.intsAll c s.updateStmts st₂, IsKernelInt n
    refine s.forall_mem_ints_updateStmts hst₂.accumulator_ne_int ?_
    intro n hn
    rw [CellState.get?_set_self] at hn
    exact m.group_ne_int g n (Option.some.inj hn)

theorem isKernelInt_ints_prologue (hc : c.Covers d p) (st : CellState) :
    ∀ n ∈ Stmt.intsAll c (Kernel.prologue d s) st, IsKernelInt n := by
  have hlast := hc.last_le
  have hcol : c.col ≤ c.col * d.window := Nat.le_mul_of_pos_right c.col d.window_pos
  let st₁ := st.set .batch (.int c.row)
  let st₂ := st₁.set .outIdx (.int c.col)
  have hcoord₀ := (eval_coord hc st.vars).1
  have hcoord₁ := (eval_coord hc st₁.vars).2
  have houtIdx : st₂.vars.get? .outIdx = some (.int c.col) := CellState.get?_set_self st₁ _ _
  have hoffset := eval_inOffset hc houtIdx
  have hbatch : Stmt.exec c (.declare .batch .int (.coord 0)) st = .ok st₁ :=
    Stmt.exec_declare hcoord₀ rfl
  have hdeclare : Stmt.exec c (.declare .outIdx .int (.coord 1)) st₁ = .ok st₂ :=
    Stmt.exec_declare hcoord₁ rfl
  unfold Kernel.prologue
  rw [Stmt.intsAll_cons _ hbatch, Stmt.intsAll_cons _ hdeclare, List.forall_mem_append,
    List.forall_mem_append]
  refine ⟨?_, ?_, ?_⟩
  · exact Expr.forall_mem_ints_of_eval hcoord₀ (isKernelInt_natCast hc.row_le)
      (List.forall_mem_nil _)
  · exact Expr.forall_mem_ints_of_eval hcoord₁ (isKernelInt_natCast (by omega))
      (List.forall_mem_nil _)
  · refine Stmt.forall_mem_intsAll_cons ?_ ?_
    · exact isKernelInt_ints_binary hoffset (by omega) (isKernelInt_ints_var houtIdx (by omega))
        (isKernelInt_ints_sizeConstant hc.holds hc.window_le)
    · intro st₃ _
      exact Stmt.forall_mem_intsAll_cons s.intFree_initExpr.forall_mem_ints
        fun _ _ => List.forall_mem_nil _

theorem isKernelInt_ints_loopGroup (hc : c.Covers d p) (hk : k < d.window / 4)
    (hst : Ready c d m a st) :
    ∀ n ∈ Stmt.intsAll c (Kernel.groupStmts s (.binary .add (.var .inOffset) (.var .i)) laneCount)
      (st.set .i (.int (c.unit.wrap (k * laneCount : Nat)))), IsKernelInt n := by
  have hlanes : laneCount = 4 := rfl
  have hcount := mul_laneCount k
  have hlast := hc.last_le
  have hwindow := hc.window_le
  have hready := hst.set (.int (c.unit.wrap (k * laneCount : Nat))) (v := .i) (by decide)
  have hfirst := eval_loopFirst hc.holds hst (k := k) (by omega)
  have hcounter : (st.set .i (.int (c.unit.wrap (k * laneCount : Nat)))).vars.get? .i
      = some (.int (k * laneCount : Nat)) := by
    rw [CellState.get?_set_self, hc.holds _ (by omega)]
  refine isKernelInt_ints_groupStmts hc hready hfirst ?_ (by omega)
  exact isKernelInt_ints_binary hfirst (by omega)
    (isKernelInt_ints_var hready.inOffset (by omega)) (isKernelInt_ints_var hcounter (by omega))

/-- The counter of the loop ends at the size of the full groups, which is no more than the window. -/
theorem isKernelInt_ints_vectorLoop (hc : c.Covers d p) (hst : Ready c d m m.init st) :
    ∀ n ∈ Stmt.intsAll c (Kernel.vectorLoop d.geometry s) st, IsKernelInt n := by
  have hwindow := hc.window_le
  unfold Kernel.vectorLoop
  by_cases hzero : d.geometry.vectorizedCount = 0
  · rw [if_pos hzero]
    exact List.forall_mem_nil _
  · rw [if_neg hzero]
    refine Stmt.forall_mem_intsAll_cons ?_ fun _ _ => List.forall_mem_nil _
    refine Stmt.forall_mem_ints_loop (I := fun k st => Ready c d m (m.after p k) st) (by decide)
      ?_ ?_ ?_ hst
    · intro k hk
      rw [d.tripCount_vectorizedCount] at hk
      have hcount := mul_laneCount k
      rw [hc.holds _ (by omega)]
      exact isKernelInt_natCast (by omega)
    · intro k st hk hst
      exact isKernelInt_ints_loopGroup hc (d.mul_laneCount_lt_iff.1 hk) hst
    · intro k st hk hst
      exact execAll_loopGroup hc (d.mul_laneCount_lt_iff.1 hk) hst

theorem isKernelInt_ints_tailBlock (hc : c.Covers d p)
    (hst : Ready c d m (m.after p (d.window / 4)) st) :
    ∀ n ∈ Stmt.intsAll c (Kernel.tailBlock d.geometry s) st, IsKernelInt n := by
  have hlast := hc.last_le
  have hrest : d.geometry.remainder = d.window % 4 := rfl
  have hfull := d.vectorizedCount_eq
  unfold Kernel.tailBlock
  by_cases hzero : d.geometry.remainder = 0
  · rw [if_pos hzero]
    exact List.forall_mem_nil _
  · rw [if_neg hzero, hfull]
    have hconst : (Kernel.sizeConstant (4 * (d.window / 4))).eval c st.vars
        = .ok (.int (4 * (d.window / 4) : Nat)) := Expr.eval_sizeConstant hc.holds (by omega)
    have hfirst := Expr.eval_add hc.holds (Expr.eval_var hst.inOffset) hconst (by omega)
    refine Stmt.forall_mem_intsAll_cons ?_ fun _ _ => List.forall_mem_nil _
    rw [Stmt.ints]
    refine isKernelInt_ints_groupStmts hc hst hfirst ?_ (by omega)
    exact isKernelInt_ints_binary hfirst (by omega)
      (isKernelInt_ints_var hst.inOffset (by omega))
      (isKernelInt_ints_sizeConstant hc.holds (by omega))

/-! ## Cells -/

/-- All integers that come up while an emitted body runs for a cell are kernel `int`s. -/
theorem Invocation.forall_mem_ints_emitted (m : s.Meaning) (hc : c.Covers d p)
    (hneutral : c.kernel.neutral = s.neutral)
    (hbody : c.kernel.body = (Kernel.emit d d.geometry s).body) :
    ∀ n ∈ c.ints, IsKernelInt n := by
  rcases execAll_prologue (m := m) hc hneutral .initial with ⟨st₁, hprologue, hst₁⟩
  rcases execAll_vectorLoop hc hst₁ with ⟨st₂, hloop, hst₂⟩
  rcases execAll_tailBlock hc hst₂ with ⟨st₃, htail, hst₃⟩
  rw [Invocation.ints, hbody]
  simp only [Kernel.emit, List.append_assoc]
  rw [Stmt.intsAll_append _ hprologue, Stmt.intsAll_append _ hloop, Stmt.intsAll_append _ htail]
  simp only [List.forall_mem_append]
  refine ⟨isKernelInt_ints_prologue hc _, isKernelInt_ints_vectorLoop hc hst₁,
    isKernelInt_ints_tailBlock hc hst₂, ?_⟩
  refine Stmt.forall_mem_intsAll_cons ?_ fun _ _ => List.forall_mem_nil _
  exact (s.intFree_combineExpr hst₃.accumulator_ne_int).forall_mem_ints

/-! ## Programs -/

theorem Descriptor.exists_new_eq_ok_iff {k : Kind} {w b n : Nat} :
    (∃ d, Descriptor.new k w b n = .ok d) ↔
      1 ≤ w ∧ (b : Int) ≤ maxKernelInt ∧ (n : Int) + w - 1 ≤ maxKernelInt := by
  constructor
  · rintro ⟨d, hd⟩
    rcases Descriptor.new_eq_ok_iff.1 hd with ⟨-, rfl, rfl, rfl⟩
    have hw := d.window_pos
    have hb := d.batch_le
    have hlast := d.lastIndex_le
    exact ⟨hw, by omega, by omega⟩
  · rintro ⟨hw, hb, hlast⟩
    exact ⟨⟨k, w, b, n, hw, by omega, by omega⟩, Descriptor.new_eq_ok_iff.2 ⟨rfl, rfl, rfl, rfl⟩⟩

/-- The integers that come up for an output cell of a built program are kernel `int`s. -/
theorem Program.isKernelInt_ints_build {u : IntUnit} {input : Tensor} {row o : Nat}
    (hu : u.HoldsKernelInts) (hshape : input.shape = d.inputShape)
    (hrow : row < d.outputShape.rows) (ho : o < d.outputShape.cols) :
    ∀ n ∈ Invocation.ints ⟨u, (Program.build d).kernel, input, row, o⟩, IsKernelInt n := by
  have hneutral := Scheme.ofKind_neutral d.kind
  have hcovers : Invocation.Covers ⟨u, (Program.build d).kernel, input, row, o⟩ d _ :=
    Invocation.covers_of_guard hu hshape hrow ho hneutral (Program.guard_of_build d)
  exact Invocation.forall_mem_ints_emitted (Scheme.meaning d.kind) hcovers rfl rfl

-- A window of five elements from five on: the two coordinates, the start of the window with what it
-- is made of, the group of the one iteration, the counter that ends the loop, and the padded group.
example :
    let d : Descriptor := ⟨.sum, 5, 1, 7, by decide, by decide, by decide⟩
    let input := Tensor.ofFn ⟨1, 7⟩ fun _ _ => 1.0
    Invocation.ints ⟨.trapping64, (Program.build d).kernel, input, 0, 1⟩
      = [0, 1] ++ [5, 1, 5] ++ [0, 5, 5, 0, 0, 5, 0, 6, 5, 1, 0, 7, 5, 2, 0, 8, 5, 3] ++ [4]
        ++ [9, 5, 4, 0, 9] := by
  decide +kernel

/-- Sizes are accepted exactly when the batch and the last index of a window are 32-bit `int`s. Then
every integer that comes up for an output cell is a nonnegative 32-bit `int`, so that integers which
wrap around at 32 bits give the same matrix as those of direct execution. -/
theorem kernel_ints_in_range (k : Kind) (w b n : Nat) :
    ((∃ d, Descriptor.new k w b n = .ok d) ↔
        1 ≤ w ∧ (b : Int) ≤ maxKernelInt ∧ (n : Int) + w - 1 ≤ maxKernelInt)
      ∧ ∀ d, Descriptor.new k w b n = .ok d → ∀ input : Tensor, input.shape = ⟨b, n⟩ →
        (∀ row < (Program.build d).outputShape.rows, ∀ o < (Program.build d).outputShape.cols,
          ∀ i ∈ Invocation.ints ⟨.trapping64, (Program.build d).kernel, input, row, o⟩,
            0 ≤ i ∧ i ≤ maxKernelInt)
        ∧ ∃ out, (Program.build d).execute input = .ok out
          ∧ (Program.build d).executeOn .wrapping32 input = .ok out := by
  refine ⟨Descriptor.exists_new_eq_ok_iff, ?_⟩
  intro d hd input hshape
  rcases Descriptor.new_eq_ok_iff.1 hd with ⟨rfl, rfl, rfl, rfl⟩
  have hints : ∀ row < d.outputShape.rows, ∀ o < d.outputShape.cols,
      ∀ i ∈ Invocation.ints ⟨.trapping64, (Program.build d).kernel, input, row, o⟩,
        IsKernelInt i := by
    intro row hrow o ho
    exact Program.isKernelInt_ints_build trapping64_holdsKernelInts hshape hrow ho
  refine ⟨hints, d.reduce input, Program.execute_build hshape, ?_⟩
  have hconforms : input.shape = (Program.build d).descriptor.inputShape := hshape
  have hrun := Program.execute_build hshape
  rw [Program.execute, Program.executeOn, if_pos hconforms] at hrun
  rw [Program.executeOn, if_pos hconforms]
  -- The narrow unit holds all integers of the run, so it cannot tell itself from the wide one.
  refine Kernel.run_narrow wrapping32_narrows_trapping64 hrun ?_
  intro row hrow o ho i hi
  exact wrapping32_holdsKernelInts.wrap_eq (hints row hrow o ho i hi)

/-- A row as long as windows of three admit: the last window starts two short of the largest `int`
that an index may take. -/
theorem kernel_ints_in_range_longest_row :
    ∃ (d : Descriptor) (input : Tensor), Descriptor.new .min 3 1 0x7FFFFFFD = .ok d
      ∧ input.shape = ⟨1, 0x7FFFFFFD⟩
      ∧ 0 < (Program.build d).outputShape.rows
      ∧ 0x2AAAAAA9 < (Program.build d).outputShape.cols
      ∧ 0x7FFFFFFB ∈ Invocation.ints
          ⟨.trapping64, (Program.build d).kernel, input, 0, 0x2AAAAAA9⟩
      ∧ (∀ i ∈ Invocation.ints ⟨.trapping64, (Program.build d).kernel, input, 0, 0x2AAAAAA9⟩,
          0 ≤ i ∧ i ≤ maxKernelInt)
      ∧ ∃ out, (Program.build d).execute input = .ok out
        ∧ (Program.build d).executeOn .wrapping32 input = .ok out := by
  let d : Descriptor := ⟨.min, 3, 1, 0x7FFFFFFD, by decide, by decide, by decide⟩
  let input := Tensor.ofFn ⟨1, 0x7FFFFFFD⟩ fun _ col => if col % 2 = 0 then 1.0 else -1.0
  have hd : Descriptor.new .min 3 1 0x7FFFFFFD = .ok d := rfl
  have hshape : input.shape = ⟨1, 0x7FFFFFFD⟩ := rfl
  have hrow : 0 < (Program.build d).outputShape.rows := by decide
  have ho : 0x2AAAAAA9 < (Program.build d).outputShape.cols := by decide
  rcases (kernel_ints_in_range .min 3 1 0x7FFFFFFD).2 d hd input hshape with ⟨hints, hrun⟩
  -- The two coordinates come up before the start of the window.
  have hfirst : 0x7FFFFFFB ∈ Invocation.ints
      ⟨.trapping64, (Program.build d).kernel, input, 0, 0x2AAAAAA9⟩ :=
    List.mem_append_right _ (List.mem_append_right _ (List.mem_append_left _ (by decide)))
  exact ⟨d, input, hd, hshape, hrow, ho, hfirst, hints 0 hrow 0x2AAAAAA9 ho, hrun⟩

end WindowReduction
