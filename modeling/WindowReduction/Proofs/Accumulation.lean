import WindowReduction.Proofs.Execution
import WindowReduction.Proofs.PaddedWindow

/-!
# What a scheme accumulates

A scheme is a few fragments of kernel syntax: an initial expression, update statements and a final
expression. `Scheme.Meaning` gives these fragments a meaning on plain values, with the proof that
running a fragment does what its meaning says. A run of a kernel then only needs the meaning.

Main definitions: `Scheme.Meaning`, `Scheme.meaning` (the meaning of each kind's scheme).
Main statements: `Scheme.meaning_result_foldl` (the meanings compute `Kind.reduceGroups`).
-/

namespace WindowReduction

/-- A meaning of the fragments of a scheme. -/
structure Scheme.Meaning (s : Scheme) where
  /-- What is accumulated, and how the accumulator variable holds it. -/
  Acc : Type
  encode : Acc → Value
  /-- How the variable for a group holds its elements. -/
  group : Vec4 Float32 → Value
  init : Acc
  update : Acc → Vec4 Float32 → Acc
  result : Acc → Float32
  ty_encode : ∀ a, (encode a).ty = s.accumulatorTy
  ty_group : ∀ g, (group g).ty = s.groupTy
  pack_group : ∀ g : Vec4 Float32,
    Value.pack s.groupTy ⟨.float g.x, .float g.y, .float g.z, .float g.w⟩ = .ok (group g)
  eval_initExpr : ∀ (c : Invocation) (vars : Store), c.kernel.neutral = s.neutral →
    s.initExpr.eval c vars = .ok (encode init)
  execAll_updateStmts : ∀ (c : Invocation) (st : CellState) (a : Acc) (g : Vec4 Float32),
    st.vars.get? .accumulator = some (encode a) → st.vars.get? .values = some (group g) →
    ∃ st', Stmt.execAll c s.updateStmts st = .ok st'
      ∧ st'.vars.get? .accumulator = some (encode (update a g))
      ∧ ∀ v, v ≠ .accumulator → v ≠ .groupAll → st'.vars.get? v = st.vars.get? v
  eval_combineExpr : ∀ (c : Invocation) (vars : Store) (a : Acc),
    vars.get? .accumulator = some (encode a) →
    s.combineExpr.eval c vars = .ok (.float (result a))

namespace Scheme

variable {c : Invocation} {vars : Store} {st : CellState} {acc : Float32} {g lanes : Vec4 Float32}

/-! ## Adding up -/

theorem eval_dotOnes_update (hacc : vars.get? .accumulator = some (.float acc))
    (hval : vars.get? .values = some (.vec4 g)) :
    (Expr.binary .add (.var .accumulator)
        (.builtin .dot (.var .values) (.splat .vec4 (.float 1.0)))).eval c vars
      = .ok (.float (Kind.addGroup acc g)) := by
  rw [Expr.eval, Expr.eval_var hacc, Expr.eval, Expr.eval_var hval]
  rfl

/-- The meaning of adding up: one number. -/
def sumMeaning : (ofKind .sum).Meaning where
  Acc := Float32
  encode := .float
  group := .vec4
  init := 0.0
  update := Kind.addGroup
  result := id
  ty_encode := fun _ => rfl
  ty_group := fun _ => rfl
  pack_group := fun _ => rfl
  eval_initExpr := by
    intro c vars hneutral
    change Except.ok (Value.float c.kernel.neutral) = _
    rw [hneutral]
    rfl
  execAll_updateStmts := by
    intro c st a g hacc hval
    refine ⟨st.set .accumulator (.float (Kind.addGroup a g)), ?_, ?_, ?_⟩
    · exact Stmt.execAll_cons [] (Stmt.exec_assign hacc (eval_dotOnes_update hacc hval) rfl)
    · exact CellState.get?_set_self st _ _
    · intro v hv _
      exact CellState.get?_set_of_ne st _ hv
  eval_combineExpr := by
    intro c vars a hacc
    exact Expr.eval_var hacc

/-! ## Keeping the least or the greatest of each lane -/

theorem eval_lane (hacc : vars.get? .accumulator = some (.vec4 lanes)) (k : Nat)
    {x : Float32} (hk : lanes.toList[k]? = some x) :
    (Expr.lane (.var .accumulator) k).eval c vars = .ok (.float x) := by
  rw [Expr.eval, Expr.eval_var hacc]
  change Value.lane (.vec4 lanes) k = _
  rw [Value.lane, hk]

theorem eval_foldLanes {fn : Builtin} {f : Float32 → Float32 → Float32}
    (hfn : ∀ x y, fn.apply (.float x) (.float y) = .ok (.float (f x y)))
    (hacc : vars.get? .accumulator = some (.vec4 lanes)) :
    (foldLanes fn).eval c vars
      = .ok (.float ([lanes.y, lanes.z, lanes.w].foldl f lanes.x)) := by
  have hstep : ∀ (e : Expr) (k : Nat) (r x : Float32), e.eval c vars = .ok (.float r) →
      lanes.toList[k]? = some x →
      (Expr.builtin fn e (.lane (.var .accumulator) k)).eval c vars = .ok (.float (f r x)) := by
    intro e k r x he hk
    rw [Expr.eval, he, eval_lane hacc k hk]
    exact hfn r x
  have h₀ := eval_lane (c := c) hacc 0 rfl
  have h₁ := hstep _ 1 _ _ h₀ rfl
  have h₂ := hstep _ 2 _ _ h₁ rfl
  exact hstep _ 3 _ _ h₂ rfl

/-- The meaning of a scheme that keeps four lanes and combines them by one function throughout. -/
def lanesMeaning (s : Scheme) (fn : Builtin) (f : Float32 → Float32 → Float32)
    (haccumulator : s.accumulator = .lanes) (hgroup : s.groupTy = .vec4)
    (hupdate : s.updateStmts
      = [.assign .accumulator (.builtin fn (.var .values) (.var .accumulator))])
    (hcombine : s.combineExpr = foldLanes fn)
    (hfloat : ∀ x y, fn.apply (.float x) (.float y) = .ok (.float (f x y)))
    (hvec : ∀ v w, fn.apply (.vec4 v) (.vec4 w) = .ok (.vec4 (v.zipWith f w))) : s.Meaning where
  Acc := Vec4 Float32
  encode := .vec4
  group := .vec4
  init := Vec4.splat s.neutral
  update := fun lanes g => g.zipWith f lanes
  result := fun lanes => [lanes.y, lanes.z, lanes.w].foldl f lanes.x
  ty_encode := by
    intro a
    rw [accumulatorTy, haccumulator]
    rfl
  ty_group := by
    intro g
    rw [hgroup]
    rfl
  pack_group := by
    intro g
    rw [hgroup]
    rfl
  eval_initExpr := by
    intro c vars hneutral
    rw [initExpr, haccumulator]
    change Except.ok (Value.vec4 (Vec4.splat c.kernel.neutral)) = _
    rw [hneutral]
  execAll_updateStmts := by
    intro c st lanes g hacc hval
    have heval : (Expr.builtin fn (.var .values) (.var .accumulator)).eval c st.vars
        = .ok (.vec4 (g.zipWith f lanes)) := by
      rw [Expr.eval, Expr.eval_var hval, Expr.eval_var hacc]
      exact hvec g lanes
    refine ⟨st.set .accumulator (.vec4 (g.zipWith f lanes)), ?_, ?_, ?_⟩
    · rw [hupdate]
      exact Stmt.execAll_cons [] (Stmt.exec_assign hacc heval rfl)
    · exact CellState.get?_set_self st _ _
    · intro v hv _
      exact CellState.get?_set_of_ne st _ hv
  eval_combineExpr := by
    intro c vars lanes hacc
    rw [hcombine]
    exact eval_foldLanes hfloat hacc

def minMeaning : (ofKind .min).Meaning :=
  lanesMeaning _ .min lesser rfl rfl rfl rfl (fun _ _ => rfl) (fun _ _ => rfl)

def maxMeaning : (ofKind .max).Meaning :=
  lanesMeaning _ .max greater rfl rfl rfl rfl (fun _ _ => rfl) (fun _ _ => rfl)

/-! ## Conjunction -/

/-- A truth value counts as true in the accumulator exactly when it is true. -/
theorem one_le_truthValue (b : Bool) : decide ((1.0 : Float32) ≤ truthValue b) = b := by
  cases b <;> decide

theorem eval_logicalAnd_update {b : Bool} (hacc : vars.get? .accumulator = some (.float acc))
    (hall : vars.get? .groupAll = some (.bool b)) :
    (Expr.toFloat (.binary .and (.binary .atLeast (.var .accumulator) (.float 1.0))
        (.binary .atLeast (.toFloat (.var .groupAll)) (.float 1.0)))).eval c vars
      = .ok (.float (truthValue (decide (1.0 ≤ acc) && b))) := by
  simp only [Expr.eval, Store.read, hacc, hall]
  change Except.ok (Value.float (truthValue (decide (1.0 ≤ acc)
    && decide ((1.0 : Float32) ≤ truthValue b)))) = _
  rw [one_le_truthValue]

/-- The lanes of a group as truth values. -/
def truthLanes (g : Vec4 Float32) : Vec4 Bool :=
  ⟨g.x != 0.0, g.y != 0.0, g.z != 0.0, g.w != 0.0⟩

theorem andGroup_eq (acc : Float32) (g : Vec4 Float32) :
    Kind.andGroup acc g = truthValue (decide (1.0 ≤ acc) && (truthLanes g).toList.all id) := by
  unfold Kind.andGroup truthValue truthLanes Vec4.toList
  simp only [List.all_cons, List.all_nil, id, Bool.and_true, Bool.and_eq_true, decide_eq_true_eq]

/-- The meaning of conjunction: one number, the group held as truth values. -/
def allMeaning : (ofKind .all).Meaning where
  Acc := Float32
  encode := .float
  group := fun g => .bvec4 (truthLanes g)
  init := 1.0
  update := Kind.andGroup
  result := id
  ty_encode := fun _ => rfl
  ty_group := fun _ => rfl
  pack_group := fun _ => rfl
  eval_initExpr := by
    intro c vars hneutral
    change Except.ok (Value.float c.kernel.neutral) = _
    rw [hneutral]
    rfl
  execAll_updateStmts := by
    intro c st a g hacc hval
    have heval : (Expr.allLanes (.var .values)).eval c st.vars
        = .ok (.bool ((truthLanes g).toList.all id)) := by
      rw [Expr.eval, Expr.eval_var hval]
      rfl
    have hacc' : (st.set .groupAll (.bool ((truthLanes g).toList.all id))).vars.get? .accumulator
        = some (.float a) := by
      rw [CellState.get?_set_of_ne st _ (by decide), hacc]
    have hupdate := eval_logicalAnd_update (c := c) hacc' (CellState.get?_set_self st _ _)
    rw [← andGroup_eq] at hupdate
    refine ⟨_, (Stmt.execAll_cons _ (Stmt.exec_declare heval rfl)).trans
      (Stmt.execAll_cons [] (Stmt.exec_assign hacc' hupdate rfl)), ?_, ?_⟩
    · exact CellState.get?_set_self _ _ _
    · intro v hv hv'
      rw [CellState.get?_set_of_ne _ _ hv, CellState.get?_set_of_ne _ _ hv']
  eval_combineExpr := by
    intro c vars a hacc
    exact Expr.eval_var hacc

/-! ## The schemes of the kinds -/

/-- The meaning of a kind's scheme. -/
def meaning : (k : Kind) → (ofKind k).Meaning
  | .sum => sumMeaning
  | .min => minMeaning
  | .max => maxMeaning
  | .all => allMeaning

/-- The meanings of the schemes compute the values of groups. -/
theorem meaning_result_foldl (k : Kind) (groups : List (Vec4 Float32)) :
    (meaning k).result (groups.foldl (meaning k).update (meaning k).init)
      = k.reduceGroups groups := by
  cases k <;> rfl

end Scheme

end WindowReduction
