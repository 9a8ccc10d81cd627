import WindowReduction.Proofs.Execution

/-!
# Reads of variables that have a value

An expression depends on the store only through the variables that it reads, and nothing but such a
read can halt at a variable without a value. So an expression whose variables have values in two
stores, and the same ones, ends alike in both.

Main definitions: `NeverUnbound` and `EndAlike` (how one and how two computations may end),
`Expr.reads` (the variables that an expression reads).
Main statement: `Expr.eval_endAlike`.
-/

namespace WindowReduction

/-! ## Runs that do not halt at a variable -/

/-- The computation does not halt at a variable without a value. -/
def NeverUnbound {α : Type} (x : Except Halt α) : Prop :=
  ∀ v, x ≠ .error (.fault (.unbound v))

/-- Two computations end alike when both give related results or both halt for the same reason,
which is not a variable without a value. -/
inductive EndAlike {α β : Type} (R : α → β → Prop) : Except Halt α → Except Halt β → Prop
  | ok {a : α} {b : β} (h : R a b) : EndAlike R (.ok a) (.ok b)
  | halt {e : Halt} (h : ∀ v, e ≠ .fault (.unbound v)) : EndAlike R (.error e) (.error e)

theorem EndAlike.bind {α β γ δ : Type} {R : α → β → Prop} {S : γ → δ → Prop}
    {x : Except Halt α} {y : Except Halt β} {f : α → Except Halt γ} {g : β → Except Halt δ}
    (hxy : EndAlike R x y) (hfg : ∀ a b, R a b → EndAlike S (f a) (g b)) :
    EndAlike S (x >>= f) (y >>= g) := by
  cases hxy with
  | ok h => exact hfg _ _ h
  | halt h => exact .halt h

/-- Computations that end alike with one result go on alike. -/
theorem EndAlike.bind_eq {α γ δ : Type} {S : γ → δ → Prop} {x y : Except Halt α}
    {f : α → Except Halt γ} {g : α → Except Halt δ} (hxy : EndAlike Eq x y)
    (hfg : ∀ a, EndAlike S (f a) (g a)) : EndAlike S (x >>= f) (y >>= g) := by
  refine hxy.bind ?_
  rintro a _ rfl
  exact hfg a

theorem EndAlike.imp {α β : Type} {R S : α → β → Prop} {x : Except Halt α} {y : Except Halt β}
    (hxy : EndAlike R x y) (h : ∀ a b, R a b → S a b) : EndAlike S x y := by
  cases hxy with
  | ok hR => exact .ok (h _ _ hR)
  | halt he => exact .halt he

theorem NeverUnbound.endAlike {α : Type} {x : Except Halt α} (h : NeverUnbound x) :
    EndAlike Eq x x := by
  cases x with
  | ok a => exact .ok rfl
  | error e =>
      refine .halt ?_
      rintro v rfl
      exact h v rfl

theorem neverUnbound_ok {α : Type} (a : α) : NeverUnbound (.ok a : Except Halt α) := by
  intro v h
  cases h

theorem neverUnbound_mismatch {α : Type} : NeverUnbound (mismatch : Except Halt α) := by
  intro v h
  cases h

theorem NeverUnbound.bind {α β : Type} {x : Except Halt α} {f : α → Except Halt β}
    (hx : NeverUnbound x) (hf : ∀ a, NeverUnbound (f a)) : NeverUnbound (x >>= f) := by
  cases x with
  | ok a => exact hf a
  | error e =>
      intro v h
      cases h
      exact hx v rfl

theorem NeverUnbound.map {α β : Type} {x : Except Halt α} (hx : NeverUnbound x) (f : α → β) :
    NeverUnbound (f <$> x) := by
  rw [← bind_pure_comp]
  exact hx.bind fun a => neverUnbound_ok (f a)

/-! ## Operations on values -/

namespace Value

variable (x y : Value)

theorem neverUnbound_asInt : NeverUnbound x.asInt := by
  cases x with
  | int n => exact neverUnbound_ok n
  | _ => exact neverUnbound_mismatch

theorem neverUnbound_asFloat : NeverUnbound x.asFloat := by
  cases x with
  | float z => exact neverUnbound_ok z
  | _ => exact neverUnbound_mismatch

theorem neverUnbound_asBoolVector : NeverUnbound x.asBoolVector := by
  cases x with
  | bvec4 v => exact neverUnbound_ok v
  | _ => exact neverUnbound_mismatch

theorem neverUnbound_toFloat : NeverUnbound x.toFloat := by
  fun_cases Value.toFloat x
  case case4 => exact neverUnbound_mismatch
  all_goals exact neverUnbound_ok _

theorem neverUnbound_toBool : NeverUnbound x.toBool := by
  fun_cases Value.toBool x
  case case4 => exact neverUnbound_mismatch
  all_goals exact neverUnbound_ok _

theorem neverUnbound_lane (k : Nat) : NeverUnbound (x.lane k) := by
  fun_cases Value.lane x k
  case case1 => exact neverUnbound_ok _
  case case3 => exact neverUnbound_ok _
  all_goals exact neverUnbound_mismatch

theorem neverUnbound_pack (ty : Ty) (lanes : Vec4 Value) : NeverUnbound (Value.pack ty lanes) := by
  have hlanes : ∀ {α : Type} {f : Value → Except Halt α}, (∀ x, NeverUnbound (f x)) →
      NeverUnbound (lanes.mapM f) := by
    intro α f hf
    refine (hf _).bind fun _ => ?_
    refine (hf _).bind fun _ => ?_
    refine (hf _).bind fun _ => ?_
    refine (hf _).bind fun _ => ?_
    exact neverUnbound_ok _
  cases ty with
  | vec4 => exact (hlanes neverUnbound_toFloat).map _
  | bvec4 => exact (hlanes neverUnbound_toBool).map _
  | _ => exact neverUnbound_mismatch

theorem neverUnbound_splat (ty : Ty) : NeverUnbound (Value.splat ty x) := by
  cases ty with
  | vec4 => exact x.neverUnbound_toFloat.map _
  | bvec4 => exact x.neverUnbound_toBool.map _
  | _ => exact neverUnbound_mismatch

end Value

theorem IntUnit.neverUnbound_settle (u : IntUnit) (cause : Overflow) (n : Int) :
    NeverUnbound (u.settle cause n) := by
  unfold IntUnit.settle
  split
  · intro v h
    cases h
  · exact neverUnbound_ok _

theorem BinaryOp.neverUnbound_admit (op : BinaryOp) (x : Value) :
    NeverUnbound <| op.admit x := by
  fun_cases BinaryOp.admit op x
  case case2 => exact neverUnbound_mismatch
  all_goals exact neverUnbound_ok _

theorem BinaryOp.neverUnbound_apply (u : IntUnit) (op : BinaryOp) (x y : Value) :
    NeverUnbound (op.apply u x y) := by
  fun_cases BinaryOp.apply u op x y
  -- Only integer arithmetic can fail on operands of the right types.
  case case1 => exact (u.neverUnbound_settle _ _).map _
  case case4 => exact (u.neverUnbound_settle _ _).map _
  case case10 => exact neverUnbound_mismatch
  all_goals exact neverUnbound_ok _

theorem Builtin.neverUnbound_apply (fn : Builtin) (x y : Value) : NeverUnbound (fn.apply x y) := by
  fun_cases Builtin.apply fn x y
  case case6 => exact neverUnbound_mismatch
  all_goals exact neverUnbound_ok _

/-! ## Expressions -/

/-- The variable, if the expression is one. -/
def Expr.var? : Expr → Option Var
  | .var v => some v
  | _ => none

/-- The variables that an expression reads. -/
def Expr.reads (e : Expr) : List Var :=
  e.subterms.filterMap Expr.var?

/-- An expression reads what its operands read. -/
theorem Expr.reads_subset_of_mem_operands {e a : Expr} (ha : a ∈ e.operands) :
    a.reads ⊆ e.reads := by
  intro v hv
  rcases List.mem_filterMap.1 hv with ⟨part, hpart, hvar⟩
  refine List.mem_filterMap.2 ⟨part, ?_, hvar⟩
  rw [Expr.subterms_eq]
  exact List.mem_cons_of_mem _ (List.mem_flatMap.2 ⟨a, ha, hpart⟩)

theorem Invocation.neverUnbound_fetch (c : Invocation) (row index : Int) :
    NeverUnbound (c.fetch row index) := by
  unfold Invocation.fetch
  split
  · exact neverUnbound_ok _
  · split
    · exact neverUnbound_ok _
    · intro v h
      cases h

theorem Invocation.neverUnbound_coord (c : Invocation) (axis : Nat) :
    NeverUnbound (c.coord axis) := by
  unfold Invocation.coord
  split
  · exact neverUnbound_ok _
  · exact neverUnbound_ok _
  · intro v h
    cases h

/-- Two stores have the same values for all variables that an expression reads. -/
def Expr.ReadsAlike (vars vars' : Store) (e : Expr) : Prop :=
  ∀ v ∈ e.reads, ∃ x, vars.get? v = some x ∧ vars'.get? v = some x

theorem Expr.ReadsAlike.operand {vars vars' : Store} {e a : Expr} (h : e.ReadsAlike vars vars')
    (ha : a ∈ e.operands) : a.ReadsAlike vars vars' :=
  fun v hv => h v (Expr.reads_subset_of_mem_operands ha hv)

/-- An expression has the same value in two stores that agree on the variables that it reads. -/
theorem Expr.eval_endAlike {c : Invocation} {vars vars' : Store} {e : Expr}
    (h : e.ReadsAlike vars vars') : EndAlike Eq (e.eval c vars) (e.eval c vars') := by
  induction e with
  | int n => exact (neverUnbound_ok _).endAlike
  | float x => exact (neverUnbound_ok _).endAlike
  | neutral => exact (neverUnbound_ok _).endAlike
  | var v =>
      rcases h v List.mem_cons_self with ⟨x, hx, hx'⟩
      rw [Expr.eval_var hx, Expr.eval_var hx']
      exact .ok rfl
  | coord axis =>
      rw [Expr.eval, Expr.eval]
      exact ((c.neverUnbound_coord axis).bind fun _ => neverUnbound_ok _).endAlike
  | fetch row index ihrow ihindex =>
      rw [Expr.eval, Expr.eval]
      refine (ihrow (h.operand (by simp [Expr.operands]))).bind_eq fun x => ?_
      refine x.neverUnbound_asInt.endAlike.bind_eq fun i => ?_
      refine (ihindex (h.operand (by simp [Expr.operands]))).bind_eq fun y => ?_
      refine y.neverUnbound_asInt.endAlike.bind_eq fun j => ?_
      exact ((c.neverUnbound_fetch i j).bind fun _ => neverUnbound_ok _).endAlike
  | binary op a b iha ihb =>
      rw [Expr.eval, Expr.eval]
      refine (iha (h.operand (by simp [Expr.operands]))).bind_eq fun x => ?_
      refine (op.neverUnbound_admit x).endAlike.bind_eq fun _ => ?_
      refine (ihb (h.operand (by simp [Expr.operands]))).bind_eq fun y => ?_
      exact (op.neverUnbound_apply c.unit x y).endAlike
  | builtin fn a b iha ihb =>
      rw [Expr.eval, Expr.eval]
      refine (iha (h.operand (by simp [Expr.operands]))).bind_eq fun x => ?_
      refine (ihb (h.operand (by simp [Expr.operands]))).bind_eq fun y => ?_
      exact (fn.neverUnbound_apply x y).endAlike
  | lane vector k ih =>
      rw [Expr.eval, Expr.eval]
      refine (ih (h.operand (by simp [Expr.operands]))).bind_eq fun x => ?_
      exact (x.neverUnbound_lane k).endAlike
  | pack ty e₀ e₁ e₂ e₃ ih₀ ih₁ ih₂ ih₃ =>
      rw [Expr.eval, Expr.eval]
      refine (ih₀ (h.operand (by simp [Expr.operands]))).bind_eq fun x₀ => ?_
      refine (ih₁ (h.operand (by simp [Expr.operands]))).bind_eq fun x₁ => ?_
      refine (ih₂ (h.operand (by simp [Expr.operands]))).bind_eq fun x₂ => ?_
      refine (ih₃ (h.operand (by simp [Expr.operands]))).bind_eq fun x₃ => ?_
      exact (Value.neverUnbound_pack ty _).endAlike
  | splat ty e ih =>
      rw [Expr.eval, Expr.eval]
      refine (ih (h.operand (by simp [Expr.operands]))).bind_eq fun x => ?_
      exact (x.neverUnbound_splat ty).endAlike
  | allLanes vector ih =>
      rw [Expr.eval, Expr.eval]
      refine (ih (h.operand (by simp [Expr.operands]))).bind_eq fun x => ?_
      exact (x.neverUnbound_asBoolVector.bind fun _ => neverUnbound_ok _).endAlike
  | toFloat e ih =>
      rw [Expr.eval, Expr.eval]
      refine (ih (h.operand (by simp [Expr.operands]))).bind_eq fun x => ?_
      exact (x.neverUnbound_toFloat.bind fun _ => neverUnbound_ok _).endAlike

end WindowReduction
