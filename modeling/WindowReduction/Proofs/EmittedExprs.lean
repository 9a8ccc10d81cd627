import WindowReduction.Program

/-!
# The expressions of emitted kernels

Kernels are emitted with few kinds of constants: the length of a window, the size of its full
groups, the offset of a lane and the number one. `Expr.IsEmitted` is the grammar of the expressions
that are built from them. What holds of each form of the grammar holds of every expression in every
kernel, so facts about constants are proved by one look at the forms and not by another walk through
the emitter.

Main definition: `Expr.IsEmitted`.
Main statements: `Kernel.isEmitted_emit` (every expression of an emitted kernel is of the grammar),
`Program.agrees_self_build`.
-/

namespace WindowReduction

/-! ## The grammar -/

/-- The expressions that kernels for the descriptor and its geometry are made of. -/
inductive Expr.IsEmitted (d : Descriptor) (g : Geometry) : Expr → Prop where
  | window : IsEmitted d g (Kernel.sizeConstant d.window)
  | fullGroups : IsEmitted d g (Kernel.sizeConstant g.vectorizedCount)
  | laneOffset {k : Nat} (hk : k < laneCount) : IsEmitted d g (Kernel.sizeConstant k)
  | one : IsEmitted d g (.float 1.0)
  | neutral : IsEmitted d g .neutral
  | var {v : Var} : IsEmitted d g (.var v)
  | coord {axis : Nat} (haxis : axis < 2) : IsEmitted d g (.coord axis)
  | fetch {row index : Expr} (hrow : IsEmitted d g row) (hindex : IsEmitted d g index) :
      IsEmitted d g (.fetch row index)
  | binary {op : BinaryOp} {a b : Expr} (ha : IsEmitted d g a) (hb : IsEmitted d g b) :
      IsEmitted d g (.binary op a b)
  | builtin {fn : Builtin} {a b : Expr} (ha : IsEmitted d g a) (hb : IsEmitted d g b) :
      IsEmitted d g (.builtin fn a b)
  | lane {vector : Expr} {k : Nat} (hvector : IsEmitted d g vector) (hk : k < laneCount) :
      IsEmitted d g (.lane vector k)
  | pack {ty : Ty} {e₀ e₁ e₂ e₃ : Expr} (h₀ : IsEmitted d g e₀) (h₁ : IsEmitted d g e₁)
      (h₂ : IsEmitted d g e₂) (h₃ : IsEmitted d g e₃) : IsEmitted d g (.pack ty e₀ e₁ e₂ e₃)
  /-- Only vectors of four numbers are filled with one. -/
  | splat {value : Expr} (hvalue : IsEmitted d g value) : IsEmitted d g (.splat .vec4 value)
  | allLanes {vector : Expr} (hvector : IsEmitted d g vector) : IsEmitted d g (.allLanes vector)
  | toFloat {value : Expr} (hvalue : IsEmitted d g value) : IsEmitted d g (.toFloat value)

section

variable {d : Descriptor} {g : Geometry} {e first : Expr} {live : Nat}

/-- The parts of an expression of the grammar are of the grammar. -/
theorem Expr.IsEmitted.subterms (h : e.IsEmitted d g) :
    ∀ part ∈ e.subterms, part.IsEmitted d g := by
  induction h with
  | window => exact List.forall_mem_singleton.2 .window
  | fullGroups => exact List.forall_mem_singleton.2 .fullGroups
  | laneOffset hk => exact List.forall_mem_singleton.2 (.laneOffset hk)
  | one => exact List.forall_mem_singleton.2 .one
  | neutral => exact List.forall_mem_singleton.2 .neutral
  | var => exact List.forall_mem_singleton.2 .var
  | coord haxis => exact List.forall_mem_singleton.2 (.coord haxis)
  | fetch hrow hindex ihrow ihindex =>
      exact List.forall_mem_cons.2 ⟨.fetch hrow hindex, List.forall_mem_append.2 ⟨ihrow, ihindex⟩⟩
  | binary ha hb iha ihb =>
      exact List.forall_mem_cons.2 ⟨.binary ha hb, List.forall_mem_append.2 ⟨iha, ihb⟩⟩
  | builtin ha hb iha ihb =>
      exact List.forall_mem_cons.2 ⟨.builtin ha hb, List.forall_mem_append.2 ⟨iha, ihb⟩⟩
  | lane hvector hk ih => exact List.forall_mem_cons.2 ⟨.lane hvector hk, ih⟩
  | pack h₀ h₁ h₂ h₃ ih₀ ih₁ ih₂ ih₃ =>
      rw [Expr.subterms]
      simp only [List.forall_mem_cons, List.forall_mem_append]
      exact ⟨.pack h₀ h₁ h₂ h₃, ⟨⟨ih₀, ih₁⟩, ih₂⟩, ih₃⟩
  | splat hvalue ih => exact List.forall_mem_cons.2 ⟨.splat hvalue, ih⟩
  | allLanes hvector ih => exact List.forall_mem_cons.2 ⟨.allLanes hvector, ih⟩
  | toFloat hvalue ih => exact List.forall_mem_cons.2 ⟨.toFloat hvalue, ih⟩

/-! ## The emitter -/

theorem Stmt.exprsAll_append (body rest : List Stmt) :
    Stmt.exprsAll (body ++ rest) = Stmt.exprsAll body ++ Stmt.exprsAll rest := by
  induction body with
  | nil => rfl
  | cons s body ih => rw [List.cons_append, Stmt.exprsAll, Stmt.exprsAll, ih, List.append_assoc]

theorem Scheme.isEmitted_initExpr (s : Scheme) : s.initExpr.IsEmitted d g := by
  unfold Scheme.initExpr
  cases s.accumulator with
  | scalar => exact .neutral
  | lanes => exact .splat .neutral

theorem Scheme.isEmitted_combineExpr (s : Scheme) : s.combineExpr.IsEmitted d g := by
  have hlane : ∀ k < laneCount, (Expr.lane (.var .accumulator) k).IsEmitted d g :=
    fun k hk => .lane .var hk
  have hlanes : ∀ fn, (Scheme.foldLanes fn).IsEmitted d g := by
    intro fn
    have hfirst := hlane 0 (by decide)
    exact .builtin (.builtin (.builtin hfirst (hlane 1 (by decide))) (hlane 2 (by decide)))
      (hlane 3 (by decide))
  unfold Scheme.combineExpr
  cases s.combine with
  | identity => exact .var
  | horizontalMin => exact hlanes .min
  | horizontalMax => exact hlanes .max

theorem Scheme.isEmitted_updateStmts (s : Scheme) :
    ∀ part ∈ Stmt.exprsAll s.updateStmts, part.IsEmitted d g := by
  unfold Scheme.updateStmts
  cases s.update <;> simp only [Stmt.exprsAll, Stmt.exprs, List.append_nil, List.forall_mem_append]
  case dotOnes => exact (Expr.IsEmitted.binary .var (.builtin .var (.splat .one))).subterms
  case laneMin => exact (Expr.IsEmitted.builtin .var .var).subterms
  case laneMax => exact (Expr.IsEmitted.builtin .var .var).subterms
  case logicalAnd =>
    have haccumulator : (Expr.binary .atLeast (.var .accumulator) (.float 1.0)).IsEmitted d g :=
      .binary .var .one
    have hgroup : (Expr.binary .atLeast (.toFloat (.var .groupAll)) (.float 1.0)).IsEmitted d g :=
      .binary (.toFloat .var) .one
    refine ⟨(Expr.IsEmitted.allLanes .var).subterms, ?_⟩
    exact (Expr.IsEmitted.toFloat (.binary haccumulator hgroup)).subterms

theorem Kernel.isEmitted_groupLane {k : Nat} (hk : k < laneCount) :
    (Kernel.groupLane live k).IsEmitted d g := by
  unfold Kernel.groupLane
  split
  · exact .neutral
  · split
    · exact .fetch .var .var
    · exact .fetch .var (.binary .var (.laneOffset hk))

theorem Kernel.isEmitted_groupStmts (s : Scheme) (hfirst : first.IsEmitted d g) :
    ∀ part ∈ Stmt.exprsAll (Kernel.groupStmts s first live), part.IsEmitted d g := by
  have hgroup : (Expr.pack s.groupTy (Kernel.groupLane live 0) (Kernel.groupLane live 1)
      (Kernel.groupLane live 2) (Kernel.groupLane live 3)).IsEmitted d g :=
    .pack (isEmitted_groupLane (by decide)) (isEmitted_groupLane (by decide))
      (isEmitted_groupLane (by decide)) (isEmitted_groupLane (by decide))
  rw [Kernel.groupStmts, Stmt.exprsAll_append, List.forall_mem_append]
  refine ⟨?_, s.isEmitted_updateStmts⟩
  simp only [Stmt.exprsAll, Stmt.exprs, List.append_nil, List.forall_mem_append]
  exact ⟨hfirst.subterms, hgroup.subterms⟩

theorem Kernel.isEmitted_prologue (s : Scheme) :
    ∀ part ∈ Stmt.exprsAll (Kernel.prologue d s), part.IsEmitted d g := by
  simp only [Kernel.prologue, Stmt.exprsAll, Stmt.exprs, List.append_nil, List.forall_mem_append]
  refine ⟨?_, ?_, ?_, s.isEmitted_initExpr.subterms⟩
  · exact (Expr.IsEmitted.coord (by decide)).subterms
  · exact (Expr.IsEmitted.coord (by decide)).subterms
  · exact (Expr.IsEmitted.binary .var .window).subterms

theorem Kernel.isEmitted_vectorLoop (s : Scheme) :
    ∀ part ∈ Stmt.exprsAll (Kernel.vectorLoop g s), part.IsEmitted d g := by
  unfold Kernel.vectorLoop
  split
  · exact List.forall_mem_nil _
  · rw [Stmt.exprsAll, Stmt.exprs, Stmt.exprsAll, List.append_nil]
    exact Kernel.isEmitted_groupStmts s (.binary .var .var)

theorem Kernel.isEmitted_tailBlock (s : Scheme) :
    ∀ part ∈ Stmt.exprsAll (Kernel.tailBlock g s), part.IsEmitted d g := by
  unfold Kernel.tailBlock
  split
  · exact List.forall_mem_nil _
  · rw [Stmt.exprsAll, Stmt.exprs, Stmt.exprsAll, List.append_nil]
    exact Kernel.isEmitted_groupStmts s (.binary .var .fullGroups)

/-- Every expression of an emitted kernel is of the grammar. -/
theorem Kernel.isEmitted_emit (d : Descriptor) (g : Geometry) (s : Scheme) :
    ∀ part ∈ (Kernel.emit d g s).exprs, part.IsEmitted d g := by
  simp only [Kernel.exprs, Kernel.emit, Stmt.exprsAll_append, List.forall_mem_append]
  refine ⟨⟨⟨isEmitted_prologue s, isEmitted_vectorLoop s⟩, isEmitted_tailBlock s⟩, ?_⟩
  rw [Stmt.exprsAll, Stmt.exprs, Stmt.exprsAll, List.append_nil]
  exact s.isEmitted_combineExpr.subterms

/-! ## Agreement -/

theorem Expr.IsEmitted.isNaN_eq_false (h : e.IsEmitted d g) : e.isNaN = false := by
  cases h with
  | one => decide
  | _ => rfl

theorem Kind.neutral_beq_self (k : Kind) : (k.neutral == k.neutral) = true := by
  cases k <;> decide

/-- A built program agrees with itself, since its kernel has no NaN. -/
theorem Program.agrees_self_build (d : Descriptor) :
    (Program.build d).agrees (Program.build d) = true := by
  have hneutral : (Program.build d).kernel.neutral = d.kind.neutral := Scheme.ofKind_neutral d.kind
  have hkernel : (Program.build d).kernel.agrees (Program.build d).kernel = true := by
    rw [Kernel.agrees_self_iff, hneutral]
    exact ⟨d.kind.neutral_beq_self,
      fun e he => (Kernel.isEmitted_emit d d.geometry _ e he).isNaN_eq_false⟩
  simp [Program.agrees, hkernel]

end

end WindowReduction
