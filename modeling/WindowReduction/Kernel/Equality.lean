import WindowReduction.Kernel.Syntax

/-!
# Equality of kernels

Two kernels agree when they are the same tree and their constants are equal as floating-point
numbers: a NaN differs from itself, and the two zeros are equal. Agreement is therefore neither
reflexive nor finer than equality of trees.

Main statement: `Kernel.agrees_self_iff` (which kernels agree with themselves).
-/

namespace WindowReduction

/-- Whether two expressions are the same tree up to floating-point equality of constants. -/
def Expr.agrees : Expr → Expr → Bool
  | .int m, .int n => m == n
  | .float x, .float y => x == y
  | .neutral, .neutral => true
  | .var v, .var w => v == w
  | .coord i, .coord j => i == j
  | .fetch r k, .fetch r' k' => r.agrees r' && k.agrees k'
  | .binary op a b, .binary op' a' b' => op == op' && a.agrees a' && b.agrees b'
  | .builtin fn a b, .builtin fn' a' b' => fn == fn' && a.agrees a' && b.agrees b'
  | .lane v k, .lane v' k' => v.agrees v' && k == k'
  | .pack ty a b c d, .pack ty' a' b' c' d' =>
    ty == ty' && a.agrees a' && b.agrees b' && c.agrees c' && d.agrees d'
  | .splat ty e, .splat ty' e' => ty == ty' && e.agrees e'
  | .allLanes v, .allLanes v' => v.agrees v'
  | .toFloat e, .toFloat e' => e.agrees e'
  | _, _ => false

mutual

/-- Whether two statements agree. -/
def Stmt.agrees : Stmt → Stmt → Bool
  | .declare v ty e, .declare v' ty' e' => v == v' && ty == ty' && e.agrees e'
  | .assign v e, .assign v' e' => v == v' && e.agrees e'
  | .loop v count step body, .loop v' count' step' body' =>
    v == v' && count == count' && step == step' && Stmt.agreesAll body body'
  | .block body, .block body' => Stmt.agreesAll body body'
  | .output e, .output e' => e.agrees e'
  | _, _ => false

/-- Whether two lists of statements agree, one by one. -/
def Stmt.agreesAll : List Stmt → List Stmt → Bool
  | [], [] => true
  | s :: rest, s' :: rest' => s.agrees s' && Stmt.agreesAll rest rest'
  | _, _ => false

end

/-- Whether two kernels agree: neutral element, guard and body. -/
def Kernel.agrees (k k' : Kernel) : Bool :=
  k.neutral == k'.neutral && k.guard? == k'.guard? && Stmt.agreesAll k.body k'.body

/-! ## Agreement with itself -/

/-- Whether an expression is a constant that differs from itself. -/
def Expr.isNaN : Expr → Bool
  | .float x => x != x
  | _ => false

/-- An expression agrees with itself exactly when no part of it is such a constant. -/
theorem Expr.agrees_self_iff (e : Expr) :
    e.agrees e = true ↔ ∀ part ∈ e.subterms, part.isNaN = false := by
  induction e with
  | float x => simp [Expr.agrees, Expr.subterms, Expr.isNaN, bne]
  | int | neutral | var | coord => simp [Expr.agrees, Expr.subterms, Expr.isNaN]
  | fetch a b iha ihb | binary _ a b iha ihb | builtin _ a b iha ihb =>
    simp [Expr.agrees, Expr.subterms, Expr.isNaN, iha, ihb, or_imp, forall_and]
  | lane _ _ ih | splat _ _ ih | allLanes _ ih | toFloat _ ih =>
    simp [Expr.agrees, Expr.subterms, Expr.isNaN, ih]
  | pack ty a b c d iha ihb ihc ihd =>
    simp [Expr.agrees, Expr.subterms, Expr.isNaN, iha, ihb, ihc, ihd, or_imp, forall_and, and_assoc]

mutual

theorem Stmt.agrees_self_iff :
    ∀ s : Stmt, s.agrees s = true ↔ ∀ e ∈ s.exprs, e.isNaN = false
  | .declare v ty e => by
    rw [Stmt.agrees, Stmt.exprs, ← e.agrees_self_iff]
    simp
  | .assign v e => by
    rw [Stmt.agrees, Stmt.exprs, ← e.agrees_self_iff]
    simp
  | .loop v count step body => by
    rw [Stmt.agrees, Stmt.exprs, ← Stmt.agreesAll_self_iff body]
    simp
  | .block body => by
    rw [Stmt.agrees, Stmt.exprs, ← Stmt.agreesAll_self_iff body]
  | .output e => by
    rw [Stmt.agrees, Stmt.exprs, ← e.agrees_self_iff]

theorem Stmt.agreesAll_self_iff :
    ∀ body : List Stmt,
      Stmt.agreesAll body body = true ↔ ∀ e ∈ Stmt.exprsAll body, e.isNaN = false
  | [] => by
    rw [Stmt.agreesAll, Stmt.exprsAll]
    simp
  | s :: rest => by
    rw [Stmt.agreesAll, Stmt.exprsAll, Bool.and_eq_true, Stmt.agrees_self_iff s,
      Stmt.agreesAll_self_iff rest, List.forall_mem_append]

end

/-- A kernel agrees with itself exactly when it has no NaN. -/
theorem Kernel.agrees_self_iff (k : Kernel) :
    k.agrees k = true ↔
      (k.neutral == k.neutral) = true ∧ ∀ e ∈ k.exprs, e.isNaN = false := by
  rw [Kernel.agrees, Bool.and_eq_true, Bool.and_eq_true, Stmt.agreesAll_self_iff]
  simp [Kernel.exprs]

end WindowReduction
