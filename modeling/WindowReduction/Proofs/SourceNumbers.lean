import WindowReduction.Proofs.SourceReading

/-!
# The numbers in a kernel's source

A number in a text is a run of digits. What stands between the numbers of a kernel's source is no
digit, so the source has no other numbers than those that its constants, loops and bounds check
write: a bound on all of them can be read off the tree.

Main statements: `Expr.numbersLe_glsl`, `Stmt.numbersLe_lines` and `Kernel.numbersLe_source` (the
numbers in the text are those of the tree).
-/

namespace WindowReduction

/-! ## Numbers in a text -/

/-- Every run of digits in the text is a number of at most `bound`. -/
def NumbersLe (bound : Nat) (text : List Char) : Prop :=
  ∀ digits, digits <:+: text → AllDigits digits → digitsValue digits ≤ bound

variable {bound : Nat} {text left right : List Char} {c : Char}

/-- A prefix without a character lies before that character. -/
theorem prefix_of_prefix_append_cons {digits : List Char} (hc : c ∉ digits)
    (h : digits <+: left ++ c :: right) : digits <+: left := by
  have hupto : left ++ [c] <+: left ++ c :: right := ⟨right, by simp⟩
  rcases List.prefix_or_prefix_of_prefix h hupto with hdigits | hdigits
  · rcases List.prefix_concat_iff.1 hdigits with rfl | hleft
    · simp at hc
    · exact hleft
  · exact absurd (hdigits.subset (by simp)) hc

/-- A part of a text without a character lies on one side of that character. -/
theorem infix_append_cons {digits : List Char} (hc : c ∉ digits) :
    digits <:+: left ++ c :: right ↔ digits <:+: left ∨ digits <:+: right := by
  constructor
  · intro h
    induction left with
    | nil =>
        rcases List.infix_cons_iff.1 h with hprefix | hright
        · have hleft : digits <+: [] := prefix_of_prefix_append_cons hc hprefix
          exact Or.inl hleft.isInfix
        · exact Or.inr hright
    | cons x left ih =>
        rcases List.infix_cons_iff.1 h with hprefix | hrest
        · have hleft : digits <+: x :: left := prefix_of_prefix_append_cons hc hprefix
          exact Or.inl hleft.isInfix
        · rcases ih hrest with hleft | hright
          · exact Or.inl (List.infix_cons hleft)
          · exact Or.inr hright
  · rintro (hleft | hright)
    · exact hleft.trans (List.prefix_append left (c :: right)).isInfix
    · exact hright.trans ((List.suffix_cons c right).isInfix.trans
        (List.suffix_append left (c :: right)).isInfix)

/-- A character that is no digit separates numbers. -/
@[simp] theorem numbersLe_append_cons (hc : c.isDigit = false) :
    NumbersLe bound (left ++ c :: right) ↔ NumbersLe bound left ∧ NumbersLe bound right := by
  constructor
  · intro h
    constructor
    · intro digits hpart hdigits
      exact h digits ((infix_append_cons (hdigits.not_mem hc)).2 (Or.inl hpart)) hdigits
    · intro digits hpart hdigits
      exact h digits ((infix_append_cons (hdigits.not_mem hc)).2 (Or.inr hpart)) hdigits
  · rintro ⟨hleft, hright⟩ digits hpart hdigits
    rcases (infix_append_cons (hdigits.not_mem hc)).1 hpart with hl | hr
    · exact hleft digits hl hdigits
    · exact hright digits hr hdigits

@[simp] theorem numbersLe_nil : NumbersLe bound [] := by
  intro digits hpart _
  rw [List.infix_nil.1 hpart]
  exact Nat.zero_le bound

@[simp] theorem numbersLe_cons (hc : c.isDigit = false) :
    NumbersLe bound (c :: text) ↔ NumbersLe bound text := by
  have hsplit : NumbersLe bound ([] ++ c :: text)
      ↔ NumbersLe bound [] ∧ NumbersLe bound text := numbersLe_append_cons hc
  exact hsplit.trans (and_iff_right numbersLe_nil)

/-- Digits before and after others do not make the number less. -/
theorem digitsValue_le_append (before digits after : List Char) :
    digitsValue digits ≤ digitsValue (before ++ digits ++ after) := by
  calc digitsValue digits
      ≤ digitsValue (before ++ digits) := by
        rw [digitsValue_append]
        exact Nat.le_add_left _ _
    _ ≤ 10 ^ after.length * digitsValue (before ++ digits) :=
        Nat.le_mul_of_pos_left _ (Nat.pow_pos (by decide))
    _ ≤ digitsValue (before ++ digits ++ after) := by
        rw [digitsValue_append (before ++ digits)]
        exact Nat.le_add_right _ _

/-- The number that a text of digits writes is its greatest. -/
theorem numbersLe_of_allDigits (h : AllDigits text) :
    NumbersLe bound text ↔ digitsValue text ≤ bound := by
  constructor
  · intro hbound
    exact hbound text (List.infix_refl text) h
  · rintro hbound digits ⟨before, after, rfl⟩ _
    exact Nat.le_trans (digitsValue_le_append before digits after) hbound

@[simp] theorem numbersLe_toDigits {n : Nat} :
    NumbersLe bound (Nat.toDigits 10 n) ↔ n ≤ bound := by
  rw [numbersLe_of_allDigits (allDigits_toDigits n), digitsValue_toDigits]

@[simp] theorem numbersLe_toString_int {n : Int} :
    NumbersLe bound (toString n).toList ↔ n.natAbs ≤ bound := by
  rw [toList_toString_int]
  split
  · rw [numbersLe_toDigits]
    omega
  · rw [numbersLe_cons rfl, numbersLe_toDigits]
    omega

/-- A digit that stands alone is a number. -/
theorem numbersLe_digit_cons {d : Char} (hd : d.isDigit = true) (hc : c.isDigit = false) :
    NumbersLe bound (d :: c :: text) ↔ digitsValue [d] ≤ bound ∧ NumbersLe bound text := by
  have hdigits : AllDigits [d] := List.forall_mem_singleton.2 hd
  have hsplit : NumbersLe bound ([d] ++ c :: text)
      ↔ NumbersLe bound [d] ∧ NumbersLe bound text := numbersLe_append_cons hc
  rw [numbersLe_of_allDigits hdigits] at hsplit
  exact hsplit

theorem numbersLe_zero_cons (hc : c.isDigit = false) :
    NumbersLe bound ('0' :: c :: text) ↔ NumbersLe bound text :=
  (numbersLe_digit_cons rfl hc).trans (and_iff_right (Nat.zero_le bound))

theorem numbersLe_of_no_digit (h : (text.all fun c => !c.isDigit) = true) :
    NumbersLe bound text := by
  induction text with
  | nil => exact numbersLe_nil
  | cons c text ih =>
      rw [List.all_cons, Bool.and_eq_true, Bool.not_eq_true'] at h
      rw [numbersLe_cons h.1]
      exact ih h.2

/-! ## Expressions -/

/-- The numbers that an expression writes besides those of its operands are at most `bound`. -/
def Expr.WritesLe (bound : Nat) : Expr → Prop
  | .int n => n.natAbs ≤ bound
  | .float x => NumbersLe bound (floatLiteral x).toList
  | .coord axis => axis ≤ bound
  | .lane _ k => k ≤ bound
  | _ => True

theorem Var.numbersLe_name (v : Var) : NumbersLe bound v.name.toList := by
  apply numbersLe_of_no_digit
  cases v <;> decide

theorem Builtin.numbersLe_name (fn : Builtin) : NumbersLe bound fn.name.toList := by
  apply numbersLe_of_no_digit
  cases fn <;> decide

theorem BinaryOp.numbersLe_symbol (op : BinaryOp) : NumbersLe bound op.symbol.toList := by
  apply numbersLe_of_no_digit
  cases op <;> decide

/-- The names of the vector types end with their number of lanes. -/
theorem Ty.numbersLe_name (hbound : 4 ≤ bound) (ty : Ty) : NumbersLe bound ty.name.toList := by
  have hfour : NumbersLe bound ['4'] := numbersLe_toDigits (n := 4).2 hbound
  cases ty with
  | int => exact numbersLe_of_no_digit (by decide)
  | float => exact numbersLe_of_no_digit (by decide)
  | bool => exact numbersLe_of_no_digit (by decide)
  | vec4 => simpa [Ty.name] using hfour
  | bvec4 => simpa [Ty.name] using hfour

theorem numbersLe_operandText {e : Expr} {t : String} :
    NumbersLe bound (operandText e t).toList ↔ NumbersLe bound t.toList := by
  unfold operandText
  split <;> simp [String.toList_append]

theorem numbersLe_argsText {args : List Expr} :
    NumbersLe bound (argsText args) ↔ ∀ a ∈ args, NumbersLe bound a.glsl.toList := by
  induction args with
  | nil => simp [argsText]
  | cons a args ih =>
      cases args with
      | nil => simp [argsText_singleton]
      | cons b args =>
        rw [argsText_cons_cons, List.forall_mem_cons, ← ih]
        simp

theorem numbersLe_callText {name : String} (hname : NumbersLe bound name.toList)
    (args : List Expr) :
    NumbersLe bound (callText name (args.map Expr.glsl)).toList
      ↔ ∀ a ∈ args, NumbersLe bound a.glsl.toList := by
  rw [toList_callText, numbersLe_append_cons rfl, numbersLe_append_cons rfl, numbersLe_argsText]
  simp [hname]

/-- The text of an expression has its own numbers and those of the texts of its operands. -/
theorem Expr.numbersLe_glsl_iff_operands (hbound : 4 ≤ bound) (e : Expr) :
    NumbersLe bound e.glsl.toList
      ↔ e.WritesLe bound ∧ ∀ a ∈ e.operands, NumbersLe bound a.glsl.toList := by
  have hcall : ∀ {name : String} (args : List Expr), NumbersLe bound name.toList →
      (NumbersLe bound (callText name (args.map Expr.glsl)).toList
        ↔ True ∧ ∀ a ∈ args, NumbersLe bound a.glsl.toList) := by
    intro name args hname
    rw [numbersLe_callText hname, true_and]
  have hatom : ∀ {t : String} {e : Expr}, e.glsl = t → e.operands = [] →
      (NumbersLe bound t.toList ↔ e.WritesLe bound) →
      (NumbersLe bound e.glsl.toList
        ↔ e.WritesLe bound ∧ ∀ a ∈ e.operands, NumbersLe bound a.glsl.toList) := by
    rintro _ e rfl hnone htext
    rw [htext, hnone]
    exact (and_iff_left (List.forall_mem_nil _)).symm
  cases e with
  | int n => exact hatom rfl rfl numbersLe_toString_int
  | float x =>
      by_cases hx : x.isFinite = true
      · exact hatom (if_pos hx) rfl Iff.rfl
      · refine hatom (if_neg hx) rfl ?_
        simp [String.toList_append, Expr.WritesLe]
  | neutral =>
      exact hatom rfl rfl (iff_of_true (numbersLe_of_no_digit (by decide)) trivial)
  | var v => exact hatom rfl rfl (iff_of_true v.numbersLe_name trivial)
  | coord axis =>
      refine hatom (t := "getOutputCoords()[" ++ toString axis ++ "]") rfl rfl ?_
      simp [String.toList_append, Expr.WritesLe]
  | fetch row index => exact hcall [row, index] (numbersLe_of_no_digit (by decide))
  | binary op a b =>
      rw [toList_glsl_binary]
      simp [Expr.operands, Expr.WritesLe, numbersLe_operandText, op.numbersLe_symbol]
  | builtin fn a b => exact hcall [a, b] fn.numbersLe_name
  | lane vector k =>
      rw [toList_glsl_lane]
      simp [Expr.operands, Expr.WritesLe, numbersLe_operandText, and_comm]
  | pack ty a b c d => exact hcall [a, b, c, d] (ty.numbersLe_name hbound)
  | splat ty e => exact hcall [e] (ty.numbersLe_name hbound)
  | allLanes vector => exact hcall [vector] (numbersLe_of_no_digit (by decide))
  | toFloat e => exact hcall [e] (numbersLe_of_no_digit (by decide))

/-- The numbers in the text of an expression are those that its parts write. -/
theorem Expr.numbersLe_glsl (hbound : 4 ≤ bound) (e : Expr) :
    NumbersLe bound e.glsl.toList ↔ ∀ part ∈ e.subterms, part.WritesLe bound := by
  induction e <;>
    rw [Expr.forall_mem_subterms_iff, Expr.numbersLe_glsl_iff_operands hbound] <;>
    simp [Expr.operands, *]

/-! ## Lines and statements -/

theorem numbersLe_blanks (n : Nat) :
    NumbersLe bound (List.replicate n ' ' ++ text) ↔ NumbersLe bound text := by
  induction n with
  | zero => exact Iff.rfl
  | succ n ih => rw [List.replicate_succ, List.cons_append, numbersLe_cons rfl, ih]

theorem numbersLe_linesText {ls : List SourceLine} :
    NumbersLe bound (linesText ls) ↔ ∀ l ∈ ls, NumbersLe bound l.text.toList := by
  induction ls with
  | nil => exact iff_of_true numbersLe_nil (List.forall_mem_nil _)
  | cons l ls ih =>
      rw [linesText_cons, numbersLe_blanks, numbersLe_append_cons rfl, List.forall_mem_cons, ih]

mutual

/-- The counts and steps of a statement's loops. -/
def Stmt.loopSizes : Stmt → List Nat
  | .declare _ _ _ | .assign _ _ | .output _ => []
  | .loop _ count step body => count :: step :: Stmt.loopSizesAll body
  | .block body => Stmt.loopSizesAll body

/-- The counts and steps of the loops of a list of statements. -/
def Stmt.loopSizesAll : List Stmt → List Nat
  | [] => []
  | s :: rest => s.loopSizes ++ Stmt.loopSizesAll rest

end

/-- The brace that closes a body writes no number. -/
theorem numbersLe_bodyLines {depth : Nat} {header : String} {ls : List SourceLine} :
    (∀ l ∈ ⟨depth, header⟩ :: (ls ++ [⟨depth, "\x7d"⟩]), NumbersLe bound l.text.toList)
      ↔ NumbersLe bound header.toList ∧ ∀ l ∈ ls, NumbersLe bound l.text.toList := by
  have hclose : NumbersLe bound "\x7d".toList := numbersLe_of_no_digit (by decide)
  rw [List.forall_mem_cons, List.forall_mem_append, List.forall_mem_singleton]
  simp only [hclose, and_true]

theorem numbersLe_loopHeader {v : Var} {count step : Nat} :
    NumbersLe bound ("for (int " ++ v.name ++ " = 0; " ++ v.name ++ " < " ++ toString count ++ "; "
        ++ v.name ++ " += " ++ toString step ++ ") \x7b").toList
      ↔ count ≤ bound ∧ step ≤ bound := by
  simp [String.toList_append, v.numbersLe_name, numbersLe_zero_cons]

mutual

/-- The numbers in the lines of a statement are those that its expressions and its loops write. -/
theorem Stmt.numbersLe_lines (hbound : 4 ≤ bound) :
    ∀ (s : Stmt) (depth : Nat), (∀ l ∈ s.lines depth, NumbersLe bound l.text.toList)
      ↔ (∀ part ∈ s.exprs, part.WritesLe bound) ∧ ∀ n ∈ s.loopSizes, n ≤ bound
  | .declare v ty e, depth => by
      rw [Stmt.lines, Stmt.exprs, Stmt.loopSizes, List.forall_mem_singleton,
        ← e.numbersLe_glsl hbound]
      simp [String.toList_append, v.numbersLe_name, ty.numbersLe_name hbound]
  | .assign v e, depth => by
      rw [Stmt.lines, Stmt.exprs, Stmt.loopSizes, List.forall_mem_singleton,
        ← e.numbersLe_glsl hbound]
      simp [String.toList_append, v.numbersLe_name]
  | .loop v count step body, depth => by
      have hbody := Stmt.numbersLe_linesAll hbound body (depth + 1)
      rw [Stmt.lines, numbersLe_bodyLines, numbersLe_loopHeader, hbody, Stmt.exprs,
        Stmt.loopSizes, List.forall_mem_cons, List.forall_mem_cons]
      tauto
  | .block body, depth => by
      have hbody := Stmt.numbersLe_linesAll hbound body (depth + 1)
      have hopen : NumbersLe bound "\x7b".toList := numbersLe_of_no_digit (by decide)
      rw [Stmt.lines, numbersLe_bodyLines, hbody, Stmt.exprs, Stmt.loopSizes]
      exact and_iff_right hopen
  | .output e, depth => by
      rw [Stmt.lines, Stmt.exprs, Stmt.loopSizes, List.forall_mem_singleton,
        ← e.numbersLe_glsl hbound]
      simp [String.toList_append]

theorem Stmt.numbersLe_linesAll (hbound : 4 ≤ bound) :
    ∀ (body : List Stmt) (depth : Nat),
      (∀ l ∈ Stmt.linesAll depth body, NumbersLe bound l.text.toList)
      ↔ (∀ part ∈ Stmt.exprsAll body, part.WritesLe bound) ∧ ∀ n ∈ Stmt.loopSizesAll body, n ≤ bound
  | [], depth => by simp [Stmt.linesAll, Stmt.exprsAll, Stmt.loopSizesAll]
  | s :: rest, depth => by
      have hs := Stmt.numbersLe_lines hbound s depth
      have hrest := Stmt.numbersLe_linesAll hbound rest depth
      rw [Stmt.linesAll, Stmt.exprsAll, Stmt.loopSizesAll]
      simp only [List.forall_mem_append, hs, hrest]
      exact and_and_and_comm

end

/-! ## Kernels -/

theorem Kernel.numbersLe_guardLines {k : Kernel} :
    (∀ l ∈ k.guardLines, NumbersLe bound l.text.toList) ↔ ∀ n ∈ k.guard?, n ≤ bound := by
  unfold Kernel.guardLines
  cases k.guard? with
  | none => simp
  | some rowLength =>
      have hneutral : NumbersLe bound neutralName.toList := numbersLe_of_no_digit (by decide)
      simp [String.toList_append, numbersLe_zero_cons, hneutral]

/-- The numbers in the source of a kernel are those that its neutral element, its input's name, its
bounds check, its expressions and its loops write. -/
theorem Kernel.numbersLe_source (hbound : 4 ≤ bound) (k : Kernel) (binding : String) :
    NumbersLe bound (k.source binding).toList
      ↔ NumbersLe bound (floatLiteral k.neutral).toList
        ∧ NumbersLe bound (accessorName binding).toList
        ∧ (∀ n ∈ k.guard?, n ≤ bound)
        ∧ (∀ part ∈ k.exprs, part.WritesLe bound)
        ∧ ∀ n ∈ Stmt.loopSizesAll k.body, n ≤ bound := by
  have hneutral : NumbersLe bound neutralName.toList := numbersLe_of_no_digit (by decide)
  have hfetch : NumbersLe bound fetchName.toList := numbersLe_of_no_digit (by decide)
  have hmain : NumbersLe bound "void main() \x7b".toList := numbersLe_of_no_digit (by decide)
  have hheader : (∀ l ∈ k.headerLines binding, NumbersLe bound l.text.toList)
      ↔ NumbersLe bound (floatLiteral k.neutral).toList ∧ (∀ n ∈ k.guard?, n ≤ bound)
        ∧ NumbersLe bound (accessorName binding).toList := by
    rw [← Kernel.numbersLe_guardLines, Kernel.headerLines, List.forall_mem_append,
      List.forall_mem_append]
    simp [String.toList_append, hneutral, hfetch, and_assoc]
  rw [toList_source_eq_linesText, numbersLe_linesText, List.forall_mem_append, hheader,
    Kernel.mainLines, numbersLe_bodyLines, Stmt.numbersLe_linesAll hbound, Kernel.exprs]
  tauto

end WindowReduction
