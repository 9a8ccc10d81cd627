import WindowReduction.Proofs.EmittedExprs
import WindowReduction.Proofs.SourceNumbers

/-!
# The literals of a built kernel

The integer literals of a built kernel are the length of its windows, the size of their full groups,
the offsets of lanes and the length of a row. All of them are 32-bit `int`s, in the tree as in the
text, whenever the length of the windows is one. Descriptors promise that for rows that hold an
element, and miss it by one for windows over empty rows: these kernels run for no cell, but their
source has a literal that is no `int`.

Main statements: `Kernel.writesLe_emit` (what the literals of an emitted kernel are bounded by),
`Program.numbersLe_source_build` (the numbers in a built source), `intLiterals_fit_iff`.
-/

namespace WindowReduction

/-! ## Literals -/

/-- The integer that an expression is a literal of. -/
def Expr.intLiteral? : Expr → Option Int
  | .int n => some n
  | _ => none

/-- The integer literals of a kernel: the constants of its expressions, the counts and steps of its
loops and the row length of its bounds check. -/
def Kernel.intLiterals (k : Kernel) : List Int :=
  k.exprs.filterMap Expr.intLiteral?
    ++ (Stmt.loopSizesAll k.body ++ k.guard?.toList).map Int.ofNat

variable {bound : Nat} {e : Expr} {d : Descriptor}

theorem Expr.le_of_intLiteral? {i : Int} (hi : e.intLiteral? = some i) (he : e.WritesLe bound) :
    i ≤ bound := by
  cases e with
  | int n =>
      cases hi
      have habs : i.natAbs ≤ bound := he
      omega
  | _ => cases hi

theorem Kernel.forall_mem_intLiterals {k : Kernel}
    (hexprs : ∀ part ∈ k.exprs, part.WritesLe bound)
    (hloops : ∀ n ∈ Stmt.loopSizesAll k.body, n ≤ bound) (hguard : ∀ n ∈ k.guard?, n ≤ bound) :
    ∀ i ∈ k.intLiterals, i ≤ bound := by
  rw [Kernel.intLiterals, List.map_append, List.forall_mem_append, List.forall_mem_append]
  refine ⟨?_, ?_, ?_⟩
  · intro i hi
    rcases List.mem_filterMap.1 hi with ⟨part, hpart, hlit⟩
    exact Expr.le_of_intLiteral? hlit (hexprs part hpart)
  · intro i hi
    rcases List.mem_map.1 hi with ⟨n, hn, rfl⟩
    exact Int.ofNat_le.2 (hloops n hn)
  · intro i hi
    rcases List.mem_map.1 hi with ⟨n, hn, rfl⟩
    exact Int.ofNat_le.2 (hguard n (Option.mem_toList.1 hn))

theorem Stmt.loopSizesAll_append (body rest : List Stmt) :
    Stmt.loopSizesAll (body ++ rest) = Stmt.loopSizesAll body ++ Stmt.loopSizesAll rest := by
  induction body with
  | nil => rfl
  | cons s body ih =>
      rw [List.cons_append, Stmt.loopSizesAll, Stmt.loopSizesAll, ih, List.append_assoc]

/-! ## Emitted kernels -/

section

variable {first : Expr} {live n : Nat} {g : Geometry} {s : Scheme}

theorem writesLe_one (hbound : 4 ≤ bound) : (Expr.float 1.0).WritesLe bound := by
  have htext : (floatLiteral 1.0).toList = '1' :: '.' :: ['0'] := by decide +kernel
  have hone : digitsValue ['1'] ≤ bound := Nat.le_trans (by decide) hbound
  have hzero : NumbersLe bound ['0'] := numbersLe_toDigits (n := 0).2 (Nat.zero_le bound)
  rw [Expr.WritesLe, htext, numbersLe_digit_cons rfl rfl]
  exact ⟨hone, hzero⟩

theorem writesLe_sizeConstant (hn : n ≤ bound) : (Kernel.sizeConstant n).WritesLe bound := by
  rw [Kernel.sizeConstant, Expr.WritesLe]
  omega

/-- The expressions of an emitted body write no number beyond the window and its full groups. -/
theorem Kernel.writesLe_emit (hbound : 4 ≤ bound) (hwindow : d.window ≤ bound)
    (hfull : g.vectorizedCount ≤ bound) :
    ∀ part ∈ (Kernel.emit d g s).exprs, part.WritesLe bound := by
  have hlane : ∀ k < laneCount, k ≤ bound := fun k hk => Nat.le_trans (Nat.le_of_lt hk) hbound
  intro part hpart
  cases Kernel.isEmitted_emit d g s part hpart with
  | window => exact writesLe_sizeConstant hwindow
  | fullGroups => exact writesLe_sizeConstant hfull
  | laneOffset hk => exact writesLe_sizeConstant (hlane _ hk)
  | one => exact writesLe_one hbound
  | coord haxis => exact Nat.le_trans (Nat.le_of_lt haxis) (Nat.le_trans (by decide) hbound)
  | lane hvector hk => exact hlane _ hk
  | _ => trivial

theorem Scheme.loopSizesAll_updateStmts (s : Scheme) : Stmt.loopSizesAll s.updateStmts = [] := by
  unfold Scheme.updateStmts
  cases s.update <;> rfl

theorem loopSizesAll_groupStmts : Stmt.loopSizesAll (Kernel.groupStmts s first live) = [] := by
  rw [Kernel.groupStmts, Stmt.loopSizesAll_append, s.loopSizesAll_updateStmts]
  rfl

/-- The one loop of an emitted body counts to the size of the full groups in steps of four. -/
theorem Kernel.loopSizesAll_emit :
    Stmt.loopSizesAll (Kernel.emit d g s).body
      = if g.vectorizedCount = 0 then [] else [g.vectorizedCount, laneCount] := by
  have htail : Stmt.loopSizesAll (Kernel.tailBlock g s) = [] := by
    unfold Kernel.tailBlock
    split
    · rfl
    · rw [Stmt.loopSizesAll, Stmt.loopSizes, loopSizesAll_groupStmts]
      rfl
  have hloop : Stmt.loopSizesAll (Kernel.vectorLoop g s)
      = if g.vectorizedCount = 0 then [] else [g.vectorizedCount, laneCount] := by
    unfold Kernel.vectorLoop
    split
    · rfl
    · rw [Stmt.loopSizesAll, Stmt.loopSizes, loopSizesAll_groupStmts]
      rfl
  simp only [Kernel.emit, Stmt.loopSizesAll_append, hloop, htail]
  simp [Kernel.prologue, Stmt.loopSizesAll, Stmt.loopSizes]

end

/-! ## Built programs -/

/-- The neutral elements are written with the digits zero and one. -/
theorem Kind.numbersLe_neutral (hbound : 4 ≤ bound) (k : Kind) :
    NumbersLe bound (floatLiteral k.neutral).toList := by
  have hone : digitsValue ['1'] ≤ bound := Nat.le_trans (by decide) hbound
  have hzero : NumbersLe bound ['0'] := numbersLe_toDigits (n := 0).2 (Nat.zero_le bound)
  have hlone : digitsValue ['0'] ≤ bound := Nat.zero_le bound
  have hdivision : NumbersLe bound "1.0 / 0.0".toList := by
    simp [numbersLe_digit_cons, hone, hlone, hzero]
  cases k with
  | sum =>
      have htext : (floatLiteral Kind.sum.neutral).toList = '0' :: '.' :: ['0'] := by
        decide +kernel
      rw [htext, numbersLe_zero_cons rfl]
      exact hzero
  | min =>
      have htext : (floatLiteral Kind.min.neutral).toList = "1.0 / 0.0".toList := by
        decide +kernel
      rw [htext]
      exact hdivision
  | max =>
      have htext : (floatLiteral Kind.max.neutral).toList = '-' :: "1.0 / 0.0".toList := by
        decide +kernel
      rw [htext, numbersLe_cons rfl]
      exact hdivision
  | all => exact writesLe_one hbound

/-- An accepted window is a kernel `int`, but for the one that is too long by one and whose rows are
empty. -/
theorem Descriptor.window_le_iff (d : Descriptor) :
    d.window ≤ maxKernelInt ↔ ¬ (d.window = 0x80000000 ∧ d.rowLength = 0) := by
  have hlast := d.lastIndex_le
  unfold maxKernelInt at *
  omega

/-- The source of a built kernel has the numbers of its bounds check, its expressions and its loops,
and the digits of its neutral element. -/
theorem Program.numbersLe_source_build (hbound : 4 ≤ bound) (d : Descriptor) :
    NumbersLe bound (Program.build d).source.toList
      ↔ (∀ n ∈ (Program.build d).kernel.guard?, n ≤ bound)
        ∧ (∀ part ∈ (Program.build d).kernel.exprs, part.WritesLe bound)
        ∧ ∀ n ∈ Stmt.loopSizesAll (Program.build d).kernel.body, n ≤ bound := by
  have hsource : (Program.build d).source
      = (Program.build d).kernel.source Program.inputBinding := rfl
  have hneutral : (Program.build d).kernel.neutral = d.kind.neutral := Scheme.ofKind_neutral d.kind
  have haccessor : NumbersLe bound (accessorName Program.inputBinding).toList :=
    numbersLe_of_no_digit (by decide)
  rw [hsource, Kernel.numbersLe_source hbound, hneutral]
  exact (and_iff_right (d.kind.numbersLe_neutral hbound)).trans (and_iff_right haccessor)

/-- The bounds check, the expressions and the loops of a built kernel write kernel `int`s if the
length of its windows is one. -/
theorem Program.writesLe_of_window (hwindow : d.window ≤ maxKernelInt) :
    (∀ n ∈ (Program.build d).kernel.guard?, n ≤ maxKernelInt)
      ∧ (∀ part ∈ (Program.build d).kernel.exprs, part.WritesLe maxKernelInt)
      ∧ ∀ n ∈ Stmt.loopSizesAll (Program.build d).kernel.body, n ≤ maxKernelInt := by
  have hfour : 4 ≤ maxKernelInt := by decide
  have hfull : d.geometry.vectorizedCount ≤ maxKernelInt :=
    Nat.le_trans (Nat.div_mul_le_self d.window laneCount) hwindow
  refine ⟨?_, ?_, ?_⟩
  · have hlast := d.lastIndex_le
    rw [Program.build_guard?]
    intro n hn
    split at hn
    · cases hn
    · cases hn
      omega
  · exact Kernel.writesLe_emit hfour hwindow hfull
  · change ∀ n ∈ Stmt.loopSizesAll (Kernel.emit d d.geometry (Scheme.ofKind d.kind)).body, _
    rw [Kernel.loopSizesAll_emit]
    split
    · exact List.forall_mem_nil _
    · exact List.forall_mem_cons.2 ⟨hfull, List.forall_mem_singleton.2 hfour⟩

/-- The length of the window is a factor of the start of each window. -/
theorem Program.window_mem_exprs (d : Descriptor) :
    Kernel.sizeConstant d.window ∈ (Program.build d).kernel.exprs := by
  change _ ∈ (Kernel.emit d d.geometry (Scheme.ofKind d.kind)).exprs
  simp only [Kernel.exprs, Kernel.emit, Stmt.exprsAll_append]
  refine List.mem_append_left _ (List.mem_append_left _ (List.mem_append_left _ ?_))
  simp [Kernel.prologue, Stmt.exprsAll, Stmt.exprs, Expr.subterms, Kernel.sizeConstant]

/-- A constant that is cut off at the largest 64-bit integer is a kernel `int` only if it is whole.
-/
theorem le_of_min_maxInt64_le {n : Nat} (h : min n maxInt64 ≤ maxKernelInt) : n ≤ maxKernelInt := by
  unfold maxInt64 maxKernelInt at *
  omega

theorem Program.intLiterals_le_iff (d : Descriptor) :
    (∀ i ∈ (Program.build d).kernel.intLiterals, i ≤ maxKernelInt) ↔ d.window ≤ maxKernelInt := by
  constructor
  · intro h
    have hmem : ((min d.window maxInt64 : Nat) : Int) ∈ (Program.build d).kernel.intLiterals :=
      List.mem_append_left _ (List.mem_filterMap.2 ⟨_, Program.window_mem_exprs d, rfl⟩)
    exact le_of_min_maxInt64_le (Int.ofNat_le.1 (h _ hmem))
  · intro hwindow
    rcases Program.writesLe_of_window hwindow with ⟨hguard, hexprs, hloops⟩
    exact Kernel.forall_mem_intLiterals hexprs hloops hguard

theorem Program.numbersLe_source_iff (d : Descriptor) :
    NumbersLe maxKernelInt (Program.build d).source.toList ↔ d.window ≤ maxKernelInt := by
  rw [Program.numbersLe_source_build (by decide)]
  constructor
  · rintro ⟨-, hexprs, -⟩
    exact le_of_min_maxInt64_le (hexprs _ (Program.window_mem_exprs d))
  · exact Program.writesLe_of_window

/-- The integer literals of every built kernel are 32-bit `int`s, in its tree and in its source,
with one exception: windows of two to the power of 31 elements are accepted over empty rows, and
their kernels have the length of the window as a literal. -/
theorem intLiterals_fit_iff {k : Kind} {w b n : Nat} {d : Descriptor}
    (hd : Descriptor.new k w b n = .ok d) :
    ((∀ i ∈ (Program.build d).kernel.intLiterals, i ≤ maxKernelInt)
        ↔ ¬ (w = 0x80000000 ∧ n = 0))
      ∧ (NumbersLe maxKernelInt (Program.build d).source.toList
        ↔ ¬ (w = 0x80000000 ∧ n = 0)) := by
  rcases Descriptor.new_eq_ok_iff.1 hd with ⟨-, rfl, -, rfl⟩
  exact ⟨(Program.intLiterals_le_iff d).trans d.window_le_iff,
    (Program.numbersLe_source_iff d).trans d.window_le_iff⟩

/-- The longest window over a row that is not empty. -/
theorem intLiterals_fit_iff_longest_window :
    ∃ d, Descriptor.new .max 0x7FFFFFFF 1 1 = .ok d
      ∧ (0x7FFFFFFF : Int) ∈ (Program.build d).kernel.intLiterals
      ∧ (∀ i ∈ (Program.build d).kernel.intLiterals, i ≤ maxKernelInt)
      ∧ NumbersLe maxKernelInt (Program.build d).source.toList := by
  have hd : Descriptor.new .max 0x7FFFFFFF 1 1
      = .ok ⟨.max, 0x7FFFFFFF, 1, 1, by decide, by decide, by decide⟩ := rfl
  have hsizes : ¬ (0x7FFFFFFF = 0x80000000 ∧ 1 = 0) := by decide
  rcases intLiterals_fit_iff hd with ⟨htree, htext⟩
  exact ⟨_, hd, by decide, htree.2 hsizes, htext.2 hsizes⟩

/-- A window of two to the power of 31 elements over empty rows is accepted, and its kernel
multiplies by a literal and counts to a bound that are no 32-bit `int`s. -/
theorem intLiterals_too_large_on_empty_rows :
    ∃ d, Descriptor.new .sum 0x80000000 1 0 = .ok d
      ∧ (0x80000000 : Int) ∈ (Program.build d).kernel.exprs.filterMap Expr.intLiteral?
      ∧ 0x80000000 ∈ Stmt.loopSizesAll (Program.build d).kernel.body
      ∧ ¬ (0x80000000 : Int) ≤ maxKernelInt
      ∧ ¬ NumbersLe maxKernelInt (Program.build d).source.toList := by
  have hd : Descriptor.new .sum 0x80000000 1 0
      = .ok ⟨.sum, 0x80000000, 1, 0, by decide, by decide, by decide⟩ := rfl
  refine ⟨_, hd, by decide, by decide, by decide, ?_⟩
  rw [Program.numbersLe_source_iff]
  decide

end WindowReduction
