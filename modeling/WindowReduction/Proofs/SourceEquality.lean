import WindowReduction.Proofs.EmittedExprs
import WindowReduction.Proofs.SourceReading

/-!
# Descriptors with one source

The source of a built kernel shows the kind of the reduction, the length of its windows and the
length of the row that indices are checked against, and nothing else of its descriptor: the number
of rows never, and the length of a row only if windows do not tile it. What it shows, it shows
clearly: a kernel is read back from its source, and the three are read off the kernel.

Main statements: `Program.legible_build`, `Program.kernel_build_eq_iff` (when two built kernels are
the same) and `Program.source_build_eq_iff` (when two built sources are).
-/

namespace WindowReduction

/-! ## What a built kernel shows -/

/-- Kinds are told apart by their neutral elements. -/
theorem Kind.neutral_inj {k k' : Kind} : k.neutral = k'.neutral ↔ k = k' := by
  constructor
  · cases k <;> cases k' <;> decide +kernel
  · exact congrArg Kind.neutral

/-- No neutral element is NaN. -/
theorem Kind.isNaN_neutral (k : Kind) : k.neutral.isNaN = false := by
  cases k <;> decide +kernel

/-- Sizes that are 64-bit integers are told apart by their constants. -/
theorem Kernel.sizeConstant_inj {n m : Nat} (hn : n ≤ maxInt64) (hm : m ≤ maxInt64) :
    Kernel.sizeConstant n = Kernel.sizeConstant m ↔ n = m := by
  unfold Kernel.sizeConstant
  rw [Nat.min_eq_left hn, Nat.min_eq_left hm, Expr.int.injEq, Int.ofNat_inj]

theorem Descriptor.window_le_maxInt64 (d : Descriptor) : d.window ≤ maxInt64 := by
  have hlast := d.lastIndex_le
  unfold maxKernelInt at hlast
  unfold maxInt64
  omega

namespace Program

/-- All of a built kernel can be told from its source. -/
theorem legible_build (d : Descriptor) : (build d).kernel.Legible := by
  refine ⟨?_, ?_⟩
  · change (Scheme.ofKind d.kind).neutral.isNaN = false
    rw [Scheme.ofKind_neutral]
    exact d.kind.isNaN_neutral
  · intro part hpart
    cases Kernel.isEmitted_emit d d.geometry (Scheme.ofKind d.kind) part hpart with
    | one => decide +kernel
    | _ => rfl

/-- The third statement of a built kernel multiplies by the length of the window. -/
theorem build_body_two (d : Descriptor) :
    (build d).kernel.body[2]? = some (.declare .inOffset .int
      (.binary .mul (.var .outIdx) (Kernel.sizeConstant d.window))) :=
  rfl

variable {d d' : Descriptor}

/-- Windows alone decide the groups of a kernel, and rows come in only by the bounds check. -/
theorem kernel_build_eq_iff :
    (build d).kernel = (build d').kernel
      ↔ d.kind = d'.kind ∧ d.window = d'.window
        ∧ (build d).kernel.guard? = (build d').kernel.guard? := by
  constructor
  · intro h
    have hneutral : d.kind.neutral = d'.kind.neutral := by
      rw [← Scheme.ofKind_neutral, ← Scheme.ofKind_neutral]
      exact congrArg Kernel.neutral h
    have hstmt := congrArg (fun k : Kernel => k.body[2]?) h
    simp only [build_body_two, Option.some.injEq, Stmt.declare.injEq, Expr.binary.injEq, true_and]
      at hstmt
    have hwindow := (Kernel.sizeConstant_inj d.window_le_maxInt64 d'.window_le_maxInt64).1 hstmt
    exact ⟨Kind.neutral_inj.1 hneutral, hwindow, congrArg Kernel.guard? h⟩
  · rintro ⟨hkind, hwindow, hguard⟩
    rcases d with ⟨kind, window, batch, rowLength, _, _, _⟩
    rcases d' with ⟨kind', window', batch', rowLength', _, _, _⟩
    cases hkind
    cases hwindow
    exact congrArg (fun guard? => Kernel.mk _ guard? _) hguard

theorem source_build_eq_iff_kernel :
    (build d).source = (build d').source ↔ (build d).kernel = (build d').kernel := by
  constructor
  · intro h
    obtain ⟨read, hread, hread'⟩ :=
      Kernel.exists_reader inputBinding (legible_build d) (legible_build d')
    have hsource : (build d).kernel.source inputBinding = (build d').kernel.source inputBinding := h
    rw [hsource, hread'] at hread
    exact (Option.some.inj hread).symm
  · exact congrArg fun k : Kernel => k.source inputBinding

/-- The bounds checks agree if there are none or if both check against one length of a row. -/
theorem guard?_build_eq_iff :
    (build d).kernel.guard? = (build d').kernel.guard?
      ↔ (d.rowLength % d.window = 0 ∧ d'.rowLength % d'.window = 0)
        ∨ (0 < d.rowLength % d.window ∧ 0 < d'.rowLength % d'.window
          ∧ d.rowLength = d'.rowLength) := by
  rw [build_guard?, build_guard?]
  by_cases h : d.rowLength % d.window = 0 <;> by_cases h' : d'.rowLength % d'.window = 0 <;>
    simp [h, h', Nat.pos_iff_ne_zero]

/-- Two built kernels have the same source exactly when they reduce by one kind in windows of one
length, and either both rows are tiled by windows or neither is and the rows are of one length. -/
theorem source_build_eq_iff (d d' : Descriptor) :
    (build d).source = (build d').source
      ↔ d.kind = d'.kind ∧ d.window = d'.window
        ∧ ((d.rowLength % d.window = 0 ∧ d'.rowLength % d'.window = 0)
          ∨ (0 < d.rowLength % d.window ∧ 0 < d'.rowLength % d'.window
            ∧ d.rowLength = d'.rowLength)) := by
  rw [source_build_eq_iff_kernel, kernel_build_eq_iff, guard?_build_eq_iff]

/-- Neither rows that are tiled by windows nor their number show in the source. -/
example :
    let d : Descriptor := ⟨.min, 3, 5, 6, by decide, by decide, by decide⟩
    let d' : Descriptor := ⟨.min, 3, 0, 9, by decide, by decide, by decide⟩
    (build d).source = (build d').source := by
  decide +kernel

end Program

end WindowReduction
