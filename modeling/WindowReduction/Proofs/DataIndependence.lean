import WindowReduction.Proofs.TwoRuns

/-!
# Independence of the data

How a program ends is decided by the shape of its input and not by the numbers in it. Two runs on
inputs of one shape compute values of the same types and the very same integers, so they take the
same branches, read at the same addresses and halt for the same reason, if they halt.

Main statements: `kept_sameOutline` (no operation makes an integer or a failure out of a float),
`Program.execute_ends_alike`.
-/

namespace WindowReduction

/-! ## Outlines of values -/

/-- Two values of one type; integers have to be equal. -/
inductive Value.SameOutline : Value → Value → Prop
  | int (n : Int) : SameOutline (.int n) (.int n)
  | float (x y : Float32) : SameOutline (.float x) (.float y)
  | bool (p q : Bool) : SameOutline (.bool p) (.bool q)
  | vec4 (v w : Vec4 Float32) : SameOutline (.vec4 v) (.vec4 w)
  | bvec4 (v w : Vec4 Bool) : SameOutline (.bvec4 v) (.bvec4 w)

namespace Value.SameOutline

variable {excused : Halt → Prop} {x y x' y' : Value}

theorem toFloat (h : x.SameOutline y) :
    Matches excused (RelatedFloats SameOutline) x.toFloat y.toFloat := by
  cases h with
  | int n => exact .ok (.float _ _)
  | float a b => exact .ok (.float _ _)
  | bool p q => exact .ok (.float _ _)
  | vec4 v w => exact .halt _
  | bvec4 v w => exact .halt _

theorem toBool (h : x.SameOutline y) :
    Matches excused (fun _ _ => True) x.toBool y.toBool := by
  cases h with
  | int n => exact .ok trivial
  | float a b => exact .ok trivial
  | bool p q => exact .ok trivial
  | vec4 v w => exact .halt _
  | bvec4 v w => exact .halt _

/-- Whether a vector has a lane does not depend on what is in its lanes. -/
theorem lane (k : Nat) (h : x.SameOutline y) :
    Matches excused SameOutline (x.lane k) (y.lane k) := by
  have hlanes : ∀ {α : Type} (v : Vec4 α), v.toList.length = 4 := fun _ => rfl
  cases h with
  | int n => exact .halt _
  | float a b => exact .halt _
  | bool p q => exact .halt _
  | vec4 v w =>
      rw [Value.lane, Value.lane]
      rcases Nat.lt_or_ge k 4 with hk | hk
      · rw [List.getElem?_eq_getElem (hlanes v ▸ hk), List.getElem?_eq_getElem (hlanes w ▸ hk)]
        exact .ok (.float _ _)
      · rw [List.getElem?_eq_none (hlanes v ▸ hk), List.getElem?_eq_none (hlanes w ▸ hk)]
        exact .halt _
  | bvec4 v w =>
      rw [Value.lane, Value.lane]
      rcases Nat.lt_or_ge k 4 with hk | hk
      · rw [List.getElem?_eq_getElem (hlanes v ▸ hk), List.getElem?_eq_getElem (hlanes w ▸ hk)]
        exact .ok (.bool _ _)
      · rw [List.getElem?_eq_none (hlanes v ▸ hk), List.getElem?_eq_none (hlanes w ▸ hk)]
        exact .halt _

theorem pack {v w : Vec4 Value} (ty : Ty) (hx : v.x.SameOutline w.x) (hy : v.y.SameOutline w.y)
    (hz : v.z.SameOutline w.z) (hw : v.w.SameOutline w.w) :
    Matches excused SameOutline (Value.pack ty v) (Value.pack ty w) := by
  cases ty with
  | int => exact .halt _
  | float => exact .halt _
  | bool => exact .halt _
  | vec4 =>
      rw [Value.pack, Value.pack, ← bind_pure_comp, ← bind_pure_comp]
      refine Matches.bind (S := fun _ _ => True) ?_ fun a b _ => .ok (.vec4 a b)
      refine hx.toFloat.bind fun _ _ _ => ?_
      refine hy.toFloat.bind fun _ _ _ => ?_
      refine hz.toFloat.bind fun _ _ _ => ?_
      refine hw.toFloat.bind fun _ _ _ => ?_
      exact .ok trivial
  | bvec4 =>
      rw [Value.pack, Value.pack, ← bind_pure_comp, ← bind_pure_comp]
      refine Matches.bind (S := fun _ _ => True) ?_ fun a b _ => .ok (.bvec4 a b)
      refine hx.toBool.bind fun _ _ _ => ?_
      refine hy.toBool.bind fun _ _ _ => ?_
      refine hz.toBool.bind fun _ _ _ => ?_
      refine hw.toBool.bind fun _ _ _ => ?_
      exact .ok trivial

theorem splat (ty : Ty) (h : x.SameOutline y) :
    Matches excused SameOutline (Value.splat ty x) (Value.splat ty y) := by
  cases ty with
  | int => exact .halt _
  | float => exact .halt _
  | bool => exact .halt _
  | vec4 =>
      rw [Value.splat, Value.splat, ← bind_pure_comp, ← bind_pure_comp]
      exact h.toFloat.bind fun a b _ => .ok (.vec4 _ _)
  | bvec4 =>
      rw [Value.splat, Value.splat, ← bind_pure_comp, ← bind_pure_comp]
      exact h.toBool.bind fun a b _ => .ok (.bvec4 _ _)

/-- The result of integer arithmetic, an overflow included, is that of the same integers. -/
theorem arithmetic (r : Except Halt Int) :
    Matches excused SameOutline (Value.int <$> r) (Value.int <$> r) := by
  cases r with
  | error e => exact .halt e
  | ok n => exact .ok (.int n)

theorem binary (u : IntUnit) (op : BinaryOp) (hx : x.SameOutline x') (hy : y.SameOutline y') :
    Matches excused SameOutline (op.apply u x y) (op.apply u x' y') := by
  cases op <;> cases hx <;> cases hy
  -- Only operands of equal types are accepted, and only integers can overflow.
  case add.int.int => exact arithmetic _
  case mul.int.int => exact arithmetic _
  case add.float.float => exact .ok (.float _ _)
  case add.vec4.vec4 => exact .ok (.vec4 _ _)
  case mul.float.float => exact .ok (.float _ _)
  case mul.vec4.vec4 => exact .ok (.vec4 _ _)
  case atLeast.int.int => exact .ok (.bool _ _)
  case atLeast.float.float => exact .ok (.bool _ _)
  case and.bool.bool => exact .ok (.bool _ _)
  all_goals exact .halt _

theorem builtin (fn : Builtin) (hx : x.SameOutline x') (hy : y.SameOutline y') :
    Matches excused SameOutline (fn.apply x y) (fn.apply x' y') := by
  cases fn <;> cases hx <;> cases hy
  case dot.vec4.vec4 => exact .ok (.float _ _)
  case min.float.float => exact .ok (.float _ _)
  case min.vec4.vec4 => exact .ok (.vec4 _ _)
  case max.float.float => exact .ok (.float _ _)
  case max.vec4.vec4 => exact .ok (.vec4 _ _)
  all_goals exact .halt _

end Value.SameOutline

/-- No operation on values makes an integer, a type or a failure out of a float or a truth
value. -/
theorem kept_sameOutline {excused : Halt → Prop} : Kept excused Value.SameOutline where
  int := .int
  float := fun x => .float x x
  ty := by
    intro x y h
    cases h <;> rfl
  asInt := by
    intro x y h
    cases h with
    | int n => exact .ok rfl
    | _ => exact .halt _
  asFloat := by
    intro x y h
    cases h with
    | float a b => exact .ok (.float a b)
    | _ => exact .halt _
  asBoolVector := by
    intro x y h
    cases h with
    | bvec4 v w => exact .ok (.bool _ _)
    | _ => exact .halt _
  toFloat := Value.SameOutline.toFloat
  lane := fun k h => h.lane k
  pack := Value.SameOutline.pack
  splat := Value.SameOutline.splat
  admits := by
    intro x y op h
    cases op <;> cases h <;> rfl
  binary := Value.SameOutline.binary
  builtin := Value.SameOutline.builtin

/-! ## Fetches -/

/-- Inputs of one shape have elements at the same places. -/
theorem Tensor.atInt?_rel {t t' : Tensor} (h : t.shape = t'.shape) (i j : Int) :
    Option.Rel (RelatedFloats Value.SameOutline) (t.atInt? i j) (t'.atInt? i j) := by
  unfold Tensor.atInt?
  by_cases hij : 0 ≤ i ∧ 0 ≤ j
  · rw [if_pos hij, if_pos hij]
    by_cases hin : i.toNat < t.shape.rows ∧ j.toNat < t.shape.cols
    · rcases Tensor.exists_at?_eq_some hin.1 hin.2 with ⟨x, hx⟩
      rw [h] at hin
      rcases Tensor.exists_at?_eq_some hin.1 hin.2 with ⟨y, hy⟩
      rw [hx, hy]
      exact .some (.float x y)
    · have hout := hin
      rw [h] at hout
      rw [Tensor.at?, if_neg hin, Tensor.at?, if_neg hout]
      exact .none
  · rw [if_neg hij, if_neg hij]
    exact .none

/-- Two runs of one kernel on inputs of one shape. -/
theorem twoRuns_of_shape {excused : Halt → Prop} {u : IntUnit} {k : Kernel} {t t' : Tensor}
    (h : t.shape = t'.shape) (row col : Nat) :
    TwoRuns excused Value.SameOutline ⟨u, k, t, row, col⟩ ⟨u, k, t', row, col⟩ where
  kept := kept_sameOutline
  unit := rfl
  neutral := rfl
  body := rfl
  row := rfl
  col := rfl
  fetch := by
    intro i j
    have helement := Tensor.atInt?_rel h i j
    unfold Invocation.fetch
    -- The bounds check looks at the index alone.
    change Matches excused _ (if Invocation.rejects _ j then _ else _)
      (if Invocation.rejects ⟨u, k, t, row, col⟩ j then _ else _)
    split
    · exact .ok (.float _ _)
    · cases hx : t.atInt? i j <;> cases hy : t'.atInt? i j <;> rw [hx, hy] at helement
      · rw [h]
        exact .halt _
      · cases helement
      · cases helement
      · exact .ok (.float _ _)

/-! ## Programs -/

/-- A program, whatever its kernel and its output shape, ends alike on any two inputs of one shape:
it gives a result on both, or it halts on both with one and the same fault or overflow. -/
theorem Program.execute_ends_alike (p : Program) {t t' : Tensor} (h : t.shape = t'.shape) :
    (∃ out out', p.execute t = .ok out ∧ p.execute t' = .ok out')
      ∨ ∃ halt, p.execute t = .error halt ∧ p.execute t' = .error halt := by
  have hrun : Matches (fun _ => False) (Tensor.Matched (RelatedFloats Value.SameOutline))
      (p.execute t) (p.execute t') := by
    unfold Program.execute Program.executeOn
    rw [h]
    split
    · exact Kernel.run_matches p.outputShape fun row col => twoRuns_of_shape h row col
    · exact .halt _
  generalize p.execute t = x at hrun
  generalize p.execute t' = y at hrun
  cases hrun with
  | ok _ => exact Or.inl ⟨_, _, rfl, rfl⟩
  | halt e => exact Or.inr ⟨e, rfl, rfl⟩
  | excused hfalse => exact hfalse.elim

/-- Without its bounds check, a sum over seven elements in windows of four reads past the row,
whether the elements are zeros or the strangest numbers there are. -/
theorem Program.execute_ends_alike_unchecked :
    ∃ (p : Program) (zeros others : Tensor), zeros.shape = others.shape
      ∧ p.execute zeros = .error (.fault (.fetchOutOfRange 0 7 ⟨1, 7⟩))
      ∧ p.execute others = .error (.fault (.fetchOutOfRange 0 7 ⟨1, 7⟩)) := by
  let built := Program.build ⟨.sum, 4, 1, 7, by decide, by decide, by decide⟩
  let p : Program := { built with kernel := { built.kernel with guard? := none } }
  let zeros := Tensor.ofFn ⟨1, 7⟩ fun _ _ => 0.0
  let others := Tensor.ofFn ⟨1, 7⟩ fun _ col => if col = 3 then 0.0 / 0.0 else -1.0 / 0.0
  have hzeros : p.execute zeros = .error (.fault (.fetchOutOfRange 0 7 ⟨1, 7⟩)) := by
    decide +kernel
  have hshape : zeros.shape = others.shape := rfl
  refine ⟨p, zeros, others, hshape, hzeros, ?_⟩
  rcases Program.execute_ends_alike p hshape with ⟨out, -, hout, -⟩ | ⟨halt, hhalt, hothers⟩
  · rw [hzeros] at hout
    cases hout
  · rw [hzeros] at hhalt
    cases hhalt
    exact hothers

end WindowReduction
