import WindowReduction.Program

/-!
# What a kernel computes, without the kernel

The elements of a window, padded with the neutral element to whole groups of four, and the value
that each kind makes of such groups. Every rounding and every comparison stands here in the order in
which a kernel does it, so the value is exact to the bit, NaN included.

Main definitions: `Kind.paddedGroups` (the groups of a window), `Kind.reduceGroups` (their value)
and `Descriptor.reduce` (the matrix of all values).
-/

namespace WindowReduction

/-! ## Elements -/

/-- The element in a row and column, and `e` outside the matrix. -/
def Tensor.elementOr (t : Tensor) (e : Float32) (row col : Nat) : Float32 :=
  (t.at? row col).getD e

/-- The matrix of one row. -/
def Tensor.ofRow (xs : List Float32) : Tensor :=
  Tensor.ofFn ⟨1, xs.length⟩ fun _ col => xs.getD col 0.0

/-- Element `j` of window `o` in a row, for windows of length `window` in rows of `rowLength`
elements: the neutral element past the end of the window or of the row. -/
def Kind.paddedElement (k : Kind) (window rowLength : Nat) (t : Tensor) (row o j : Nat) : Float32 :=
  if j < window ∧ o * window + j < rowLength then t.elementOr k.neutral row (o * window + j)
  else k.neutral

/-- The first `count` consecutive groups of four of a sequence. -/
def groupsOfFour (p : Nat → Float32) (count : Nat) : List (Vec4 Float32) :=
  (List.range count).map fun q => ⟨p (4 * q), p (4 * q + 1), p (4 * q + 2), p (4 * q + 3)⟩

/-- A padded window in groups of four, as many as its elements need. -/
def Kind.paddedGroups (k : Kind) (window rowLength : Nat) (t : Tensor) (row o : Nat) :
    List (Vec4 Float32) :=
  groupsOfFour (k.paddedElement window rowLength t row o) ((window + 3) / 4)

/-! ## Values -/

namespace Kind

/-- Adds the sum of a group, itself added up from zero, to the sum so far. -/
def addGroup (acc : Float32) (g : Vec4 Float32) : Float32 :=
  acc + ((((0.0 + g.x * 1.0) + g.y * 1.0) + g.z * 1.0) + g.w * 1.0)

/-- Keeps a lane where it is less than the group's and takes the group's lane otherwise. -/
def minLanes (lanes g : Vec4 Float32) : Vec4 Float32 where
  x := if lanes.x < g.x then lanes.x else g.x
  y := if lanes.y < g.y then lanes.y else g.y
  z := if lanes.z < g.z then lanes.z else g.z
  w := if lanes.w < g.w then lanes.w else g.w

/-- Keeps a lane where the group's is less and takes the group's lane otherwise. -/
def maxLanes (lanes g : Vec4 Float32) : Vec4 Float32 where
  x := if g.x < lanes.x then lanes.x else g.x
  y := if g.y < lanes.y then lanes.y else g.y
  z := if g.z < lanes.z then lanes.z else g.z
  w := if g.w < lanes.w then lanes.w else g.w

/-- Stays at one while it is there and no lane of the group is zero. -/
def andGroup (acc : Float32) (g : Vec4 Float32) : Float32 :=
  if 1.0 ≤ acc ∧ g.x != 0.0 ∧ g.y != 0.0 ∧ g.z != 0.0 ∧ g.w != 0.0 then 1.0 else 0.0

/-- Runs through the lanes in order and moves on to a lane that is less. -/
def leastLane (lanes : Vec4 Float32) : Float32 :=
  [lanes.y, lanes.z, lanes.w].foldl (fun r v => if v < r then v else r) lanes.x

/-- Runs through the lanes in order and moves on to a lane that is greater. -/
def greatestLane (lanes : Vec4 Float32) : Float32 :=
  [lanes.y, lanes.z, lanes.w].foldl (fun r v => if r < v then v else r) lanes.x

/-- The value of a list of groups. -/
def reduceGroups : Kind → List (Vec4 Float32) → Float32
  | .sum, groups => groups.foldl addGroup 0.0
  | .min, groups => leastLane (groups.foldl minLanes (Vec4.splat (1.0 / 0.0)))
  | .max, groups => greatestLane (groups.foldl maxLanes (Vec4.splat (-1.0 / 0.0)))
  | .all, groups => groups.foldl andGroup 1.0

end Kind

/-- The matrix of the values of all windows. -/
def Descriptor.reduce (d : Descriptor) (t : Tensor) : Tensor :=
  Tensor.ofFn d.outputShape fun row o =>
    d.kind.reduceGroups (d.kind.paddedGroups d.window d.rowLength t row o)

/-- A result of a reduction is the value of its window. -/
theorem Descriptor.elementOr_reduce {d : Descriptor} {t : Tensor} {row o : Nat} (e : Float32)
    (hrow : row < d.batch) (ho : o < d.geometry.outSize) :
    (d.reduce t).elementOr e row o
      = d.kind.reduceGroups (d.kind.paddedGroups d.window d.rowLength t row o) := by
  rw [Tensor.elementOr, Descriptor.reduce, Tensor.at?_ofFn hrow ho]
  rfl

/-! ## Groups -/

theorem groupsOfFour_succ (p : Nat → Float32) (count : Nat) :
    groupsOfFour p (count + 1) = groupsOfFour p count
      ++ [⟨p (4 * count), p (4 * count + 1), p (4 * count + 2), p (4 * count + 3)⟩] := by
  unfold groupsOfFour
  rw [List.range_succ, List.map_append]
  rfl

/-- The elements of the groups are the first elements of the sequence. -/
theorem exists_mem_groupsOfFour {p : Nat → Float32} {count : Nat} {x : Float32} :
    (∃ g ∈ groupsOfFour p count, x ∈ g.toList) ↔ ∃ j < 4 * count, p j = x := by
  unfold groupsOfFour
  constructor
  · rintro ⟨g, hg, hx⟩
    rcases List.mem_map.1 hg with ⟨q, hq, rfl⟩
    rw [List.mem_range] at hq
    simp only [Vec4.toList, List.mem_cons, List.not_mem_nil, or_false] at hx
    rcases hx with h | h | h | h
    · exact ⟨4 * q, by omega, h.symm⟩
    · exact ⟨4 * q + 1, by omega, h.symm⟩
    · exact ⟨4 * q + 2, by omega, h.symm⟩
    · exact ⟨4 * q + 3, by omega, h.symm⟩
  · rintro ⟨j, hj, rfl⟩
    refine ⟨_, List.mem_map.2 ⟨j / 4, List.mem_range.2 (by omega), rfl⟩, ?_⟩
    have hrem : j % 4 = 0 ∨ j % 4 = 1 ∨ j % 4 = 2 ∨ j % 4 = 3 := by omega
    have hdiv := Nat.div_add_mod j 4
    simp only [Vec4.toList, List.mem_cons, List.not_mem_nil, or_false]
    rcases hrem with h | h | h | h <;> rw [h] at hdiv
    · exact Or.inl (congrArg p hdiv.symm)
    · exact Or.inr (Or.inl (congrArg p hdiv.symm))
    · exact Or.inr (Or.inr (Or.inl (congrArg p hdiv.symm)))
    · exact Or.inr (Or.inr (Or.inr (congrArg p hdiv.symm)))

end WindowReduction
