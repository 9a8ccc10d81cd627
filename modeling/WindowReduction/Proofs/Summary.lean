import Mathlib.Data.Set.Insert
import WindowReduction.Proofs.FloatOrder
import WindowReduction.Proofs.PaddedWindow

/-!
# Results that do not depend on the order

Away from NaN a minimum is determined by the bounds below its elements, a maximum by the bounds
above them, and a conjunction by whether one of its elements is zero. None of this depends on the
order or the grouping in which the elements were combined, nor on how often one of them occurs or
whether neutral elements were among them. `Kind.Summarizes` says that a number is such a result for
a set of elements. For sums, which do depend on the order, it says nothing.

Main statements: `Summarizes.beq` (a set of elements has one result), `summarizes_foldl` (the plain
fold), `summarizes_reduceGroups` (the value of groups).
-/

namespace WindowReduction

namespace Kind

/-! ## What a result stands for -/

/-- The numbers that a kind can combine in any order: all of them for conjunction, and all but NaN
otherwise. -/
def Accepts (k : Kind) (x : Float32) : Prop :=
  k = .all ∨ x.isNaN = false

instance (k : Kind) (x : Float32) : Decidable (k.Accepts x) :=
  inferInstanceAs (Decidable (k = .all ∨ x.isNaN = false))

/-- The numbers that can be results. -/
def Settled : Kind → Float32 → Prop
  | .sum, _ => True
  | .min, y => y.isNaN = false
  | .max, y => y.isNaN = false
  | .all, y => y = 1.0 ∨ y = 0.0

/-- What a result says about each element: the bound `b` lies below it, lies above it, or it is not
zero. -/
def Passes : Kind → Float32 → Float32 → Prop
  | .sum, _, _ => True
  | .min, b, x => b ≤ x
  | .max, b, x => x ≤ b
  | .all, _, x => x != 0.0

/-- The number `y` is a result for the elements of `S`: it says what is true of all of them. -/
structure Summarizes (k : Kind) (y : Float32) (S : Set Float32) : Prop where
  settled : k.Settled y
  passes_iff : ∀ b, b.isNaN = false → (k.Passes b y ↔ ∀ x ∈ S, k.Passes b x)

variable {k : Kind} {a b x y y' acc : Float32} {S T : Set Float32}

/-- The neutral element passes everywhere. -/
theorem passes_neutral (k : Kind) (hb : b.isNaN = false) : k.Passes b k.neutral := by
  cases k with
  | sum => trivial
  | min => exact float_le_infinity hb
  | max => exact neg_infinity_float_le hb
  | all => exact (by decide : ((1.0 : Float32) != 0.0) = true)

theorem settled_neutral (k : Kind) : k.Settled k.neutral := by
  cases k with
  | sum => trivial
  | min => exact (by decide : (1.0 / 0.0 : Float32).isNaN = false)
  | max => exact (by decide : (-1.0 / 0.0 : Float32).isNaN = false)
  | all => exact Or.inl rfl

theorem accepts_neutral (k : Kind) : k.Accepts k.neutral := by
  cases k with
  | sum => exact Or.inr (by decide)
  | min => exact Or.inr (by decide)
  | max => exact Or.inr (by decide)
  | all => exact Or.inl rfl

/-- Results can be combined again. -/
theorem Settled.accepts (hk : k ≠ .sum) (h : k.Settled y) : k.Accepts y := by
  cases k with
  | sum => exact absurd rfl hk
  | min => exact Or.inr h
  | max => exact Or.inr h
  | all => exact Or.inl rfl

/-! ## One step -/

theorem settled_step (ha : k.Settled acc) (hx : k.Accepts x) : k.Settled (k.step acc x) := by
  cases k with
  | sum => trivial
  | min =>
      have hx' : x.isNaN = false := hx.resolve_left (by decide)
      show (if x < acc then x else acc).isNaN = false
      by_cases hlt : x < acc
      · rw [if_pos hlt]
        exact hx'
      · rw [if_neg hlt]
        exact ha
  | max =>
      have hx' : x.isNaN = false := hx.resolve_left (by decide)
      show (if acc < x then x else acc).isNaN = false
      by_cases hlt : acc < x
      · rw [if_pos hlt]
        exact hx'
      · rw [if_neg hlt]
        exact ha
  | all =>
      show Settled .all (if 1.0 ≤ acc ∧ x != 0.0 then 1.0 else 0.0)
      by_cases hboth : 1.0 ≤ acc ∧ x != 0.0
      · rw [if_pos hboth]
        exact Or.inl rfl
      · rw [if_neg hboth]
        exact Or.inr rfl

/-- A truth value is at least one exactly when it is not zero. -/
theorem one_le_iff_of_settled (ha : Kind.all.Settled acc) : 1.0 ≤ acc ↔ (acc != 0.0) = true := by
  rcases ha with rfl | rfl
  · exact iff_of_true (by decide) (by decide)
  · exact iff_of_false (by decide) (by decide)

/-- A step says of its result what is true of both of its arguments. -/
theorem passes_step (ha : k.Settled acc) (hx : k.Accepts x) :
    k.Passes b (k.step acc x) ↔ k.Passes b acc ∧ k.Passes b x := by
  cases k with
  | sum => exact ⟨fun _ => ⟨trivial, trivial⟩, fun _ => trivial⟩
  | min =>
      have hx' : x.isNaN = false := hx.resolve_left (by decide)
      show b ≤ (if x < acc then x else acc) ↔ b ≤ acc ∧ b ≤ x
      -- A bound below the number that is kept lies below the other one as well.
      by_cases hlt : x < acc
      · rw [if_pos hlt]
        exact ⟨fun h => ⟨float_le_trans h (float_le_of_lt hlt), h⟩, fun h => h.2⟩
      · rw [if_neg hlt]
        have hle : acc ≤ x := Classical.not_not.1 (mt (float_lt_iff_not_le hx' ha).2 hlt)
        exact ⟨fun h => ⟨h, float_le_trans h hle⟩, fun h => h.1⟩
  | max =>
      have hx' : x.isNaN = false := hx.resolve_left (by decide)
      show (if acc < x then x else acc) ≤ b ↔ acc ≤ b ∧ x ≤ b
      by_cases hlt : acc < x
      · rw [if_pos hlt]
        exact ⟨fun h => ⟨float_le_trans (float_le_of_lt hlt) h, h⟩, fun h => h.2⟩
      · rw [if_neg hlt]
        have hle : x ≤ acc := Classical.not_not.1 (mt (float_lt_iff_not_le ha hx').2 hlt)
        exact ⟨fun h => ⟨h, float_le_trans hle h⟩, fun h => h.1⟩
  | all =>
      show ((if 1.0 ≤ acc ∧ x != 0.0 then (1.0 : Float32) else 0.0) != 0.0) = true
        ↔ (acc != 0.0) = true ∧ (x != 0.0) = true
      rw [← one_le_iff_of_settled ha]
      by_cases hboth : 1.0 ≤ acc ∧ x != 0.0
      · rw [if_pos hboth]
        exact iff_of_true (by decide) hboth
      · rw [if_neg hboth]
        exact iff_of_false (by decide) hboth

/-! ## Sets of elements -/

theorem summarizes_neutral (k : Kind) : k.Summarizes k.neutral ∅ where
  settled := settled_neutral k
  passes_iff := by
    intro b hb
    exact iff_of_true (passes_neutral k hb) (fun x hx => absurd hx (Set.notMem_empty x))

/-- A result for some elements is one for all others that pass at the same places. -/
theorem Summarizes.congr (h : k.Summarizes y S)
    (hST : ∀ b, b.isNaN = false → ((∀ x ∈ S, k.Passes b x) ↔ ∀ x ∈ T, k.Passes b x)) :
    k.Summarizes y T where
  settled := h.settled
  passes_iff := fun b hb => (h.passes_iff b hb).trans (hST b hb)

/-- A step brings in the elements that its argument stands for. -/
theorem Summarizes.step (ha : k.Summarizes acc S) (hx : k.Accepts x)
    (hT : ∀ b, b.isNaN = false → (k.Passes b x ↔ ∀ z ∈ T, k.Passes b z)) :
    k.Summarizes (k.step acc x) (S ∪ T) where
  settled := settled_step ha.settled hx
  passes_iff := by
    intro b hb
    rw [passes_step ha.settled hx, ha.passes_iff b hb, hT b hb]
    constructor
    · rintro ⟨hS, hT⟩ z (hz | hz)
      · exact hS z hz
      · exact hT z hz
    · intro h
      exact ⟨fun z hz => h z (Or.inl hz), fun z hz => h z (Or.inr hz)⟩

theorem Summarizes.step_element (ha : k.Summarizes acc S) (hx : k.Accepts x) :
    k.Summarizes (k.step acc x) (S ∪ {x}) := by
  apply ha.step hx
  intro b _
  exact ⟨fun h z hz => Set.mem_singleton_iff.1 hz ▸ h, fun h => h x (Set.mem_singleton x)⟩

theorem Summarizes.step_result (hk : k ≠ .sum) (ha : k.Summarizes acc S)
    (hx : k.Summarizes x T) : k.Summarizes (k.step acc x) (S ∪ T) :=
  ha.step (hx.settled.accepts hk) hx.passes_iff

/-- Results of results: elements that are results themselves stand for what they are results of. -/
theorem Summarizes.trans {ι : Type} {p : ι → Prop} {ys : ι → Float32} {U : ι → Set Float32}
    (hy : k.Summarizes y {x | ∃ i, p i ∧ ys i = x}) (h : ∀ i, p i → k.Summarizes (ys i) (U i)) :
    k.Summarizes y {x | ∃ i, p i ∧ x ∈ U i} := by
  apply hy.congr
  intro b hb
  constructor
  · rintro hall x ⟨i, hi, hx⟩
    exact ((h i hi).passes_iff b hb).1 (hall (ys i) ⟨i, hi, rfl⟩) x hx
  · rintro hall x ⟨i, hi, rfl⟩
    exact ((h i hi).passes_iff b hb).2 fun z hz => hall z ⟨i, hi, hz⟩

/-- A conjunction is one when no element is zero, and zero otherwise. -/
theorem Summarizes.eq_ite [Decidable (∀ x ∈ S, (x != 0.0) = true)]
    (h : Kind.all.Summarizes y S) : y = if ∀ x ∈ S, (x != 0.0) = true then 1.0 else 0.0 := by
  -- Whether an element is zero does not depend on the bound, so any will do.
  have hiff : (y != 0.0) = true ↔ ∀ x ∈ S, (x != 0.0) = true := h.passes_iff 0.0 (by decide)
  rcases h.settled with rfl | rfl
  · rw [if_pos (hiff.1 (by decide))]
  · rw [if_neg (mt hiff.2 (by decide))]

/-- The elements of a set have one result, up to the sign of zero. -/
theorem Summarizes.beq (hk : k ≠ .sum) (h : k.Summarizes y S) (h' : k.Summarizes y' S) :
    (y == y') = true := by
  cases k with
  | sum => exact absurd rfl hk
  | min =>
      -- Each result bounds the elements, hence the other result.
      have hy : ∀ z ∈ S, y ≤ z := (h.passes_iff y h.settled).1 (float_le_refl h.settled)
      have hy' : ∀ z ∈ S, y' ≤ z := (h'.passes_iff y' h'.settled).1 (float_le_refl h'.settled)
      exact float_beq_iff.2 ⟨(h'.passes_iff y h.settled).2 hy, (h.passes_iff y' h'.settled).2 hy'⟩
  | max =>
      have hy : ∀ z ∈ S, z ≤ y := (h.passes_iff y h.settled).1 (float_le_refl h.settled)
      have hy' : ∀ z ∈ S, z ≤ y' := (h'.passes_iff y' h'.settled).1 (float_le_refl h'.settled)
      exact float_beq_iff.2 ⟨(h.passes_iff y' h'.settled).2 hy', (h'.passes_iff y h.settled).2 hy⟩
  | all =>
      classical
      have heq : y = y' := h.eq_ite.trans h'.eq_ite.symm
      rw [← heq]
      rcases h.settled with rfl | rfl
      · decide
      · decide

/-! ## Folds -/

/-- A fold whose every step brings in some elements is a result for all of them. -/
theorem Summarizes.foldl {α : Type} {f : Float32 → α → Float32} {elements : α → Set Float32}
    {l : List α} (hacc : k.Summarizes acc S)
    (hstep : ∀ a ∈ l, ∀ acc S, k.Summarizes acc S → k.Summarizes (f acc a) (S ∪ elements a)) :
    k.Summarizes (l.foldl f acc) (S ∪ {x | ∃ a ∈ l, x ∈ elements a}) := by
  -- Every step enlarges the set, which is why the induction is for all sets.
  induction l generalizing acc S with
  | nil =>
      have hset : S = S ∪ {x | ∃ a ∈ ([] : List α), x ∈ elements a} := by
        ext x
        simp
      exact hset ▸ hacc
  | cons a l ih =>
      have hset : S ∪ elements a ∪ {x | ∃ b ∈ l, x ∈ elements b}
          = S ∪ {x | ∃ b ∈ a :: l, x ∈ elements b} := by
        ext x
        simp [or_assoc]
      rw [List.forall_mem_cons] at hstep
      exact hset ▸ ih (hstep.1 acc S hacc) hstep.2

/-- The fold of some elements is a result for them. -/
theorem summarizes_foldl {xs : List Float32} (hxs : ∀ x ∈ xs, k.Accepts x)
    (hacc : k.Summarizes acc S) : k.Summarizes (xs.foldl k.step acc) (S ∪ {x | x ∈ xs}) := by
  have hstep : ∀ x ∈ xs, ∀ acc S, k.Summarizes acc S → k.Summarizes (k.step acc x) (S ∪ {x}) := by
    intro x hx acc S hacc
    exact hacc.step_element (hxs x hx)
  have h := hacc.foldl hstep
  have hset : {x | ∃ a ∈ xs, x ∈ ({a} : Set Float32)} = {x | x ∈ xs} := by
    ext x
    simp
  rwa [hset] at h

theorem summarizes_foldl_neutral {xs : List Float32} (hxs : ∀ x ∈ xs, k.Accepts x) :
    k.Summarizes (xs.foldl k.step k.neutral) {x | x ∈ xs} := by
  have h := summarizes_foldl hxs (summarizes_neutral k)
  rwa [Set.empty_union] at h

/-! ## Groups -/

/-- Starts a step at each lane of a group and takes it to the lane so far. -/
def stepLanes (k : Kind) (lanes g : Vec4 Float32) : Vec4 Float32 :=
  Vec4.zipWith k.step g lanes

/-- Steps through the lanes in order. -/
def foldLanes (k : Kind) (lanes : Vec4 Float32) : Float32 :=
  [lanes.y, lanes.z, lanes.w].foldl k.step lanes.x

/-- An element is a result for itself, unless it still has to become a truth value. -/
theorem summarizes_singleton (hk : k ≠ .all) (hx : k.Accepts x) : k.Summarizes x {x} where
  settled := by
    have hx' : x.isNaN = false := hx.resolve_left hk
    cases k with
    | sum => trivial
    | min => exact hx'
    | max => exact hx'
    | all => exact absurd rfl hk
  passes_iff := by
    intro b _
    exact ⟨fun h z hz => Set.mem_singleton_iff.1 hz ▸ h, fun h => h x (Set.mem_singleton x)⟩

/-- A lane's result stands for what the groups have in that lane. -/
theorem summarizes_lane {groups : List (Vec4 Float32)} (lane : Vec4 Float32 → Float32)
    (hk : k ≠ .sum) (hk' : k ≠ .all) (hsplat : lane (Vec4.splat k.neutral) = k.neutral)
    (hlane : ∀ lanes g, k.step (lane g) (lane lanes) = lane (k.stepLanes lanes g))
    (hgroups : ∀ g ∈ groups, k.Accepts (lane g)) :
    k.Summarizes (lane (groups.foldl k.stepLanes (Vec4.splat k.neutral)))
      {x | ∃ g ∈ groups, x = lane g} := by
  have hstep : ∀ g ∈ groups, ∀ acc S, k.Summarizes acc S →
      k.Summarizes (k.step (lane g) acc) (S ∪ {lane g}) := by
    intro g hg acc S hacc
    -- The step starts at the group's lane, so the new element is the first of the two.
    rw [Set.union_comm]
    exact (summarizes_singleton hk' (hgroups g hg)).step_result hk hacc
  have h := (summarizes_neutral k).foldl hstep
  rw [Set.empty_union, ← hsplat, List.foldl_hom lane hlane] at h
  exact h

/-- The elements of groups, lane by lane. -/
theorem lanes_eq_elements (groups : List (Vec4 Float32)) :
    {v | ∃ g ∈ groups, v = g.x} ∪ {v | ∃ g ∈ groups, v = g.y} ∪ {v | ∃ g ∈ groups, v = g.z}
        ∪ {v | ∃ g ∈ groups, v = g.w}
      = {v | ∃ g ∈ groups, v ∈ g.toList} := by
  ext v
  simp only [Vec4.toList, Set.mem_union, Set.mem_ofPred_eq, List.mem_cons, List.not_mem_nil,
    or_false]
  grind

/-- Four lanes folded separately and then together give a result for all elements. -/
theorem summarizes_foldLanes {groups : List (Vec4 Float32)} (hk : k ≠ .sum) (hk' : k ≠ .all)
    (hgroups : ∀ g ∈ groups, ∀ x ∈ g.toList, k.Accepts x) :
    k.Summarizes (k.foldLanes (groups.foldl k.stepLanes (Vec4.splat k.neutral)))
      {x | ∃ g ∈ groups, x ∈ g.toList} := by
  have hx := summarizes_lane Vec4.x hk hk' rfl (fun _ _ => rfl)
    (fun g hg => hgroups g hg _ (by simp [Vec4.toList]))
  have hy := summarizes_lane Vec4.y hk hk' rfl (fun _ _ => rfl)
    (fun g hg => hgroups g hg _ (by simp [Vec4.toList]))
  have hz := summarizes_lane Vec4.z hk hk' rfl (fun _ _ => rfl)
    (fun g hg => hgroups g hg _ (by simp [Vec4.toList]))
  have hw := summarizes_lane Vec4.w hk hk' rfl (fun _ _ => rfl)
    (fun g hg => hgroups g hg _ (by simp [Vec4.toList]))
  rw [← lanes_eq_elements]
  exact ((hx.step_result hk hy).step_result hk hz).step_result hk hw

theorem step_all_ite (p : Prop) [Decidable p] (x : Float32) :
    step .all (if p then 1.0 else 0.0) x = if p ∧ x != 0.0 then 1.0 else 0.0 := by
  have hone : (1.0 : Float32) ≤ (if p then 1.0 else 0.0) ↔ p := by
    by_cases hp : p
    · rw [if_pos hp]
      exact iff_of_true (by decide) hp
    · rw [if_neg hp]
      exact iff_of_false (by decide) hp
  show (if 1.0 ≤ (if p then (1.0 : Float32) else 0.0) ∧ x != 0.0 then 1.0 else 0.0) = _
  simp only [hone]

/-- A group is brought into a conjunction as its elements are one by one. -/
theorem andGroup_eq_foldl (acc : Float32) (g : Vec4 Float32) :
    andGroup acc g = g.toList.foldl (step .all) acc := by
  show _ = step .all (step .all (step .all (if 1.0 ≤ acc ∧ g.x != 0.0 then 1.0 else 0.0) g.y)
    g.z) g.w
  rw [step_all_ite, step_all_ite, step_all_ite]
  simp only [andGroup, and_assoc]

/-- The value of groups is a result for their elements. -/
theorem summarizes_reduceGroups {groups : List (Vec4 Float32)}
    (hgroups : ∀ g ∈ groups, ∀ x ∈ g.toList, k.Accepts x) :
    k.Summarizes (k.reduceGroups groups) {x | ∃ g ∈ groups, x ∈ g.toList} := by
  cases k with
  | sum => exact ⟨trivial, fun _ _ => ⟨fun _ _ _ => trivial, fun _ => trivial⟩⟩
  | min => exact summarizes_foldLanes (by decide) (by decide) hgroups
  | max => exact summarizes_foldLanes (by decide) (by decide) hgroups
  | all =>
      have hstep : ∀ g ∈ groups, ∀ acc S, Kind.all.Summarizes acc S →
          Kind.all.Summarizes (andGroup acc g) (S ∪ {x | x ∈ g.toList}) := by
        intro g hg acc S hacc
        rw [andGroup_eq_foldl]
        exact summarizes_foldl (hgroups g hg) hacc
      have h := (summarizes_neutral .all).foldl hstep
      rwa [Set.empty_union] at h

end Kind

end WindowReduction
