import WindowReduction.Proofs.WindowFold

/-!
# What a NaN makes a lane forget

A lane of a minimum or maximum starts each comparison at the element of the new group and moves on to
what the lane has so far only if that is better. A comparison with a NaN is false. So a NaN in a group
takes the place of everything that its lane had, and the next number in that lane takes the place of
the NaN: a lane remembers the elements since its last NaN and no other. When the lanes are brought
together, the first one is compared with the others, and a NaN in one of these is passed over.

Main definitions: `Kind.Holds` (what a lane has), `Kind.survivors` (the elements that no NaN follows
in their lane).
Main statements: `Kind.Holds.step` (one more element), `Kind.holds_lane` (all of a lane) and
`execute_build_survivors`.
-/

namespace WindowReduction

namespace Kind

variable {k : Kind} {a acc x y : Float32} {p : Nat → Float32} {count : Nat} {S T : Set Float32}

/-! ## One step -/

/-- A step with a NaN on either side stays where it started. -/
theorem step_of_isNaN (hk : k ≠ .sum) (hk' : k ≠ .all) (h : x.isNaN = true ∨ y.isNaN = true) :
    k.step x y = x := by
  have hfree : ∀ {a b : Float32}, a < b → a.isNaN = false ∧ b.isNaN = false := by
    intro a b hlt
    rcases float_lt_iff_position.1 hlt with ⟨i, j, hi, hj, -⟩
    exact ⟨isNaN_eq_false_iff_position.2 ⟨i, hi⟩, isNaN_eq_false_iff_position.2 ⟨j, hj⟩⟩
  have hnone : ¬ x < y ∧ ¬ y < x := by
    constructor
    · intro hlt
      rcases hfree hlt with ⟨hx, hy⟩
      simp only [hx, hy, Bool.false_eq_true, or_self] at h
    · intro hlt
      rcases hfree hlt with ⟨hy, hx⟩
      simp only [hx, hy, Bool.false_eq_true, or_self] at h
  cases k with
  | sum => exact absurd rfl hk
  | min => exact if_neg hnone.2
  | max => exact if_neg hnone.1
  | all => exact absurd rfl hk'

/-- A number is a result for some elements, or it is a NaN and there are none. -/
def Holds (k : Kind) (y : Float32) (S : Set Float32) : Prop :=
  y.isNaN = true ∧ S = ∅ ∨ k.Summarizes y S

theorem passes_self (hk' : k ≠ .all) (hy : y.isNaN = false) : k.Passes y y := by
  cases k with
  | sum => trivial
  | min => exact float_le_refl hy
  | max => exact float_le_refl hy
  | all => exact absurd rfl hk'

theorem Summarizes.isNaN_eq_false (hk : k ≠ .sum) (hk' : k ≠ .all) (h : k.Summarizes y S) :
    y.isNaN = false :=
  (h.settled.accepts hk).resolve_left hk'

/-- A result and what is held, if anything, make a result for both. -/
theorem Summarizes.step_holds (hk : k ≠ .sum) (hk' : k ≠ .all) (hacc : k.Summarizes acc S)
    (hx : k.Holds x T) : k.Summarizes (k.step acc x) (S ∪ T) := by
  rcases hx with ⟨hnan, rfl⟩ | hx
  · rw [step_of_isNaN hk hk' (Or.inr hnan), Set.union_empty]
    exact hacc
  · exact hacc.step_result hk hx

/-- A number starts anew or joins what is held, and a NaN leaves nothing. -/
theorem Holds.step (hk : k ≠ .sum) (hk' : k ≠ .all) (hacc : k.Holds acc S) (x : Float32) :
    k.Holds (k.step x acc) {z | x.isNaN = false ∧ (z = x ∨ z ∈ S)} := by
  cases hx : x.isNaN with
  | true =>
      rw [step_of_isNaN hk hk' (Or.inl hx)]
      refine Or.inl ⟨hx, Set.eq_empty_of_forall_notMem ?_⟩
      rintro z ⟨hfalse, -⟩
      cases hfalse
  | false =>
      have hset : {z | false = false ∧ (z = x ∨ z ∈ S)} = {x} ∪ S := by
        ext z
        simp
      rw [hset]
      exact Or.inr ((summarizes_singleton hk' (Or.inr hx)).step_holds hk hk' hacc)

/-! ## Lanes -/

/-- The elements of the lane `r` in the first `count` groups of a sequence after which there is no
NaN in that lane. -/
def kept (p : Nat → Float32) (r count : Nat) : Set Float32 :=
  {x | ∃ q < count, p (4 * q + r) = x ∧ ∀ q', q ≤ q' → q' < count → (p (4 * q' + r)).isNaN = false}

/-- A group leaves nothing in a lane or adds one element to it. -/
theorem kept_succ (p : Nat → Float32) (r count : Nat) :
    kept p r (count + 1) = {z | (p (4 * count + r)).isNaN = false
      ∧ (z = p (4 * count + r) ∨ z ∈ kept p r count)} := by
  ext z
  constructor
  · rintro ⟨q, hq, rfl, hafter⟩
    refine ⟨hafter count (by omega) (by omega), ?_⟩
    rcases Nat.lt_succ_iff_lt_or_eq.1 hq with hlt | rfl
    · exact Or.inr ⟨q, hlt, rfl, fun q' hle hlt' => hafter q' hle (by omega)⟩
    · exact Or.inl rfl
  · rintro ⟨hlast, rfl | ⟨q, hq, rfl, hafter⟩⟩
    · refine ⟨count, by omega, rfl, ?_⟩
      intro q' hle hlt
      have hq' : q' = count := by omega
      rw [hq']
      exact hlast
    · refine ⟨q, by omega, rfl, ?_⟩
      intro q' hle hlt
      rcases Nat.lt_succ_iff_lt_or_eq.1 hlt with hlt' | rfl
      · exact hafter q' hle hlt'
      · exact hlast

/-- After any number of groups a lane holds the elements since its last NaN. -/
theorem holds_lane (hk : k ≠ .sum) (hk' : k ≠ .all) (lane : Vec4 Float32 → Float32) (r : Nat)
    (hsplat : lane (Vec4.splat k.neutral) = k.neutral)
    (hlane : ∀ lanes g, lane (k.stepLanes lanes g) = k.step (lane g) (lane lanes))
    (hgroup : ∀ q, lane ⟨p (4 * q), p (4 * q + 1), p (4 * q + 2), p (4 * q + 3)⟩ = p (4 * q + r))
    (count : Nat) :
    k.Holds (lane ((groupsOfFour p count).foldl k.stepLanes (Vec4.splat k.neutral)))
      (kept p r count) := by
  induction count with
  | zero =>
      have hnone : kept p r 0 = ∅ := by
        apply Set.eq_empty_of_forall_notMem
        rintro x ⟨q, hq, -⟩
        omega
      rw [hnone]
      exact Or.inr (hsplat.symm ▸ summarizes_neutral k)
  | succ count ih =>
      rw [groupsOfFour_succ, List.foldl_append, kept_succ]
      show k.Holds (lane (k.stepLanes _ _)) _
      rw [hlane, hgroup]
      exact ih.step hk hk' _

/-! ## Groups -/

/-- A step that starts at an element is a NaN exactly when the element is. -/
theorem Holds.isNaN_step_iff (hk : k ≠ .sum) (hk' : k ≠ .all) (hacc : k.Holds acc S) :
    (k.step x acc).isNaN = true ↔ x.isNaN = true := by
  cases hx : x.isNaN with
  | true =>
      rw [step_of_isNaN hk hk' (Or.inl hx)]
      exact iff_of_true hx rfl
  | false =>
      have h := (summarizes_singleton hk' (Or.inr hx)).step_holds hk hk' hacc
      rw [h.isNaN_eq_false hk hk']

/-- A NaN in the first lane is the result. -/
theorem foldLanes_of_isNaN (hk : k ≠ .sum) (hk' : k ≠ .all) {lanes : Vec4 Float32}
    (h : lanes.x.isNaN = true) : k.foldLanes lanes = lanes.x := by
  simp only [foldLanes, List.foldl_cons, List.foldl_nil, step_of_isNaN hk hk' (Or.inl h)]

/-- A number in the first lane is brought together with what the other lanes have. -/
theorem summarizes_foldLanes_of_holds (hk : k ≠ .sum) (hk' : k ≠ .all) {lanes : Vec4 Float32}
    {Sx Sy Sz Sw : Set Float32} (hx : k.Summarizes lanes.x Sx) (hy : k.Holds lanes.y Sy)
    (hz : k.Holds lanes.z Sz) (hw : k.Holds lanes.w Sw) :
    k.Summarizes (k.foldLanes lanes) (Sx ∪ Sy ∪ Sz ∪ Sw) :=
  ((hx.step_holds hk hk' hy).step_holds hk hk' hz).step_holds hk hk' hw

/-- The elements before `stop` of a sequence that four lanes take in turn, without those that a NaN
in the same lane is or follows. -/
def survivors (p : Nat → Float32) (stop : Nat) : Set Float32 :=
  {x | ∃ j < stop, p j = x ∧ ∀ i, j ≤ i → i < stop → i % 4 = j % 4 → (p i).isNaN = false}

/-- The elements that the four lanes have. -/
theorem kept_union_eq_survivors (p : Nat → Float32) (count : Nat) :
    kept p 0 count ∪ kept p 1 count ∪ kept p 2 count ∪ kept p 3 count
      = survivors p (4 * count) := by
  have hlane : ∀ {x r}, r < 4 → x ∈ kept p r count → x ∈ survivors p (4 * count) := by
    rintro x r hr ⟨q, hq, rfl, hafter⟩
    refine ⟨4 * q + r, by omega, rfl, ?_⟩
    intro i hle hlt hmod
    have hi : 4 * (i / 4) + r = i := by omega
    exact hi ▸ hafter (i / 4) (by omega) (by omega)
  ext x
  constructor
  · rintro (((h | h) | h) | h)
    · exact hlane (by decide) h
    · exact hlane (by decide) h
    · exact hlane (by decide) h
    · exact hlane (by decide) h
  · rintro ⟨j, hj, rfl, hafter⟩
    have hkept : ∀ r, j % 4 = r → p j ∈ kept p r count := by
      intro r hr
      have hj' : 4 * (j / 4) + r = j := by omega
      exact ⟨j / 4, by omega, congrArg p hj',
        fun q hle hlt => hafter (4 * q + r) (by omega) (by omega) (by omega)⟩
    have hrem : j % 4 = 0 ∨ j % 4 = 1 ∨ j % 4 = 2 ∨ j % 4 = 3 := by omega
    rcases hrem with h | h | h | h
    · exact Or.inl (Or.inl (Or.inl (hkept 0 h)))
    · exact Or.inl (Or.inl (Or.inr (hkept 1 h)))
    · exact Or.inl (Or.inr (hkept 2 h))
    · exact Or.inr (hkept 3 h)

/-- The value of a minimum or maximum of groups is that of its folded lanes. -/
theorem reduceGroups_eq_foldLanes (hk : k ≠ .sum) (hk' : k ≠ .all) (groups : List (Vec4 Float32)) :
    k.reduceGroups groups
      = k.foldLanes (groups.foldl k.stepLanes (Vec4.splat k.neutral)) := by
  cases k with
  | sum => exact absurd rfl hk
  | min => rfl
  | max => rfl
  | all => exact absurd rfl hk'

/-- The value of groups is a NaN exactly when the last group begins with one. Otherwise it is a
result for the elements that no NaN follows in their lane. -/
theorem reduceGroups_of_isNaN (hk : k ≠ .sum) (hk' : k ≠ .all) (p : Nat → Float32) (count : Nat) :
    ((k.reduceGroups (groupsOfFour p (count + 1))).isNaN = true ↔ (p (4 * count)).isNaN = true)
      ∧ ((p (4 * count)).isNaN = false →
          k.Summarizes (k.reduceGroups (groupsOfFour p (count + 1)))
            (survivors p (4 * (count + 1)))) := by
  rw [reduceGroups_eq_foldLanes hk hk', ← kept_union_eq_survivors]
  have hx := holds_lane (p := p) hk hk' Vec4.x 0 rfl (fun _ _ => rfl) (fun _ => rfl)
  have hy := holds_lane (p := p) hk hk' Vec4.y 1 rfl (fun _ _ => rfl) (fun _ => rfl) (count + 1)
  have hz := holds_lane (p := p) hk hk' Vec4.z 2 rfl (fun _ _ => rfl) (fun _ => rfl) (count + 1)
  have hw := holds_lane (p := p) hk hk' Vec4.w 3 rfl (fun _ _ => rfl) (fun _ => rfl) (count + 1)
  have hfirst : ((groupsOfFour p (count + 1)).foldl k.stepLanes (Vec4.splat k.neutral)).x.isNaN
      = true ↔ (p (4 * count)).isNaN = true := by
    rw [groupsOfFour_succ, List.foldl_append]
    exact (hx count).isNaN_step_iff hk hk'
  rcases hx (count + 1) with ⟨hnan, -⟩ | hx'
  · rw [foldLanes_of_isNaN hk hk' hnan]
    exact ⟨hfirst, fun h => absurd (hfirst.1 hnan) (Bool.eq_false_iff.1 h)⟩
  · have h := summarizes_foldLanes_of_holds hk hk' hx' hy hz hw
    refine ⟨?_, fun _ => h⟩
    rw [← hfirst, h.isNaN_eq_false hk hk', hx'.isNaN_eq_false hk hk']

/-! ## Windows -/

variable {t : Tensor} {w n row o : Nat}

/-- Padding is not a NaN and passes everywhere, so what survives in a padded window are the
survivors of the window. -/
theorem forall_survivors_paddedElement_iff (hk' : k ≠ .all) (hcols : t.shape.cols = n) {stop : Nat}
    (hstop : w ≤ stop) {b : Float32} (hb : b.isNaN = false) :
    (∀ x ∈ survivors (k.paddedElement w n t row o) stop, k.Passes b x)
      ↔ ∀ x ∈ survivors (fun j => t.elementOr k.neutral row (o * w + j)) w, k.Passes b x := by
  constructor
  · rintro hall x ⟨j, hj, rfl, hafter⟩
    refine hall _ ⟨j, by omega, ?_, ?_⟩
    · rw [paddedElement_eq hcols, if_pos hj]
    · intro i hle hlt hmod
      rw [paddedElement_eq hcols]
      by_cases hin : i < w
      · rw [if_pos hin]
        exact hafter i hle hin hmod
      · rw [if_neg hin]
        exact (accepts_neutral k).resolve_left hk'
  · rintro hall x ⟨j, hj, rfl, hafter⟩
    by_cases hin : j < w
    · rw [paddedElement_eq hcols, if_pos hin]
      refine hall _ ⟨j, hin, rfl, ?_⟩
      intro i hle hlt hmod
      have h := hafter i hle (by omega) hmod
      rwa [paddedElement_eq hcols, if_pos hlt] at h
    · rw [paddedElement_eq hcols, if_neg hin]
      exact passes_neutral k hb

/-- The value of a padded window is a NaN exactly when the last group of the window begins with one.
Otherwise it is a result for the survivors of the window. -/
theorem reduceGroups_paddedGroups_of_isNaN (hk : k ≠ .sum) (hk' : k ≠ .all)
    (hcols : t.shape.cols = n) (hw : 0 < w) :
    ((k.reduceGroups (k.paddedGroups w n t row o)).isNaN = true
        ↔ (t.elementOr k.neutral row (o * w + 4 * ((w - 1) / 4))).isNaN = true)
      ∧ ((k.reduceGroups (k.paddedGroups w n t row o)).isNaN = false →
          k.Summarizes (k.reduceGroups (k.paddedGroups w n t row o))
            (survivors (fun j => t.elementOr k.neutral row (o * w + j)) w)) := by
  have hcount : (w + 3) / 4 = (w - 1) / 4 + 1 := by omega
  have hlast : k.paddedElement w n t row o (4 * ((w - 1) / 4))
      = t.elementOr k.neutral row (o * w + 4 * ((w - 1) / 4)) := by
    rw [paddedElement_eq hcols, if_pos (by omega)]
  rcases reduceGroups_of_isNaN hk hk' (k.paddedElement w n t row o) ((w - 1) / 4) with
    ⟨hnan, hresult⟩
  rw [← hcount, hlast] at hnan
  rw [← hcount, hlast] at hresult
  refine ⟨hnan, ?_⟩
  intro hfalse
  have hfirst : (t.elementOr k.neutral row (o * w + 4 * ((w - 1) / 4))).isNaN = false := by
    rw [Bool.eq_false_iff, Ne, ← hnan, ← Ne, ← Bool.eq_false_iff]
    exact hfalse
  apply (hresult hfirst).congr
  intro b hb
  exact forall_survivors_paddedElement_iff hk' hcols (by omega) hb

end Kind

/-- With NaNs among the elements, a cell of a minimum or maximum is a NaN exactly when the last group
of its window begins with one. Otherwise it bounds, as closely as possible, the elements of the
window that no NaN follows in their lane: the elements before a NaN in a lane are lost. -/
theorem execute_build_survivors {k : Kind} {w b n : Nat} {d : Descriptor}
    (hk : k = .min ∨ k = .max) (hd : Descriptor.new k w b n = .ok d) {input : Tensor}
    (hshape : input.shape = ⟨b, n⟩) :
    ∃ out, (Program.build d).execute input = .ok out
      ∧ out.shape = d.outputShape
      ∧ ∀ row < b, ∀ o < d.geometry.outSize, ∃ y, out.at? row o = some y
          ∧ (y.isNaN = true
            ↔ (input.elementOr k.neutral row (o * w + 4 * ((w - 1) / 4))).isNaN = true)
          ∧ (y.isNaN = false →
            (∀ x ∈ Kind.survivors (fun j => input.elementOr k.neutral row (o * w + j)) w,
                k.Passes y x)
              ∧ k.Summarizes y
                (Kind.survivors (fun j => input.elementOr k.neutral row (o * w + j)) w)) := by
  have hsum : k ≠ .sum := by
    rcases hk with rfl | rfl <;> decide
  have hall : k ≠ .all := by
    rcases hk with rfl | rfl <;> decide
  rcases Descriptor.new_eq_ok_iff.1 hd with ⟨rfl, rfl, rfl, rfl⟩
  refine ⟨d.reduce input, Program.execute_build hshape, rfl, ?_⟩
  intro row hrow o ho
  have hcols : input.shape.cols = d.rowLength := congrArg Shape.cols hshape
  rcases @Kind.reduceGroups_paddedGroups_of_isNaN _ _ _ _ row o hsum hall hcols
    d.window_pos with ⟨hnan, hresult⟩
  refine ⟨_, Tensor.at?_ofFn hrow ho, hnan, ?_⟩
  intro hfalse
  have h := hresult hfalse
  exact ⟨(h.passes_iff _ hfalse).1 (Kind.passes_self hall hfalse), h⟩

/-- A NaN at the end of a lane and numbers in the others. -/
theorem execute_build_survivors_six :
    ∃ d, (Kind.min = .min ∨ Kind.min = .max)
      ∧ Descriptor.new .min 6 1 6 = .ok d
      ∧ (Tensor.ofRow [1.0, -9.0, 2.0, 3.0, 4.0, 0.0 / 0.0]).shape = ⟨1, 6⟩
      ∧ ∃ out, (Program.build d).execute
          (Tensor.ofRow [1.0, -9.0, 2.0, 3.0, 4.0, 0.0 / 0.0]) = .ok out
        ∧ ∃ y, out.at? 0 0 = some y
          ∧ y.isNaN = false
          ∧ Kind.min.Summarizes y (Kind.survivors (fun j =>
              (Tensor.ofRow [1.0, -9.0, 2.0, 3.0, 4.0, 0.0 / 0.0]).elementOr (1.0 / 0.0) 0
                (0 * 6 + j)) 6) := by
  have hd : Descriptor.new .min 6 1 6
      = .ok ⟨.min, 6, 1, 6, by decide, by decide, by decide⟩ := rfl
  have hshape : (Tensor.ofRow [1.0, -9.0, 2.0, 3.0, 4.0, 0.0 / 0.0]).shape = ⟨1, 6⟩ := rfl
  have hfirst : ¬ ((Tensor.ofRow [1.0, -9.0, 2.0, 3.0, 4.0, 0.0 / 0.0]).elementOr
      (1.0 / 0.0) 0 (0 * 6 + 4 * ((6 - 1) / 4))).isNaN = true := by
    decide +kernel
  rcases execute_build_survivors (Or.inl rfl) hd hshape with ⟨out, hrun, -, hout⟩
  rcases hout 0 (by decide) 0 (by decide) with ⟨y, hy, hnan, hresult⟩
  have hfalse : y.isNaN = false := Bool.eq_false_iff.2 (mt hnan.1 hfirst)
  exact ⟨_, Or.inl rfl, hd, hshape, out, hrun, y, hy, hfalse, (hresult hfalse).2⟩

/-- An element of a window is lost to a NaN: the cell is neither a NaN nor at most that element, and
folding the elements one by one gives the element. -/
theorem execute_build_lost_element :
    ∃ d, Descriptor.new .min 6 1 6 = .ok d
      ∧ ∃ out, (Program.build d).execute
          (Tensor.ofRow [1.0, -9.0, 2.0, 3.0, 4.0, 0.0 / 0.0]) = .ok out
        ∧ d.windowRange 0 = .ok (0, 6)
        ∧ (Tensor.ofRow [1.0, -9.0, 2.0, 3.0, 4.0, 0.0 / 0.0]).at? 0 1 = some (-9.0)
        ∧ out.at? 0 0 = some 1.0
        ∧ (1.0 : Float32).isNaN = false
        ∧ ¬ (1.0 : Float32) ≤ -9.0
        ∧ Kind.min.foldRange (Tensor.ofRow [1.0, -9.0, 2.0, 3.0, 4.0, 0.0 / 0.0]) 0 0 6
          = -9.0 := by
  refine ⟨⟨.min, 6, 1, 6, by decide, by decide, by decide⟩, rfl, _,
    Program.execute_build rfl, rfl, ?_, ?_, ?_, ?_, ?_⟩
  · decide +kernel
  · decide +kernel
  · decide
  · decide
  · decide +kernel

end WindowReduction
