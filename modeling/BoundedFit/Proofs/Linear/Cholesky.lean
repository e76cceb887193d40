import BoundedFit.Proofs.Linear.Table

/-!
# The factorisation solves

What remains after a pivot is the Schur complement.
-/

namespace BoundedFit

/-- Roots of positive numbers are exact, and every number is finite. -/
class ExactScalar (α : Type) [Mul α] [Zero α] [LT α] [Scalar α] : Prop where
  sqrt_mul_sqrt : ∀ v : α, 0 < v → Scalar.sqrt v * Scalar.sqrt v = v
  isFinite_eq : ∀ v : α, Scalar.isFinite v = true

noncomputable instance : Scalar ℝ where
  sqrt := Real.sqrt
  isFinite _ := true

instance : ExactScalar ℝ where
  sqrt_mul_sqrt _ h := Real.mul_self_sqrt h.le
  isFinite_eq _ := rfl

namespace Cholesky

section Shape

variable {α : Type} [Sub α] [Mul α] [Div α] [Scalar α]

/-- The factor's entry in row `i + 1` of the first column. -/
def below (f : Nat → Nat → α) (i : Nat) : α := f (i + 1) 0 / Scalar.sqrt (f 0 0)

/-- What remains of the entry in row `i + 1` and column `j + 1` after the first pivot. -/
def schur (f : Nat → Nat → α) (i j : Nat) : α := f (i + 1) (j + 1) - below f i * below f j

theorem remainder_table (n : Nat) (f : Nat → Nat → α) :
    remainder (Vec.ofFn n (below f)) (Vec.ofFn n fun i => Vec.ofFn (n + 1) (f (i + 1))) =
      table n (schur f) := by
  unfold remainder table
  rw [Vec.zipWith_ofFn]
  apply Vec.ofFn_congr
  intro i _
  rw [Vec.ofFn_succ, List.tail_cons, Vec.zipWith_ofFn]
  rfl

variable [Zero α] [LT α] [DecidableLT α]

theorem factor?_table_succ (n : Nat) (f : Nat → Nat → α) :
    factor? (n + 1) (table (n + 1) f) =
      if 0 < f 0 0 then
        (factor? n (table n (schur f))).map (⟨Scalar.sqrt (f 0 0), Vec.ofFn n (below f)⟩ :: ·)
      else none := by
  have htable : table (n + 1) f =
      (f 0 0 :: Vec.ofFn n fun j => f 0 (j + 1)) :: Vec.ofFn n fun i => Vec.ofFn (n + 1) (f (i + 1)) := by
    unfold table
    rw [Vec.ofFn_succ, Vec.ofFn_succ]
  have hbelow : (Vec.ofFn n fun i => Vec.ofFn (n + 1) (f (i + 1))).map
      (fun row => row.headD 0 / Scalar.sqrt (f 0 0)) = Vec.ofFn n (below f) := by
    rw [Vec.map_ofFn]
    apply Vec.ofFn_congr
    intro i _
    rw [Vec.ofFn_succ, List.headD_cons]
    rfl
  rw [htable, factor?]
  simp only [hbelow, remainder_table]

variable [Add α]

omit [Scalar α] [LT α] [DecidableLT α] in
theorem solve_cons (c : Column α) (factor : List (Column α)) (v : α) (b : List α) :
    solve (c :: factor) (v :: b) =
      (v / c.pivot - Vec.dot c.below
        (solve factor (List.zipWith (fun w l => w - l * (v / c.pivot)) b c.below))) / c.pivot ::
      solve factor (List.zipWith (fun w l => w - l * (v / c.pivot)) b c.below) := rfl

theorem length_solve {n : Nat} {f : Nat → Nat → α} {factor : List (Column α)} {b : List α}
    (h : factor? n (table n f) = some factor) (hb : b.length = n) :
    (solve factor b).length = n := by
  induction n generalizing f factor b with
  | zero =>
    obtain rfl := List.eq_nil_of_length_eq_zero hb
    cases factor <;> rfl
  | succ n ih =>
    obtain ⟨v, b, rfl⟩ := List.exists_cons_of_length_eq_add_one hb
    rw [factor?_table_succ] at h
    split at h
    · obtain ⟨rest, hrest, rfl⟩ := Option.map_eq_some_iff.mp h
      rw [solve_cons, List.length_cons, ih hrest]
      simp at hb ⊢
      omega
    · cases h

end Shape

/-! ## Symmetric tables -/

variable {α : Type} [Field α] [LinearOrder α]

/-- The value of the quadratic form of the table at `x`. -/
def quadratic (n : Nat) (f : Nat → Nat → α) (x : Nat → α) : α :=
  ∑ i ∈ Finset.range n, x i * ∑ j ∈ Finset.range n, f i j * x j

def Positive (n : Nat) (f : Nat → Nat → α) : Prop :=
  ∀ x : Nat → α, (∃ i < n, x i ≠ 0) → 0 < quadratic n f x

theorem Positive.pos {n : Nat} {f : Nat → Nat → α} (hpos : Positive (n + 1) f) : 0 < f 0 0 := by
  have h := hpos (fun i => if i = 0 then 1 else 0) ⟨0, by omega, by simp⟩
  simpa [quadratic] using h

variable [Scalar α] {n : Nat} {f : Nat → Nat → α}

omit [LinearOrder α] in
theorem schur_comm (hsymm : ∀ i j, f i j = f j i) (i j : Nat) : schur f i j = schur f j i := by
  unfold schur
  rw [hsymm (i + 1) (j + 1), mul_comm]

/-- The first entry of the product of the transposed factor with `x`. -/
def lead (n : Nat) (f : Nat → Nat → α) (x : Nat → α) : α :=
  Scalar.sqrt (f 0 0) * x 0 + ∑ i ∈ Finset.range n, below f i * x (i + 1)

/-- The vector with the entries of `x` behind a first entry for which `lead` is `v`. -/
def substitute (n : Nat) (f : Nat → Nat → α) (v : α) (x : Nat → α) : Nat → α
  | 0 => (v - ∑ i ∈ Finset.range n, below f i * x i) / Scalar.sqrt (f 0 0)
  | i + 1 => x i

variable [ExactScalar α]

theorem sqrt_ne_zero {v : α} (h : 0 < v) : Scalar.sqrt v ≠ 0 := by
  intro hzero
  have hmul := ExactScalar.sqrt_mul_sqrt v h
  rw [hzero, zero_mul] at hmul
  exact h.ne hmul

theorem sqrt_mul_below (h : 0 < f 0 0) (i : Nat) : Scalar.sqrt (f 0 0) * below f i = f (i + 1) 0 :=
  mul_div_cancel₀ _ (sqrt_ne_zero h)

theorem lead_substitute (h : 0 < f 0 0) (v : α) (x : Nat → α) :
    lead n f (substitute n f v x) = v := by
  unfold lead substitute
  rw [mul_div_cancel₀ _ (sqrt_ne_zero h), sub_add_cancel]

theorem sum_row_zero (hsymm : ∀ i j, f i j = f j i) (h : 0 < f 0 0) (x : Nat → α) :
    ∑ j ∈ Finset.range (n + 1), f 0 j * x j = Scalar.sqrt (f 0 0) * lead n f x := by
  have hrow : ∀ j, f 0 (j + 1) * x (j + 1) = Scalar.sqrt (f 0 0) * (below f j * x (j + 1)) := by
    intro j
    rw [hsymm, ← sqrt_mul_below h j]
    ring
  have hpivot := ExactScalar.sqrt_mul_sqrt (f 0 0) h
  rw [Finset.sum_range_succ']
  simp only [hrow]
  rw [← Finset.mul_sum]
  unfold lead
  linear_combination -x 0 * hpivot

theorem sum_row_succ (h : 0 < f 0 0) (x : Nat → α) (i : Nat) :
    ∑ j ∈ Finset.range (n + 1), f (i + 1) j * x j =
      (∑ j ∈ Finset.range n, schur f i j * x (j + 1)) + below f i * lead n f x := by
  have hrow : ∀ j, f (i + 1) (j + 1) * x (j + 1) =
      schur f i j * x (j + 1) + below f i * (below f j * x (j + 1)) := by
    intro j
    unfold schur
    ring
  rw [Finset.sum_range_succ']
  simp only [hrow]
  rw [Finset.sum_add_distrib, ← Finset.mul_sum, ← sqrt_mul_below h i]
  unfold lead
  ring

/-- The form splits into a square and the form of what remains after the first pivot. -/
theorem quadratic_succ (hsymm : ∀ i j, f i j = f j i) (h : 0 < f 0 0) (x : Nat → α) :
    quadratic (n + 1) f x = lead n f x ^ 2 + quadratic n (schur f) fun i => x (i + 1) := by
  unfold quadratic
  rw [Finset.sum_range_succ', sum_row_zero hsymm h]
  simp only [sum_row_succ h, mul_add]
  rw [Finset.sum_add_distrib]
  have hlead : ∑ i ∈ Finset.range n, x (i + 1) * (below f i * lead n f x) =
      (∑ i ∈ Finset.range n, below f i * x (i + 1)) * lead n f x := by
    rw [Finset.sum_mul]
    apply Finset.sum_congr rfl
    intro i _
    ring
  rw [hlead]
  unfold lead
  ring

theorem Positive.schur (hsymm : ∀ i j, f i j = f j i) (hpos : Positive (n + 1) f) :
    Positive n (schur f) := by
  intro x ⟨i, hi, hx⟩
  -- The first entry is chosen so that the square vanishes.
  have hform := hpos (substitute n f 0 x) ⟨i + 1, by omega, hx⟩
  rw [quadratic_succ hsymm hpos.pos, lead_substitute hpos.pos] at hform
  simpa [substitute] using hform

theorem exists_factor? (hsymm : ∀ i j, f i j = f j i) (hpos : Positive n f) :
    ∃ factor, factor? n (table n f) = some factor := by
  induction n generalizing f with
  | zero => exact ⟨_, rfl⟩
  | succ n ih =>
    obtain ⟨factor, hfactor⟩ := ih (schur_comm hsymm) (hpos.schur hsymm)
    rw [factor?_table_succ, if_pos hpos.pos, hfactor]
    exact ⟨_, rfl⟩

theorem positive_of_factor? [IsStrictOrderedRing α] (hsymm : ∀ i j, f i j = f j i)
    {factor : List (Column α)} (hfactor : factor? n (table n f) = some factor) : Positive n f := by
  induction n generalizing f factor with
  | zero =>
    rintro x ⟨i, hi, -⟩
    omega
  | succ n ih =>
    rw [factor?_table_succ] at hfactor
    split at hfactor
    · rename_i hpos
      obtain ⟨rest, hrest, -⟩ := Option.map_eq_some_iff.mp hfactor
      intro x ⟨i, hi, hx⟩
      rw [quadratic_succ hsymm hpos]
      by_cases hlater : ∃ j < n, x (j + 1) ≠ 0
      · have hform := ih (schur_comm hsymm) hrest (fun j => x (j + 1)) hlater
        linarith [sq_nonneg (lead n f x)]
      · -- Only the first entry is left, and the square does not vanish.
        push Not at hlater
        have hi0 : i = 0 := by
          by_contra hne
          obtain ⟨j, rfl⟩ := Nat.exists_eq_succ_of_ne_zero hne
          exact hx (hlater j (by omega))
        have hlead : lead n f x = Scalar.sqrt (f 0 0) * x 0 := by
          unfold lead
          rw [add_eq_left]
          apply Finset.sum_eq_zero
          intro j hj
          rw [hlater j (Finset.mem_range.mp hj), mul_zero]
        have hform : quadratic n (schur f) (fun j => x (j + 1)) = 0 := by
          unfold quadratic
          apply Finset.sum_eq_zero
          intro j hj
          dsimp only
          rw [hlater j (Finset.mem_range.mp hj), zero_mul]
        rw [hlead, hform, add_zero]
        subst hi0
        exact sq_pos_of_ne_zero (mul_ne_zero (sqrt_ne_zero hpos) hx)
    · cases hfactor

theorem solve_spec (hsymm : ∀ i j, f i j = f j i) {factor : List (Column α)}
    (hfactor : factor? n (table n f) = some factor) (g : Nat → α) :
    ∃ x : Nat → α, solve factor (Vec.ofFn n g) = Vec.ofFn n x ∧
      ∀ i < n, ∑ j ∈ Finset.range n, f i j * x j = g i := by
  induction n generalizing f factor g with
  | zero => exact ⟨g, by cases factor <;> rfl, fun i hi => by omega⟩
  | succ n ih =>
    rw [factor?_table_succ] at hfactor
    split at hfactor
    · rename_i hpos
      obtain ⟨rest, hrest, rfl⟩ := Option.map_eq_some_iff.mp hfactor
      obtain ⟨x, hsolve, hrows⟩ := ih (schur_comm hsymm) hrest
        fun i => g (i + 1) - below f i * (g 0 / Scalar.sqrt (f 0 0))
      refine ⟨substitute n f (g 0 / Scalar.sqrt (f 0 0)) x, ?_, ?_⟩
      · rw [Vec.ofFn_succ, solve_cons, Vec.zipWith_ofFn, hsolve, Vec.dot_ofFn, Vec.ofFn_succ]
        rfl
      · intro i hi
        rcases i with _ | i
        · rw [sum_row_zero hsymm hpos, lead_substitute hpos,
            mul_div_cancel₀ _ (sqrt_ne_zero hpos)]
        · rw [sum_row_succ hpos, lead_substitute hpos]
          have hrow := hrows i (by omega)
          unfold substitute
          rw [hrow, sub_add_cancel]
    · cases hfactor

end Cholesky

end BoundedFit
