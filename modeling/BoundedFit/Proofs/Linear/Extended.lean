import BoundedFit.Proofs.Linear.Normal
import BoundedFit.Proofs.Linear.Select
import BoundedFit.Scalar.Extended

/-!
# Systems with an entry that is no number

They are refused, and systems of numbers are solved as over the numbers alone.
-/

namespace BoundedFit

open Extended

/-! ## Arithmetic -/

namespace Extended

section Operations

variable {α : Type}

theorem number_div_number [Div α] [Zero α] [DecidableEq α] (u : α) {v : α} (h : v ≠ 0) :
    number u / number v = number (u / v) := by
  have hne : number v ≠ 0 := fun hzero => h (number.inj hzero)
  exact if_neg hne

theorem isFinite_iff [Scalar α] (v : Extended α) : Scalar.isFinite v = true ↔ v ≠ notANumber := by
  cases v with
  | number v => exact iff_of_true rfl nofun
  | notANumber => exact iff_of_false nofun fun h => h rfl

/-- The number, or zero. -/
def orZero [Zero α] : Extended α → α
  | number v => v
  | notANumber => 0

theorem number_orZero [Zero α] {v : Extended α} (h : v ≠ notANumber) : number v.orZero = v := by
  cases v with
  | number v => rfl
  | notANumber => exact absurd rfl h

theorem map_number_map_orZero [Zero α] {u : List (Extended α)} (h : notANumber ∉ u) :
    (u.map orZero).map number = u := by
  rw [List.map_map]
  have hentry : ∀ v ∈ u, number v.orZero = v := fun v hv => number_orZero (ne_of_mem_of_not_mem hv h)
  exact (List.map_congr_left hentry).trans (List.map_id u)

/-- What is answered over the numbers, where there could be entries that are none. -/
def ofAnswer : Except (Fault α) (List α) → Except (Fault (Extended α)) (List (Extended α))
  | .ok delta => .ok (delta.map number)
  | .error fault => .error (fault.map number)

end Operations

end Extended

namespace Side

variable {α : Type} [Neg α]

theorem orient_number (s : Side) (v : α) : s.orient (number v) = number (s.orient v) := by
  cases s <;> rfl

theorem orient_notANumber (s : Side) : s.orient (notANumber : Extended α) = notANumber := by
  cases s <;> rfl

end Side

namespace Vec

variable {α : Type} [Add α] [Mul α] [Zero α]

omit [Mul α] [Zero α] in
theorem foldl_add_notANumber (u : List (Extended α)) :
    u.foldl (· + ·) notANumber = notANumber := by
  induction u with
  | nil => rfl
  | cons v u ih => simpa using ih

omit [Mul α] in
theorem sum_of_mem_notANumber {u : List (Extended α)} (h : notANumber ∈ u) :
    sum u = notANumber := by
  obtain ⟨before, after, rfl⟩ := List.append_of_mem h
  simp [sum, foldl_add_notANumber]

section Entries

variable {op : Extended α → Extended α → Extended α} {u v : List (Extended α)}

omit [Add α] [Mul α] [Zero α] in
theorem notANumber_mem_zipWith_right (hop : ∀ w, op w notANumber = notANumber)
    (hlength : u.length = v.length) (h : notANumber ∈ v) : notANumber ∈ List.zipWith op u v := by
  obtain ⟨i, hi, hv⟩ := List.mem_iff_getElem.mp h
  refine List.mem_iff_getElem.mpr ⟨i, by simp [hlength, hi], ?_⟩
  simp [hv, hop]

omit [Add α] [Mul α] [Zero α] in
theorem notANumber_mem_zipWith_left (hop : ∀ w, op notANumber w = notANumber)
    (hlength : u.length = v.length) (h : notANumber ∈ u) : notANumber ∈ List.zipWith op u v := by
  rw [List.zipWith_comm]
  exact notANumber_mem_zipWith_right hop hlength.symm h

theorem dot_of_mem_notANumber (hlength : u.length = v.length) (h : notANumber ∈ v) :
    dot u v = notANumber :=
  sum_of_mem_notANumber (notANumber_mem_zipWith_right mul_notANumber hlength h)

theorem dot_of_mem_notANumber_left (hlength : u.length = v.length) (h : notANumber ∈ u) :
    dot u v = notANumber :=
  sum_of_mem_notANumber (notANumber_mem_zipWith_left notANumber_mul hlength h)

end Entries

omit [Mul α] in
theorem sum_map_number (u : List α) : sum (u.map number) = number (sum u) := by
  unfold sum
  rw [List.foldl_map]
  exact List.foldl_hom number fun _ _ => rfl

theorem dot_map_number (u v : List α) : dot (u.map number) (v.map number) = number (dot u v) := by
  unfold dot
  rw [List.zipWith_map, ← sum_map_number, List.map_zipWith]
  rfl

end Vec

/-! ## Factorisation -/

namespace Cholesky

def Column.map {α β : Type} (f : α → β) (c : Column α) : Column β := ⟨f c.pivot, c.below.map f⟩

variable {α : Type} [Field α] [LinearOrder α] [Scalar α] [ExactScalar α]

theorem pivot_ne_zero {n : Nat} {f : Nat → Nat → α} {factor : List (Column α)}
    (h : factor? n (table n f) = some factor) : ∀ c ∈ factor, c.pivot ≠ 0 := by
  induction n generalizing f factor with
  | zero =>
    obtain rfl : [] = factor := Option.some.inj h
    exact List.forall_mem_nil _
  | succ n ih =>
    rw [factor?_table_succ] at h
    split at h
    · rename_i hpos
      obtain ⟨rest, hrest, rfl⟩ := Option.map_eq_some_iff.mp h
      exact List.forall_mem_cons.mpr ⟨sqrt_ne_zero hpos, ih hrest⟩
    · cases h

theorem factor?_table_number (n : Nat) (f : Nat → Nat → α) :
    factor? n (table n fun i j => number (f i j)) =
      (factor? n (table n f)).map (List.map (Column.map number)) := by
  induction n generalizing f with
  | zero => rfl
  | succ n ih =>
    rw [factor?_table_succ, factor?_table_succ]
    by_cases hpos : 0 < f 0 0
    · have hroot : Scalar.sqrt (f 0 0) ≠ 0 := sqrt_ne_zero hpos
      have hbelow : ∀ i, below (fun i j => number (f i j)) i = number (below f i) :=
        fun i => number_div_number _ hroot
      have hschur : schur (fun i j => number (f i j)) = fun i j => number (schur f i j) := by
        funext i j
        unfold schur
        rw [hbelow, hbelow]
        rfl
      have hcolumn : Vec.ofFn n (below fun i j => number (f i j)) =
          (Vec.ofFn n (below f)).map number := by
        rw [Vec.map_ofFn]
        exact Vec.ofFn_congr fun i _ => hbelow i
      rw [if_pos hpos, if_pos (show (0 : Extended α) < number (f 0 0) from hpos), hschur, ih, hcolumn,
        Option.map_map, Option.map_map]
      rfl
    · rw [if_neg hpos, if_neg (show ¬ (0 : Extended α) < number (f 0 0) from hpos)]
      rfl

omit [Scalar α] [ExactScalar α] in
theorem solve_map_number {factor : List (Column α)} (h : ∀ c ∈ factor, c.pivot ≠ 0) (b : List α) :
    solve (factor.map (Column.map number)) (b.map number) = (solve factor b).map number := by
  induction factor generalizing b with
  | nil => rfl
  | cons c factor ih =>
    cases b with
    | nil => rfl
    | cons v b =>
      obtain ⟨hpivot, hrest⟩ := List.forall_mem_cons.mp h
      have hfirst : number v / (Column.map number c).pivot = number (v / c.pivot) :=
        number_div_number v hpivot
      have hleft : List.zipWith (fun w l => w - l * number (v / c.pivot)) (b.map number)
          (Column.map number c).below =
            (List.zipWith (fun w l => w - l * (v / c.pivot)) b c.below).map number := by
        unfold Column.map
        rw [List.zipWith_map, List.map_zipWith]
        rfl
      rw [List.map_cons, List.map_cons, solve_cons, solve_cons, hfirst, hleft, ih hrest]
      unfold Column.map
      rw [Vec.dot_map_number, number_sub_number, number_div_number _ hpivot]
      rfl

end Cholesky

/-! ## Damped steps -/

namespace DenseMatrix

variable {α β : Type}

def map (f : α → β) (A : DenseMatrix α) : DenseMatrix β where
  cols := A.cols
  rows := A.rows.map (List.map f)
  length_of_mem := by
    simp only [List.forall_mem_map, List.length_map]
    exact A.length_of_mem

theorem height_map (f : α → β) (A : DenseMatrix α) : (A.map f).height = A.height := by
  simp [height, map]

theorem column_map_number [Zero α] (A : DenseMatrix α) (j : Nat) :
    (A.map number).column j = (A.column j).map number := by
  unfold column map
  rw [List.map_map, List.map_map]
  apply List.map_congr_left
  intro row _
  simp only [Function.comp_apply, List.getD_eq_getElem?_getD, List.getElem?_map]
  exact Option.getD_map number 0 row[j]?

end DenseMatrix

section Refused

variable {α : Type} [Field α] [Scalar α] {J : DenseMatrix (Extended α)} {r : List (Extended α)}
  {damping : Extended α}

theorem not_isFinite_normalMatrix {u : List (Extended α)} (hu : u ∈ J.columns)
    (h : notANumber ∈ u) : ¬ (normalMatrix J damping).all (·.all Scalar.isFinite) = true := by
  obtain ⟨i, hi, rfl⟩ := List.mem_map.mp hu
  have hdot : Vec.dot (J.column i) (J.column i) = notANumber := Vec.dot_of_mem_notANumber rfl h
  intro hall
  rw [normalMatrix_eq_table] at hall
  have hrow := List.all_eq_true.mp hall _ (List.mem_map_of_mem hi)
  have hentry := List.all_eq_true.mp hrow _ (List.mem_map_of_mem hi)
  dsimp only at hentry
  rw [isFinite_iff, hdot] at hentry
  exact hentry (add_notANumber _)

theorem not_isFinite_normalRhs (hr : r.length = J.height) (hcols : J.columns ≠ [])
    (h : notANumber ∈ r) : ¬ (normalRhs J r).all Scalar.isFinite = true := by
  obtain ⟨u, hu⟩ := List.exists_mem_of_ne_nil _ hcols
  have hlength : u.length = r.length := by
    obtain ⟨j, -, rfl⟩ := List.mem_map.mp hu
    rw [J.length_column, hr]
  intro hall
  have hentry := List.all_eq_true.mp hall _ (List.mem_map_of_mem (List.mem_map_of_mem hu))
  rw [isFinite_iff, Vec.dot_of_mem_notANumber hlength h] at hentry
  exact hentry rfl

theorem singular_dampedStep [LinearOrder α] (hr : r.length = J.height) (hdamping : ¬ damping < 0)
    (h : ∃ u ∈ J.columns, notANumber ∈ r ∨ notANumber ∈ u) :
    ∃ fault, dampedStep J r damping = .error fault ∧ fault.kind = .singular := by
  obtain ⟨u, hu, h⟩ := h
  unfold dampedStep
  rw [if_neg (not_not.mpr hr), if_neg hdamping]
  split
  · exact ⟨_, rfl, rfl⟩
  · rename_i hmatrix
    split
    · exact ⟨_, rfl, rfl⟩
    · rcases h with h | h
      · rw [if_neg (not_isFinite_normalRhs hr (List.ne_nil_of_mem hu) h)]
        exact ⟨_, rfl, rfl⟩
      · exact absurd (not_isFinite_normalMatrix hu h) (by simpa using hmatrix)

end Refused

section Numbers

variable {α : Type} [Field α] (J : DenseMatrix α) (r : List α) (damping : α)

theorem normalMatrix_map_number :
    normalMatrix (J.map number) (number damping) = table J.cols fun i j =>
      number (damping * (if i = j then 1 else 0) + Vec.dot (J.column i) (J.column j)) := by
  rw [normalMatrix_eq_table]
  apply Vec.ofFn_congr
  intro i _
  apply Vec.ofFn_congr
  intro j _
  dsimp only
  rw [J.column_map_number, J.column_map_number, Vec.dot_map_number]
  split <;> rfl

theorem normalRhs_map_number :
    normalRhs (J.map number) (r.map number) = (normalRhs J r).map number := by
  unfold normalRhs DenseMatrix.transposeMulVec
  rw [DenseMatrix.columns_eq, DenseMatrix.columns_eq]
  simp only [Vec.map_ofFn, J.column_map_number, Vec.dot_map_number]
  rfl

variable [LinearOrder α] [Scalar α] [ExactScalar α]

theorem dampedStep_map_number :
    dampedStep (J.map number) (r.map number) (number damping) = ofAnswer (dampedStep J r damping) := by
  have hmatrix : (normalMatrix (J.map number) (number damping)).all (·.all Scalar.isFinite) = true := by
    rw [normalMatrix_map_number]
    simp [table, Vec.ofFn, isFinite_iff]
  have hrhs : (normalRhs (J.map number) (r.map number)).all Scalar.isFinite = true := by
    rw [normalRhs_map_number]
    simp [isFinite_iff]
  have hmatrix' : (normalMatrix J damping).all (·.all Scalar.isFinite) = true := by
    simp [ExactScalar.isFinite_eq]
  have hrhs' : (normalRhs J r).all Scalar.isFinite = true := by simp [ExactScalar.isFinite_eq]
  have hfactor := Cholesky.factor?_table_number J.cols fun i j =>
    damping * (if i = j then 1 else 0) + Vec.dot (J.column i) (J.column j)
  rw [← normalMatrix_map_number, ← normalMatrix_eq_table] at hfactor
  unfold dampedStep
  rw [hmatrix, hrhs, hmatrix', hrhs', normalRhs_map_number, J.height_map, List.length_map,
    show (J.map number).cols = J.cols from rfl, hfactor]
  split
  · rfl
  split
  · rename_i hneg
    rw [if_pos (number_lt_number damping 0 |>.mp hneg)]
    rfl
  · rename_i hnonneg
    rw [if_neg (mt (number_lt_number damping 0).mpr hnonneg)]
    rcases hsome : Cholesky.factor? J.cols (normalMatrix J damping) with _ | factor
    · rfl
    · rw [normalMatrix_eq_table] at hsome
      exact congrArg Except.ok (Cholesky.solve_map_number (Cholesky.pivot_ne_zero hsome) _)

end Numbers

end BoundedFit
