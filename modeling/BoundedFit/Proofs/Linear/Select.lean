import BoundedFit.Proofs.Linear.Table

/-!
# Free coordinates

`scatter` and `keep` are adjoint.
-/

namespace BoundedFit

namespace DenseMatrix

section Keep

variable {α : Type}

theorem keep_nil_left (row : List α) : keep [] row = [] := by simp [keep]

theorem keep_cons (b : Bool) (kept : List Bool) (a : α) (row : List α) :
    keep (b :: kept) (a :: row) = if b then a :: keep kept row else keep kept row := by
  cases b <;> simp [keep]

theorem exists_of_mem_keep {kept : List Bool} {row : List α} {a : α} (h : a ∈ keep kept row) :
    ∃ i : Nat, kept[i]? = some true ∧ row[i]? = some a := by
  unfold keep at h
  obtain ⟨⟨a', b⟩, hmem, rfl⟩ := List.mem_map.mp h
  obtain ⟨hmem, hb⟩ := List.mem_filter.mp hmem
  obtain ⟨i, hi⟩ := List.mem_iff_getElem?.mp hmem
  rw [List.getElem?_zip_eq_some] at hi
  obtain rfl : b = true := hb
  exact ⟨i, hi.2, hi.1⟩

theorem mem_of_mem_keep {kept : List Bool} {row : List α} {a : α} (h : a ∈ keep kept row) :
    a ∈ row := by
  obtain ⟨i, -, hi⟩ := exists_of_mem_keep h
  exact List.mem_of_getElem? hi

theorem mem_keep {kept : List Bool} {row : List α} {i : Nat} {a : α} (hkept : kept[i]? = some true)
    (ha : row[i]? = some a) : a ∈ keep kept row := by
  unfold keep
  refine List.mem_map.mpr ⟨(a, true), List.mem_filter.mpr ⟨?_, rfl⟩, rfl⟩
  apply List.mem_of_getElem? (i := i)
  rw [List.getElem?_zip_eq_some]
  exact ⟨ha, hkept⟩

theorem keep_map {β : Type} (kept : List Bool) (row : List α) (f : α → β) :
    keep kept (row.map f) = (keep kept row).map f := by
  induction row generalizing kept with
  | nil => simp [keep]
  | cons a row ih =>
    rcases kept with _ | ⟨b, kept⟩
    · simp [keep_nil_left]
    · rw [List.map_cons, keep_cons, keep_cons, ih]
      split <;> rfl

theorem keep_ofFn (kept : List Bool) (n : Nat) (f : Nat → α) :
    keep kept (Vec.ofFn n f) = (keep kept (List.range n)).map f := keep_map kept (List.range n) f

end Keep

variable {α : Type} [Zero α]

theorem columns_select (A : DenseMatrix α) (kept : List Bool) (h : kept.length = A.cols) :
    (A.select kept h).columns = keep kept A.columns := by
  have hlength : (keep kept (List.range A.cols)).length = kept.count true :=
    length_keep kept _ (by simp [h])
  have hrow : ∀ row ∈ A.rows,
      keep kept row = (keep kept (List.range A.cols)).map (row.getD · 0) := by
    intro row hrow
    rw [← keep_ofFn, ← A.length_of_mem row hrow, ← Vec.eq_ofFn row 0]
  rw [columns_eq, columns_eq, keep_ofFn, Vec.eq_ofFn (keep kept (List.range A.cols)) 0, Vec.map_ofFn,
    hlength]
  apply Vec.ofFn_congr
  intro k hk
  have hk' : k < (keep kept (List.range A.cols)).length := hlength ▸ hk
  unfold column select
  rw [List.map_map]
  apply List.map_congr_left
  intro row hmem
  rw [Function.comp_apply, hrow row hmem]
  simp [hk']

theorem transposeMulVec_select [Add α] [Mul α] (A : DenseMatrix α) (kept : List Bool)
    (h : kept.length = A.cols) (u : List α) :
    (A.select kept h).transposeMulVec u = keep kept (A.transposeMulVec u) := by
  unfold transposeMulVec
  rw [columns_select, keep_map]

end DenseMatrix

open DenseMatrix

/-! ## Zeros at the pinned coordinates -/

section Scatter

variable {α : Type} [Zero α]

theorem keep_scatter {free : List Bool} {step : List α} (h : step.length = free.count true) :
    keep free (scatter free step) = step := by
  fun_induction scatter free step with
  | case1 step => exact (List.eq_nil_of_length_eq_zero h).symm
  | case2 free v step ih => rw [keep_cons, if_pos rfl, ih (by simpa using h)]
  | case3 free ih => simp at h
  | case4 free step ih => rw [keep_cons, if_neg (by simp), ih (by simpa using h)]

theorem scatter_keep {free : List Bool} {v : List α} (h : v.length = free.length)
    (hzero : ∀ i, free[i]? = some false → v.getD i 0 = 0) : scatter free (keep free v) = v := by
  induction free generalizing v with
  | nil => exact (List.eq_nil_of_length_eq_zero h).symm
  | cons b free ih =>
    obtain ⟨a, v, rfl⟩ := List.exists_cons_of_length_eq_add_one h
    have hrest := ih (by simpa using h) fun i hi => by simpa using hzero (i + 1) (by simpa using hi)
    rw [keep_cons]
    cases b with
    | true => rw [if_pos rfl, scatter, hrest]
    | false =>
      have ha : a = 0 := by simpa using hzero 0 rfl
      rw [if_neg (by simp), scatter, hrest, ha]

theorem getD_scatter_of_pinned (free : List Bool) (step : List α) {i : Nat}
    (h : free[i]? = some false) : (scatter free step).getD i 0 = 0 := by
  fun_induction scatter free step generalizing i with
  | case1 step => rfl
  | case2 free v step ih | case3 free ih | case4 free step ih =>
    rcases i with _ | i
    · simp_all
    · simpa using ih (by simpa using h)

/-- What holds of the entries of a step and of the free entries of a vector in turn holds at every
free coordinate. -/
theorem forall_free {P : α → α → Prop} {free : List Bool} {step g : List α}
    (hstep : step.length = free.count true) (hg : g.length = free.length)
    (h : ∀ k < step.length, P (step.getD k 0) ((keep free g).getD k 0)) {i : Nat}
    (hi : free[i]? = some true) : P ((scatter free step).getD i 0) (g.getD i 0) := by
  fun_induction scatter free step generalizing g i with
  | case1 step => cases hi
  | case2 free v step ih =>
    obtain ⟨a, g, rfl⟩ := List.exists_cons_of_length_eq_add_one hg
    rw [keep_cons, if_pos rfl] at h
    rcases i with _ | i
    · exact h 0 (Nat.zero_lt_succ _)
    · exact ih (by simpa using hstep) (by simpa using hg)
        (fun k hk => h (k + 1) (Nat.succ_lt_succ hk)) (by simpa using hi)
  | case3 free ih => simp at hstep
  | case4 free step ih =>
    obtain ⟨a, g, rfl⟩ := List.exists_cons_of_length_eq_add_one hg
    rw [keep_cons, if_neg (by simp)] at h
    rcases i with _ | i
    · simp at hi
    · exact ih (by simpa using hstep) (by simpa using hg) h (by simpa using hi)

end Scatter

theorem dot_scatter {α : Type} [CommRing α] (free : List Bool) {row step : List α}
    (h : row.length = free.length) :
    Vec.dot row (scatter free step) = Vec.dot (keep free row) step := by
  fun_induction scatter free step generalizing row with
  | case1 step =>
    obtain rfl := List.eq_nil_of_length_eq_zero h
    rfl
  | case2 free v step ih =>
    obtain ⟨a, row, rfl⟩ := List.exists_cons_of_length_eq_add_one h
    rw [keep_cons, if_pos rfl, Vec.dot_cons, Vec.dot_cons, ih (by simpa using h)]
  | case3 free ih =>
    obtain ⟨a, row, rfl⟩ := List.exists_cons_of_length_eq_add_one h
    rw [Vec.dot_cons, ih (by simpa using h), Vec.dot_nil_right, Vec.dot_nil_right]
    ring
  | case4 free step ih =>
    obtain ⟨a, row, rfl⟩ := List.exists_cons_of_length_eq_add_one h
    rw [keep_cons, if_neg (by simp), Vec.dot_cons, ih (by simpa using h)]
    ring

theorem mulVec_select {α : Type} [CommRing α] (A : DenseMatrix α) (free : List Bool)
    (h : free.length = A.cols) (step : List α) :
    (A.select free h).mulVec step = A.mulVec (scatter free step) := by
  unfold mulVec select
  rw [List.map_map]
  apply List.map_congr_left
  intro row hrow
  rw [Function.comp_apply, dot_scatter free ((A.length_of_mem row hrow).trans h.symm)]

end BoundedFit
