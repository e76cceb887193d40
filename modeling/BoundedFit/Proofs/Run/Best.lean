import BoundedFit.Proofs.Comparison
import BoundedFit.Proofs.Run.Visits

/-!
# The best point of a run

The first one with the least error; errors that are no numbers do not count.
-/

namespace BoundedFit

section Least

variable {α : Type} [Zero α] [LT α] [LE α] [DecidableLT α] [DecidableLE α] [Scalar α]

/-- `least` is the least of the errors and infinity; errors that compare with nothing do not count. -/
def IsLeastError (errors : List α) : Option α → Prop
  | none => ∀ e ∈ errors, Scalar.isComparable e = true → Scalar.isFinite e = false ∧ ¬ e < 0
  | some m => m ∈ errors ∧ (Scalar.isFinite m = true ∨ m < 0) ∧
      ∀ e ∈ errors, Scalar.isComparable e = true → m ≤ e

/-- `best` is the guess if no error seen is below infinity, else the first visit of least error. -/
structure IsBest (guess : List α) (seen : List (List α × α)) (best : Best α) : Prop where
  least : IsLeastError (seen.map Prod.snd) best.error
  guess_of_none : best.error = none → best.point = guess
  find?_of_some : ∀ e, best.error = some e →
    seen.find? (fun visit => Scalar.same visit.2 e) = some (best.point, e)

omit [LE α] [DecidableLE α] in
theorem improves_none_iff {e : α} : improves e none = true ↔ Scalar.isFinite e = true ∨ e < 0 := by
  simp [improves]

variable [FloatOrder α]

omit [DecidableLE α] in
theorem le_self_of_improves_none {e : α} (h : improves e none = true) : e ≤ e := by
  rcases improves_none_iff.mp h with hfinite | hneg
  · exact FloatOrder.le_self_of_isFinite e hfinite
  · exact (FloatOrder.le_self_of_lt hneg).1

omit [DecidableLE α] in
theorem lt_of_improves_none {e w : α} (h : improves e none = true) (hw : w ≤ w)
    (hinfinite : Scalar.isFinite w = false) (hpos : ¬ w < 0) : e < w := by
  rcases improves_none_iff.mp h with hfinite | hneg
  · exact FloatOrder.lt_of_infinite e w hfinite hw hinfinite hpos
  · have hself := (FloatOrder.le_self_of_lt hneg).1
    rw [FloatOrder.lt_iff]
    refine ⟨FloatOrder.le_of_infinite e w hself hw hinfinite hpos, fun hwe => hpos ?_⟩
    exact FloatOrder.lt_of_le_of_lt hwe hneg

theorem IsLeastError.lt_of_improves {errors : List α} {least : Option α} {e : α}
    (h : IsLeastError errors least) (himproves : improves e least = true) :
    (Scalar.isFinite e = true ∨ e < 0) ∧
      ∀ e' ∈ errors, Scalar.isComparable e' = true → e < e' := by
  cases least with
  | none =>
    refine ⟨improves_none_iff.mp himproves, fun e' he' hcomparable => ?_⟩
    obtain ⟨hinfinite, hpos⟩ := h e' he' hcomparable
    exact lt_of_improves_none himproves (isComparable_iff.mp hcomparable) hinfinite hpos
  | some m =>
    obtain ⟨-, hbelow, hall⟩ := h
    have hlt : e < m := by simpa [improves] using himproves
    refine ⟨?_, fun e' he' hcomparable => FloatOrder.lt_of_lt_of_le hlt (hall e' he' hcomparable)⟩
    by_contra hnot
    rw [not_or, Bool.not_eq_true] at hnot
    have hmself := le_self_of_improves_none (improves_none_iff.mpr hbelow)
    have heself := (FloatOrder.le_self_of_lt hlt).1
    exact FloatOrder.not_le_of_lt hlt (FloatOrder.le_of_infinite m e hmself heself hnot.1 hnot.2)

theorem isLeastError_leastError {errors : List α} {least : Option α}
    (h : IsLeastError errors least) (e : α) :
    IsLeastError (errors ++ [e]) (leastError least e) := by
  unfold leastError
  split
  · rename_i himproves
    obtain ⟨hbelow, hall⟩ := h.lt_of_improves himproves
    refine ⟨by simp, hbelow, fun e' he' hcomparable => ?_⟩
    rcases List.mem_append.mp he' with he' | he'
    · exact FloatOrder.le_of_lt (hall e' he' hcomparable)
    · rw [List.mem_singleton.mp he']
      exact le_self_of_improves_none (improves_none_iff.mpr hbelow)
  · rename_i hkept
    cases least with
    | none =>
      intro e' he' hcomparable
      rcases List.mem_append.mp he' with he' | he'
      · exact h e' he' hcomparable
      · rw [improves_none_iff, not_or, Bool.not_eq_true] at hkept
        rwa [List.mem_singleton.mp he']
    | some m =>
      obtain ⟨hmem, hbelow, hall⟩ := h
      refine ⟨List.mem_append_left _ hmem, hbelow, fun e' he' hcomparable => ?_⟩
      rcases List.mem_append.mp he' with he' | he'
      · exact hall e' he' hcomparable
      · obtain rfl := List.mem_singleton.mp he'
        have hmself := le_self_of_improves_none (improves_none_iff.mpr hbelow)
        apply FloatOrder.le_of_not_lt hmself (isComparable_iff.mp hcomparable)
        simpa [improves] using hkept

/-! ## The lists of errors -/

omit [LE α] [DecidableLE α] [FloatOrder α] in
theorem length_runningLeast (least : Option α) (errors : List α) :
    (runningLeast least errors).length = errors.length := by
  induction errors generalizing least with
  | nil => rfl
  | cons e errors ih => simp [runningLeast, ih]

theorem isLeastError_runningLeast {seen errors : List α} {least best : Option α}
    (h : IsLeastError seen least) {j : Nat} (hj : (runningLeast least errors)[j]? = some best) :
    IsLeastError (seen ++ errors.take (j + 1)) best := by
  induction errors generalizing seen least j with
  | nil => cases hj
  | cons e errors ih =>
    have hnext := isLeastError_leastError h e
    cases j with
    | zero =>
      obtain rfl := Option.some.inj hj
      simpa using hnext
    | succ j =>
      rw [List.take_succ_cons, List.append_cons]
      exact ih hnext hj

omit [LE α] [DecidableLE α] [FloatOrder α] in
theorem Best.error_update_eq (best : Best α) (visit : List α × α) :
    (best.update visit).error = leastError best.error visit.2 := by
  unfold update leastError
  split <;> rfl

omit [LE α] [DecidableLE α] [FloatOrder α] in
theorem getLast?_runningLeast {visits : List (List α × α)} (best : Best α) (h : visits ≠ []) :
    (runningLeast best.error (visits.map Prod.snd)).getLast? =
      some (visits.foldl Best.update best).error := by
  induction visits generalizing best with
  | nil => exact absurd rfl h
  | cons visit visits ih =>
    rw [List.map_cons, runningLeast, ← Best.error_update_eq, List.foldl_cons]
    cases visits with
    | nil => rfl
    | cons next visits =>
      rw [List.getLast?_cons, ih (best.update visit) (by simp)]
      rfl

/-! ## The best point -/

theorem isBest_update {guess : List α} {seen : List (List α × α)} {best : Best α}
    (h : IsBest guess seen best) (visit : List α × α) :
    IsBest guess (seen ++ [visit]) (best.update visit) := by
  have hleast : IsLeastError ((seen ++ [visit]).map Prod.snd) (best.update visit).error := by
    rw [Best.error_update_eq, List.map_append]
    exact isLeastError_leastError h.least visit.2
  unfold Best.update at hleast ⊢
  split
  · rename_i himproves
    rw [if_pos himproves] at hleast
    refine ⟨hleast, fun hnone => (by cases hnone), fun e he => ?_⟩
    obtain rfl := Option.some.inj he
    obtain ⟨hbelow, hall⟩ := h.least.lt_of_improves himproves
    have hnone : seen.find? (fun u => Scalar.same u.2 visit.2) = none := by
      rw [List.find?_eq_none]
      intro u hu hsame
      simp only [Scalar.same, Bool.and_eq_true, decide_eq_true_eq] at hsame
      have hcomparable := isComparable_iff.mpr (FloatOrder.le_self_of_le _ _ hsame.1).1
      exact FloatOrder.not_le_of_lt (hall u.2 (List.mem_map_of_mem hu) hcomparable) hsame.1
    have hself : Scalar.same visit.2 visit.2 = true :=
      isComparable_iff.mpr (le_self_of_improves_none (improves_none_iff.mpr hbelow))
    rw [List.find?_append, hnone]
    simp [hself]
  · rename_i hkept
    rw [if_neg hkept] at hleast
    refine ⟨hleast, h.guess_of_none, fun e he => ?_⟩
    rw [List.find?_append, h.find?_of_some e he]
    rfl

theorem isBest_foldl {guess : List α} {seen : List (List α × α)} {best : Best α}
    (h : IsBest guess seen best) (visits : List (List α × α)) :
    IsBest guess (seen ++ visits) (visits.foldl Best.update best) := by
  induction visits generalizing seen best with
  | nil => simpa using h
  | cons visit visits ih =>
    rw [List.append_cons, List.foldl_cons]
    exact ih (isBest_update h visit)

end Least

theorem Solver.isBest_best {α : Type} [Zero α] [LT α] [LE α] [DecidableLT α] [DecidableLE α]
    [Scalar α] [FloatOrder α] (guess : List α) (t : Trace α) :
    IsBest guess t.visits (best guess t) := by
  have hnone : IsBest guess [] ⟨guess, none⟩ :=
    ⟨fun e he => (by cases he), fun _ => rfl, fun e he => (by cases he)⟩
  exact isBest_foldl hnone t.visits

end BoundedFit
