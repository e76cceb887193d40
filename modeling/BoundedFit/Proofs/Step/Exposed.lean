import BoundedFit.Proofs.Linear.Extended
import BoundedFit.Proofs.State

/-!
# States with an entry that is no number

It matters in the residual and in free columns only.
-/

namespace BoundedFit

open Extended

/-! ## Free columns of numbers -/

section Numbers

variable {α : Type} [Zero α]

theorem DenseMatrix.select_eq_map_number {A : DenseMatrix (Extended α)} {kept : List Bool}
    (hkept : kept.length = A.cols)
    (h : ∀ i : Nat, kept[i]? = some true → notANumber ∉ A.column i) :
    A.select kept hkept = ((A.map orZero).select kept hkept).map number := by
  have hrow : ∀ row ∈ A.rows, keep kept row = (keep kept (row.map orZero)).map number := by
    intro row hrow
    rw [keep_map, map_number_map_orZero]
    intro hmem
    obtain ⟨i, hbit, hi⟩ := exists_of_mem_keep hmem
    exact h i hbit (List.mem_map.mpr ⟨row, hrow, by simp [hi]⟩)
  unfold select map
  simp only [DenseMatrix.mk.injEq, List.map_map, true_and]
  exact List.map_congr_left hrow

theorem scatter_map_number (free : List Bool) (step : List α) :
    scatter free (step.map number) = (scatter free step).map number := by
  fun_induction scatter free step with
  | case1 step => rfl
  | case2 free v step ih => exact congrArg _ ih
  | case3 free ih => exact congrArg _ ih
  | case4 free step ih => exact congrArg _ ih

end Numbers

section Restricted

variable {α : Type} [Field α] [LinearOrder α] [Scalar α] {J : DenseMatrix (Extended α)}
  {r : List (Extended α)} {free : List Bool}

theorem restrictedStep_of_numbers [ExactScalar α] (damping : α) (hmask : free.length = J.cols)
    (h : ∀ i : Nat, free[i]? = some true → notANumber ∉ r ∧ notANumber ∉ J.column i) :
    restrictedStep J r (number damping) free =
      ofAnswer (restrictedStep (J.map orZero) (r.map orZero) damping free) := by
  unfold restrictedStep
  rw [dif_pos hmask, dif_pos (show free.length = (J.map orZero).cols from hmask)]
  by_cases hany : free.any id = true
  · obtain ⟨bit, hmem, rfl⟩ := List.any_eq_true.mp hany
    obtain ⟨i, hi⟩ := List.getElem?_of_mem hmem
    have hstep : dampedStep (J.select free hmask) r (number damping) =
        ofAnswer (dampedStep ((J.map orZero).select free hmask) (r.map orZero) damping) := by
      rw [← dampedStep_map_number, map_number_map_orZero (h i hi).1,
        DenseMatrix.select_eq_map_number hmask fun i hi => (h i hi).2]
    rw [if_pos hany, if_pos hany, hstep]
    rcases dampedStep ((J.map orZero).select free hmask) (r.map orZero) damping with fault | step
    · rfl
    · exact congrArg Except.ok (scatter_map_number free step)
  · rw [if_neg hany, if_neg hany]
    have hzeros : List.replicate J.cols 0 = (List.replicate J.cols (0 : α)).map number := by
      rw [List.map_replicate, zero_eq]
    exact congrArg Except.ok hzeros

theorem singular_restrictedStep {damping : Extended α} (hr : r.length = J.height)
    (hdamping : ¬ damping < 0) (hmask : free.length = J.cols) {i : Nat} (hi : free[i]? = some true)
    (h : notANumber ∈ r ∨ notANumber ∈ J.column i) :
    ∃ fault, restrictedStep J r damping free = .error fault ∧ fault.kind = .singular := by
  have hlt : i < J.cols := hmask ▸ (List.getElem?_eq_some_iff.mp hi).1
  have hcolumn : J.column i ∈ (J.select free hmask).columns := by
    rw [DenseMatrix.columns_select]
    exact DenseMatrix.mem_keep hi (by simp [DenseMatrix.columns, hlt])
  obtain ⟨fault, hfault, hkind⟩ := singular_dampedStep (J := J.select free hmask)
    (hr.trans (J.height_select free hmask).symm) hdamping ⟨_, hcolumn, h⟩
  refine ⟨fault, ?_, hkind⟩
  unfold restrictedStep
  rw [dif_pos hmask, if_pos (List.any_eq_true.mpr ⟨true, List.mem_of_getElem? hi, rfl⟩), hfault]
  rfl

end Restricted

namespace DenseState

variable {α : Type}

/-- Some entry of the residual or of the derivative is no number. -/
def Spoilt (s : DenseState (Extended α)) : Prop :=
  notANumber ∈ s.residual ∨ ∃ row ∈ s.jacobian.rows, notANumber ∈ row

/-- A coordinate is free, and in its column or in the residual some entry is no number. -/
def Exposed [Zero α] (s : DenseState (Extended α)) (active : ActiveSet (Extended α)) : Prop :=
  ∃ i < s.jacobian.cols, active.Frees i ∧
    (notANumber ∈ s.residual ∨ notANumber ∈ s.jacobian.column i)

/-- The state with zeros for the entries that are no numbers. -/
def numbers [Zero α] (s : DenseState (Extended α)) : DenseState α :=
  ⟨s.residual.map orZero, s.jacobian.map orZero⟩

variable [Field α] {s : DenseState (Extended α)} {active : ActiveSet (Extended α)}

theorem Spoilt.exposed_of_members_eq_nil (hspoilt : s.Spoilt) (hcols : 0 < s.jacobian.cols)
    (hnil : active.members = []) : s.Exposed active := by
  have hfree : ∀ i, active.Frees i := by simp [ActiveSet.Frees, hnil]
  rcases hspoilt with hmem | ⟨row, hrow, hmem⟩
  · exact ⟨0, hcols, hfree 0, Or.inl hmem⟩
  · obtain ⟨i, hi, hentry⟩ := List.mem_iff_getElem.mp hmem
    have hlt : i < s.jacobian.cols := s.jacobian.length_of_mem row hrow ▸ hi
    exact ⟨i, hlt, hfree i, Or.inr (List.mem_map.mpr ⟨row, hrow, by simp [hi, hentry]⟩)⟩

/-! ## Letting go -/

theorem Spoilt.gradient (hspoilt : s.Spoilt) (hrows : s.residual.length = s.jacobian.height)
    {delta gradient : List (Extended α)} (hdelta : delta.length = s.jacobian.cols)
    (h : gradientAt s.jacobian s.residual delta = .ok gradient) {i : Nat} (hi : i < s.jacobian.cols) :
    gradient.getD i 0 = notANumber := by
  have himage := s.jacobian.length_mulVec delta
  have hforetold : notANumber ∈ List.zipWith (· + ·) (s.jacobian.mulVec delta) s.residual := by
    have hlength := himage.trans hrows.symm
    rcases hspoilt with hmem | ⟨row, hrow, hmem⟩
    · exact Vec.notANumber_mem_zipWith_right add_notANumber hlength hmem
    · have hcols : row.length = delta.length := by rw [s.jacobian.length_of_mem row hrow, hdelta]
      have hentry : notANumber ∈ s.jacobian.mulVec delta :=
        List.mem_map.mpr ⟨row, hrow, Vec.dot_of_mem_notANumber_left hcols hmem⟩
      exact Vec.notANumber_mem_zipWith_left notANumber_add hlength hentry
  rw [gradientAt_of_lengths hdelta hrows] at h
  obtain rfl := Except.ok.inj h
  unfold DenseMatrix.transposeMulVec
  rw [DenseMatrix.columns_eq, Vec.map_ofFn, Vec.getD_ofFn _ _ hi]
  refine Vec.dot_of_mem_notANumber ?_ hforetold
  rw [s.jacobian.length_column, List.length_zipWith, himage, hrows, min_self]

variable [LinearOrder α] [Scalar α] {damping : Extended α}

theorem Spoilt.keeps (hspoilt : s.Spoilt) (hrows : s.residual.length = s.jacobian.height) :
    (s.step damping active).2 = active := by
  rcases hstep : (s.step damping active).1 with fault | delta
  · exact step_of_error hstep
  rcases step_cases hstep with ⟨-, -, hkept⟩ | ⟨free, released, hmask, hsolved, hrelease⟩
  · exact hkept
  obtain ⟨gradient, hgradient, -, hkept⟩ := of_release_eq_ok hrelease
  have hin := (ActiveSet.of_freeMask_eq_ok hmask).1
  have hdelta := (of_restrictedStep_eq_ok hsolved).1
  rw [hkept]
  unfold ActiveSet.filter
  rw [List.filter_eq_self.mpr]
  -- Only what lies below zero lets go, and what is no number lies nowhere.
  intro b hb
  have hentry := hspoilt.gradient hrows hdelta hgradient (hin b hb)
  unfold Bound.letsGo
  rw [hentry, Side.orient_notANumber]
  simp

/-! ## Steps -/

theorem singular_of_exposed (hrows : s.residual.length = s.jacobian.height) (hdamping : ¬ damping < 0)
    (hin : ∀ b ∈ active.members, b.index < s.jacobian.cols) (h : s.Exposed active) :
    ∃ fault, (s.step damping active).1 = .error fault ∧ fault.kind = .singular := by
  obtain ⟨i, hi, hfree, hmem⟩ := h
  by_cases hnil : active.members = []
  · rw [step_of_members_eq_nil hnil]
    exact singular_dampedStep hrows hdamping
      ⟨_, List.mem_map_of_mem (List.mem_range.mpr hi), hmem⟩
  · have hmask := ActiveSet.freeMask_eq_ok hin
    rw [step_eq_restrictedStep hrows hnil hmask]
    exact singular_restrictedStep hrows hdamping (ActiveSet.length_freeMask hmask)
      ((ActiveSet.getElem?_freeMask_iff hmask hi).mpr hfree) hmem

variable [IsStrictOrderedRing α] [ExactScalar α]

theorem solved_of_not_exposed (hrows : s.residual.length = s.jacobian.height) {d : α} (hd : 0 ≤ d)
    (hin : ∀ b ∈ active.members, b.index < s.jacobian.cols) (hne : active.members ≠ [])
    (h : ¬ s.Exposed active) :
    ∃ answer, Solved s.numbers.jacobian s.numbers.residual d active.Frees answer ∧
      (s.step (number d) active).1 = ofAnswer answer := by
  have hmask := ActiveSet.freeMask_eq_ok hin
  have hlength := ActiveSet.length_freeMask hmask
  have hrows' : s.numbers.residual.length = s.numbers.jacobian.height := by
    simp [numbers, DenseMatrix.height_map, hrows]
  refine ⟨_, (solved_restrictedStep hrows' hd hlength).of_agree fun i hi =>
    ActiveSet.getElem?_freeMask_iff hmask hi, ?_⟩
  rw [step_eq_restrictedStep hrows hne hmask]
  refine restrictedStep_of_numbers d hlength fun i hi => ?_
  have hlt : i < s.jacobian.cols := hlength ▸ (List.getElem?_eq_some_iff.mp hi).1
  have hfree := (ActiveSet.getElem?_freeMask_iff hmask hlt).mp hi
  exact ⟨fun hmem => h ⟨i, hlt, hfree, Or.inl hmem⟩, fun hmem => h ⟨i, hlt, hfree, Or.inr hmem⟩⟩

/-- An entry that is no number makes the state singular if it stands in the residual or in a free
column, and has no effect otherwise. -/
theorem step_of_spoilt
    {updates : List (Except (Fault (Extended α)) (Tensor (Extended α) × Tensor (Extended α)))}
    (hs : afterUpdates updates = s) (hcols : 0 < s.jacobian.cols) (hspoilt : s.Spoilt)
    (hdamping : 0 ≤ damping) (hin : ∀ b ∈ active.members, b.index < s.jacobian.cols) :
    (s.step damping active).2 = active ∧
      ((∃ fault, (s.step damping active).1 = .error fault ∧ fault.kind = .singular) ↔
        s.Exposed active ∨ damping = 0 ∧ ¬ s.numbers.jacobian.IndependentOn active.Frees) ∧
      (∀ fault, (s.step damping active).1 = .error fault → fault.kind = .singular) ∧
      ∀ delta, (s.step damping active).1 = .ok delta → ∃ d step, damping = number d ∧
        delta = step.map number ∧
        IsStep s.numbers.jacobian s.numbers.residual d active.Frees step := by
  have hrows : s.residual.length = s.jacobian.height :=
    (hs ▸ holdsLast_afterUpdates updates : HoldsLast updates s).rows
  refine ⟨hspoilt.keeps hrows, ?_⟩
  obtain ⟨d, rfl⟩ : ∃ d, damping = number d := by
    rcases damping with d | _
    · exact ⟨d, rfl⟩
    · exact absurd hdamping (not_le_notANumber 0)
  have hd : 0 ≤ d := hdamping
  by_cases hexposed : s.Exposed active
  · -- The system has an entry that is no number.
    obtain ⟨fault, hfault, hkind⟩ :=
      singular_of_exposed hrows (show ¬ number d < 0 from not_lt.mpr hd) hin hexposed
    rw [hfault]
    exact ⟨iff_of_true ⟨fault, rfl, hkind⟩ (Or.inl hexposed),
      fun fault' h => Except.error.inj h ▸ hkind, nofun⟩
  · -- All that is no number stands in pinned columns.
    have hne : active.members ≠ [] := mt (hspoilt.exposed_of_members_eq_nil hcols) hexposed
    obtain ⟨answer, hsolved, hanswer⟩ := solved_of_not_exposed hrows hd hin hne hexposed
    have hzero : number d = 0 ↔ d = 0 := ⟨number.inj, congrArg number⟩
    rw [hanswer, or_iff_right hexposed, hzero, ← hsolved.singular_iff hd]
    cases hsolved with
    | step hdef hstep =>
      refine ⟨iff_of_false nofun nofun, nofun, ?_⟩
      rintro delta ⟨⟩
      exact ⟨d, _, rfl, rfl, hstep⟩
    | refused hnot =>
      refine ⟨iff_of_true ⟨_, rfl, rfl⟩ ⟨_, rfl, rfl⟩, ?_, nofun⟩
      rintro fault ⟨⟩
      rfl

/-- One row, where the entry in the second column is no number. -/
def secondUnknown : DenseState (Extended ℝ) := ⟨[1], ⟨2, [[1, notANumber]], by simp⟩⟩

theorem afterUpdates_secondUnknown :
    afterUpdates [.ok (.ofVector [1], ⟨[1, 2], [1, notANumber], rfl⟩)] = secondUnknown := rfl

def secondPinned : ActiveSet (Extended ℝ) := ⟨[⟨1, 0, .lower⟩]⟩

theorem not_frees_secondPinned : ¬ secondPinned.Frees 1 :=
  fun hfree => hfree _ (List.mem_singleton_self _) rfl

theorem not_exposed_secondUnknown : ¬ secondUnknown.Exposed secondPinned := by
  rintro ⟨i, hi, hfree, hmem⟩
  have hi : i < 2 := hi
  interval_cases i
  · simp [secondUnknown, DenseMatrix.column, one_eq] at hmem
  · exact not_frees_secondPinned hfree

theorem step_secondUnknown :
    (∃ fault, secondUnknown.step 1 .empty = (.error fault, .empty) ∧ fault.kind = .singular) ∧
      secondUnknown.step 1 secondPinned = (.ok [number (-1 / 2), 0], secondPinned) := by
  have hspoilt : secondUnknown.Spoilt := Or.inr ⟨_, List.mem_singleton_self _, by simp⟩
  have hcols : 0 < secondUnknown.jacobian.cols := by decide
  have hdamping : (0 : Extended ℝ) ≤ 1 := show (0 : ℝ) ≤ 1 from zero_le_one
  constructor
  · have hin : ∀ b ∈ (ActiveSet.empty : ActiveSet (Extended ℝ)).members, b.index < 2 :=
      List.forall_mem_nil _
    obtain ⟨hkept, hsingular, -⟩ :=
      step_of_spoilt afterUpdates_secondUnknown hcols hspoilt hdamping hin
    obtain ⟨fault, hfault, hkind⟩ :=
      hsingular.mpr (Or.inl (hspoilt.exposed_of_members_eq_nil hcols rfl))
    exact ⟨fault, Prod.ext hfault hkept, hkind⟩
  · have hin : ∀ b ∈ secondPinned.members, b.index < 2 := by simp [secondPinned]
    obtain ⟨hkept, hsingular, hkind, hanswer⟩ :=
      step_of_spoilt afterUpdates_secondUnknown hcols hspoilt hdamping hin
    have hfirst : secondPinned.Frees 0 := by simp [ActiveSet.Frees, secondPinned]
    rcases hstep : (secondUnknown.step 1 secondPinned).1 with fault | delta
    · rcases hsingular.mp ⟨fault, hstep, hkind fault hstep⟩ with hexposed | ⟨hzero, -⟩
      · exact absurd hexposed not_exposed_secondUnknown
      · exact absurd (number.inj hzero) one_ne_zero
    · obtain ⟨d, step, hd, rfl, hsolves⟩ := hanswer delta hstep
      obtain rfl : 1 = d := number.inj hd
      obtain ⟨u, v, rfl⟩ := List.length_eq_two.mp hsolves.length_eq
      have hv : v = 0 := by simpa using hsolves.pinned 1 not_frees_secondPinned
      have hu := hsolves.slope 0 hcols hfirst
      simp [secondUnknown, numbers, DenseMatrix.map, DenseMatrix.slope, DenseMatrix.mulVec,
        DenseMatrix.transposeMulVec, DenseMatrix.columns, DenseMatrix.column, Vec.dot, Vec.sum,
        List.range_succ, orZero, one_eq, hv] at hu
      have hu : u = -1 / 2 := by linarith
      rw [hu, hv] at hstep
      exact Prod.ext hstep hkept

/-- One row with one entry, which is no number. -/
def onlyUnknown : DenseState (Extended ℝ) := ⟨[1], ⟨1, [[notANumber]], by simp⟩⟩

def onlyPinned : ActiveSet (Extended ℝ) := ⟨[⟨0, 0, .lower⟩]⟩

theorem step_onlyUnknown :
    afterUpdates [.ok (.ofVector [1], ⟨[1, 1], [notANumber], rfl⟩)] = onlyUnknown ∧
      onlyUnknown.Spoilt ∧ (∀ b ∈ onlyPinned.members, b.index < onlyUnknown.jacobian.cols) ∧
      onlyUnknown.step 1 onlyPinned = (.ok [0], onlyPinned) := by
  have hspoilt : onlyUnknown.Spoilt := Or.inr ⟨_, List.mem_singleton_self _, by simp⟩
  have hmask : onlyPinned.freeMask onlyUnknown.jacobian.cols = .ok [false] := rfl
  have hne : onlyPinned.members ≠ [] := List.cons_ne_nil _ _
  have hstep : (onlyUnknown.step 1 onlyPinned).1 = .ok [0] := step_eq_restrictedStep rfl hne hmask
  have hin : ∀ b ∈ onlyPinned.members, b.index < 1 := by simp [onlyPinned]
  exact ⟨rfl, hspoilt, hin, Prod.ext hstep (hspoilt.keeps rfl)⟩

end DenseState

end BoundedFit
