import BoundedFit.Proofs.Step.Least
import BoundedFit.Proofs.Step.Pins

/-!
# What a state answers

Its arrays are those of the last update that was accepted.
-/

namespace BoundedFit

/-! ## Updates -/

namespace DenseState

variable {α : Type} {s : DenseState α}

/-- The arrays are the residual and the derivative of the state, and every update with them is
accepted. -/
structure Brings (arrays : Except (Fault α) (Tensor α × Tensor α)) (s : DenseState α) : Prop where
  read : ∃ residual jacobian, arrays = .ok (residual, jacobian) ∧
    residual.toVector? = some s.residual ∧ jacobian.toMatrix? = some s.jacobian
  rows : s.residual.length = s.jacobian.height
  accepted : ∀ before : DenseState α, before.update arrays = (.ok (), s)

/-- Every update with the arrays is refused, and changes nothing. -/
def Refused (arrays : Except (Fault α) (Tensor α × Tensor α)) : Prop :=
  ∀ before : DenseState α, ∃ fault, before.update arrays = (.error fault, before)

theorem of_ofArrays_eq_ok {residual jacobian : Tensor α} (h : ofArrays residual jacobian = .ok s) :
    residual.toVector? = some s.residual ∧ jacobian.toMatrix? = some s.jacobian ∧
      s.residual.length = s.jacobian.height := by
  unfold ofArrays at h
  split at h
  · cases h
  · cases h
  · rename_i r J hresidual hjacobian
    split at h
    · rename_i hrows
      obtain rfl := Except.ok.inj h
      exact ⟨hresidual, hjacobian, hrows.symm⟩
    · cases h

theorem brings_or_refused (arrays : Except (Fault α) (Tensor α × Tensor α)) :
    (∃ s, Brings arrays s) ∨ Refused arrays := by
  rcases arrays with fault | ⟨residual, jacobian⟩
  · exact Or.inr fun before => ⟨fault, rfl⟩
  rcases hstate : ofArrays residual jacobian with fault | s
  · exact Or.inr fun before => ⟨fault, by simp [update, Except.bind, hstate]⟩
  · obtain ⟨hresidual, hjacobian, hrows⟩ := of_ofArrays_eq_ok hstate
    exact Or.inl ⟨s, ⟨residual, jacobian, rfl, hresidual, hjacobian⟩, hrows,
      fun before => by simp [update, Except.bind, hstate]⟩

/-- The state that updates with these arrays, one after the other, lead to. -/
def afterUpdates (updates : List (Except (Fault α) (Tensor α × Tensor α))) : DenseState α :=
  updates.foldl (fun s arrays => (s.update arrays).2) empty

/-- The state was brought by the last update that was not refused, or there was none and it is empty. -/
inductive HoldsLast : List (Except (Fault α) (Tensor α × Tensor α)) → DenseState α → Prop
  | initial {updates : List (Except (Fault α) (Tensor α × Tensor α))} :
      (∀ arrays ∈ updates, Refused arrays) → HoldsLast updates empty
  | brought {earlier later : List (Except (Fault α) (Tensor α × Tensor α))}
      {arrays : Except (Fault α) (Tensor α × Tensor α)} {s : DenseState α} :
      Brings arrays s → (∀ arrays ∈ later, Refused arrays) → HoldsLast (earlier ++ arrays :: later) s

variable {updates : List (Except (Fault α) (Tensor α × Tensor α))}

theorem HoldsLast.append (h : HoldsLast updates s)
    (arrays : Except (Fault α) (Tensor α × Tensor α)) :
    HoldsLast (updates ++ [arrays]) (s.update arrays).2 := by
  rcases brings_or_refused arrays with ⟨t, ht⟩ | hrefused
  · rw [ht.accepted s]
    exact .brought ht (List.forall_mem_nil _)
  · obtain ⟨fault, hunchanged⟩ := hrefused s
    rw [hunchanged]
    cases h with
    | initial hall =>
      exact .initial (List.forall_mem_append.mpr ⟨hall, List.forall_mem_singleton.mpr hrefused⟩)
    | brought hbrings hlater =>
      rw [List.append_assoc, List.cons_append]
      exact .brought hbrings
        (List.forall_mem_append.mpr ⟨hlater, List.forall_mem_singleton.mpr hrefused⟩)

theorem holdsLast_afterUpdates (updates : List (Except (Fault α) (Tensor α × Tensor α))) :
    HoldsLast updates (afterUpdates updates) := by
  induction updates using List.reverseRecOn with
  | nil => exact .initial (List.forall_mem_nil _)
  | append_singleton updates arrays ih =>
    unfold afterUpdates at ih ⊢
    rw [List.foldl_append]
    exact ih.append arrays

theorem HoldsLast.rows (h : HoldsLast updates s) : s.residual.length = s.jacobian.height := by
  cases h with
  | initial => rfl
  | brought hbrings => exact hbrings.rows

end DenseState

/-! ## Free coordinates -/

namespace ActiveSet

variable {α : Type} {active : ActiveSet α} {n : Nat} {free : List Bool}

/-- No member pins the coordinate. -/
def Frees (active : ActiveSet α) (i : Nat) : Prop := ∀ b ∈ active.members, b.index ≠ i

theorem getElem?_freeMask_iff (h : active.freeMask n = .ok free) {i : Nat} (hi : i < n) :
    free[i]? = some true ↔ active.Frees i := by
  refine ⟨fun htrue b hb hindex => ?_, getElem?_freeMask_of_forall h hi⟩
  have hfalse := getElem?_freeMask_of_mem h hb
  rw [hindex, htrue] at hfalse
  cases hfalse

theorem any_freeMask_iff (h : active.freeMask n = .ok free) :
    free.any id = true ↔ ∃ i < n, active.Frees i := by
  rw [List.any_eq_true]
  constructor
  · rintro ⟨bit, hmem, rfl⟩
    obtain ⟨i, hbit⟩ := List.getElem?_of_mem hmem
    have hi : i < n := length_freeMask h ▸ (List.getElem?_eq_some_iff.mp hbit).1
    exact ⟨i, hi, (getElem?_freeMask_iff h hi).mp hbit⟩
  · rintro ⟨i, hi, hfree⟩
    exact ⟨true, List.mem_of_getElem? ((getElem?_freeMask_iff h hi).mpr hfree), rfl⟩

end ActiveSet

/-! ## Refusals -/

section Release

variable {α : Type} [Add α] [Mul α] [Neg α] [Zero α] [LT α] [DecidableLT α]

theorem release_of_error {J : DenseMatrix α} {r delta : List α} {active : ActiveSet α}
    {fault : Fault α} (h : (release J r delta active).1 = .error fault) :
    (release J r delta active).2 = active := by
  unfold release at h ⊢
  split
  · rfl
  · rename_i hgradient
    rw [hgradient] at h
    split
    · rfl
    · rename_i hfind
      simp [hfind] at h

theorem DenseState.step_of_error [Sub α] [Div α] [One α] [Scalar α] {s : DenseState α} {damping : α}
    {active : ActiveSet α} {fault : Fault α} (h : (s.step damping active).1 = .error fault) :
    (s.step damping active).2 = active := by
  unfold step at h ⊢
  split
  · rfl
  · rename_i hne
    rw [if_neg hne] at h
    dsimp only at h ⊢
    split
    · rfl
    · rename_i delta hsolved
      rw [hsolved] at h
      dsimp only at h ⊢
      rcases hrelease : (release s.jacobian s.residual delta active).1 with fault' | released
      · exact release_of_error hrelease
      · rw [hrelease] at h
        cases h

end Release

/-! ## Answers -/

section Answers

variable {α : Type} [Field α] [LinearOrder α]

theorem solved_zeros {J : DenseMatrix α} {r : List α} {damping : α} {free : Nat → Prop}
    (hnone : ∀ i < J.cols, ¬ free i) : Solved J r damping free (.ok (List.replicate J.cols 0)) := by
  refine .step (fun v hv hpinned hne => ?_)
    ⟨List.length_replicate, fun i _ => Vec.getD_zeros J.cols i,
      fun i hi hfree => absurd hfree (hnone i hi)⟩
  obtain ⟨a, ha, hne⟩ := hne
  obtain ⟨i, hi, rfl⟩ := List.mem_iff_getElem.mp ha
  have hzero := hpinned i (hnone i (hv ▸ hi))
  simp [hi] at hzero
  exact absurd hzero hne

namespace DenseState

variable {s : DenseState α} {damping : α} {active : ActiveSet α}

/-- The request makes no sense: a member pins a coordinate without a column, or the damping is negative
although there is a system to be solved. -/
def Misused (s : DenseState α) (damping : α) (active : ActiveSet α) : Prop :=
  (∃ b ∈ active.members, s.jacobian.cols ≤ b.index) ∨
    damping < 0 ∧ (active.members = [] ∨ ∃ i < s.jacobian.cols, active.Frees i)

variable [Scalar α]

theorem step_of_misused (hrows : s.residual.length = s.jacobian.height)
    (h : s.Misused damping active) :
    ∃ fault, (s.step damping active).1 = .error fault ∧ fault.kind ≠ .singular := by
  by_cases hin : ∀ b ∈ active.members, b.index < s.jacobian.cols
  · rcases h with ⟨b, hb, hbeyond⟩ | ⟨hdamping, hsolve⟩
    · exact absurd (hin b hb) (not_lt.mpr hbeyond)
    by_cases hnil : active.members = []
    · rw [step_of_members_eq_nil hnil, dampedStep_of_neg hrows hdamping]
      exact ⟨_, rfl, nofun⟩
    · have hmask := ActiveSet.freeMask_eq_ok hin
      have hsome := (ActiveSet.any_freeMask_iff hmask).mpr (hsolve.resolve_left hnil)
      rw [step_eq_restrictedStep hrows hnil hmask,
        restrictedStep_of_neg hrows hdamping (ActiveSet.length_freeMask hmask), if_pos hsome]
      exact ⟨_, rfl, nofun⟩
  · rcases hmask : active.freeMask s.jacobian.cols with fault | free
    · obtain ⟨b, hb, hfault⟩ := ActiveSet.of_freeMask_eq_error hmask
      refine ⟨fault, ?_, hfault ▸ Fault.kind_noPosition _ (by decide)⟩
      have hne : active.members ≠ [] := List.ne_nil_of_mem hb
      unfold step
      rw [if_neg (mt active.isEmpty_iff.mp hne), hmask]
      rfl
    · exact absurd (ActiveSet.of_freeMask_eq_ok hmask).1 hin

variable [IsStrictOrderedRing α] [ExactScalar α]

theorem solved_step (hrows : s.residual.length = s.jacobian.height)
    (h : ¬ s.Misused damping active) :
    Solved s.jacobian s.residual damping active.Frees (s.step damping active).1 := by
  unfold Misused at h
  push Not at h
  obtain ⟨hin, hsolve⟩ := h
  by_cases hnil : active.members = []
  · have hdamping : 0 ≤ damping := by
      by_contra hneg
      exact (hsolve (not_le.mp hneg)).1 hnil
    have hall : ∀ i < s.jacobian.cols, True ↔ active.Frees i := by
      simp [ActiveSet.Frees, hnil]
    rw [step_of_members_eq_nil hnil]
    exact (solved_dampedStep hrows hdamping).of_agree hall
  · have hmask := ActiveSet.freeMask_eq_ok hin
    have hlength := ActiveSet.length_freeMask hmask
    rw [step_eq_restrictedStep hrows hnil hmask]
    rcases le_or_gt 0 damping with hdamping | hdamping
    · exact (solved_restrictedStep hrows hdamping hlength).of_agree fun i hi =>
        ActiveSet.getElem?_freeMask_iff hmask hi
    · have hnone := (hsolve hdamping).2
      have hany := mt (ActiveSet.any_freeMask_iff hmask).mp (by push Not; exact hnone)
      rw [restrictedStep_of_neg hrows hdamping hlength, if_neg hany]
      exact solved_zeros hnone

theorem misused_iff (hrows : s.residual.length = s.jacobian.height) :
    (∃ fault, (s.step damping active).1 = .error fault ∧ fault.kind ≠ .singular) ↔
      s.Misused damping active := by
  refine ⟨fun ⟨fault, hfault, hkind⟩ => ?_, step_of_misused hrows⟩
  by_contra hnot
  have hsolved := solved_step hrows hnot
  rw [hfault] at hsolved
  cases hsolved
  exact hkind rfl

theorem singular_iff (hrows : s.residual.length = s.jacobian.height)
    (h : ¬ s.Misused damping active) :
    (∃ fault, (s.step damping active).1 = .error fault ∧ fault.kind = .singular) ↔
      damping = 0 ∧ ¬ s.jacobian.IndependentOn active.Frees := by
  have hsolved := solved_step hrows h
  rcases le_or_gt 0 damping with hdamping | hdamping
  · exact hsolved.singular_iff hdamping
  -- With every coordinate pinned a negative damping goes unnoticed.
  · have hnone : ∀ i < s.jacobian.cols, ¬ active.Frees i := fun i hi hfree =>
      h (Or.inr ⟨hdamping, Or.inr ⟨i, hi, hfree⟩⟩)
    refine iff_of_false ?_ fun hzero => hdamping.ne hzero.1
    rintro ⟨fault, hfault, -⟩
    obtain ⟨hdef, hstep⟩ := (solved_zeros (r := s.residual) hnone).of_ok
    rw [hsolved.eq_ok hrows hdef hstep] at hfault
    cases hfault

/-- Whatever updates came before, a request for a step is answered by the arrays of the last accepted
one. A refused request leaves the active set as it was. -/
theorem step_afterUpdates {updates : List (Except (Fault α) (Tensor α × Tensor α))}
    (hs : afterUpdates updates = s) (damping : α) (active : ActiveSet α) :
    HoldsLast updates s ∧ s.residual.length = s.jacobian.height ∧
      (∀ fault, (s.step damping active).1 = .error fault → (s.step damping active).2 = active) ∧
      ((∃ fault, (s.step damping active).1 = .error fault ∧ fault.kind ≠ .singular) ↔
        s.Misused damping active) ∧
      (¬ s.Misused damping active →
        ((∃ fault, (s.step damping active).1 = .error fault ∧ fault.kind = .singular) ↔
          damping = 0 ∧ ¬ s.jacobian.IndependentOn active.Frees)) ∧
      ∀ delta, (s.step damping active).1 = .ok delta →
        delta.length = s.jacobian.cols ∧ ∀ b ∈ active.members, delta[b.index]? = some 0 := by
  have hlast : HoldsLast updates s := hs ▸ holdsLast_afterUpdates updates
  have hrows := hlast.rows
  exact ⟨hlast, hrows, fun fault => step_of_error, misused_iff hrows, singular_iff hrows,
    fun delta hdelta => ⟨(of_step_eq_ok hdelta).1, fun b hb => getElem?_of_pinned hdelta hb⟩⟩

/-- Arrays that cannot be read, then a row of three columns, then the same with a residual too many. -/
def onceAccepted : List (Except (Fault ℝ) (Tensor ℝ × Tensor ℝ)) :=
  [.error .lengths, .ok (.ofVector [1], ⟨[1, 3], [1, 1, 1], rfl⟩),
    .ok (.ofVector [1, 0], ⟨[1, 3], [1, 1, 1], rfl⟩)]

def oneRow : DenseState ℝ := ⟨[1], ⟨3, [[1, 1, 1]], by simp⟩⟩

theorem afterUpdates_onceAccepted : afterUpdates onceAccepted = oneRow := rfl

def lastPinned : ActiveSet ℝ := ⟨[⟨2, 0, .lower⟩]⟩

def allPinned : ActiveSet ℝ := ⟨[⟨0, 1, .lower⟩, ⟨1, 1, .upper⟩, ⟨2, 0, .lower⟩]⟩

theorem not_independentOn_oneRow : ¬ oneRow.jacobian.IndependentOn lastPinned.Frees := by
  rw [DenseMatrix.independentOn_iff]
  intro h
  have hzero := h [1, -1, 0] rfl (fun i hi => ?_) ?_ 1 (by simp)
  · norm_num at hzero
  · obtain rfl : 2 = i := by simpa [ActiveSet.Frees, lastPinned] using hi
    rfl
  · simp [oneRow, DenseMatrix.mulVec, Vec.dot, Vec.sum]

theorem step_onceAccepted :
    HoldsLast onceAccepted oneRow ∧
      (∃ fault, oneRow.step 0 lastPinned = (.error fault, lastPinned) ∧ fault.kind = .singular) ∧
      ∃ delta, (oneRow.step (-1) allPinned).1 = .ok delta ∧ delta = [0, 0, 0] := by
  refine ⟨(step_afterUpdates afterUpdates_onceAccepted 0 lastPinned).1, ?_, ?_⟩
  · obtain ⟨-, -, hunchanged, -, hsingular, -⟩ :=
      step_afterUpdates afterUpdates_onceAccepted 0 lastPinned
    have hmeant : ¬ oneRow.Misused 0 lastPinned := by
      rintro (⟨b, hb, hbeyond⟩ | ⟨hdamping, -⟩)
      · obtain rfl := List.mem_singleton.mp hb
        exact absurd hbeyond (by decide : ¬ 3 ≤ 2)
      · exact lt_irrefl _ hdamping
    obtain ⟨fault, hfault, hkind⟩ := (hsingular hmeant).mpr ⟨rfl, not_independentOn_oneRow⟩
    exact ⟨fault, Prod.ext hfault (hunchanged fault hfault), hkind⟩
  · obtain ⟨-, -, -, hmisused, hsingular, hanswer⟩ :=
      step_afterUpdates afterUpdates_onceAccepted (-1) allPinned
    have hmeant : ¬ oneRow.Misused (-1) allPinned := by
      have hbelow : ∀ b ∈ allPinned.members, b.index < 3 := by simp [allPinned]
      rintro (⟨b, hb, hbeyond⟩ | ⟨-, hnil | ⟨i, hi, hfree⟩⟩)
      · exact absurd (hbelow b hb) (not_lt.mpr hbeyond)
      · cases hnil
      · have hi : i < 3 := hi
        interval_cases i <;> simp [ActiveSet.Frees, allPinned] at hfree
    rcases hstep : (oneRow.step (-1) allPinned).1 with fault | delta
    · exfalso
      by_cases hkind : fault.kind = .singular
      · have hzero : (-1 : ℝ) = 0 := ((hsingular hmeant).mp ⟨fault, hstep, hkind⟩).1
        norm_num at hzero
      · exact hmeant (hmisused.mp ⟨fault, hstep, hkind⟩)
    · obtain ⟨hlength, hpinned⟩ := hanswer delta hstep
      refine ⟨delta, rfl, ?_⟩
      obtain ⟨a, b, c, rfl⟩ := List.length_eq_three.mp hlength
      simpa [allPinned] using hpinned

end DenseState

end Answers

end BoundedFit
