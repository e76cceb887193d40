import BoundedFit.Proofs.Exact

/-!
# Feasible points

What the final check accepts.
-/

namespace BoundedFit

section Definitions

variable {α : Type} [Sub α] [Neg α] [Zero α] [LE α]

def Bound.Holds (b : Bound α) (x : List α) : Prop := ∃ slack, b.slack x = .ok slack ∧ 0 ≤ slack

/-- Every bound holds, without any tolerance. -/
def Feasible (bounds : List (Bound α)) (x : List α) : Prop := ∀ b ∈ bounds, b.Holds x

/-- Every bound of the active set holds with equality. -/
def Iterate.Tight {α : Type} (here : Iterate α) : Prop :=
  ∀ b ∈ here.active.members, here.point[b.index]? = some b.value

instance {α : Type} [DecidableEq α] (here : Iterate α) : Decidable here.Tight :=
  inferInstanceAs (Decidable (∀ b ∈ here.active.members, here.point[b.index]? = some b.value))

/-- No bound on coordinate `i` is violated by more than `distance i`. -/
def Within [LT α] [DecidableLT α] (bounds : List (Bound α)) (distance : Nat → α) (x : List α) :
    Prop :=
  ∀ b ∈ bounds, ∃ amount, b.violation x = .ok amount ∧ amount ≤ distance b.index

end Definitions

section Check

variable {α : Type} [Add α] [Sub α] [Mul α] [Neg α] [Zero α] [One α] [LT α] [DecidableLT α]
  [OfScientific α] {bounds : List (Bound α)} {x : List α}

theorem Bound.kind_accept {b : Bound α} (hx : b.index < x.length) {fault : Fault α}
    (h : b.accept x = .error fault) : fault.kind = .violation := by
  unfold Bound.accept violation slack coordinate at h
  simp only [List.getElem?_eq_getElem hx, Except.map, bind, Except.bind] at h
  split at h
  · obtain rfl := Except.error.inj h
    rfl
  · cases h

theorem acceptAll_eq_ok_iff : acceptAll bounds x = .ok () ↔ ∀ b ∈ bounds, b.accept x = .ok () := by
  unfold acceptAll
  induction bounds with
  | nil => simp [List.forM, pure, Except.pure]
  | cons b bounds ih =>
    rw [List.forall_mem_cons, ← ih]
    rcases hb : b.accept x with fault | u
    · simp [List.forM, hb, bind, Except.bind]
    · simp [List.forM, hb, bind, Except.bind]

theorem kind_acceptAll (hx : ∀ b ∈ bounds, b.index < x.length) {fault : Fault α}
    (h : acceptAll bounds x = .error fault) : fault.kind = .violation := by
  unfold acceptAll at h
  induction bounds with
  | nil => cases h
  | cons b bounds ih =>
    rw [List.forall_mem_cons] at hx
    rcases hb : b.accept x with fault' | u
    · simp only [List.forM, hb, bind, Except.bind] at h
      obtain rfl := Except.error.inj h
      exact Bound.kind_accept hx.1 hb
    · simp only [List.forM, hb, bind, Except.bind] at h
      exact ih hx.2 h

end Check

variable {α : Type} [Field α] [LinearOrder α]

theorem Bound.holds_iff (b : Bound α) (x : List α) :
    b.Holds x ↔ ∃ v, x[b.index]? = some v ∧ 0 ≤ b.gap v := by
  unfold Holds
  simp only [slack_eq_ok_iff]
  constructor
  · rintro ⟨slack, ⟨v, hv, rfl⟩, h⟩
    exact ⟨v, hv, h⟩
  · rintro ⟨v, hv, h⟩
    exact ⟨_, ⟨v, hv, rfl⟩, h⟩

theorem Bound.Holds.gap_nonneg {b : Bound α} {x : List α} (h : b.Holds x) {v : α}
    (hv : x[b.index]? = some v) : 0 ≤ b.gap v := by
  obtain ⟨w, hw, hin⟩ := (b.holds_iff x).mp h
  rw [hv] at hw
  rwa [Option.some.inj hw]

theorem Feasible.lt_length {bounds : List (Bound α)} {x : List α} (h : Feasible bounds x) :
    ∀ b ∈ bounds, b.index < x.length := by
  intro b hb
  obtain ⟨v, hv, -⟩ := (b.holds_iff x).mp (h b hb)
  exact (List.getElem?_eq_some_iff.mp hv).1

theorem Bound.excess_eq_max (slack : α) : Bound.excess slack = max 0 (-slack) := by
  unfold Bound.excess
  split
  · rename_i h
    exact (max_eq_right h.le).symm
  · rename_i h
    exact (max_eq_left (not_lt.mp h)).symm

theorem Bound.violation_eq_ok_iff (b : Bound α) (x : List α) (amount : α) :
    b.violation x = .ok amount ↔ ∃ v, x[b.index]? = some v ∧ max 0 (-b.gap v) = amount := by
  unfold violation slack coordinate
  cases x[b.index]? <;> simp [Except.map, Bound.excess_eq_max]

variable [IsStrictOrderedRing α] {bounds : List (Bound α)} {x : List α}

theorem within_iff {distance : Nat → α} :
    Within bounds distance x ↔
      ∀ b ∈ bounds, ∃ v, x[b.index]? = some v ∧
        0 ≤ distance b.index ∧ 0 ≤ b.gap v + distance b.index := by
  unfold Within
  simp only [Bound.violation_eq_ok_iff]
  constructor
  · intro h b hb
    obtain ⟨_, ⟨v, hv, rfl⟩, hle⟩ := h b hb
    exact ⟨v, hv, (le_max_left _ _).trans hle, by linarith [(le_max_right 0 (-b.gap v)).trans hle]⟩
  · intro h b hb
    obtain ⟨v, hv, h0, hle⟩ := h b hb
    exact ⟨_, ⟨v, hv, rfl⟩, max_le h0 (by linarith)⟩

theorem feasible_iff_within_zero : Feasible bounds x ↔ Within bounds (fun _ => 0) x := by
  rw [within_iff]
  simp [Feasible, Bound.holds_iff]

/-! ## The final check -/

theorem feasibilityTolerance_pos : 0 < (feasibilityTolerance : α) := by
  unfold feasibilityTolerance
  norm_num

theorem Bound.accept_eq_ok_iff (b : Bound α) (x : List α) :
    b.accept x = .ok () ↔
      ∃ v, x[b.index]? = some v ∧ 0 ≤ b.gap v + feasibilityTolerance * (1 + |b.value|) := by
  have hroom : 0 ≤ feasibilityTolerance * (1 + |b.value|) :=
    mul_nonneg feasibilityTolerance_pos.le (by linarith [abs_nonneg b.value])
  unfold Bound.accept violation slack coordinate
  rw [Scalar.abs_eq]
  rcases hv : x[b.index]? with _ | v
  · simp [Except.map, bind, Except.bind]
  · simp only [Except.map, bind, Except.bind, Option.some.injEq, exists_eq_left']
    split
    · rename_i hout
      rw [Bound.excess_eq_max, lt_max_iff] at hout
      refine iff_of_false nofun ?_
      rcases hout with hout | hout
      · exact absurd hroom (not_le.mpr hout)
      · linarith
    · rename_i hin
      rw [Bound.excess_eq_max, not_lt, max_le_iff] at hin
      exact iff_of_true rfl (by linarith [hin.2])

theorem acceptAll_of_within {distance : Nat → α} (h : Within bounds distance x)
    (hsmall : ∀ i, distance i ≤ feasibilityTolerance) : acceptAll bounds x = .ok () := by
  rw [acceptAll_eq_ok_iff]
  intro b hb
  obtain ⟨v, hv, -, hgap⟩ := within_iff.mp h b hb
  have hscale : feasibilityTolerance ≤ feasibilityTolerance * (1 + |b.value|) :=
    le_mul_of_one_le_right feasibilityTolerance_pos.le (by linarith [abs_nonneg b.value])
  exact (b.accept_eq_ok_iff x).mpr ⟨v, hv, by linarith [hsmall b.index]⟩

end BoundedFit
