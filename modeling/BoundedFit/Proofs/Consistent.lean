import BoundedFit.Proofs.Exact

/-! # Bounds that do not exclude each other -/

namespace BoundedFit

variable {α : Type} [LinearOrder α]

/-- No lower bound lies above an upper bound of the same coordinate. -/
def Consistent (bounds : List (Bound α)) : Prop :=
  ∀ low ∈ bounds, ∀ high ∈ bounds,
    low.index = high.index → low.side = .lower → high.side = .upper → low.value ≤ high.value

theorem isComparable_eq_true (v : α) : Scalar.isComparable v = true := (Scalar.same_iff v v).mpr rfl

theorem extreme?_cons_cons (improves : α → α → Bool) (u v : α) (values : List α) :
    extreme? improves (u :: v :: values) =
      extreme? improves ((if improves v u then v else u) :: values) := by
  unfold extreme?
  simp only [List.foldl_cons, isComparable_eq_true, if_true]
  split <;> rfl

theorem extreme?_cons (improves : α → α → Bool)
    (hasymm : ∀ u v, improves u v = true → improves v u = false)
    (htrans : ∀ u v w, improves u v = false → improves v w = false → improves u w = false)
    (u : α) (values : List α) :
    ∃ m ∈ u :: values, extreme? improves (u :: values) = some m ∧
      ∀ v ∈ u :: values, improves v m = false := by
  induction values generalizing u with
  | nil =>
    have hu : improves u u = false := by
      by_contra h
      exact h (hasymm u u (by simpa using h))
    exact ⟨u, by simp, by simp [extreme?, isComparable_eq_true], by simpa using hu⟩
  | cons v values ih =>
    obtain ⟨m, hm, heq, hall⟩ := ih (if improves v u then v else u)
    rw [← extreme?_cons_cons] at heq
    rw [List.forall_mem_cons] at hall
    obtain ⟨hbest, hrest⟩ := hall
    refine ⟨m, ?_, heq, ?_⟩
    · rcases List.mem_cons.mp hm with rfl | hm
      · split <;> simp
      · simp [hm]
    · rw [List.forall_mem_cons, List.forall_mem_cons]
      split at hbest
      · rename_i hv
        exact ⟨htrans u v m (hasymm v u hv) hbest, hbest, hrest⟩
      · rename_i hv
        exact ⟨hbest, htrans v u m (by simpa using hv) hbest, hrest⟩

theorem exists_extreme? (improves : α → α → Bool)
    (hasymm : ∀ u v, improves u v = true → improves v u = false)
    (htrans : ∀ u v w, improves u v = false → improves v w = false → improves u w = false)
    {values : List α} {v : α} (hv : v ∈ values) :
    ∃ m, extreme? improves values = some m ∧ improves v m = false := by
  cases values with
  | nil => cases hv
  | cons u values =>
    obtain ⟨m, -, heq, hall⟩ := extreme?_cons improves hasymm htrans u values
    exact ⟨m, heq, hall v hv⟩

theorem le_highestLower? {bounds : List (Bound α)} {low : Bound α} (h : low ∈ bounds)
    (hside : low.side = .lower) :
    ∃ m, highestLower? bounds low.index = some m ∧ low.value ≤ m := by
  have hmem : low.value ∈ valuesOn bounds .lower low.index :=
    List.mem_map_of_mem (List.mem_filter.mpr ⟨h, by simp [hside]⟩)
  obtain ⟨m, hm, hle⟩ := exists_extreme? (fun v best => decide (best < v))
    (by simpa using fun u v h => le_of_lt h)
    (by simpa using fun u v w huv hvw => le_trans huv hvw) hmem
  exact ⟨m, hm, by simpa using hle⟩

theorem lowestUpper?_le {bounds : List (Bound α)} {high : Bound α} (h : high ∈ bounds)
    (hside : high.side = .upper) :
    ∃ m, lowestUpper? bounds high.index = some m ∧ m ≤ high.value := by
  have hmem : high.value ∈ valuesOn bounds .upper high.index :=
    List.mem_map_of_mem (List.mem_filter.mpr ⟨h, by simp [hside]⟩)
  obtain ⟨m, hm, hle⟩ := exists_extreme? (fun v best => decide (v < best))
    (by simpa using fun u v h => le_of_lt h)
    (by simpa using fun u v w huv hvw => le_trans hvw huv) hmem
  exact ⟨m, hm, by simpa using hle⟩

theorem consistent_of_checkConsistent {bounds : List (Bound α)}
    (h : checkConsistent bounds = .ok ()) : Consistent bounds := by
  intro low hlow high hhigh hindex hl hu
  have hnone : conflict? bounds low.index = none := by
    unfold checkConsistent at h
    split at h
    · cases h
    · rename_i hfind
      exact List.findSome?_eq_none_iff.mp hfind low hlow
  obtain ⟨m, hm, hlm⟩ := le_highestLower? hlow hl
  obtain ⟨n, hn, hnu⟩ := lowestUpper?_le hhigh hu
  rw [← hindex] at hn
  unfold conflict? at hnone
  rw [hm, hn] at hnone
  have hmn : m ≤ n := by
    by_contra hlt
    simp [not_le.mp hlt] at hnone
  exact hlm.trans (hmn.trans hnu)

theorem Consistent.mono {bounds fewer : List (Bound α)} (h : Consistent bounds)
    (hsub : ∀ b ∈ fewer, b ∈ bounds) : Consistent fewer :=
  fun low hlow high hhigh => h low (hsub low hlow) high (hsub high hhigh)

theorem mem_of_extreme? (improves : α → α → Bool) {values : List α} {m : α}
    (h : extreme? improves values = some m) : m ∈ values := by
  cases values with
  | nil => cases h
  | cons u values =>
    induction values generalizing u with
    | nil =>
      obtain rfl : u = m := by simpa [extreme?, isComparable_eq_true] using h
      exact List.mem_singleton_self _
    | cons v values ih =>
      rw [extreme?_cons_cons] at h
      have hmem := ih _ h
      split at hmem <;> simp at hmem ⊢ <;> tauto

omit [LinearOrder α] in
theorem mem_of_valuesOn {bounds : List (Bound α)} {side : Side} {index : Nat} {v : α}
    (h : v ∈ valuesOn bounds side index) :
    ∃ b ∈ bounds, b.side = side ∧ b.index = index ∧ b.value = v := by
  obtain ⟨b, hb, rfl⟩ := List.mem_map.mp h
  obtain ⟨hb, hplace⟩ := List.mem_filter.mp hb
  rw [Bool.and_eq_true, beq_iff_eq, beq_iff_eq] at hplace
  exact ⟨b, hb, hplace.1, hplace.2, rfl⟩

theorem of_checkConsistent_eq_error {bounds : List (Bound α)} {fault : Fault α}
    (h : checkConsistent bounds = .error fault) :
    ∃ low ∈ bounds, ∃ high ∈ bounds, low.index = high.index ∧ low.side = .lower ∧
      high.side = .upper ∧ high.value < low.value ∧
      fault = .infeasible low.index low.value high.value := by
  have hconflict : ∃ b ∈ bounds, conflict? bounds b.index = some fault := by
    unfold checkConsistent at h
    split at h
    · rename_i hfind
      obtain rfl := Except.error.inj h
      exact List.exists_of_findSome?_eq_some hfind
    · cases h
  obtain ⟨b, -, hconflict⟩ := hconflict
  unfold conflict? highestLower? lowestUpper? at hconflict
  split at hconflict
  · rename_i hl hu
    obtain ⟨low, hlow, hlside, hlindex, rfl⟩ := mem_of_valuesOn (mem_of_extreme? _ hl)
    obtain ⟨high, hhigh, huside, huindex, rfl⟩ := mem_of_valuesOn (mem_of_extreme? _ hu)
    split at hconflict
    · rename_i hlt
      obtain rfl := Option.some.inj hconflict
      exact ⟨low, hlow, high, hhigh, hlindex.trans huindex.symm, hlside, huside, hlt, by rw [hlindex]⟩
    · cases hconflict
  · cases hconflict

theorem checkConsistent_of_consistent {bounds : List (Bound α)} (h : Consistent bounds) :
    checkConsistent bounds = .ok () := by
  cases hcheck : checkConsistent bounds with
  | error fault =>
    obtain ⟨low, hlow, high, hhigh, hindex, hl, hu, hlt, -⟩ := of_checkConsistent_eq_error hcheck
    exact absurd (h low hlow high hhigh hindex hl hu) (not_le.mpr hlt)
  | ok => rfl

theorem infeasible_iff_not_consistent {bounds : List (Bound α)} :
    (∃ fault, checkConsistent bounds = .error fault ∧ fault.kind = .infeasible) ↔
      ¬ Consistent bounds := by
  constructor
  · rintro ⟨fault, hfault, -⟩ hcons
    rw [checkConsistent_of_consistent hcons] at hfault
    cases hfault
  · intro hcons
    cases hcheck : checkConsistent bounds with
    | error fault =>
      obtain ⟨low, -, high, -, -, -, -, -, rfl⟩ := of_checkConsistent_eq_error hcheck
      exact ⟨_, rfl, rfl⟩
    | ok => exact absurd (consistent_of_checkConsistent hcheck) hcons

end BoundedFit
