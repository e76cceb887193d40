import BoundedFit.Proofs.Block
import BoundedFit.Proofs.Step

/-!
# What a step reads of an active set

The pinned coordinates and their sides.
-/

namespace BoundedFit

namespace ActiveSet

section Alike

variable {α : Type}

/-- A member pins coordinate `i` on this side. -/
def Pins (s : ActiveSet α) (i : Nat) (side : Side) : Prop :=
  ∃ b ∈ s.members, b.index = i ∧ b.side = side

/-- The sets pin the same coordinates on the same sides, and share the members of which `shared`
holds. -/
structure Alike (shared : Bound α → Prop) (s t : ActiveSet α) : Prop where
  pins : ∀ i side, s.Pins i side ↔ t.Pins i side
  agree : ∀ b, shared b → (b ∈ s.members ↔ b ∈ t.members)

variable {shared : Bound α → Prop} {s t : ActiveSet α}

theorem Alike.refl (shared : Bound α → Prop) (s : ActiveSet α) : s.Alike shared s :=
  ⟨fun _ _ => Iff.rfl, fun _ _ => Iff.rfl⟩

theorem Alike.symm (h : s.Alike shared t) : t.Alike shared s :=
  ⟨fun i side => (h.pins i side).symm, fun b hb => (h.agree b hb).symm⟩

theorem Alike.exists_mem (h : s.Alike shared t) {b : Bound α} (hb : b ∈ s.members) :
    ∃ b' ∈ t.members, b'.index = b.index ∧ b'.side = b.side :=
  (h.pins b.index b.side).mp ⟨b, hb, rfl, rfl⟩

theorem Alike.filter (h : s.Alike shared t) {keep : Bound α → Bool}
    (hkeep : ∀ b b', b.index = b'.index → b.side = b'.side → keep b = keep b') :
    (s.filter keep).Alike shared (t.filter keep) := by
  have hpins : ∀ {s t : ActiveSet α}, s.Alike shared t → ∀ i side, (s.filter keep).Pins i side →
      (t.filter keep).Pins i side := by
    rintro s t h i side ⟨b, hb, rfl, rfl⟩
    obtain ⟨hb, hkept⟩ := List.mem_filter.mp hb
    obtain ⟨b', hb', hindex, hside⟩ := h.exists_mem hb
    refine ⟨b', List.mem_filter.mpr ⟨hb', ?_⟩, hindex, hside⟩
    rwa [hkeep b' b hindex hside]
  refine ⟨fun i side => ⟨hpins h i side, hpins h.symm i side⟩, fun b hb => ?_⟩
  unfold ActiveSet.filter
  rw [List.mem_filter, List.mem_filter, h.agree b hb]

theorem pins_insert [LinearOrder α] (s : ActiveSet α) (b : Bound α) (i : Nat) (side : Side) :
    (s.insert b).Pins i side ↔ (b.index = i ∧ b.side = side) ∨ s.Pins i side := by
  unfold Pins
  simp only [mem_insert, or_and_right, exists_or, exists_eq_left]

theorem Alike.insert [LinearOrder α] (h : s.Alike shared t) (b : Bound α) :
    (s.insert b).Alike shared (t.insert b) := by
  refine ⟨fun i side => ?_, fun c hc => ?_⟩
  · rw [pins_insert, pins_insert, h.pins]
  · rw [mem_insert, mem_insert, h.agree c hc]

end Alike

/-! ## Masks -/

section Mask

variable {α : Type} {shared : Bound α → Prop} {s t : ActiveSet α}

/-- Every member bounds a coordinate that a word can count. -/
def Signed (s : ActiveSet α) : Prop := ∀ b ∈ s.members, Word.isSigned b.index = true

theorem Alike.any_index_eq (h : s.Alike shared t) (p : Nat → Bool) :
    s.members.any (fun b => p b.index) = t.members.any fun b => p b.index := by
  have hmove : ∀ {s t : ActiveSet α}, s.Alike shared t → s.members.any (fun b => p b.index) = true →
      t.members.any (fun b => p b.index) = true := by
    intro s t h hany
    obtain ⟨b, hb, hp⟩ := List.any_eq_true.mp hany
    obtain ⟨b', hb', hindex, -⟩ := h.exists_mem hb
    exact List.any_eq_true.mpr ⟨b', hb', hindex ▸ hp⟩
  exact Bool.eq_iff_iff.mpr ⟨hmove h, hmove h.symm⟩

theorem Alike.isEmpty_eq (h : s.Alike shared t) : s.isEmpty = t.isEmpty := by
  have hnone : ∀ s : ActiveSet α, s.isEmpty = !s.members.any fun _ => true := by
    rintro ⟨_ | _⟩ <;> rfl
  rw [hnone s, hnone t, h.any_index_eq fun _ => true]

theorem Signed.find?_beyond (hs : s.Signed) (n : Nat) :
    (s.members.find? (n ≤ ·.index)).map (fun b => (Fault.noPosition b.index : Fault α)) =
      if s.members.any fun b => decide (n ≤ b.index) then some .noCoordinate else none := by
  cases hfind : s.members.find? (n ≤ ·.index) with
  | none =>
    have hany : s.members.any (fun b => decide (n ≤ b.index)) = false := by
      rw [List.any_eq_false]
      exact List.find?_eq_none.mp hfind
    rw [hany]
    rfl
  | some b =>
    have hmem := List.mem_of_find?_eq_some hfind
    have hany : s.members.any (fun b => decide (n ≤ b.index)) = true :=
      List.any_eq_true.mpr ⟨b, hmem, by simpa using List.find?_some hfind⟩
    have hsigned := hs b hmem
    rw [hany]
    simp [Fault.noPosition, hsigned]

theorem Alike.find?_beyond (h : s.Alike shared t) (hs : s.Signed) (ht : t.Signed) (n : Nat) :
    (s.members.find? (n ≤ ·.index)).map (fun b => (Fault.noPosition b.index : Fault α)) =
      (t.members.find? (n ≤ ·.index)).map fun b => Fault.noPosition b.index := by
  rw [hs.find?_beyond, ht.find?_beyond, h.any_index_eq fun i => decide (n ≤ i)]

theorem freeMask_eq (s : ActiveSet α) (n : Nat) :
    s.freeMask n =
      match (s.members.find? (n ≤ ·.index)).map fun b => (Fault.noPosition b.index : Fault α) with
      | some fault => .error fault
      | none => .ok ((List.range n).map fun i => !s.members.any (·.index == i)) := by
  unfold freeMask
  cases s.members.find? (n ≤ ·.index) <;> rfl

theorem Alike.freeMask_eq (h : s.Alike shared t) (hs : s.Signed) (ht : t.Signed) (n : Nat) :
    s.freeMask n = t.freeMask n := by
  have hmask : ∀ i, s.members.any (·.index == i) = t.members.any (·.index == i) :=
    fun i => h.any_index_eq (· == i)
  rw [ActiveSet.freeMask_eq s, ActiveSet.freeMask_eq t, h.find?_beyond hs ht]
  simp only [hmask]

end Mask

end ActiveSet

/-! ## Steps -/

section Step

variable {α : Type} [Field α] [LinearOrder α] {shared : Bound α → Prop} {s t : ActiveSet α}

theorem release_eq_match (J : DenseMatrix α) (r delta : List α) (s : ActiveSet α) :
    release J r delta s =
      match gradientAt J r delta with
      | .error fault => (.error fault, s)
      | .ok g =>
        match (s.members.find? (g.length ≤ ·.index)).map
          fun b => (Fault.noPosition b.index : Fault α) with
        | some fault => (.error fault, s)
        | none => (.ok (s.members.filter (Bound.letsGo g)), s.filter fun b => !b.letsGo g) := by
  unfold release
  rcases gradientAt J r delta with fault | g
  · rfl
  · dsimp only [ActiveSet.toList]
    cases s.members.find? (g.length ≤ ·.index) <;> rfl

theorem ActiveSet.Alike.release_eq (h : s.Alike shared t) (hs : s.Signed) (ht : t.Signed)
    (J : DenseMatrix α) (r delta : List α) :
    (release J r delta s).1.map (fun _ => delta) = (release J r delta t).1.map (fun _ => delta) ∧
      (release J r delta s).2.Alike shared (release J r delta t).2 := by
  rw [release_eq_match, release_eq_match]
  rcases gradientAt J r delta with fault | g
  · exact ⟨rfl, h⟩
  dsimp only
  rw [h.find?_beyond hs ht]
  split
  · exact ⟨rfl, h⟩
  · refine ⟨rfl, h.filter fun b b' hindex hside => ?_⟩
    unfold Bound.letsGo
    rw [hindex, hside]

variable [Scalar α] {state : DenseState α} {damping : α}

theorem DenseState.step_congr (h : s.Alike shared t) (hs : s.Signed) (ht : t.Signed) :
    (state.step damping s).1 = (state.step damping t).1 ∧
      (state.step damping s).2.Alike shared (state.step damping t).2 := by
  unfold step
  rw [h.isEmpty_eq, h.freeMask_eq hs ht]
  split
  · exact ⟨rfl, h⟩
  rcases t.freeMask state.jacobian.cols with fault | free
  · exact ⟨rfl, h⟩
  simp only [bind, Except.bind]
  rcases restrictedStep state.jacobian state.residual damping free with fault | delta
  · exact ⟨rfl, h⟩
  · exact h.release_eq hs ht state.jacobian state.residual delta

theorem DenseState.getElem?_of_pinned {active : ActiveSet α} {delta : List α}
    (h : (state.step damping active).1 = .ok delta) {b : Bound α} (hb : b ∈ active.members) :
    delta[b.index]? = some 0 := by
  obtain ⟨hlength, hpinned, -⟩ := of_step_eq_ok h
  have hlt : b.index < delta.length := by
    rcases step_cases h with ⟨hnil, -⟩ | ⟨free, -, hfree, -⟩
    · rw [hnil] at hb
      cases hb
    · rw [hlength]
      exact (ActiveSet.of_freeMask_eq_ok hfree).1 b hb
  rw [List.getElem?_eq_getElem hlt, ← hpinned b hb]
  simp [hlt]

end Step

/-! ## Stopping -/

section Stop

variable {α : Type} [Field α] [LinearOrder α] [IsStrictOrderedRing α] {x delta : List α}
  {active : ActiveSet α}

theorem closestBlock_eq_empty (h : ∀ b ∈ active.members, delta[b.index]? = some 0)
    (bounds : List (Bound α)) :
    closestBlock bounds x delta active = closestBlock bounds x delta .empty := by
  have hcloser : closerBlock x delta active = closerBlock x delta .empty := by
    funext closest b
    by_cases hb : b ∈ active.members
    · have hsmall : Scalar.abs (0 : α) < negligibleStep := by
        rw [Scalar.abs_eq, abs_zero]
        exact negligibleStep_pos
      have hcontains := (active.contains_iff b).mpr hb
      unfold closerBlock
      simp [hcontains, coordinate, h b hb, hsmall, bind, Except.bind]
    · have hcontains : active.contains b = false := by
        rw [Bool.eq_false_iff, ne_eq, ActiveSet.contains_iff]
        exact hb
      unfold closerBlock
      rw [hcontains]
      rfl
  unfold closestBlock
  rw [hcloser]

end Stop

end BoundedFit
