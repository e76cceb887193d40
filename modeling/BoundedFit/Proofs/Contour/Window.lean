import BoundedFit.Proofs.Contour.Index
import BoundedFit.Proofs.Contour.Lap

/-! # Windows -/

namespace BoundedFit.Contour

variable {ι : Type} {c : Contour ι} {i : Int} {offset : Nat}

/-! ## Open contours -/

theorem windowStarts_of_open (h : c.closed = false) (offset : Int) :
    c.windowStarts offset = (c.size - offset).toNat := by
  simp [windowStarts, h]

theorem fits_iff_lt_windowStarts (hopen : c.closed = false) (hi : 0 ≤ i) :
    (∀ j : Nat, j ≤ offset → 0 ≤ i + j ∧ i + j < c.size) ↔ i < c.windowStarts offset := by
  rw [windowStarts_of_open hopen]
  constructor
  · intro h
    have hlast := h offset le_rfl
    omega
  · intro h j hj
    omega

theorem reads_iff_lt_windowStarts (hword : Word.isSigned c.size = true) (hopen : c.closed = false)
    (hi : 0 ≤ i) :
    (∀ j : Nat, j ≤ offset → ∃ item, c.get (i + j) = .ok item) ↔ i < c.windowStarts offset := by
  have hread : ∀ j : Nat, (∃ item, c.get (i + j) = .ok item) ↔ i + j < c.size := by
    intro j
    have hrefuses : c.Refuses (i + j) ↔ c.size ≤ i + j := by
      constructor
      · rintro (hnil | ⟨-, houtside⟩)
        · simp only [size, hnil, List.length_nil]
          omega
        · omega
      · exact fun h => Or.inr ⟨hopen, Or.inr h⟩
    rw [← not_le, ← hrefuses, ← get_refused_iff hword]
    cases c.get (i + j) <;> simp
  simp only [hread]
  rw [← fits_iff_lt_windowStarts hopen hi]
  exact forall₂_congr fun j _ => ⟨fun h => ⟨by omega, h⟩, And.right⟩

/-! ## Closed contours -/

theorem windowStarts_of_closed (h : c.closed = true) (offset : Int) : c.windowStarts offset = c.size := by
  simp [windowStarts, h]

theorem exists_get_of_closed (hword : Word.isSigned c.size = true) (hclosed : c.closed = true)
    (hne : c.items ≠ []) (i : Int) :
    ∃ item, c.items[(i % c.size).toNat]? = some item ∧ c.get i = .ok item := by
  have hnot : ¬ c.Refuses i := by
    rintro (hnil | ⟨hopen, -⟩)
    · exact hne hnil
    · rw [hclosed] at hopen
      cases hopen
  obtain ⟨p, hp⟩ := exists_addresses hnot
  rw [hp.emod_eq, Int.toNat_natCast]
  exact hp.get hword

theorem perm_member (hclosed : c.closed = true) (j : Nat) :
    ((List.range c.size).map fun i : Nat => c.linearIndex (i + j)).Perm
      ((List.range c.size).map fun p : Nat => .ok (p : Int)) := by
  by_cases hne : c.items = []
  · simp [size, hne]
  · have hmember : ∀ i : Nat, c.linearIndex (i + j) = .ok (c.following ⟨j, j⟩ i) := by
      intro i
      simp [linearIndex, following, hclosed, hne, add_comm]
    have hlap : (List.range c.size).map (c.following ⟨j, j⟩) =
        ((List.range c.size).rotate j).map fun p : Nat => (p : Int) := map_following (Int.natCast_nonneg j)
    have hperm := ((List.range c.size).rotate_perm j).map fun p : Nat => (p : Int)
    rw [← hlap] at hperm
    have hindices := hperm.map fun p => (.ok p : Except (Fault ι) Int)
    rw [List.map_map, List.map_map] at hindices
    simp only [hmember]
    exact hindices

/-- The starts of windows with `offset` more items are counted exactly, also if a window is longer
than the contour. The length of a contour is a word. -/
theorem windowStarts_exact (c : Contour ι) (hword : Word.isSigned c.size = true) (offset : Nat) :
    (c.closed = false → ∀ i : Int, 0 ≤ i →
      ((∀ j : Nat, j ≤ offset → 0 ≤ i + j ∧ i + j < c.size) ↔ i < c.windowStarts offset) ∧
      ((∀ j : Nat, j ≤ offset → ∃ item, c.get (i + j) = .ok item) ↔ i < c.windowStarts offset)) ∧
    (c.closed = true →
      (∀ i : Int, 0 ≤ i → i < c.windowStarts offset → ∀ j : Nat, j ≤ offset →
        ∃ item, c.items[((i + j) % c.size).toNat]? = some item ∧ c.get (i + j) = .ok item) ∧
      ∀ j : Nat, j ≤ offset →
        ((List.range (c.windowStarts offset)).map fun i : Nat => c.linearIndex (i + j)).Perm
          ((List.range c.size).map fun p : Nat => .ok (p : Int))) := by
  refine ⟨fun hopen i hi => ?_, fun hclosed => ?_⟩
  · exact ⟨fits_iff_lt_windowStarts hopen hi, reads_iff_lt_windowStarts hword hopen hi⟩
  rw [windowStarts_of_closed hclosed]
  refine ⟨fun i hi hlt j _ => ?_, fun j _ => perm_member hclosed j⟩
  have hne : c.items ≠ [] := by
    intro hnil
    simp only [size, hnil, List.length_nil] at hlt
    omega
  exact exists_get_of_closed hword hclosed hne (i + j)

def square : Contour Nat := ⟨[1, 2, 3, 4], true⟩

theorem windowStarts_square :
    Word.isSigned square.size = true ∧
      (∃ item, square.items[((3 + (5 : Nat)) % square.size : Int).toNat]? = some item ∧
        square.get (3 + (5 : Nat)) = .ok item) ∧
      ((List.range 4).map fun i : Nat => square.linearIndex (i + (5 : Nat))).Perm
        ((List.range 4).map fun p : Nat => .ok (p : Int)) ∧
      ¬ (∀ j : Nat, j ≤ 5 → ∃ item, (⟨[1, 2, 3, 4], false⟩ : Contour Nat).get (0 + j) = .ok item) ∧
      (⟨[1, 2, 3, 4], false⟩ : Contour Nat).windowStarts 1 = 3 := by
  have hword : Word.isSigned square.size = true := by decide
  obtain ⟨hread, hperm⟩ := (windowStarts_exact square hword 5).2 rfl
  obtain ⟨-, hreads⟩ := (windowStarts_exact ⟨[1, 2, 3, 4], false⟩ hword 5).1 rfl 0 le_rfl
  exact ⟨hword, hread 3 (by decide) (by decide) 5 le_rfl, hperm 5 le_rfl,
    mt hreads.mp (by decide), by decide⟩

end BoundedFit.Contour
