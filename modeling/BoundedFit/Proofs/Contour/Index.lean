import Mathlib.Tactic
import Mathlib.Data.Int.ModEq
import BoundedFit.Contour.Cursor

/-!
# Indices

Reading and writing go by the same address.
-/

namespace BoundedFit.Contour

variable {ι : Type} {c : Contour ι} {i j : Int} {p q : Nat} {k : Cursor}

/-! ## Addresses -/

/-- No position has this index: there are no items, or the contour is open and does not reach so far. -/
def Refuses (c : Contour ι) (i : Int) : Prop :=
  c.items = [] ∨ c.closed = false ∧ (i < -c.size ∨ c.size ≤ i)

/-- The index stands for this position. -/
structure Addresses (c : Contour ι) (i : Int) (p : Nat) : Prop where
  lt_size : p < c.size
  inside : c.closed = false → -c.size ≤ i ∧ i < c.size
  emod_eq : i % c.size = p

theorem exists_addresses (h : ¬ c.Refuses i) : ∃ p, c.Addresses i p := by
  unfold Refuses at h
  push Not at h
  obtain ⟨hne, hinside⟩ := h
  have hsize : 0 < (c.size : Int) := Int.natCast_pos.mpr (List.length_pos_of_ne_nil hne)
  have hnonneg := Int.emod_nonneg i hsize.ne'
  have hlt := Int.emod_lt_of_pos i hsize
  exact ⟨(i % c.size).toNat, by omega, hinside, (Int.toNat_of_nonneg hnonneg).symm⟩

theorem Addresses.eq_iff (hi : c.Addresses i p) (hj : c.Addresses j q) :
    p = q ↔ (c.size : Int) ∣ j - i := by
  rw [← Int.modEq_iff_dvd, Int.ModEq, hi.emod_eq, hj.emod_eq, Int.natCast_inj]

/-! ## The index of the underlying list -/

theorem position?_of_inside {n : Nat} (hlow : -n ≤ i) (hhigh : i < n) :
    position? n i = some (i % n).toNat := by
  unfold position?
  split
  · have hshift : i % n = i + n := by
      rw [← Int.add_emod_right, Int.emod_eq_of_lt (by omega) (by omega)]
    rw [if_pos (by omega), hshift]
  · rw [if_pos (by omega), Int.emod_eq_of_lt (by omega) hhigh]

theorem position?_of_outside {n : Nat} (h : i < -n ∨ n ≤ i) : position? n i = none := by
  unfold position?
  split <;> exact if_neg (by omega)

theorem isSigned_of_inside {n : Nat} (hword : Word.isSigned n = true) (hlow : -n ≤ i) (hhigh : i < n) :
    Word.isSigned i = true := by
  simp only [Word.isSigned, Bool.and_eq_true, decide_eq_true_eq] at hword ⊢
  omega

theorem Addresses.linearIndex (h : c.Addresses i p) (hword : Word.isSigned c.size = true) :
    ∃ l, c.linearIndex i = .ok l ∧ Word.isSigned l = true ∧ position? c.size l = some p := by
  have hlt := h.lt_size
  unfold Contour.linearIndex
  split
  · have hne : c.items ≠ [] := List.ne_nil_of_length_pos (Nat.zero_lt_of_lt hlt)
    refine ⟨i % c.size, by simp [hne], ?_, ?_⟩
    · exact isSigned_of_inside hword (by rw [h.emod_eq]; omega) (by rw [h.emod_eq]; omega)
    · rw [position?_of_inside (by rw [h.emod_eq]; omega) (by rw [h.emod_eq]; omega), Int.emod_emod,
        h.emod_eq, Int.toNat_natCast]
  · rename_i hopen
    obtain ⟨hlow, hhigh⟩ := h.inside (by simpa using hopen)
    refine ⟨i, rfl, isSigned_of_inside hword hlow hhigh, ?_⟩
    rw [position?_of_inside hlow hhigh, h.emod_eq, Int.toNat_natCast]

theorem Refuses.linearIndex (h : c.Refuses i) :
    c.linearIndex i = .error .emptyLoop ∨
      ∃ l, c.linearIndex i = .ok l ∧ position? c.size l = none := by
  unfold Contour.linearIndex
  split
  · rename_i hclosed
    rcases h with hnil | ⟨hopen, -⟩
    · exact Or.inl (by simp [hnil])
    · rw [hclosed] at hopen
      cases hopen
  · refine Or.inr ⟨i, rfl, position?_of_outside ?_⟩
    rcases h with hnil | ⟨-, houtside⟩
    · simp only [size, hnil, List.length_nil]
      omega
    · exact houtside

/-! ## Reading and writing -/

theorem Addresses.get (h : c.Addresses i p) (hword : Word.isSigned c.size = true) :
    ∃ item, c.items[p]? = some item ∧ c.get i = .ok item := by
  obtain ⟨l, hlinear, hsigned, hposition⟩ := h.linearIndex hword
  have hitem : c.items[p]? = some (c.items.get ⟨p, h.lt_size⟩) := List.getElem?_eq_getElem h.lt_size
  refine ⟨_, hitem, ?_⟩
  unfold Contour.get flatGet
  simp [hlinear, hsigned, hposition, hitem, bind, Except.bind]

theorem Addresses.set (h : c.Addresses i p) (hword : Word.isSigned c.size = true) (item : ι) :
    c.set i item = .ok { c with items := c.items.set p item } := by
  obtain ⟨l, hlinear, hsigned, hposition⟩ := h.linearIndex hword
  unfold Contour.set
  simp [hlinear, hsigned, hposition, bind, Except.bind, pure, Except.pure]

theorem Refuses.get (h : c.Refuses i) : ∃ fault, c.get i = .error fault ∧ fault.kind = .index := by
  unfold Contour.get flatGet
  rcases h.linearIndex with hempty | ⟨l, hlinear, hposition⟩
  · exact ⟨.emptyLoop, by simp [hempty, bind, Except.bind], rfl⟩
  · simp only [hlinear, hposition, bind, Except.bind, Option.bind_none]
    split <;> exact ⟨_, rfl, rfl⟩

theorem Refuses.set (h : c.Refuses i) (item : ι) :
    ∃ fault, c.set i item = .error fault ∧ fault.kind = .index := by
  unfold Contour.set
  rcases h.linearIndex with hempty | ⟨l, hlinear, hposition⟩
  · exact ⟨.emptyLoop, by simp [hempty, bind, Except.bind], rfl⟩
  · simp only [hlinear, hposition, bind, Except.bind]
    split <;> exact ⟨_, rfl, rfl⟩

theorem get_refused_iff (hword : Word.isSigned c.size = true) :
    (∃ fault, c.get i = .error fault) ↔ c.Refuses i := by
  constructor
  · rintro ⟨fault, hfault⟩
    by_contra hnot
    obtain ⟨p, hp⟩ := exists_addresses hnot
    obtain ⟨item, -, hget⟩ := hp.get hword
    rw [hget] at hfault
    cases hfault
  · intro h
    obtain ⟨fault, hfault, -⟩ := h.get
    exact ⟨fault, hfault⟩

theorem set_refused_iff (hword : Word.isSigned c.size = true) (item : ι) :
    (∃ fault, c.set i item = .error fault) ↔ c.Refuses i := by
  constructor
  · rintro ⟨fault, hfault⟩
    by_contra hnot
    obtain ⟨p, hp⟩ := exists_addresses hnot
    rw [hp.set hword] at hfault
    cases hfault
  · intro h
    obtain ⟨fault, hfault, -⟩ := h.set item
    exact ⟨fault, hfault⟩

/-! ## Items under cursors -/

/-- There is no item under the cursor. -/
def Leaves (c : Contour ι) (k : Cursor) : Prop :=
  c.items = [] ∨ c.closed = false ∧ (k.position < 0 ∨ c.size ≤ k.position)

theorem isDone_of_leaves (h : c.Leaves k) (hopen : c.closed = false) : c.isDone k = true := by
  have houtside : k.position < 0 ∨ c.size ≤ k.position := by
    rcases h with hnil | ⟨-, houtside⟩
    · simp only [size, hnil, List.length_nil]
      omega
    · exact houtside
  simpa [isDone, hopen] using houtside

theorem valueOf_of_leaves (h : c.Leaves k) :
    ∃ fault, c.valueOf k = .error fault ∧ fault.kind = .index := by
  unfold valueOf
  cases hclosed : c.closed with
  | false =>
    rw [isDone_of_leaves h hclosed]
    exact ⟨_, rfl, rfl⟩
  | true =>
    have hrefuses : c.Refuses k.position := by
      rcases h with hnil | ⟨hopen, -⟩
      · exact Or.inl hnil
      · rw [hclosed] at hopen
        cases hopen
    exact hrefuses.get

theorem valueOf_of_not_leaves (h : ¬ c.Leaves k) (hword : Word.isSigned c.size = true) :
    ∃ (p : Nat) (item : ι), c.indexOf k = .ok p ∧ p < c.size ∧ c.items[p]? = some item ∧
      c.valueOf k = .ok item := by
  unfold Leaves at h
  push Not at h
  obtain ⟨hne, hinside⟩ := h
  have hnot : ¬ c.Refuses k.position := by
    rintro (hnil | ⟨hopen, houtside⟩)
    · exact hne hnil
    · have := hinside hopen
      omega
  obtain ⟨p, hp⟩ := exists_addresses hnot
  obtain ⟨item, hitem, hget⟩ := hp.get hword
  refine ⟨p, item, ?_, hp.lt_size, hitem, ?_⟩
  · unfold indexOf Contour.linearIndex
    split
    · simp [hne, hp.emod_eq]
    · rename_i hopen
      obtain ⟨hlow, hhigh⟩ := hinside (by simpa using hopen)
      rw [← hp.emod_eq, Int.emod_eq_of_lt hlow hhigh]
  · unfold valueOf
    cases hclosed : c.closed with
    | true => exact hget
    | false =>
      have hrun : c.isDone k = false := by
        have := hinside hclosed
        simp [isDone, hclosed, this]
      rw [hrun]
      exact hget

end BoundedFit.Contour
