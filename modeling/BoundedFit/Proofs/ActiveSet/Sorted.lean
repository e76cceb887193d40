import BoundedFit.Proofs.ActiveSet
import BoundedFit.Proofs.Comparison

/-!
# Active sets over doubles

Their members are determined, up to the sign of a zero, by what they contain.
-/

namespace BoundedFit

variable {α : Type} [LE α] [DecidableLE α]

/-! ## Bounds that are the same -/

namespace Scalar

variable {u v : α}

theorem same_iff_le : same u v = true ↔ u ≤ v ∧ v ≤ u := by
  simp [same]

theorem same_symm (h : same u v = true) : same v u = true :=
  same_iff_le.mpr (same_iff_le.mp h).symm

end Scalar

namespace Bound

variable {a b : Bound α}

theorem same_iff_index : a.same b = true ↔
    a.index = b.index ∧ Scalar.same a.value b.value = true ∧ a.side = b.side := by
  simp [same, and_assoc]

theorem same_symm (h : a.same b = true) : b.same a = true := by
  rw [same_iff_index] at h ⊢
  exact ⟨h.1.symm, Scalar.same_symm h.2.1, h.2.2.symm⟩

theorem same_self (h : a.value ≤ a.value) : a.same a = true :=
  same_iff_index.mpr ⟨rfl, Scalar.same_iff_le.mpr ⟨h, h⟩, rfl⟩

end Bound

theorem ActiveSet.contains_iff_same {s : ActiveSet α} {b : Bound α} :
    s.contains b = true ↔ ∃ m ∈ s.members, b.same m = true := by
  simp [contains]

variable [LT α]

/-- Strictly before, by coordinate, then value, then sign. -/
def Bound.Precedes (a b : Bound α) : Prop :=
  a.index < b.index ∨ a.index = b.index ∧
    (a.value < b.value ∨ Scalar.same a.value b.value = true ∧ a.side.sign < b.side.sign)

theorem Bound.before_iff_precedes [DecidableLT α] {a b : Bound α} :
    a.before b = true ↔ a.Precedes b := by
  unfold before Precedes
  simp [Side.sign_lt_iff, and_assoc]

/-- The values of the members are numbers, and the members are strictly increasing. -/
structure ActiveSet.Sorted (s : ActiveSet α) : Prop where
  numbers : ∀ m ∈ s.members, m.value ≤ m.value
  increasing : s.members.Pairwise Bound.Precedes

theorem ActiveSet.sorted_empty : (empty : ActiveSet α).Sorted :=
  ⟨List.forall_mem_nil _, List.Pairwise.nil⟩

theorem ActiveSet.Sorted.filter {s : ActiveSet α} (hs : s.Sorted) (keep : Bound α → Bool) :
    (s.filter keep).Sorted :=
  ⟨fun m hm => hs.numbers m (List.mem_of_mem_filter hm), hs.increasing.filter keep⟩

theorem ActiveSet.Sorted.contains_of_mem {s : ActiveSet α} (hs : s.Sorted) {b : Bound α}
    (hb : b ∈ s.members) : s.contains b = true :=
  contains_iff_same.mpr ⟨b, hb, Bound.same_self (hs.numbers b hb)⟩

variable [Zero α] [Scalar α] [FloatOrder α]

namespace Scalar

variable {u v w : α}

theorem same_trans (huv : same u v = true) (hvw : same v w = true) : same u w = true := by
  obtain ⟨huv, hvu⟩ := same_iff_le.mp huv
  obtain ⟨hvw, hwv⟩ := same_iff_le.mp hvw
  exact same_iff_le.mpr ⟨FloatOrder.le_trans u v w huv hvw, FloatOrder.le_trans w v u hwv hvu⟩

theorem lt_of_same_of_lt (huv : same u v = true) (hvw : v < w) : u < w :=
  FloatOrder.lt_of_le_of_lt (same_iff_le.mp huv).1 hvw

theorem lt_of_lt_of_same (huv : u < v) (hvw : same v w = true) : u < w :=
  FloatOrder.lt_of_lt_of_le huv (same_iff_le.mp hvw).1

theorem lt_or_same_or_lt (hu : u ≤ u) (hv : v ≤ v) : u < v ∨ same u v = true ∨ v < u := by
  rw [FloatOrder.lt_iff, FloatOrder.lt_iff, same_iff_le]
  have htotal := FloatOrder.le_total u v hu hv
  tauto

end Scalar

namespace Bound

variable {a b c : Bound α}

theorem same_trans (hab : a.same b = true) (hbc : b.same c = true) : a.same c = true := by
  rw [same_iff_index] at *
  exact ⟨hab.1.trans hbc.1, Scalar.same_trans hab.2.1 hbc.2.1, hab.2.2.trans hbc.2.2⟩

theorem same_congr (h : a.same b = true) : a.same c = b.same c := by
  rw [Bool.eq_iff_iff]
  exact ⟨same_trans (same_symm h), same_trans h⟩

/-! ## The order of bounds -/

namespace Precedes

theorem trans (hab : a.Precedes b) (hbc : b.Precedes c) : a.Precedes c := by
  rcases hab with hindex | ⟨hindex, hab⟩
  · rcases hbc with hindex' | ⟨hindex', -⟩
    · exact Or.inl (hindex.trans hindex')
    · exact Or.inl (hindex' ▸ hindex)
  · rcases hbc with hindex' | ⟨hindex', hbc⟩
    · exact Or.inl (hindex ▸ hindex')
    · refine Or.inr ⟨hindex.trans hindex', ?_⟩
      rcases hab with hlt | ⟨hsame, hsign⟩ <;> rcases hbc with hlt' | ⟨hsame', hsign'⟩
      · exact Or.inl (FloatOrder.lt_of_lt_of_le hlt (FloatOrder.le_of_lt hlt'))
      · exact Or.inl (Scalar.lt_of_lt_of_same hlt hsame')
      · exact Or.inl (Scalar.lt_of_same_of_lt hsame hlt')
      · exact Or.inr ⟨Scalar.same_trans hsame hsame', hsign.trans hsign'⟩

theorem irrefl (a : Bound α) : ¬ a.Precedes a := by
  rintro (hindex | ⟨-, hlt | ⟨-, hsign⟩⟩)
  · exact hindex.false
  · exact FloatOrder.not_le_of_lt hlt (FloatOrder.le_of_lt hlt)
  · exact hsign.false

theorem of_same_left (hab : a.same b = true) (hbc : b.Precedes c) : a.Precedes c := by
  obtain ⟨hindex, hvalue, hside⟩ := same_iff_index.mp hab
  unfold Precedes
  rw [hindex, hside]
  rcases hbc with hlt | ⟨heq, hlt | ⟨hsame, hsign⟩⟩
  · exact Or.inl hlt
  · exact Or.inr ⟨heq, Or.inl (Scalar.lt_of_same_of_lt hvalue hlt)⟩
  · exact Or.inr ⟨heq, Or.inr ⟨Scalar.same_trans hvalue hsame, hsign⟩⟩

theorem of_same_right (hab : a.Precedes b) (hbc : b.same c = true) : a.Precedes c := by
  obtain ⟨hindex, hvalue, hside⟩ := same_iff_index.mp hbc
  unfold Precedes
  rw [← hindex, ← hside]
  rcases hab with hlt | ⟨heq, hlt | ⟨hsame, hsign⟩⟩
  · exact Or.inl hlt
  · exact Or.inr ⟨heq, Or.inl (Scalar.lt_of_lt_of_same hlt hvalue)⟩
  · exact Or.inr ⟨heq, Or.inr ⟨Scalar.same_trans hsame hvalue, hsign⟩⟩

theorem not_same (h : a.Precedes b) : ¬ a.same b = true := fun hsame =>
  irrefl b (of_same_left (same_symm hsame) h)

end Precedes

theorem precedes_or_same (ha : a.value ≤ a.value) (hb : b.value ≤ b.value) :
    a.Precedes b ∨ a.same b = true ∨ b.Precedes a := by
  rw [same_iff_index]
  rcases lt_trichotomy a.index b.index with hlt | heq | hlt
  · exact Or.inl (Or.inl hlt)
  · rcases Scalar.lt_or_same_or_lt ha hb with hlt | hsame | hlt
    · exact Or.inl (Or.inr ⟨heq, Or.inl hlt⟩)
    · rcases lt_trichotomy a.side.sign b.side.sign with hsign | hsign | hsign
      · exact Or.inl (Or.inr ⟨heq, Or.inr ⟨hsame, hsign⟩⟩)
      · exact Or.inr (Or.inl ⟨heq, hsame, Side.sign_injective hsign⟩)
      · exact Or.inr (Or.inr (Or.inr ⟨heq.symm, Or.inr ⟨Scalar.same_symm hsame, hsign⟩⟩))
    · exact Or.inr (Or.inr (Or.inr ⟨heq.symm, Or.inl hlt⟩))
  · exact Or.inr (Or.inr (Or.inl hlt))

end Bound

/-! ## Members -/

namespace ActiveSet

variable {s : ActiveSet α} {b c : Bound α}

theorem contains_congr (h : b.same c = true) : s.contains b = s.contains c := by
  unfold contains
  congr 1
  funext m
  exact Bound.same_congr h

theorem contains_erase (s : ActiveSet α) (b c : Bound α) :
    (s.erase b).contains c = (!b.same c && s.contains c) := by
  rw [Bool.eq_iff_iff]
  simp only [Bool.and_eq_true, contains_iff_same, erase, filter, List.mem_filter, Bool.not_eq_true',
    Bool.eq_false_iff, ne_eq]
  constructor
  · rintro ⟨m, ⟨hm, hkept⟩, hsame⟩
    exact ⟨fun h => hkept (Bound.same_trans h hsame), m, hm, hsame⟩
  · rintro ⟨hother, m, hm, hsame⟩
    exact ⟨m, ⟨hm, fun h => hother (Bound.same_trans h (Bound.same_symm hsame))⟩, hsame⟩

theorem any_same_of_forall₂ {l l' : List (Bound α)}
    (h : List.Forall₂ (fun m m' => m.same m' = true) l l') (c : Bound α) :
    l.any c.same = l'.any c.same := by
  induction h with
  | nil => rfl
  | @cons m m' l l' hsame _ ih =>
    have hhead : c.same m = c.same m' := by
      rw [Bool.eq_iff_iff]
      exact ⟨fun h => Bound.same_trans h hsame, fun h => Bound.same_trans h (Bound.same_symm hsame)⟩
    rw [List.any_cons, List.any_cons, hhead, ih]

/-- In strictly increasing lists of bounds, the elements that one shares with the other come in the same
order. -/
theorem sublistForall₂_same {l l' : List (Bound α)} (hl : l.Pairwise Bound.Precedes)
    (hl' : l'.Pairwise Bound.Precedes) (hsub : ∀ m ∈ l, ∃ m' ∈ l', m.same m' = true) :
    List.SublistForall₂ (fun m m' => m.same m' = true) l l' := by
  induction l' generalizing l with
  | nil =>
    obtain rfl : l = [] := List.eq_nil_iff_forall_not_mem.mpr fun m hm => by simpa using hsub m hm
    exact .nil
  | cons a' l' ih =>
    cases l with
    | nil => exact .nil
    | cons a l =>
      obtain ⟨ha, hl₁⟩ := List.pairwise_cons.mp hl
      obtain ⟨ha', hl₁'⟩ := List.pairwise_cons.mp hl'
      obtain ⟨m', hm', hsame⟩ := hsub a List.mem_cons_self
      rcases List.mem_cons.mp hm' with rfl | hm'
      · refine .cons hsame (ih hl₁ hl₁' fun m hm => ?_)
        obtain ⟨c, hc, hcsame⟩ := hsub m (List.mem_cons_of_mem a hm)
        rcases List.mem_cons.mp hc with rfl | hc
        · exact absurd (Bound.same_trans hsame (Bound.same_symm hcsame)) (ha m hm).not_same
        · exact ⟨c, hc, hcsame⟩
      · -- The first element of `l'` precedes all of `l`, so it is not among them.
        have hfirst : a'.Precedes a := (ha' m' hm').of_same_right (Bound.same_symm hsame)
        refine .cons_right (ih hl hl₁' fun m hm => ?_)
        have hprecedes : a'.Precedes m := by
          rcases List.mem_cons.mp hm with rfl | hm
          · exact hfirst
          · exact hfirst.trans (ha m hm)
        obtain ⟨c, hc, hcsame⟩ := hsub m hm
        rcases List.mem_cons.mp hc with rfl | hc
        · exact absurd (Bound.same_symm hcsame) hprecedes.not_same
        · exact ⟨c, hc, hcsame⟩

variable {t : ActiveSet α}

theorem Sorted.sublistForall₂ (hs : s.Sorted) (ht : t.Sorted)
    (hsub : ∀ m ∈ s.members, t.contains m = true) :
    List.SublistForall₂ (fun m m' => m.same m' = true) s.members t.members :=
  sublistForall₂_same hs.increasing ht.increasing fun m hm => contains_iff_same.mp (hsub m hm)

theorem Sorted.same_iff_forall₂ (hs : s.Sorted) (ht : t.Sorted) :
    s.same t = true ↔ List.Forall₂ (fun m m' => m.same m' = true) s.members t.members := by
  simp only [ActiveSet.same, size, Bool.and_eq_true, beq_iff_eq, List.all_eq_true]
  constructor
  · rintro ⟨hsize, hsub⟩
    obtain ⟨l, hforall, hsublist⟩ := List.sublistForall₂_iff.mp (hs.sublistForall₂ ht hsub)
    rwa [hsublist.eq_of_length (by rw [← hforall.length_eq, hsize])] at hforall
  · intro hforall
    refine ⟨hforall.length_eq, fun m hm => ?_⟩
    have hany := any_same_of_forall₂ hforall m
    exact hany.symm.trans (hs.contains_of_mem hm)

theorem Sorted.same_iff_contains (hs : s.Sorted) (ht : t.Sorted) :
    s.same t = true ↔ ∀ c, s.contains c = t.contains c := by
  rw [hs.same_iff_forall₂ ht]
  refine ⟨fun hforall c => any_same_of_forall₂ hforall c, fun h => ?_⟩
  have hsub : ∀ m ∈ s.members, t.contains m = true := fun m hm => h m ▸ hs.contains_of_mem hm
  have hsub' : ∀ m ∈ t.members, s.contains m = true := fun m hm => h m ▸ ht.contains_of_mem hm
  obtain ⟨l, hforall, hsublist⟩ := List.sublistForall₂_iff.mp (hs.sublistForall₂ ht hsub)
  obtain ⟨l', hforall', hsublist'⟩ := List.sublistForall₂_iff.mp (ht.sublistForall₂ hs hsub')
  have hlength := hforall'.length_eq ▸ hsublist'.length_le
  rwa [hsublist.eq_of_length_le (by rwa [← hforall.length_eq])] at hforall

variable [DecidableLT α]

theorem contains_insert (s : ActiveSet α) (b c : Bound α) :
    (s.insert b).contains c = (b.same c || s.contains c) := by
  unfold insert
  split
  · rename_i hcontains
    rw [Bool.eq_iff_iff, Bool.or_eq_true]
    refine ⟨Or.inr, fun h => h.elim (fun hsame => ?_) id⟩
    rwa [← contains_congr hsame]
  · rw [Bool.eq_iff_iff]
    simp only [Bool.or_eq_true, contains_iff_same, mem_insertSorted]
    constructor
    · rintro ⟨m, rfl | hm, hsame⟩
      · exact Or.inl (Bound.same_symm hsame)
      · exact Or.inr ⟨m, hm, hsame⟩
    · rintro (hsame | ⟨m, hm, hsame⟩)
      · exact ⟨b, Or.inl rfl, Bound.same_symm hsame⟩
      · exact ⟨m, Or.inr hm, hsame⟩

theorem pairwise_precedes_insertSorted {l : List (Bound α)} (hnumbers : ∀ m ∈ l, m.value ≤ m.value)
    (hl : l.Pairwise Bound.Precedes) (hb : b.value ≤ b.value) (hnew : ∀ m ∈ l, ¬ b.same m = true) :
    (insertSorted b l).Pairwise Bound.Precedes := by
  refine pairwise_insertSorted_of (fun c d => .trans) (fun c _ => Bound.before_iff_precedes.mp)
    (fun c hc h => ?_) hl
  rw [Bound.before_iff_precedes] at h
  exact ((Bound.precedes_or_same hb (hnumbers c hc)).resolve_left h).resolve_left (hnew c hc)

theorem Sorted.insert (hs : s.Sorted) (hb : b.value ≤ b.value) : (s.insert b).Sorted := by
  unfold ActiveSet.insert
  split
  · exact hs
  · rename_i hnew
    have hnew' : ∀ m ∈ s.members, ¬ b.same m = true :=
      fun m hm hsame => hnew (contains_iff_same.mpr ⟨m, hm, hsame⟩)
    refine ⟨fun m hm => ?_, pairwise_precedes_insertSorted hs.numbers hs.increasing hb hnew'⟩
    rcases (mem_insertSorted b m s.members).mp hm with rfl | hm
    · exact hb
    · exact hs.numbers m hm

end ActiveSet

end BoundedFit
