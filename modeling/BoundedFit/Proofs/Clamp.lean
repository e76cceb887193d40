import BoundedFit.Proofs.Consistent
import BoundedFit.Proofs.Feasible

/-!
# Clamping a guess

It ends at a feasible point if the bounds do not exclude each other.
-/

namespace BoundedFit

/-! ## One bound after the other -/

section Clamp

variable {α : Type} [Sub α] [Neg α] [Zero α] [LT α] [DecidableLT α]

def Bound.isViolated (b : Bound α) (x : List α) : Bool := x[b.index]?.any fun v => b.gap v < 0

def firstViolated? (bounds : List (Bound α)) (x : List α) (i : Nat) : Option (Bound α) :=
  bounds.find? fun b => b.index == i && b.isViolated x

theorem Bound.isViolated_iff (b : Bound α) (x : List α) :
    b.isViolated x = true ↔ ∃ v, x[b.index]? = some v ∧ b.gap v < 0 := by
  simp [isViolated, Option.any_eq_true]

theorem Bound.isViolated_of_getElem? {b : Bound α} {x : List α} {v : α} (h : x[b.index]? = some v) :
    b.isViolated x = true ↔ b.gap v < 0 := by
  simp [isViolated, h]

theorem firstViolated?_congr {bounds : List (Bound α)} {x y : List α} {i : Nat}
    (h : x[i]? = y[i]?) : firstViolated? bounds x i = firstViolated? bounds y i := by
  unfold firstViolated? Bound.isViolated
  refine List.find?_congr fun b _ => ?_
  by_cases hb : b.index = i
  · rw [hb, h]
  · simp [beq_eq_false_iff_ne.mpr hb]

theorem firstViolated?_cons_of_eq {b : Bound α} {bounds : List (Bound α)} {x : List α} {i : Nat}
    (hi : b.index = i) (hb : b.isViolated x = true) : firstViolated? (b :: bounds) x i = some b := by
  simp [firstViolated?, hi, hb]

theorem firstViolated?_cons_of_not {b : Bound α} {bounds : List (Bound α)} {x : List α} {i : Nat}
    (h : ¬ (b.index = i ∧ b.isViolated x = true)) :
    firstViolated? (b :: bounds) x i = firstViolated? bounds x i := by
  unfold firstViolated?
  rw [List.find?_cons_of_neg (by simpa using h)]

variable [LE α] [DecidableLE α]

/-- The first bound of a coordinate that the point violates leaves no other bound of that coordinate
violated. -/
def SettledByFirst (bounds : List (Bound α)) (x : List α) : Prop :=
  ∀ c ∈ bounds, ∀ b ∈ firstViolated? bounds x c.index, 0 ≤ c.gap b.value

instance (bounds : List (Bound α)) (x : List α) : Decidable (SettledByFirst bounds x) :=
  inferInstanceAs (Decidable (∀ c ∈ bounds, ∀ b ∈ firstViolated? bounds x c.index, _))

namespace Iterate

theorem clampTo_of_isViolated {here : Iterate α} {b : Bound α} (h : b.isViolated here.point = true) :
    here.clampTo b = ⟨here.point.set b.index b.value, here.active.insert b⟩ := by
  obtain ⟨v, hv, hgap⟩ := (b.isViolated_iff _).mp h
  simp [clampTo, hv, hgap]

theorem clampTo_of_not_isViolated {here : Iterate α} {b : Bound α}
    (h : ¬ b.isViolated here.point = true) : here.clampTo b = here := by
  rw [b.isViolated_iff] at h
  unfold clampTo
  split
  · rfl
  · rename_i v hv
    exact if_neg fun hgap => h ⟨v, hv, hgap⟩

theorem length_point_clampTo (here : Iterate α) (b : Bound α) :
    (here.clampTo b).point.length = here.point.length := by
  by_cases h : b.isViolated here.point = true
  · simp [clampTo_of_isViolated h]
  · rw [clampTo_of_not_isViolated h]

theorem getElem?_point_clampTo_of_ne (here : Iterate α) {b : Bound α} {i : Nat} (hi : b.index ≠ i) :
    (here.clampTo b).point[i]? = here.point[i]? := by
  by_cases h : b.isViolated here.point = true
  · simp [clampTo_of_isViolated h, List.getElem?_set_ne hi]
  · rw [clampTo_of_not_isViolated h]

end Iterate

theorem foldl_clampTo_of_not_isViolated {bounds : List (Bound α)} {here : Iterate α}
    (h : ∀ b ∈ bounds, ¬ b.isViolated here.point = true) :
    bounds.foldl Iterate.clampTo here = here := by
  induction bounds with
  | nil => rfl
  | cons b bounds ih =>
    rw [List.forall_mem_cons] at h
    rw [List.foldl_cons, Iterate.clampTo_of_not_isViolated h.1]
    exact ih h.2

theorem length_point_foldl_clampTo (bounds : List (Bound α)) (here : Iterate α) :
    (bounds.foldl Iterate.clampTo here).point.length = here.point.length := by
  induction bounds generalizing here with
  | nil => rfl
  | cons b bounds ih => rw [List.foldl_cons, ih, Iterate.length_point_clampTo]

theorem length_point_clamp (bounds : List (Bound α)) (x : List α) :
    (clamp bounds x).point.length = x.length := length_point_foldl_clampTo bounds _

end Clamp

variable {α : Type} [Field α] [LinearOrder α]

theorem Bound.Holds.not_isViolated {b : Bound α} {x : List α} (h : b.Holds x) :
    ¬ b.isViolated x = true := by
  rw [b.isViolated_iff]
  rintro ⟨v, hv, hout⟩
  exact absurd (h.gap_nonneg hv) (not_le.mpr hout)

/-! ## The clamped guess is feasible -/

section Feasible

variable [IsStrictOrderedRing α] {bounds : List (Bound α)}

theorem gap_value_nonneg (hcons : Consistent bounds) {b c : Bound α} (hb : b ∈ bounds)
    (hc : c ∈ bounds) (hindex : c.index = b.index) {v : α} (hout : b.gap v < 0)
    (hin : 0 ≤ c.gap v) : 0 ≤ c.gap b.value := by
  cases hbs : b.side with
  | lower =>
    rw [Bound.gap_of_lower hbs] at hout
    cases hcs : c.side with
    | lower =>
      rw [Bound.gap_of_lower hcs] at hin ⊢
      linarith
    | upper =>
      rw [Bound.gap_of_upper hcs]
      linarith [hcons b hb c hc hindex.symm hbs hcs]
  | upper =>
    rw [Bound.gap_of_upper hbs] at hout
    cases hcs : c.side with
    | lower =>
      rw [Bound.gap_of_lower hcs]
      linarith [hcons c hc b hb hindex hcs hbs]
    | upper =>
      rw [Bound.gap_of_upper hcs] at hin ⊢
      linarith

theorem side_eq_of_gap_neg (hcons : Consistent bounds) {b c : Bound α} (hb : b ∈ bounds)
    (hc : c ∈ bounds) (hindex : b.index = c.index) {v : α} (hbv : b.gap v < 0) (hcv : c.gap v < 0) :
    b.side = c.side := by
  cases hbs : b.side with
  | lower =>
    cases hcs : c.side with
    | lower => rfl
    | upper =>
      rw [Bound.gap_of_lower hbs] at hbv
      rw [Bound.gap_of_upper hcs] at hcv
      linarith [hcons b hb c hc hindex hbs hcs]
  | upper =>
    cases hcs : c.side with
    | upper => rfl
    | lower =>
      rw [Bound.gap_of_upper hbs] at hbv
      rw [Bound.gap_of_lower hcs] at hcv
      linarith [hcons c hc b hb hindex.symm hcs hbs]

theorem feasible_clampTo (hcons : Consistent bounds) {done : List (Bound α)} {b : Bound α}
    (hsub : ∀ c ∈ done ++ [b], c ∈ bounds) {here : Iterate α}
    (hlong : b.index < here.point.length) (h : Feasible done here.point) :
    Feasible (done ++ [b]) (here.clampTo b).point := by
  have hb : b ∈ bounds := hsub b (by simp)
  intro c hc
  rw [Bound.holds_iff]
  rw [List.mem_append, List.mem_singleton] at hc
  by_cases hviol : b.isViolated here.point = true
  · obtain ⟨v, hv, hout⟩ := (b.isViolated_iff _).mp hviol
    rw [Iterate.clampTo_of_isViolated hviol]
    rcases hc with hc | rfl
    · obtain ⟨w, hw, hin⟩ := (c.holds_iff _).mp (h c hc)
      by_cases hindex : c.index = b.index
      · refine ⟨b.value, by simp [hindex, hlong], ?_⟩
        have hstart := (h c hc).gap_nonneg (hindex ▸ hv)
        exact gap_value_nonneg hcons hb (hsub c (by simp [hc])) hindex hout hstart
      · exact ⟨w, by rw [List.getElem?_set_ne (Ne.symm hindex), hw], hin⟩
    · exact ⟨c.value, by simp [hlong], by rw [Bound.gap_value]⟩
  · rw [Iterate.clampTo_of_not_isViolated hviol]
    rcases hc with hc | rfl
    · exact (c.holds_iff _).mp (h c hc)
    · refine ⟨here.point[c.index], List.getElem?_eq_getElem hlong, ?_⟩
      rw [c.isViolated_iff] at hviol
      by_contra hneg
      exact hviol ⟨_, List.getElem?_eq_getElem hlong, not_le.mp hneg⟩

theorem feasible_foldl_clampTo (hcons : Consistent bounds) (todo : List (Bound α))
    {done : List (Bound α)} (hsub : ∀ b ∈ done ++ todo, b ∈ bounds) {here : Iterate α}
    (hlong : ∀ b ∈ todo, b.index < here.point.length) (h : Feasible done here.point) :
    Feasible (done ++ todo) (todo.foldl Iterate.clampTo here).point := by
  induction todo generalizing done here with
  | nil => simpa using h
  | cons b todo ih =>
    rw [List.append_cons] at hsub ⊢
    apply ih hsub
    · intro c hc
      rw [Iterate.length_point_clampTo]
      exact hlong c (List.mem_cons_of_mem _ hc)
    · exact feasible_clampTo hcons (fun c hc => hsub c (List.mem_append_left _ hc))
        (hlong b List.mem_cons_self) h

theorem feasible_clamp (hcons : Consistent bounds) {x : List α}
    (hlong : ∀ b ∈ bounds, b.index < x.length) : Feasible bounds (clamp bounds x).point := by
  have h : Feasible [] (⟨x, .empty⟩ : Iterate α).point := fun b hb => by cases hb
  exact feasible_foldl_clampTo hcons bounds (fun b hb => hb) hlong h

end Feasible

/-! ## Bounds that are moved onto -/

theorem mem_active_clampTo (here : Iterate α) (b : Bound α) {c : Bound α}
    (h : c ∈ here.active.members) : c ∈ (here.clampTo b).active.members := by
  by_cases hviol : b.isViolated here.point = true
  · rw [Iterate.clampTo_of_isViolated hviol, ActiveSet.mem_insert]
    exact Or.inr h
  · rwa [Iterate.clampTo_of_not_isViolated hviol]

theorem mem_active_foldl_clampTo (bounds : List (Bound α)) {here : Iterate α} {c : Bound α}
    (h : c ∈ here.active.members) : c ∈ (bounds.foldl Iterate.clampTo here).active.members := by
  induction bounds generalizing here with
  | nil => exact h
  | cons b bounds ih => exact ih (mem_active_clampTo here b h)

theorem mem_of_mem_active_foldl_clampTo (bounds : List (Bound α)) {here : Iterate α} {c : Bound α}
    (h : c ∈ (bounds.foldl Iterate.clampTo here).active.members) :
    c ∈ bounds ∨ c ∈ here.active.members := by
  induction bounds generalizing here with
  | nil => exact Or.inr h
  | cons b bounds ih =>
    rcases ih h with hc | hc
    · exact Or.inl (List.mem_cons_of_mem _ hc)
    · by_cases hviol : b.isViolated here.point = true
      · rw [Iterate.clampTo_of_isViolated hviol, ActiveSet.mem_insert] at hc
        rcases hc with rfl | hc
        · exact Or.inl List.mem_cons_self
        · exact Or.inr hc
      · rw [Iterate.clampTo_of_not_isViolated hviol] at hc
        exact Or.inr hc

theorem mem_of_mem_active_clamp {bounds : List (Bound α)} {x : List α} {c : Bound α}
    (h : c ∈ (clamp bounds x).active.members) : c ∈ bounds := by
  rcases mem_of_mem_active_foldl_clampTo bounds h with hc | hc
  · exact hc
  · cases hc

theorem firstViolated?_clampTo {b : Bound α} {here : Iterate α} {i : Nat}
    (h : ¬ (b.index = i ∧ b.isViolated here.point = true)) (bounds : List (Bound α)) :
    firstViolated? bounds (here.clampTo b).point i = firstViolated? bounds here.point i := by
  by_cases hviol : b.isViolated here.point = true
  · have hi : b.index ≠ i := fun hi => h ⟨hi, hviol⟩
    exact firstViolated?_congr (Iterate.getElem?_point_clampTo_of_ne here hi)
  · rw [Iterate.clampTo_of_not_isViolated hviol]

theorem mem_active_of_firstViolated {bounds : List (Bound α)} {here : Iterate α} {i : Nat}
    {b : Bound α} (h : firstViolated? bounds here.point i = some b) :
    b ∈ (bounds.foldl Iterate.clampTo here).active.members := by
  induction bounds generalizing here with
  | nil => cases h
  | cons c bounds ih =>
    by_cases hc : c.index = i ∧ c.isViolated here.point = true
    · rw [firstViolated?_cons_of_eq hc.1 hc.2] at h
      obtain rfl := Option.some.inj h
      rw [List.foldl_cons]
      apply mem_active_foldl_clampTo
      rw [Iterate.clampTo_of_isViolated hc.2, ActiveSet.mem_insert]
      exact Or.inl rfl
    · rw [firstViolated?_cons_of_not hc, ← firstViolated?_clampTo hc] at h
      exact ih h

theorem mem_active_clamp_of_unique [IsStrictOrderedRing α] {bounds : List (Bound α)}
    (hcons : Consistent bounds) {x : List α} {b : Bound α} (hlong : b.index < x.length)
    (hb : b ∈ bounds) (hviolated : ¬ b.Holds x)
    (hunique : ∀ c ∈ bounds, b.index = c.index → b.side = c.side → b = c) :
    b ∈ (clamp bounds x).active.members := by
  obtain ⟨v, hv⟩ : ∃ v, x[b.index]? = some v := ⟨_, List.getElem?_eq_getElem hlong⟩
  have hgap : b.gap v < 0 := by
    by_contra hnot
    exact hviolated ((b.holds_iff x).mpr ⟨v, hv, not_lt.mp hnot⟩)
  obtain ⟨c, hfirst⟩ : ∃ c, firstViolated? bounds x b.index = some c := by
    rw [firstViolated?, ← Option.isSome_iff_exists, List.find?_isSome]
    exact ⟨b, hb, by simp [(Bound.isViolated_of_getElem? hv).mpr hgap]⟩
  -- The first violated bound of the coordinate is on the same side, so it is this one.
  have hc := List.mem_of_find?_eq_some hfirst
  have hcond := List.find?_some hfirst
  rw [Bool.and_eq_true, beq_iff_eq] at hcond
  obtain ⟨hindex, hcviolated⟩ := hcond
  have hvc : x[c.index]? = some v := by rw [hindex, hv]
  have hcgap : c.gap v < 0 := (Bound.isViolated_of_getElem? hvc).mp hcviolated
  have heq := hunique c hc hindex.symm (side_eq_of_gap_neg hcons hb hc hindex.symm hgap hcgap)
  rw [heq]
  exact mem_active_of_firstViolated hfirst

theorem not_mem_active_foldl_clampTo [IsStrictOrderedRing α] {bounds todo : List (Bound α)}
    (hcons : Consistent bounds) {c : Bound α} (hc : c ∈ bounds) (hsub : ∀ b ∈ todo, b ∈ bounds)
    {here : Iterate α} (hlong : ∀ b ∈ todo, b.index < here.point.length) (hholds : c.Holds here.point)
    (hnot : c ∉ here.active.members) : c ∉ (todo.foldl Iterate.clampTo here).active.members := by
  induction todo generalizing here with
  | nil => exact hnot
  | cons b todo ih =>
    rw [List.forall_mem_cons] at hsub hlong
    have hkept : Feasible ([c] ++ [b]) (here.clampTo b).point :=
      feasible_clampTo hcons (by simp [hc, hsub.1]) hlong.1 (by simpa [Feasible] using hholds)
    refine ih hsub.2 ?_ (hkept c (by simp)) ?_
    · rw [Iterate.length_point_clampTo]
      exact hlong.2
    · by_cases hviol : b.isViolated here.point = true
      · rw [Iterate.clampTo_of_isViolated hviol, ActiveSet.mem_insert]
        rintro (rfl | hmem)
        · exact hholds.not_isViolated hviol
        · exact hnot hmem
      · rwa [Iterate.clampTo_of_not_isViolated hviol]

theorem settledByFirst_clampTo {b : Bound α} {bounds : List (Bound α)} {here : Iterate α}
    (h : SettledByFirst (b :: bounds) here.point) :
    SettledByFirst bounds (here.clampTo b).point := by
  intro d hd c hfirst
  rw [Option.mem_def] at hfirst
  by_cases hb : b.index = d.index ∧ b.isViolated here.point = true
  · -- The coordinate is on `b` now, where no bound is violated any more.
    exfalso
    rw [Iterate.clampTo_of_isViolated hb.2] at hfirst
    have hc := List.find?_some hfirst
    rw [Bool.and_eq_true, beq_iff_eq, Bound.isViolated_iff] at hc
    obtain ⟨hci, v, hv, hout⟩ := hc
    have hin := h c (List.mem_cons_of_mem _ (List.mem_of_find?_eq_some hfirst)) b
      (firstViolated?_cons_of_eq (hb.1.trans hci.symm) hb.2)
    have hvb : v = b.value := by
      rw [hci, ← hb.1, List.getElem?_set_self'] at hv
      rcases hx : here.point[b.index]? with _ | w
      · simp [hx] at hv
      · simpa [hx] using hv.symm
    rw [hvb] at hout
    exact absurd hin (not_le.mpr hout)
  · rw [firstViolated?_clampTo hb, ← firstViolated?_cons_of_not hb] at hfirst
    exact h d (List.mem_cons_of_mem _ hd) c hfirst

theorem tight_clampTo {b : Bound α} {here : Iterate α} (htight : here.Tight)
    (hpinned : ∀ a ∈ here.active.members, b.index = a.index → 0 ≤ b.gap a.value) :
    (here.clampTo b).Tight := by
  intro a ha
  by_cases hviol : b.isViolated here.point = true
  · obtain ⟨v, hv, hout⟩ := (b.isViolated_iff _).mp hviol
    rw [Iterate.clampTo_of_isViolated hviol, ActiveSet.mem_insert] at ha
    rw [Iterate.clampTo_of_isViolated hviol]
    have hlt : b.index < here.point.length := (List.getElem?_eq_some_iff.mp hv).1
    rcases ha with rfl | ha
    · simp [hlt]
    · have hne : b.index ≠ a.index := by
        intro hindex
        rw [hindex, htight a ha] at hv
        obtain rfl := Option.some.inj hv
        exact absurd (hpinned a ha hindex) (not_le.mpr hout)
      rw [List.getElem?_set_ne hne]
      exact htight a ha
  · rw [Iterate.clampTo_of_not_isViolated hviol] at ha ⊢
    exact htight a ha

theorem tight_foldl_clampTo {bounds : List (Bound α)} {here : Iterate α} (htight : here.Tight)
    (hpinned : ∀ a ∈ here.active.members, ∀ c ∈ bounds, c.index = a.index → 0 ≤ c.gap a.value)
    (hsettled : SettledByFirst bounds here.point) :
    (bounds.foldl Iterate.clampTo here).Tight := by
  induction bounds generalizing here with
  | nil => exact htight
  | cons b bounds ih =>
    rw [List.foldl_cons]
    refine ih ?_ ?_ (settledByFirst_clampTo hsettled)
    · exact tight_clampTo htight fun a ha => hpinned a ha b List.mem_cons_self
    · intro a ha c hc hindex
      by_cases hviol : b.isViolated here.point = true
      · rw [Iterate.clampTo_of_isViolated hviol, ActiveSet.mem_insert] at ha
        rcases ha with rfl | ha
        · exact hsettled c (List.mem_cons_of_mem _ hc) a (firstViolated?_cons_of_eq hindex.symm hviol)
        · exact hpinned a ha c (List.mem_cons_of_mem _ hc) hindex
      · rw [Iterate.clampTo_of_not_isViolated hviol] at ha
        exact hpinned a ha c (List.mem_cons_of_mem _ hc) hindex

/-- All pinned bounds hold with equality after the clamp exactly if the clamp never moves a coordinate
off a bound that it moved it onto. -/
theorem tight_clamp_iff [IsStrictOrderedRing α] {bounds : List (Bound α)}
    (hcons : Consistent bounds) {x : List α} (hlong : ∀ b ∈ bounds, b.index < x.length) :
    (clamp bounds x).Tight ↔ SettledByFirst bounds x := by
  constructor
  · intro htight c hc b hfirst
    have hb := List.find?_some hfirst
    rw [Bool.and_eq_true, beq_iff_eq] at hb
    have hpoint := htight b (mem_active_of_firstViolated hfirst)
    exact (feasible_clamp hcons hlong c hc).gap_nonneg (hb.1 ▸ hpoint)
  · intro hsettled
    have hempty : ∀ a, a ∉ (ActiveSet.empty : ActiveSet α).members := fun a ha => by cases ha
    exact tight_foldl_clampTo (fun a ha => absurd ha (hempty a)) (fun a ha => absurd ha (hempty a))
      hsettled

end BoundedFit
