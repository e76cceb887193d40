import BoundedFit.Proofs.Clamp
import BoundedFit.Proofs.Step.Pins

/-!
# Clamping without a dominated bound

The point is the same, but another bound may be pinned.
-/

namespace BoundedFit

/-! ## Dominated bounds -/

/-- Some bound of the two lists is tighter than `c`, or `c` is in the list before it. -/
def Bound.DominatedBy {α : Type} [Sub α] [Neg α] [Zero α] [LT α] (c : Bound α)
    (before after : List (Bound α)) : Prop :=
  (∃ d ∈ before ++ after, d.index = c.index ∧ d.side = c.side ∧ 0 < c.gap d.value) ∨ c ∈ before

/-- If the clamp moves a coordinate onto `c`, then of the later bounds, the first one that was violated
before that is not looser than `c`. -/
def Followed {α : Type} [Sub α] [Neg α] [Zero α] [LT α] [LE α] [DecidableLT α] [DecidableLE α]
    (before : List (Bound α)) (c : Bound α) (after : List (Bound α)) (x : List α) : Prop :=
  c.isViolated (clamp before x).point = true →
    ∀ b ∈ firstViolated? after (clamp before x).point c.index, 0 ≤ c.gap b.value

instance {α : Type} [Sub α] [Neg α] [Zero α] [LT α] [LE α] [DecidableLT α] [DecidableLE α]
    (before : List (Bound α)) (c : Bound α) (after : List (Bound α)) (x : List α) :
    Decidable (Followed before c after x) :=
  inferInstanceAs (Decidable (_ → ∀ b ∈ firstViolated? after (clamp before x).point c.index, _))

section Dominated

variable {α : Type} [Field α] [LinearOrder α] {c d : Bound α} {before after : List (Bound α)}

omit [LinearOrder α] in
theorem Bound.gap_of_same_side (hside : d.side = c.side) (v : α) :
    d.gap v = c.gap v - c.gap d.value := by
  have hadd := Bound.gap_add c d.value (v - d.value)
  rw [add_sub_cancel] at hadd
  unfold Bound.gap at *
  rw [hside]
  linear_combination -hadd

omit [LinearOrder α] in
theorem Bound.eq_of_gap_eq_zero (hindex : d.index = c.index) (hside : d.side = c.side)
    (hgap : c.gap d.value = 0) : d = c := by
  obtain ⟨i, v, side⟩ := d
  obtain ⟨j, w, side'⟩ := c
  obtain rfl : i = j := hindex
  obtain rfl : side = side' := hside
  have hvalue : v = w := by
    cases side with
    | lower => exact sub_eq_zero.mp hgap
    | upper => exact sub_eq_zero.mp (neg_eq_zero.mp hgap)
  rw [hvalue]

omit [Field α] [LinearOrder α] in
theorem mem_with (c : Bound α) {b : Bound α} (h : b ∈ before ++ after) : b ∈ before ++ c :: after :=
  ((List.sublist_cons_self c after).append_left before).subset h

theorem Bound.DominatedBy.exists_index (h : c.DominatedBy before after) :
    ∃ d ∈ before ++ after, d.index = c.index := by
  rcases h with ⟨d, hd, hindex, -⟩ | hc
  · exact ⟨d, hd, hindex⟩
  · exact ⟨c, List.mem_append_left _ hc, rfl⟩

theorem Bound.DominatedBy.mem_of_mem (h : c.DominatedBy before after) {i : Nat}
    (hi : ∃ b ∈ before ++ c :: after, b.index = i) : ∃ b ∈ before ++ after, b.index = i := by
  obtain ⟨b, hb, rfl⟩ := hi
  rw [List.mem_append, List.mem_cons] at hb
  rcases hb with hb | rfl | hb
  · exact ⟨b, List.mem_append_left _ hb, rfl⟩
  · exact h.exists_index
  · exact ⟨b, List.mem_append_right _ hb, rfl⟩

theorem Bound.DominatedBy.any_eq (hdominated : c.DominatedBy before after) (p : Nat → Bool) :
    (before ++ c :: after).any (fun b => p b.index) = (before ++ after).any fun b => p b.index := by
  rw [Bool.eq_iff_iff, List.any_eq_true, List.any_eq_true]
  constructor
  · rintro ⟨b, hb, hp⟩
    obtain ⟨d, hd, hindex⟩ := hdominated.mem_of_mem ⟨b, hb, rfl⟩
    exact ⟨d, hd, hindex ▸ hp⟩
  · rintro ⟨b, hb, hp⟩
    exact ⟨b, mem_with c hb, hp⟩

variable [IsStrictOrderedRing α]

theorem Bound.DominatedBy.gap_nonneg (h : c.DominatedBy before after) {x : List α}
    (hfeasible : Feasible (before ++ after) x) {v : α} (hv : x[c.index]? = some v) :
    0 ≤ c.gap v := by
  rcases h with ⟨d, hd, hindex, hside, htighter⟩ | hc
  · have hin := (hfeasible d hd).gap_nonneg (hindex ▸ hv)
    rw [Bound.gap_of_same_side hside] at hin
    linarith
  · exact (hfeasible c (List.mem_append_left _ hc)).gap_nonneg hv

end Dominated

/-! ## Iterates that differ in their pins -/

/-- The same point, with active sets that are alike. -/
structure Iterate.Alike {α : Type} (shared : Bound α → Prop) (here other : Iterate α) : Prop where
  point : here.point = other.point
  active : here.active.Alike shared other.active

/-- `here` was moved onto `c` and `late` was not, and is still behind it. -/
structure Lags {α : Type} [Sub α] [Neg α] [Zero α] [LT α] (c : Bound α) (shared : Bound α → Prop)
    (here late : Iterate α) : Prop where
  off : ∀ i, i ≠ c.index → late.point[i]? = here.point[i]?
  on_bound : here.point[c.index]? = some c.value
  behind : ∃ v, late.point[c.index]? = some v ∧ c.gap v < 0
  pins : ∀ i side, i ≠ c.index ∨ side ≠ c.side →
    (here.active.Pins i side ↔ late.active.Pins i side)
  mem : c ∈ here.active.members
  agree : ∀ b, shared b → (b ∈ here.active.members ↔ b ∈ late.active.members)

section Clamp

variable {α : Type} [Field α] [LinearOrder α] {shared : Bound α → Prop} {here late : Iterate α}
  {b c : Bound α}

theorem Iterate.Alike.clampTo (h : here.Alike shared late) (b : Bound α) :
    (here.clampTo b).Alike shared (late.clampTo b) := by
  by_cases hviol : b.isViolated here.point = true
  · have hviol' := h.point ▸ hviol
    rw [clampTo_of_isViolated hviol, clampTo_of_isViolated hviol']
    exact ⟨congrArg (·.set b.index b.value) h.point, h.active.insert b⟩
  · have hviol' := h.point ▸ hviol
    rwa [clampTo_of_not_isViolated hviol, clampTo_of_not_isViolated hviol']

theorem Iterate.Alike.foldl_clampTo (h : here.Alike shared late) (bounds : List (Bound α)) :
    (bounds.foldl Iterate.clampTo here).Alike shared (bounds.foldl Iterate.clampTo late) := by
  induction bounds generalizing here late with
  | nil => exact h
  | cons b bounds ih => exact ih (h.clampTo b)

theorem Lags.clampTo_of_index_ne (h : Lags c shared here late) (hindex : b.index ≠ c.index) :
    Lags c shared (here.clampTo b) (late.clampTo b) := by
  have hsame : b.isViolated late.point = b.isViolated here.point := by
    unfold Bound.isViolated
    rw [h.off b.index hindex]
  by_cases hviol : b.isViolated here.point = true
  · rw [Iterate.clampTo_of_isViolated hviol, Iterate.clampTo_of_isViolated (hsame.trans hviol)]
    constructor
    case off =>
      intro i hi
      by_cases hb : b.index = i
      · subst hb
        rw [List.getElem?_set_self', List.getElem?_set_self', h.off _ hi]
      · rw [List.getElem?_set_ne hb, List.getElem?_set_ne hb, h.off i hi]
    case on_bound => rw [List.getElem?_set_ne hindex, h.on_bound]
    case behind => rw [List.getElem?_set_ne hindex]; exact h.behind
    case pins =>
      intro i side hne
      rw [ActiveSet.pins_insert, ActiveSet.pins_insert, h.pins i side hne]
    case mem => exact (ActiveSet.mem_insert _ _ _).mpr (Or.inr h.mem)
    case agree =>
      intro d hd
      rw [ActiveSet.mem_insert, ActiveSet.mem_insert, h.agree d hd]
  · have hviol' : ¬ b.isViolated late.point = true := by rwa [hsame]
    rwa [Iterate.clampTo_of_not_isViolated hviol, Iterate.clampTo_of_not_isViolated hviol']

theorem Lags.moved (h : Lags c shared here late) (hindex : b.index = c.index) (hside : b.side = c.side)
    (hlooser : c.gap b.value < 0) (hnone : ∀ d, ¬ shared d) :
    Lags c shared here ⟨late.point.set b.index b.value, late.active.insert b⟩ := by
  obtain ⟨v, hv, -⟩ := h.behind
  constructor
  case off =>
    intro i hi
    have hne : b.index ≠ i := fun hbi => hi (hbi.symm.trans hindex)
    rw [List.getElem?_set_ne hne, h.off i hi]
  case on_bound => exact h.on_bound
  case behind =>
    refine ⟨b.value, ?_, hlooser⟩
    rw [hindex, List.getElem?_set_self (List.getElem?_eq_some_iff.mp hv).1]
  case pins =>
    intro i side hne
    rw [ActiveSet.pins_insert, h.pins i side hne, iff_or_self]
    rintro ⟨rfl, rfl⟩
    rcases hne with hne | hne
    · exact absurd hindex hne
    · exact absurd hside hne
  case mem => exact h.mem
  case agree => exact fun d hd => absurd hd (hnone d)

theorem Lags.caught_up (h : Lags c shared here late) (hindex : b.index = c.index)
    (hside : b.side = c.side) :
    Iterate.Alike shared ⟨here.point.set b.index b.value, here.active.insert b⟩
      ⟨late.point.set b.index b.value, late.active.insert b⟩ := by
  obtain ⟨v, hv, -⟩ := h.behind
  constructor
  · apply List.ext_getElem?
    intro i
    by_cases hi : b.index = i
    · subst hi
      rw [List.getElem?_set_self', List.getElem?_set_self', hindex, h.on_bound, hv]
      rfl
    · rw [List.getElem?_set_ne hi, List.getElem?_set_ne hi, h.off i fun hic => hi (hindex.trans hic.symm)]
  · refine ⟨fun i side => ?_, fun d hd => ?_⟩
    · rw [ActiveSet.pins_insert, ActiveSet.pins_insert]
      by_cases hne : i ≠ c.index ∨ side ≠ c.side
      · rw [h.pins i side hne]
      · rw [not_or, not_not, not_not] at hne
        obtain ⟨rfl, rfl⟩ := hne
        exact iff_of_true (Or.inl ⟨hindex, hside⟩) (Or.inl ⟨hindex, hside⟩)
    · rw [ActiveSet.mem_insert, ActiveSet.mem_insert, h.agree d hd]

theorem Lags.clampTo_self (h : Lags c shared here late) :
    here.clampTo c = ⟨here.point.set c.index c.value, here.active.insert c⟩ := by
  obtain ⟨hlt, hvalue⟩ := List.getElem?_eq_some_iff.mp h.on_bound
  rw [Iterate.clampTo_of_not_isViolated]
  · have hset : here.point.set c.index c.value = here.point := by
      rw [← hvalue]
      exact List.set_getElem_self hlt
    have hinsert : here.active.insert c = here.active := by
      unfold ActiveSet.insert
      rw [if_pos ((here.active.contains_iff c).mpr h.mem)]
    rw [hset, hinsert]
  · rw [Bound.isViolated_of_getElem? h.on_bound, Bound.gap_value]
    exact lt_irrefl 0

variable [IsStrictOrderedRing α] {bounds : List (Bound α)}

theorem Lags.clampTo_of_holds (h : Lags c shared here late) (hcons : Consistent bounds)
    (hc : c ∈ bounds) (hb : b ∈ bounds)
    (hholds : ¬ (b.index = c.index ∧ b.isViolated late.point = true)) :
    Lags c shared (here.clampTo b) (late.clampTo b) := by
  by_cases hindex : b.index = c.index
  · have hviol : ¬ b.isViolated late.point = true := fun hviol => hholds ⟨hindex, hviol⟩
    obtain ⟨v, hv, hbehind⟩ := h.behind
    have hroom : 0 ≤ b.gap c.value := by
      refine gap_value_nonneg hcons hc hb hindex hbehind ?_
      rwa [Bound.isViolated_of_getElem? (hindex ▸ hv), not_lt] at hviol
    have hviol' : ¬ b.isViolated here.point = true := by
      rw [Bound.isViolated_of_getElem? (hindex ▸ h.on_bound)]
      exact not_lt.mpr hroom
    rwa [Iterate.clampTo_of_not_isViolated hviol, Iterate.clampTo_of_not_isViolated hviol']
  · exact h.clampTo_of_index_ne hindex

theorem Lags.side_eq (h : Lags c shared here late) (hcons : Consistent bounds) (hc : c ∈ bounds)
    (hb : b ∈ bounds) (hindex : b.index = c.index) (hviol : b.isViolated late.point = true) :
    b.side = c.side := by
  obtain ⟨v, hv, hbehind⟩ := h.behind
  rw [Bound.isViolated_of_getElem? (hindex ▸ hv)] at hviol
  exact side_eq_of_gap_neg hcons hb hc hindex hviol hbehind

theorem Lags.clampTo_of_tighter (h : Lags c shared here late) (hindex : b.index = c.index)
    (hside : b.side = c.side) (hviol : b.isViolated late.point = true) (htighter : 0 ≤ c.gap b.value) :
    (here.clampTo b).Alike shared (late.clampTo b) := by
  rw [Iterate.clampTo_of_isViolated hviol]
  rcases htighter.eq_or_lt with hsame | htighter
  · obtain rfl : b = c := Bound.eq_of_gap_eq_zero hindex hside hsame.symm
    rw [h.clampTo_self]
    exact h.caught_up rfl rfl
  · have hviol' : b.isViolated here.point = true := by
      rw [Bound.isViolated_of_getElem? (hindex ▸ h.on_bound), Bound.gap_of_same_side hside,
        Bound.gap_value]
      linarith
    rw [Iterate.clampTo_of_isViolated hviol']
    exact h.caught_up hindex hside

theorem Lags.clampTo_of_looser (h : Lags c shared here late) (hindex : b.index = c.index)
    (hside : b.side = c.side) (hviol : b.isViolated late.point = true) (hlooser : c.gap b.value < 0)
    (hnone : ∀ d, ¬ shared d) : Lags c shared (here.clampTo b) (late.clampTo b) := by
  have hviol' : ¬ b.isViolated here.point = true := by
    rw [Bound.isViolated_of_getElem? (hindex ▸ h.on_bound), Bound.gap_of_same_side hside,
      Bound.gap_value]
    linarith
  rw [Iterate.clampTo_of_isViolated hviol, Iterate.clampTo_of_not_isViolated hviol']
  exact h.moved hindex hside hlooser hnone

/-- Over the bounds after `c` the late iterate stays behind or catches up. Members that are shared are
shared afterwards if the first bound that moves it is not looser than `c`. -/
theorem Lags.foldl_clampTo (h : Lags c shared here late) (hcons : Consistent bounds) (hc : c ∈ bounds)
    {after : List (Bound α)} (hsub : ∀ b ∈ after, b ∈ bounds)
    (hfollowed : (∀ d, ¬ shared d) ∨
      ∀ b ∈ firstViolated? after late.point c.index, 0 ≤ c.gap b.value) :
    Lags c shared (after.foldl Iterate.clampTo here) (after.foldl Iterate.clampTo late) ∨
      (after.foldl Iterate.clampTo here).Alike shared (after.foldl Iterate.clampTo late) := by
  induction after generalizing here late with
  | nil => exact Or.inl h
  | cons b after ih =>
    rw [List.forall_mem_cons] at hsub
    rw [List.foldl_cons, List.foldl_cons]
    by_cases hviol : b.index = c.index ∧ b.isViolated late.point = true
    · have hside := h.side_eq hcons hc hsub.1 hviol.1 hviol.2
      rw [firstViolated?_cons_of_eq hviol.1 hviol.2] at hfollowed
      by_cases hlooser : c.gap b.value < 0
      · have hnone : ∀ d, ¬ shared d := by
          rcases hfollowed with hnone | hfollowed
          · exact hnone
          · exact absurd (hfollowed b rfl) (not_le.mpr hlooser)
        exact ih (h.clampTo_of_looser hviol.1 hside hviol.2 hlooser hnone) hsub.2 (Or.inl hnone)
      · have halike := h.clampTo_of_tighter hviol.1 hside hviol.2 (not_lt.mp hlooser)
        exact Or.inr (halike.foldl_clampTo after)
    · rw [firstViolated?_cons_of_not hviol, ← firstViolated?_clampTo hviol] at hfollowed
      exact ih (h.clampTo_of_holds hcons hc hsub.1 hviol) hsub.2 hfollowed

omit [IsStrictOrderedRing α] in
theorem lags_clampTo (hviol : c.isViolated here.point = true) (hshared : ¬ shared c) :
    Lags c shared (here.clampTo c) here := by
  obtain ⟨v, hv, hout⟩ := (c.isViolated_iff _).mp hviol
  rw [Iterate.clampTo_of_isViolated hviol]
  constructor
  case off => exact fun i hi => (List.getElem?_set_ne (Ne.symm hi)).symm
  case on_bound => exact List.getElem?_set_self (List.getElem?_eq_some_iff.mp hv).1
  case behind => exact ⟨v, hv, hout⟩
  case pins =>
    intro i side hne
    rw [ActiveSet.pins_insert, or_iff_right]
    rintro ⟨rfl, rfl⟩
    simp at hne
  case mem => exact (ActiveSet.mem_insert _ _ _).mpr (Or.inl rfl)
  case agree =>
    intro d hd
    have hne : d ≠ c := by
      rintro rfl
      exact hshared hd
    rw [ActiveSet.mem_insert, or_iff_right hne]

/-! ## The whole clamp -/

variable {before after : List (Bound α)} {x : List α}

/-- Without a dominated bound the clamp ends at the same point and pins the same coordinates on the
same sides. -/
theorem alike_clamp (hcons : Consistent (before ++ c :: after))
    (hlong : ∀ b ∈ before ++ c :: after, b.index < x.length) (hdominated : c.DominatedBy before after)
    (hshared : ¬ shared c) (hfollowed : (∀ d, ¬ shared d) ∨ Followed before c after x) :
    (clamp (before ++ c :: after) x).Alike shared (clamp (before ++ after) x) := by
  unfold clamp
  rw [List.foldl_append, List.foldl_append, List.foldl_cons]
  change (after.foldl Iterate.clampTo ((clamp before x).clampTo c)).Alike shared
    (after.foldl Iterate.clampTo (clamp before x))
  by_cases hviol : c.isViolated (clamp before x).point = true
  · have hstart := lags_clampTo hviol hshared
    have hsub : ∀ b ∈ after, b ∈ before ++ c :: after :=
      fun b hb => List.mem_append_right _ (List.mem_cons_of_mem _ hb)
    rcases hstart.foldl_clampTo hcons (by simp) hsub (hfollowed.imp_right fun h => h hviol)
      with hlags | halike
    · -- All other bounds hold at the end, so the late iterate cannot be behind the dominated one.
      exfalso
      obtain ⟨v, hv, hbehind⟩ := hlags.behind
      have hfeasible : Feasible (before ++ after) (clamp (before ++ after) x).point :=
        feasible_clamp (hcons.mono fun b hb => mem_with c hb) fun b hb => hlong b (mem_with c hb)
      unfold clamp at hfeasible
      rw [List.foldl_append] at hfeasible
      exact absurd (hdominated.gap_nonneg hfeasible hv) (not_le.mpr hbehind)
    · exact halike
  · rw [Iterate.clampTo_of_not_isViolated hviol]
    exact ⟨rfl, .refl shared _⟩

theorem point_clamp_of_dominated (hcons : Consistent (before ++ c :: after))
    (hlong : ∀ b ∈ before ++ c :: after, b.index < x.length) (hdominated : c.DominatedBy before after) :
    (clamp (before ++ c :: after) x).point = (clamp (before ++ after) x).point := by
  have halike : (clamp (before ++ c :: after) x).Alike (fun _ => False) (clamp (before ++ after) x) :=
    alike_clamp hcons hlong hdominated not_false (Or.inl fun _ => not_false)
  exact halike.point

theorem not_mem_clamp_of_looser {b : Bound α} (hcons : Consistent (before ++ c :: after))
    (hlong : ∀ b ∈ before ++ c :: after, b.index < x.length)
    (hviol : c.isViolated (clamp before x).point = true) (hb : b ∈ after) (hindex : b.index = c.index)
    (hbviol : b.isViolated (clamp before x).point = true) (hlooser : c.gap b.value < 0) :
    b ∉ (clamp (before ++ c :: after) x).active.members := by
  have hsub : ∀ d ∈ after, d ∈ before ++ c :: after :=
    fun d hd => List.mem_append_right _ (List.mem_cons_of_mem _ hd)
  obtain ⟨v, hv, hout⟩ := (c.isViolated_iff _).mp hviol
  rw [Bound.isViolated_of_getElem? (hindex ▸ hv)] at hbviol
  have hside : b.side = c.side := side_eq_of_gap_neg hcons (hsub b hb) (by simp) hindex hbviol hout
  have hlag : Lags c (fun _ => False) ((clamp before x).clampTo c) (clamp before x) :=
    lags_clampTo hviol not_false
  unfold clamp
  rw [List.foldl_append, List.foldl_cons]
  change b ∉ (after.foldl Iterate.clampTo ((clamp before x).clampTo c)).active.members
  apply not_mem_active_foldl_clampTo hcons (hsub b hb) hsub
  case hlong =>
    intro d hd
    rw [Iterate.length_point_clampTo, length_point_clamp]
    exact hlong d (hsub d hd)
  case hholds =>
    refine (b.holds_iff _).mpr ⟨c.value, hindex ▸ hlag.on_bound, ?_⟩
    rw [Bound.gap_of_same_side hside, Bound.gap_value]
    linarith
  case hnot =>
    -- The bounds before `c` hold where `b` and `c` are violated.
    rw [Iterate.clampTo_of_isViolated hviol, ActiveSet.mem_insert]
    rintro (rfl | hmem)
    · rw [Bound.gap_value] at hlooser
      exact absurd hlooser (lt_irrefl 0)
    · have hfeasible : Feasible before (clamp before x).point :=
        feasible_clamp (hcons.mono fun d hd => List.mem_append_left _ hd)
          fun d hd => hlong d (List.mem_append_left _ hd)
      have hin := (hfeasible b (mem_of_mem_active_clamp hmem)).gap_nonneg (hindex ▸ hv)
      exact absurd hin (not_le.mpr hbviol)

theorem followed_of_agree (hcons : Consistent (before ++ c :: after))
    (hlong : ∀ b ∈ before ++ c :: after, b.index < x.length)
    (hagree : ∀ b, b ≠ c → (b ∈ (clamp (before ++ c :: after) x).active.members ↔
      b ∈ (clamp (before ++ after) x).active.members)) : Followed before c after x := by
  intro hviol b hfirst
  by_contra hlooser
  rw [not_le] at hlooser
  have hfound := List.find?_some hfirst
  rw [Bool.and_eq_true, beq_iff_eq] at hfound
  have hne : b ≠ c := by
    rintro rfl
    rw [Bound.gap_value] at hlooser
    exact absurd hlooser (lt_irrefl 0)
  have hpinned : b ∈ (clamp (before ++ after) x).active.members := by
    unfold clamp
    rw [List.foldl_append]
    exact mem_active_of_firstViolated hfirst
  rw [← hagree b hne] at hpinned
  exact not_mem_clamp_of_looser hcons hlong hviol (List.mem_of_find?_eq_some hfirst) hfound.1 hfound.2
    hlooser hpinned

end Clamp

end BoundedFit
