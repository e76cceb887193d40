import BoundedFit.Proofs.Feasible

/-!
# Where a step stops

At the smallest fraction at which it meets a bound that it would go past.
-/

namespace BoundedFit

/-! ## One bound after the other -/

section Search

variable {α : Type} [Add α] [Sub α] [Div α] [Neg α] [Zero α] [One α]
  [LT α] [LE α] [DecidableLT α] [DecidableLE α] [OfScientific α]
  {bounds : List (Bound α)} {x delta : List α} {active : ActiveSet α}

theorem closestBlock_induction {P : List (Bound α) → Option (Block α) → Prop} (hnil : P [] none)
    (hcons : ∀ seen b closest next, P seen closest →
      closerBlock x delta active closest b = .ok next → P (seen ++ [b]) next)
    {block : Option (Block α)} (h : closestBlock bounds x delta active = .ok block) :
    P bounds block := by
  have hrest : ∀ (rest seen : List (Bound α)) (closest : Option (Block α)), P seen closest →
      rest.foldlM (closerBlock x delta active) closest = .ok block → P (seen ++ rest) block := by
    intro rest
    induction rest with
    | nil =>
      intro seen closest hclosest h
      obtain rfl : closest = block := by simpa [pure, Except.pure] using h
      simpa using hclosest
    | cons b rest ih =>
      intro seen closest hclosest h
      rw [List.foldlM_cons] at h
      cases hnext : closerBlock x delta active closest b with
      | error fault => simp [hnext, bind, Except.bind] at h
      | ok next =>
        rw [hnext] at h
        rw [List.append_cons]
        exact ih _ next (hcons seen b closest next hclosest hnext) h
  exact hrest bounds [] none hnil h

theorem exists_closestBlock (active : ActiveSet α)
    (hx : ∀ b ∈ bounds, ¬ active.contains b = true → b.index < x.length)
    (hdelta : ∀ b ∈ bounds, ¬ active.contains b = true → b.index < delta.length) :
    ∃ block, closestBlock bounds x delta active = .ok block := by
  unfold closestBlock
  generalize (none : Option (Block α)) = closest
  induction bounds generalizing closest with
  | nil => exact ⟨closest, rfl⟩
  | cons b bounds ih =>
    rw [List.forall_mem_cons] at hx hdelta
    obtain ⟨next, hnext⟩ : ∃ next, closerBlock x delta active closest b = .ok next := by
      unfold closerBlock
      by_cases hact : active.contains b = true
      · rw [hact]
        exact ⟨closest, rfl⟩
      simp only [coordinate, List.getElem?_eq_getElem (hx.1 hact),
        List.getElem?_eq_getElem (hdelta.1 hact), bind, Except.bind, pure, Except.pure]
      repeat' split
      all_goals exact ⟨_, rfl⟩
    obtain ⟨block, hblock⟩ := ih hx.2 hdelta.2 next
    refine ⟨block, ?_⟩
    rw [List.foldlM_cons, hnext]
    exact hblock

theorem lt_of_closestBlock {block : Option (Block α)}
    (h : closestBlock bounds x delta active = .ok block) :
    ∀ b ∈ bounds, ¬ active.contains b = true → b.index < delta.length := by
  refine closestBlock_induction (P := fun seen _ => ∀ b ∈ seen, ¬ active.contains b = true →
    b.index < delta.length) (List.forall_mem_nil _) (fun seen b closest next hseen hnext => ?_) h
  rw [List.forall_mem_append, List.forall_mem_singleton]
  refine ⟨hseen, fun hact => ?_⟩
  by_contra hbeyond
  have hnone : delta[b.index]? = none := List.getElem?_eq_none (by omega)
  simp [closerBlock, hact, coordinate, hnone, bind, Except.bind] at hnext

end Search

theorem length_shorten {α : Type} [Mul α] (delta : List α) (block : Option (Block α)) :
    (shorten delta block).length = delta.length := by
  cases block <;> simp [shorten]

variable {α : Type} [Field α] [LinearOrder α]

/-! ## Bounds that the step meets -/

/-- The bound may stop the step, the whole step goes past it, and they meet at the fraction
`scale`. -/
def Bound.MetAt (x delta : List α) (active : ActiveSet α) (b : Bound α) (scale : α) : Prop :=
  b ∉ active.members ∧ ∃ v step, x[b.index]? = some v ∧ delta[b.index]? = some step ∧
    negligibleStep ≤ |step| ∧ b.gap (v + step) < 0 ∧ scale = (b.value - v) / step

/-- `block` is the first of the bounds that the step meets. -/
structure IsClosest (bounds : List (Bound α)) (x delta : List α) (active : ActiveSet α)
    (block : Option (Block α)) : Prop where
  met : ∀ stop, block = some stop →
    stop.bound ∈ bounds ∧ stop.bound.MetAt x delta active stop.scale ∧ stop.scale < 1
  limit_le : ∀ b ∈ bounds, ∀ scale, b.MetAt x delta active scale → Block.limit block ≤ scale

variable {bounds : List (Bound α)} {x delta : List α} {active : ActiveSet α}

theorem isClosest_nil : IsClosest [] x delta active none :=
  ⟨fun stop hstop => (by cases hstop), fun b hb => (by cases hb)⟩

theorem IsClosest.limit_le_one {block : Option (Block α)}
    (h : IsClosest bounds x delta active block) : Block.limit block ≤ 1 := by
  cases block with
  | none => exact le_rfl
  | some stop => exact (h.met stop rfl).2.2.le

theorem Bound.metAt_iff {b : Bound α} {v step : α} (hv : x[b.index]? = some v)
    (hd : delta[b.index]? = some step) (scale : α) :
    b.MetAt x delta active scale ↔ b ∉ active.members ∧ negligibleStep ≤ |step| ∧
      b.gap (v + step) < 0 ∧ scale = (b.value - v) / step := by
  constructor
  · rintro ⟨hact, v', step', hv', hd', h⟩
    rw [hv] at hv'
    rw [hd] at hd'
    obtain rfl := Option.some.inj hv'
    obtain rfl := Option.some.inj hd'
    exact ⟨hact, h⟩
  · rintro ⟨hact, h⟩
    exact ⟨hact, v, step, hv, hd, h⟩

theorem Bound.MetAt.unique {b : Bound α} {scale scale' : α} (h : b.MetAt x delta active scale)
    (h' : b.MetAt x delta active scale') : scale = scale' := by
  obtain ⟨v, step, hv, hd, -, -, rfl⟩ := h.2
  exact ((Bound.metAt_iff hv hd scale').mp h').2.2.2.symm

section Closest

variable [IsStrictOrderedRing α]

theorem closerBlock_spec {closest next : Option (Block α)} {b : Bound α}
    (h : closerBlock x delta active closest b = .ok next) :
    (∃ scale, b.MetAt x delta active scale ∧ scale < Block.limit closest ∧
      next = some ⟨b, scale⟩) ∨
    (next = closest ∧ ∀ scale, b.MetAt x delta active scale → Block.limit closest ≤ scale) := by
  unfold closerBlock at h
  by_cases hact : b ∈ active.members
  · rw [(active.contains_iff b).mpr hact] at h
    obtain rfl : closest = next := by simpa [pure, Except.pure] using h
    exact Or.inr ⟨rfl, fun scale hmet => absurd hact hmet.1⟩
  have hcon : ¬ active.contains b = true := fun hc => hact ((active.contains_iff b).mp hc)
  cases hd : delta[b.index]? with
  | none => simp [hcon, coordinate, hd, bind, Except.bind] at h
  | some step =>
    by_cases hsmall : Scalar.abs step < negligibleStep
    · -- The component is too small to stop a step.
      obtain rfl : closest = next := by
        simpa [hcon, coordinate, hd, hsmall, bind, Except.bind, pure, Except.pure] using h
      refine Or.inr ⟨rfl, ?_⟩
      rintro scale ⟨-, v, step', -, hd', hlarge, -⟩
      rw [hd] at hd'
      rw [← Option.some.inj hd', ← Scalar.abs_eq] at hlarge
      exact absurd hsmall (not_lt.mpr hlarge)
    cases hv : x[b.index]? with
    | none => simp [hcon, coordinate, hd, hv, hsmall, bind, Except.bind] at h
    | some v =>
      have hlarge : negligibleStep ≤ |step| := by rwa [Scalar.abs_eq, not_lt] at hsmall
      simp only [hcon, coordinate, hd, hv, hsmall, bind, Except.bind, pure, Except.pure,
        if_false] at h
      simp only [Bound.metAt_iff hv hd]
      cases hcross : b.crossing? v step with
      | none =>
        rw [hcross] at h
        refine Or.inr ⟨by simpa using h.symm, ?_⟩
        rintro scale ⟨-, -, hmet⟩
        rw [(b.crossing?_eq_some_iff v step scale).mpr hmet] at hcross
        cases hcross
      | some scale =>
        rw [hcross] at h
        have hmet := (b.crossing?_eq_some_iff v step scale).mp hcross
        by_cases hlt : scale < Block.limit closest
        · exact Or.inl ⟨scale, ⟨hact, hlarge, hmet⟩, hlt, by simpa [hlt] using h.symm⟩
        · refine Or.inr ⟨by simpa [hlt] using h.symm, ?_⟩
          rintro _ ⟨-, -, -, rfl⟩
          rw [← hmet.2]
          exact not_lt.mp hlt

theorem isClosest_closerBlock {seen : List (Bound α)} {closest next : Option (Block α)} {b : Bound α}
    (hclosest : IsClosest seen x delta active closest)
    (h : closerBlock x delta active closest b = .ok next) :
    IsClosest (seen ++ [b]) x delta active next := by
  rcases closerBlock_spec h with ⟨scale, hmet, hlt, rfl⟩ | ⟨rfl, hle⟩
  · constructor
    · rintro stop ⟨rfl⟩
      exact ⟨by simp, hmet, hlt.trans_le hclosest.limit_le_one⟩
    · intro c hc scale' hmet'
      rcases List.mem_append.mp hc with hc | hc
      · exact hlt.le.trans (hclosest.limit_le c hc scale' hmet')
      · obtain rfl := List.mem_singleton.mp hc
        exact (hmet.unique hmet').le
  · constructor
    · intro stop hstop
      obtain ⟨hmem, hrest⟩ := hclosest.met stop hstop
      exact ⟨List.mem_append_left _ hmem, hrest⟩
    · intro c hc scale hmet
      rcases List.mem_append.mp hc with hc | hc
      · exact hclosest.limit_le c hc scale hmet
      · obtain rfl := List.mem_singleton.mp hc
        exact hle scale hmet

theorem isClosest_closestBlock {block : Option (Block α)}
    (h : closestBlock bounds x delta active = .ok block) :
    IsClosest bounds x delta active block := by
  apply closestBlock_induction (P := fun seen closest => IsClosest seen x delta active closest) _ _ h
  · exact isClosest_nil
  · intro seen b closest next hclosest hnext
    exact isClosest_closerBlock hclosest hnext

end Closest

/-! ## The fraction of the step that is taken -/

/-- What a step component that is too small to stop the step may carry its coordinate. -/
def skipped {α : Type} [Neg α] [Zero α] [LT α] [DecidableLT α] [OfScientific α] (step : α) : α :=
  if Scalar.abs step < negligibleStep then Scalar.abs step else 0

section Limit

variable [IsStrictOrderedRing α]

theorem skipped_nonneg (step : α) : 0 ≤ skipped step := by
  unfold skipped
  split
  · rw [Scalar.abs_eq]
    exact abs_nonneg step
  · exact le_rfl

theorem skipped_le_negligibleStep (step : α) : skipped step ≤ negligibleStep := by
  unfold skipped
  split
  · rename_i h
    exact h.le
  · exact negligibleStep_pos.le

namespace Bound.MetAt

variable {b : Bound α} {scale v step : α}

theorem orient_mul_scale (h : b.MetAt x delta active scale) (hv : x[b.index]? = some v)
    (hd : delta[b.index]? = some step) : b.side.orient step * scale = -b.gap v := by
  obtain ⟨-, hlarge, -, hscale⟩ := (Bound.metAt_iff hv hd scale).mp h
  have hne := ne_zero_of_negligibleStep_le hlarge
  have hzero : b.gap (v + step * scale) = 0 := by
    rw [hscale, b.add_mul_crossing v hne, Bound.gap_value]
  rw [Bound.gap_add, Side.orient_mul] at hzero
  linarith

theorem scale_neg_iff (h : b.MetAt x delta active scale) (hv : x[b.index]? = some v)
    (hd : delta[b.index]? = some step) :
    scale < 0 ↔ b.gap v < 0 ∧ b.side.orient step < 0 := by
  have hmul := h.orient_mul_scale hv hd
  have hcross := ((Bound.metAt_iff hv hd scale).mp h).2.2.1
  rw [Bound.gap_add] at hcross
  constructor
  · intro hneg
    have hout : b.side.orient step < 0 := by
      by_contra hin
      have := mul_nonpos_of_nonneg_of_nonpos (not_lt.mp hin) hneg.le
      linarith
    exact ⟨by linarith [mul_pos_of_neg_of_neg hout hneg], hout⟩
  · rintro ⟨hgap, hout⟩
    by_contra hpos
    have := mul_nonpos_of_nonpos_of_nonneg hout.le (not_lt.mp hpos)
    linarith

theorem scale_nonneg (h : b.MetAt x delta active scale) (hx : b.Holds x) : 0 ≤ scale := by
  obtain ⟨v, step, hv, hd, -⟩ := h.2
  by_contra hneg
  exact absurd (hx.gap_nonneg hv) (not_le.mpr ((h.scale_neg_iff hv hd).mp (not_le.mp hneg)).1)

theorem scale_lt_one (h : b.MetAt x delta active scale) (hx : b.Holds x) : scale < 1 := by
  obtain ⟨v, step, hv, hd, -, hcross, -⟩ := h.2
  have hmul := h.orient_mul_scale hv hd
  have hgap := hx.gap_nonneg hv
  rw [Bound.gap_add] at hcross
  have hout : b.side.orient step < 0 := by linarith
  by_contra hlate
  linarith [mul_le_mul_of_nonpos_left (not_lt.mp hlate) hout.le]

theorem component_ne_zero (h : b.MetAt x delta active scale) : delta.getD b.index 0 ≠ 0 := by
  obtain ⟨-, v, step, -, hd, hlarge, -⟩ := h
  rw [List.getD_eq_getElem?_getD, hd, Option.getD_some]
  exact ne_zero_of_negligibleStep_le hlarge

end Bound.MetAt

variable {block : Option (Block α)}

theorem IsClosest.eq_none (h : IsClosest bounds x delta active block)
    (hzero : ∀ stop, block = some stop → delta.getD stop.bound.index 0 = 0) : block = none := by
  rcases hblock : block with _ | stop
  · rfl
  · exact absurd (hzero stop hblock) (h.met stop hblock).2.1.component_ne_zero

theorem IsClosest.limit_nonneg (h : IsClosest bounds x delta active block)
    (hfeasible : Feasible bounds x) : 0 ≤ Block.limit block := by
  cases block with
  | none => exact zero_le_one
  | some stop =>
    obtain ⟨hmem, hmet, -⟩ := h.met stop rfl
    exact hmet.scale_nonneg (hfeasible _ hmem)

/-- A bound that was violated by at most `d` is violated by at most `d` after the shortened step,
unless its component of the step was skipped. -/
theorem IsClosest.gap_nonneg (h : IsClosest bounds x delta active block)
    (h0 : 0 ≤ Block.limit block) {b : Bound α} (hb : b ∈ bounds) {v step d : α}
    (hv : x[b.index]? = some v) (hd : delta[b.index]? = some step)
    (hpinned : b ∈ active.members → step = 0) (hd0 : 0 ≤ d) (hgap : 0 ≤ b.gap v + d) :
    0 ≤ b.gap (v + step * Block.limit block) + (d + skipped step) := by
  have h1 := h.limit_le_one
  rw [Bound.gap_add, Side.orient_mul]
  by_cases hsmall : |step| < negligibleStep
  · have hle : -|step| ≤ b.side.orient step * Block.limit block := by
      have habs : |b.side.orient step * Block.limit block| ≤ |step| := by
        rw [abs_mul, Side.abs_orient, abs_of_nonneg h0]
        exact mul_le_of_le_one_right (abs_nonneg step) h1
      exact (abs_le.mp habs).1
    rw [skipped, Scalar.abs_eq, if_pos hsmall]
    linarith
  have hlarge := not_lt.mp hsmall
  rw [skipped, Scalar.abs_eq, if_neg hsmall, add_zero]
  by_cases hcross : b.gap (v + step) < 0
  · have hact : b ∉ active.members := by
      intro hact
      rw [hpinned hact, abs_zero] at hlarge
      exact absurd hlarge (not_le.mpr negligibleStep_pos)
    have hmet : b.MetAt x delta active ((b.value - v) / step) :=
      (Bound.metAt_iff hv hd _).mpr ⟨hact, hlarge, hcross, rfl⟩
    have hlimit := h.limit_le b hb _ hmet
    have hmul := hmet.orient_mul_scale hv hd
    by_cases hin : 0 ≤ b.side.orient step
    · linarith [mul_nonneg hin h0]
    · -- The step leaves through `b`, and was not outside before, or the fraction were negative.
      have hout := not_le.mp hin
      have hinside : 0 ≤ b.gap v := by
        by_contra hneg
        have := (hmet.scale_neg_iff hv hd).mpr ⟨not_le.mp hneg, hout⟩
        linarith
      have := mul_le_mul_of_nonpos_left hlimit hout.le
      linarith
  · rw [Bound.gap_add] at hcross
    have hend := mul_nonneg h0 (not_lt.mp hcross)
    have hstart := mul_nonneg (sub_nonneg.mpr h1) hgap
    have hdist := mul_nonneg h0 hd0
    linarith

end Limit

/-! ## Taking the shortened step -/

omit [LinearOrder α] in
theorem getElem?_shorten (delta : List α) (block : Option (Block α)) (i : Nat) :
    (shorten delta block)[i]? = delta[i]?.map (· * Block.limit block) := by
  cases block <;> simp [shorten, Block.limit]

omit [LinearOrder α] in
theorem shorten_eq_map (delta : List α) (block : Option (Block α)) :
    shorten delta block = delta.map (· * Block.limit block) := by
  cases block <;> simp [shorten, Block.limit]

variable {next : Iterate α} {block : Option (Block α)}

theorem land_eq (hlength : delta.length = x.length) (block : Option (Block α)) :
    Iterate.land ⟨x, active⟩ delta block =
      .ok (Iterate.pin ⟨List.zipWith (· + ·) x (shorten delta block), active⟩ block) := by
  unfold Iterate.land
  rw [Vec.zipStretched?_of_length_eq _ (by rw [length_shorten, hlength])]

theorem length_point_land (hland : Iterate.land ⟨x, active⟩ delta block = .ok next)
    (hlength : delta.length = x.length) : next.point.length = x.length := by
  rw [land_eq hlength] at hland
  obtain rfl := Except.ok.inj hland
  cases block <;> simp [Iterate.pin, length_shorten, hlength]

theorem mem_active_land (hland : Iterate.land ⟨x, active⟩ delta block = .ok next)
    (hlength : delta.length = x.length) (b : Bound α) :
    b ∈ next.active.members ↔ b ∈ active.members ∨ ∃ stop, block = some stop ∧ b = stop.bound := by
  rw [land_eq hlength] at hland
  obtain rfl := Except.ok.inj hland
  cases block with
  | none => simp [Iterate.pin]
  | some stop => simp [Iterate.pin, ActiveSet.mem_insert, or_comm]

/-- Every coordinate moves by the same fraction of the step. Putting the coordinate of the block on
its bound changes nothing, since it is there. -/
theorem getElem?_point_land [IsStrictOrderedRing α] {kept : ActiveSet α}
    (hland : Iterate.land ⟨x, active⟩ delta block = .ok next) (hlength : delta.length = x.length)
    (hclosest : IsClosest bounds x delta kept block)
    {i : Nat} {v step : α} (hv : x[i]? = some v) (hd : delta[i]? = some step) :
    next.point[i]? = some (v + step * Block.limit block) := by
  rw [land_eq hlength] at hland
  obtain rfl := Except.ok.inj hland
  have hmoved : (List.zipWith (· + ·) x (shorten delta block))[i]? =
      some (v + step * Block.limit block) := by
    rw [List.getElem?_zipWith, hv, getElem?_shorten, hd]
    rfl
  cases block with
  | none => exact hmoved
  | some stop =>
    unfold Iterate.pin
    by_cases hi : stop.bound.index = i
    · subst hi
      obtain ⟨-, hmet, -⟩ := hclosest.met stop rfl
      obtain ⟨-, hlarge, -, hscale⟩ := (Bound.metAt_iff hv hd _).mp hmet
      have hne := ne_zero_of_negligibleStep_le hlarge
      rw [List.getElem?_set_self (List.getElem?_eq_some_iff.mp hmoved).1]
      simp only [Block.limit]
      rw [hscale, Bound.add_mul_crossing _ v hne]
    · rw [List.getElem?_set_ne hi]
      exact hmoved

theorem point_land [IsStrictOrderedRing α] {kept : ActiveSet α}
    (hland : Iterate.land ⟨x, active⟩ delta block = .ok next) (hlength : delta.length = x.length)
    (hclosest : IsClosest bounds x delta kept block) :
    next.point = List.zipWith (fun v step => v + step * Block.limit block) x delta := by
  apply List.ext_getElem?
  intro i
  by_cases hi : i < x.length
  · have hv : x[i]? = some x[i] := List.getElem?_eq_getElem hi
    have hd : delta[i]? = some (delta.get ⟨i, by omega⟩) := List.getElem?_eq_getElem _
    rw [getElem?_point_land hland hlength hclosest hv hd, List.getElem?_zipWith, hv, hd]
  · have hnext : next.point.length ≤ i := by
      rw [length_point_land hland hlength]
      omega
    rw [List.getElem?_eq_none hnext, List.getElem?_eq_none (by simp; omega)]

end BoundedFit
