import BoundedFit.Proofs.Block

/-!
# Where a step leaves the feasible points

The order of the bounds does not matter.
-/

namespace BoundedFit

variable {α : Type} [Field α] [LinearOrder α]

/-- The point at the fraction `t` of the way from `x` to the end of the step. -/
def along (x delta : List α) (t : α) : List α := List.zipWith (fun v step => v + step * t) x delta

/-- The bound may stop the step: it is not pinned, and its component of the step is not negligible. -/
def Bound.MayStop (delta : List α) (active : ActiveSet α) (b : Bound α) : Prop :=
  b ∉ active.members ∧ ∃ step, delta[b.index]? = some step ∧ negligibleStep ≤ |step|

/-- The step is taken up to where it meets the bound of the block, and that is where it leaves the points
inside all bounds that may stop it. No earlier bound of the list is left there. -/
structure IsExit (bounds : List (Bound α)) (x delta : List α) (active : ActiveSet α)
    (stop : Block α) : Prop where
  scale_nonneg : 0 ≤ stop.scale
  scale_lt_one : stop.scale < 1
  mayStop : stop.bound.MayStop delta active
  holds : ∀ b ∈ bounds, b.MayStop delta active → b.Holds (along x delta stop.scale)
  met : (along x delta stop.scale)[stop.bound.index]? = some stop.bound.value
  left : ∀ t, stop.scale < t → t ≤ 1 → ¬ stop.bound.Holds (along x delta t)
  first : ∃ earlier later, bounds = earlier ++ stop.bound :: later ∧
    ∀ b ∈ earlier, b.MayStop delta active → ¬ b.Holds (along x delta 1) →
      (along x delta stop.scale)[b.index]? ≠ some b.value

variable {bounds : List (Bound α)} {x delta : List α} {active : ActiveSet α} {b : Bound α}
  {scale t v step : α}

omit [LinearOrder α] in
theorem getElem?_along (hv : x[b.index]? = some v) (hd : delta[b.index]? = some step) :
    (along x delta t)[b.index]? = some (v + step * t) := by
  unfold along
  rw [List.getElem?_zipWith, hv, hd]

theorem holds_along_iff (hv : x[b.index]? = some v) (hd : delta[b.index]? = some step) :
    b.Holds (along x delta t) ↔ 0 ≤ b.gap (v + step * t) := by
  rw [b.holds_iff, getElem?_along hv hd]
  simp

variable [IsStrictOrderedRing α]

theorem Bound.metAt_iff_along :
    b.MetAt x delta active scale ↔ b.MayStop delta active ∧ ¬ b.Holds (along x delta 1) ∧
      (along x delta scale)[b.index]? = some b.value := by
  constructor
  · rintro ⟨hact, v, step, hv, hd, hlarge, hcross, rfl⟩
    refine ⟨⟨hact, step, hd, hlarge⟩, ?_, ?_⟩
    · rw [holds_along_iff hv hd, mul_one]
      exact not_le.mpr hcross
    · rw [getElem?_along hv hd, b.add_mul_crossing v (ne_zero_of_negligibleStep_le hlarge)]
  · rintro ⟨⟨hact, step, hd, hlarge⟩, hleft, hvalue⟩
    have hv : ∃ v, x[b.index]? = some v := by
      rcases hx : x[b.index]? with _ | v
      · simp [along, List.getElem?_zipWith, hx] at hvalue
      · exact ⟨v, rfl⟩
    obtain ⟨v, hv⟩ := hv
    rw [holds_along_iff hv hd, mul_one, not_le] at hleft
    rw [getElem?_along hv hd] at hvalue
    refine ⟨hact, v, step, hv, hd, hlarge, hleft, ?_⟩
    rw [eq_div_iff (ne_zero_of_negligibleStep_le hlarge), ← Option.some.inj hvalue]
    ring

theorem Bound.MetAt.not_holds (h : b.MetAt x delta active scale) (hx : b.Holds x) (ht : scale < t) :
    ¬ b.Holds (along x delta t) := by
  obtain ⟨v, step, hv, hd, -, hcross, -⟩ := h.2
  have hmul := h.orient_mul_scale hv hd
  have hgap := hx.gap_nonneg hv
  rw [Bound.gap_add] at hcross
  have hout : b.side.orient step < 0 := by linarith
  rw [holds_along_iff hv hd, Bound.gap_add, Side.orient_mul, not_le]
  linarith [mul_lt_mul_of_neg_left ht hout]

/-! ## The closest bound -/

omit [IsStrictOrderedRing α] in
theorem IsClosest.limit_le_limit {bounds' : List (Bound α)} {block block' : Option (Block α)}
    (h : IsClosest bounds x delta active block) (h' : IsClosest bounds' x delta active block')
    (hsub : ∀ b ∈ bounds', b ∈ bounds) : Block.limit block ≤ Block.limit block' := by
  cases block' with
  | none => exact h.limit_le_one
  | some stop =>
    obtain ⟨hmem, hmet, -⟩ := h'.met stop rfl
    exact h.limit_le _ (hsub _ hmem) _ hmet

theorem first_closestBlock {stop : Block α}
    (h : closestBlock bounds x delta active = .ok (some stop)) :
    ∃ earlier later, bounds = earlier ++ stop.bound :: later ∧
      ∀ b ∈ earlier, ∀ scale, b.MetAt x delta active scale → stop.scale < scale := by
  refine (closestBlock_induction (P := fun seen closest => IsClosest seen x delta active closest ∧
    ∀ stop, closest = some stop → ∃ earlier later, seen = earlier ++ stop.bound :: later ∧
      ∀ b ∈ earlier, ∀ scale, b.MetAt x delta active scale → stop.scale < scale) ?_ ?_ h).2 stop rfl
  · exact ⟨isClosest_nil, nofun⟩
  · rintro seen b closest next ⟨hclosest, hfirst⟩ hnext
    refine ⟨isClosest_closerBlock hclosest hnext, fun stop hstop => ?_⟩
    rcases closerBlock_spec hnext with ⟨scale, -, hlt, rfl⟩ | ⟨rfl, -⟩
    · obtain rfl := Option.some.inj hstop
      exact ⟨seen, [], rfl, fun c hc scale' hmet => hlt.trans_le (hclosest.limit_le c hc scale' hmet)⟩
    · obtain ⟨earlier, later, hseen, hlater⟩ := hfirst stop hstop
      exact ⟨earlier, later ++ [b], by simp [hseen], hlater⟩

variable {block : Option (Block α)}

theorem IsClosest.holds_along (h : IsClosest bounds x delta active block)
    (hinside : ∀ b ∈ bounds, b ∉ active.members → b.Holds x) (h0 : 0 ≤ Block.limit block)
    (hb : b ∈ bounds) (hmay : b.MayStop delta active) :
    b.Holds (along x delta (Block.limit block)) := by
  obtain ⟨hact, step, hd, hlarge⟩ := hmay
  obtain ⟨v, hv, hgap⟩ := (b.holds_iff x).mp (hinside b hb hact)
  have hkept := h.gap_nonneg h0 hb hv hd (fun hmem => absurd hmem hact) le_rfl
    (by rwa [add_zero])
  have hskipped : skipped step = 0 := by
    unfold skipped
    rw [Scalar.abs_eq, if_neg (not_lt.mpr hlarge)]
  rw [hskipped, add_zero, add_zero] at hkept
  exact (holds_along_iff hv hd).mpr hkept

theorem isExit_of_closestBlock {stop : Block α}
    (hinside : ∀ b ∈ bounds, b ∉ active.members → b.Holds x)
    (h : closestBlock bounds x delta active = .ok (some stop)) : IsExit bounds x delta active stop := by
  have hclosest := isClosest_closestBlock h
  obtain ⟨hmem, hmet, hlt⟩ := hclosest.met stop rfl
  obtain ⟨hmay, -, hvalue⟩ := Bound.metAt_iff_along.mp hmet
  have hx := hinside _ hmem hmay.1
  have h0 := hmet.scale_nonneg hx
  refine ⟨h0, hlt, hmay, fun b hb => hclosest.holds_along hinside h0 hb, hvalue,
    fun t ht _ => hmet.not_holds hx ht, ?_⟩
  obtain ⟨earlier, later, hbounds, hlater⟩ := first_closestBlock h
  refine ⟨earlier, later, hbounds, fun b hb hmay hleft hsame => ?_⟩
  exact lt_irrefl _ (hlater b hb stop.scale (Bound.metAt_iff_along.mpr ⟨hmay, hleft, hsame⟩))

theorem IsClosest.eq_none_iff (h : IsClosest bounds x delta active block)
    (hinside : ∀ b ∈ bounds, b ∉ active.members → b.Holds x) :
    block = none ↔ ∀ b ∈ bounds, b.MayStop delta active → b.Holds (along x delta 1) := by
  constructor
  · rintro rfl b hb hmay
    exact h.holds_along hinside zero_le_one hb hmay
  · intro hend
    rcases hblock : block with _ | stop
    · rfl
    · obtain ⟨hmem, hmet, -⟩ := h.met stop hblock
      obtain ⟨hmay, hleft, -⟩ := Bound.metAt_iff_along.mp hmet
      exact absurd (hend _ hmem hmay) hleft

omit [IsStrictOrderedRing α] in
theorem land_of_isExit {stop : Block α} (hlength : delta.length = x.length)
    (h : IsExit bounds x delta active stop) :
    Iterate.land ⟨x, active⟩ delta (some stop) =
      .ok ⟨along x delta stop.scale, active.insert stop.bound⟩ := by
  have hpoint : List.zipWith (· + ·) x (shorten delta (some stop)) = along x delta stop.scale := by
    unfold along shorten
    rw [List.zipWith_map_right]
  obtain ⟨hlt, hvalue⟩ := List.getElem?_eq_some_iff.mp h.met
  rw [land_eq hlength, hpoint]
  unfold Iterate.pin
  dsimp only
  rw [← hvalue, List.set_getElem_self]

/-- From a point inside the bounds outside the active set, the step is stopped exactly if it ends
outside one of those that may stop it, and then where it leaves them. -/
theorem closestBlock_isExit (hlength : delta.length = x.length)
    (hinside : ∀ b ∈ bounds, b ∉ active.members → b.Holds x) :
    ∃ block, closestBlock bounds x delta active = .ok block ∧
      (block = none ∧ shorten delta block = delta ↔
        ∀ b ∈ bounds, b.MayStop delta active → b.Holds (along x delta 1)) ∧
      (∀ stop, block = some stop →
        shorten delta block = delta.map (· * stop.scale) ∧ IsExit bounds x delta active stop ∧
        Iterate.land ⟨x, active⟩ delta block =
          .ok ⟨along x delta stop.scale, active.insert stop.bound⟩) ∧
      ∀ reordered, reordered.Perm bounds →
        ∃ block', closestBlock reordered x delta active = .ok block' ∧
          shorten delta block' = shorten delta block := by
  have hlong : ∀ b ∈ bounds, b ∉ active.members → b.index < x.length := by
    intro b hb hact
    obtain ⟨v, hv, -⟩ := (b.holds_iff x).mp (hinside b hb hact)
    exact (List.getElem?_eq_some_iff.mp hv).1
  have hanswer : ∀ bounds : List (Bound α), (∀ b ∈ bounds, b ∉ active.members → b.index < x.length) →
      ∃ block, closestBlock bounds x delta active = .ok block := by
    simp only [← active.contains_iff]
    exact fun bounds hlong => exists_closestBlock active hlong (by rwa [hlength])
  obtain ⟨block, hblock⟩ := hanswer bounds hlong
  have hclosest := isClosest_closestBlock hblock
  refine ⟨block, hblock, ?_, ?_, fun reordered hperm => ?_⟩
  · -- Nothing stops the step.
    rw [← hclosest.eq_none_iff hinside]
    constructor
    · exact And.left
    · rintro rfl
      exact ⟨rfl, rfl⟩
  · -- A bound stops it.
    rintro stop rfl
    have hexit := isExit_of_closestBlock hinside hblock
    exact ⟨rfl, hexit, land_of_isExit hlength hexit⟩
  · obtain ⟨block', hblock'⟩ := hanswer reordered fun b hb => hlong b (hperm.mem_iff.mp hb)
    have hclosest' := isClosest_closestBlock hblock'
    have hlimit : Block.limit block' = Block.limit block := le_antisymm
      (hclosest'.limit_le_limit hclosest fun b hb => hperm.mem_iff.mpr hb)
      (hclosest.limit_le_limit hclosest' fun b hb => hperm.mem_iff.mp hb)
    exact ⟨block', hblock', by rw [shorten_eq_map, shorten_eq_map, hlimit]⟩

/-- Two bounds are met half way, a third one later, and a fourth one is pinned. -/
def corner : List (Bound ℚ) := [⟨0, 3, .upper⟩, ⟨0, 2, .upper⟩, ⟨1, -1, .lower⟩, ⟨0, 1, .upper⟩]

theorem closestBlock_corner :
    closestBlock corner [0, 0] [4, -2] ⟨[⟨0, 1, .upper⟩]⟩ = .ok (some ⟨⟨0, 2, .upper⟩, 1 / 2⟩) := by
  norm_num [corner, closestBlock, closerBlock, ActiveSet.contains, Bound.same, Scalar.same,
    coordinate, bind, Except.bind, Bound.crossing?, Side.orient, Block.limit, pure, Except.pure,
    Scalar.abs, negligibleStep]

theorem isExit_corner :
    IsExit corner [0, 0] [4, -2] ⟨[⟨0, 1, .upper⟩]⟩ ⟨⟨0, 2, .upper⟩, 1 / 2⟩ ∧
      ∃ block, closestBlock corner.reverse [0, 0] [4, -2] ⟨[⟨0, 1, .upper⟩]⟩ = .ok block ∧
        shorten [4, -2] block = [2, -1] := by
  have hlength : ([4, -2] : List ℚ).length = ([0, 0] : List ℚ).length := rfl
  have hinside : ∀ b ∈ corner, b ∉ (⟨[⟨0, 1, .upper⟩]⟩ : ActiveSet ℚ).members → b.Holds [0, 0] := by
    norm_num [corner, Bound.holds_iff, Bound.gap, Side.orient]
  obtain ⟨block, hblock, -, hexit, hreordered⟩ := closestBlock_isExit hlength hinside
  obtain rfl := Except.ok.inj (hblock.symm.trans closestBlock_corner)
  obtain ⟨block', hblock', hsame⟩ := hreordered corner.reverse corner.reverse_perm
  refine ⟨(hexit _ rfl).2.1, block', hblock', hsame.trans ?_⟩
  norm_num [shorten]

end BoundedFit
