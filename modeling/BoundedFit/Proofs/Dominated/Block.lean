import BoundedFit.Proofs.Block
import BoundedFit.Proofs.Dominated.Clamp

/-!
# Stopping without a dominated bound

The tighter bound is met before.
-/

namespace BoundedFit

/-! ## Closest blocks as a fold -/

section Fold

variable {α : Type} [Field α] [LinearOrder α] {x delta : List α} {b : Bound α}
  {bounds : List (Bound α)}

/-- The fraction of the step at which it meets the bound, if it goes past it and is not too small to
stop. -/
def Bound.meeting? (x delta : List α) (b : Bound α) : Option α :=
  match delta[b.index]?, x[b.index]? with
  | some step, some v => if Scalar.abs step < negligibleStep then none else b.crossing? v step
  | _, _ => none

/-- The closer of a block and a bound that the step may meet. -/
def nearer (x delta : List α) (closest : Option (Block α)) (b : Bound α) : Option (Block α) :=
  match b.meeting? x delta with
  | none => closest
  | some scale => if scale < Block.limit closest then some ⟨b, scale⟩ else closest

theorem nearer_of_lt {closest : Option (Block α)} {scale : α} (h : b.meeting? x delta = some scale)
    (hlt : scale < Block.limit closest) : nearer x delta closest b = some ⟨b, scale⟩ := by
  simp [nearer, h, hlt]

theorem nearer_of_le {closest : Option (Block α)}
    (h : ∀ scale, b.meeting? x delta = some scale → Block.limit closest ≤ scale) :
    nearer x delta closest b = closest := by
  unfold nearer
  split
  · rfl
  · rename_i scale hmeeting
    exact if_neg (not_lt.mpr (h scale hmeeting))

theorem closerBlock_empty (hx : b.index < x.length) (closest : Option (Block α)) :
    closerBlock x delta .empty closest b =
      if delta.length ≤ b.index then .error (.noPosition b.index)
      else .ok (nearer x delta closest b) := by
  have hcontains : (ActiveSet.empty : ActiveSet α).contains b = false := rfl
  unfold closerBlock nearer Bound.meeting?
  rw [hcontains]
  by_cases hlong : delta.length ≤ b.index
  · simp [coordinate, hlong, bind, Except.bind]
  · have hd : delta[b.index]? = some (delta.get ⟨b.index, not_le.mp hlong⟩) :=
      List.getElem?_eq_getElem _
    simp only [coordinate, hd, List.getElem?_eq_getElem hx, hlong, bind, Except.bind, pure,
      Except.pure, if_false, Bool.false_eq_true]
    split
    · rfl
    · cases b.crossing? x[b.index] _ with
      | none => rfl
      | some scale => rfl

theorem closestBlock_empty (hx : ∀ b ∈ bounds, b.index < x.length)
    (hsigned : ∀ b ∈ bounds, Word.isSigned b.index = true) :
    closestBlock bounds x delta .empty =
      if bounds.any fun b => decide (delta.length ≤ b.index) then .error .noCoordinate
      else .ok (bounds.foldl (nearer x delta) none) := by
  unfold closestBlock
  generalize (none : Option (Block α)) = closest
  induction bounds generalizing closest with
  | nil => rfl
  | cons b bounds ih =>
    rw [List.forall_mem_cons] at hx hsigned
    rw [List.foldlM_cons, closerBlock_empty hx.1, List.any_cons, List.foldl_cons]
    by_cases hlong : delta.length ≤ b.index
    · simp [hlong, Fault.noPosition, hsigned.1, bind, Except.bind]
    · simp only [hlong, decide_false, Bool.false_or, if_false]
      exact ih hx.2 hsigned.2 _

theorem limit_nearer_le (closest : Option (Block α)) (b : Bound α) :
    Block.limit (nearer x delta closest b) ≤ Block.limit closest := by
  unfold nearer
  split
  · exact le_rfl
  · split
    · rename_i hlt
      exact hlt.le
    · exact le_rfl

theorem limit_foldl_nearer_le (bounds : List (Bound α)) (closest : Option (Block α)) :
    Block.limit (bounds.foldl (nearer x delta) closest) ≤ Block.limit closest := by
  induction bounds generalizing closest with
  | nil => exact le_rfl
  | cons b bounds ih => exact (ih _).trans (limit_nearer_le closest b)

theorem limit_foldl_nearer_le_meeting (hb : b ∈ bounds) {scale : α}
    (h : b.meeting? x delta = some scale) (closest : Option (Block α)) :
    Block.limit (bounds.foldl (nearer x delta) closest) ≤ scale := by
  induction bounds generalizing closest with
  | nil => cases hb
  | cons d bounds ih =>
    rcases List.mem_cons.mp hb with rfl | hb
    · refine (limit_foldl_nearer_le bounds _).trans ?_
      by_cases hlt : scale < Block.limit closest
      · rw [nearer_of_lt h hlt]
        exact le_rfl
      · refine (limit_nearer_le closest b).trans (not_lt.mp hlt)
    · exact ih hb _

theorem foldl_nearer_of_closer {c d : Bound α} {far close : α} (hd : d ∈ bounds)
    (hmeeting : d.meeting? x delta = some close) (hcloser : close < far) {other : Option (Block α)}
    (hother : far ≤ Block.limit other) :
    bounds.foldl (nearer x delta) (some ⟨c, far⟩) = bounds.foldl (nearer x delta) other := by
  induction bounds generalizing other with
  | nil => cases hd
  | cons b bounds ih =>
    rw [List.foldl_cons, List.foldl_cons]
    by_cases hstops : ∃ scale, b.meeting? x delta = some scale ∧ scale < far
    · -- From here on both have found the same block.
      obtain ⟨scale, hscale, hlt⟩ := hstops
      have hlt' : scale < Block.limit (some ⟨c, far⟩) := hlt
      rw [nearer_of_lt hscale hlt', nearer_of_lt hscale (hlt.trans_le hother)]
    · push Not at hstops
      have hne : d ≠ b := by
        rintro rfl
        exact absurd hcloser (not_lt.mpr (hstops close hmeeting))
      rw [nearer_of_le hstops]
      apply ih ((List.mem_cons.mp hd).resolve_left hne)
      unfold nearer
      split
      · exact hother
      · rename_i scale hscale
        split
        · exact hstops scale hscale
        · exact hother

end Fold

/-! ## The tighter bound comes first -/

section Dominated

variable {α : Type} [Field α] [LinearOrder α] [IsStrictOrderedRing α] {x delta : List α}
  {c d : Bound α} {before after : List (Bound α)}

theorem Bound.meeting?_eq_some_iff (b : Bound α) (scale : α) :
    b.meeting? x delta = some scale ↔ b.MetAt x delta .empty scale := by
  have hnot : b ∉ (ActiveSet.empty : ActiveSet α).members := List.not_mem_nil
  unfold meeting?
  split
  · rename_i step v hd hv
    rw [Bound.metAt_iff hv hd, ← crossing?_eq_some_iff, Scalar.abs_eq]
    split
    · rename_i hsmall
      simp [not_le.mpr hsmall]
    · rename_i hlarge
      simp [not_lt.mp hlarge, hnot]
  · rename_i hnone
    refine iff_of_false nofun ?_
    rintro ⟨-, v, step, hv, hd, -⟩
    exact hnone step v hd hv

theorem Bound.meeting?_of_tighter (hindex : d.index = c.index) (hside : d.side = c.side)
    (htighter : 0 < c.gap d.value) {scale : α} (h : c.meeting? x delta = some scale)
    (hlt : scale < 1) : ∃ closer, d.meeting? x delta = some closer ∧ closer < scale := by
  have hmet := (c.meeting?_eq_some_iff scale).mp h
  obtain ⟨v, step, hv, hd, hlarge, hcross, -⟩ := hmet.2
  have hmul := hmet.orient_mul_scale hv hd
  have hgap := Bound.gap_of_same_side hside
  have hmet' : d.MetAt x delta .empty ((d.value - v) / step) := by
    refine ⟨List.not_mem_nil, v, step, hindex ▸ hv, hindex ▸ hd, hlarge, ?_, rfl⟩
    rw [hgap]
    linarith
  have hmul' := hmet'.orient_mul_scale (hindex ▸ hv) (hindex ▸ hd)
  rw [hgap, hside] at hmul'
  refine ⟨_, (d.meeting?_eq_some_iff _).mpr hmet', ?_⟩
  -- The step moves outside: it goes past `c`, and meets it before its end.
  have hout : c.side.orient step < 0 := by
    rw [Bound.gap_add] at hcross
    by_contra hin
    have := mul_nonneg (not_lt.mp hin) (sub_nonneg.mpr hlt.le)
    linarith
  by_contra hfar
  have := mul_nonpos_of_nonpos_of_nonneg hout.le (sub_nonneg.mpr (not_lt.mp hfar))
  linarith

theorem foldl_nearer_of_dominated (hdominated : c.DominatedBy before after) :
    (before ++ c :: after).foldl (nearer x delta) none =
      (before ++ after).foldl (nearer x delta) none := by
  rw [List.foldl_append, List.foldl_append, List.foldl_cons]
  by_cases hstops : ∃ scale, c.meeting? x delta = some scale ∧
      scale < Block.limit (before.foldl (nearer x delta) none)
  · obtain ⟨scale, hscale, hlt⟩ := hstops
    rw [nearer_of_lt hscale hlt]
    rcases hdominated with ⟨d, hd, hindex, hside, htighter⟩ | hc
    · have hone : scale < 1 := hlt.trans_le (limit_foldl_nearer_le before none)
      obtain ⟨closer, hcloser, hltc⟩ :=
        Bound.meeting?_of_tighter hindex hside htighter hscale hone
      rcases List.mem_append.mp hd with hd | hd
      · have := limit_foldl_nearer_le_meeting hd hcloser none
        exact absurd (hltc.trans hlt) (not_lt.mpr this)
      · exact foldl_nearer_of_closer hd hcloser hltc hlt.le
    · exact absurd hlt (not_lt.mpr (limit_foldl_nearer_le_meeting hc hscale none))
  · push Not at hstops
    rw [nearer_of_le hstops]

theorem closestBlock_of_dominated (hdominated : c.DominatedBy before after)
    (hx : ∀ b ∈ before ++ c :: after, b.index < x.length)
    (hsigned : ∀ b ∈ before ++ c :: after, Word.isSigned b.index = true) :
    closestBlock (before ++ c :: after) x delta .empty =
      closestBlock (before ++ after) x delta .empty := by
  rw [closestBlock_empty hx hsigned,
    closestBlock_empty (fun b hb => hx b (mem_with c hb)) (fun b hb => hsigned b (mem_with c hb)),
    foldl_nearer_of_dominated hdominated, hdominated.any_eq fun i => decide (delta.length ≤ i)]

end Dominated

end BoundedFit
