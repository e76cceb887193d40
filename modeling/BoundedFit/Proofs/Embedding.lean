import BoundedFit.Solver.Trace

/-!
# Numbers among more values

Bounds at numbers are checked and clamped as over the numbers alone.
-/

namespace BoundedFit

variable {α β : Type}

section Definitions

variable [Zero α] [Neg α] [Sub α] [LT α] [LE α] [Zero β] [Neg β] [Sub β] [LT β] [LE β]

/-- Numbers keep their differences, signs and comparisons. -/
structure Embeds (f : α → β) : Prop where
  map_zero : f 0 = 0
  map_neg : ∀ v, f (-v) = -f v
  map_sub : ∀ u v, f (u - v) = f u - f v
  lt_iff : ∀ u v, f u < f v ↔ u < v
  le_iff : ∀ u v, f u ≤ f v ↔ u ≤ v

end Definitions

def ActiveSet.map (f : α → β) (s : ActiveSet α) : ActiveSet β := ⟨s.members.map (Bound.map f)⟩

def Iterate.map (f : α → β) (here : Iterate α) : Iterate β :=
  ⟨here.point.map f, here.active.map f⟩

theorem Fault.map_noPosition (f : α → β) (i : Int) :
    (Fault.noPosition i : Fault α).map f = .noPosition i := by
  unfold noPosition
  split
  · rfl
  · split <;> rfl

theorem valuesOn_map (bounds : List (Bound α)) (side : Side) (i : Nat) :
    valuesOn (bounds.map (Bound.map f)) side i = (valuesOn bounds side i).map f := by
  unfold valuesOn
  rw [List.filter_map, List.map_map, List.map_map]
  rfl

namespace Embeds

variable [Zero α] [Neg α] [Sub α] [LT α] [LE α] [Zero β] [Neg β] [Sub β] [LT β] [LE β]
  {f : α → β} (hf : Embeds f)

include hf

/-! ## Values and bounds -/

theorem gap_map (b : Bound α) (v : α) : (b.map f).gap (f v) = f (b.gap v) := by
  unfold Bound.gap Bound.map Side.orient
  cases b.side with
  | upper => simp only [hf.map_sub, hf.map_neg]
  | lower => simp only [hf.map_sub]

theorem gap_map_lt_zero_iff (b : Bound α) (v : α) : (b.map f).gap (f v) < 0 ↔ b.gap v < 0 := by
  rw [hf.gap_map, ← hf.map_zero, hf.lt_iff]

variable [DecidableLE α] [DecidableLE β]

theorem same_map (u v : α) : Scalar.same (f u) (f v) = Scalar.same u v := by
  simp only [Scalar.same, hf.le_iff]

theorem isComparable_map (v : α) : Scalar.isComparable (f v) = Scalar.isComparable v := hf.same_map v v

theorem extreme?_map {improves : α → α → Bool} {improves' : β → β → Bool}
    (himproves : ∀ u v, improves' (f u) (f v) = improves u v) (values : List α) :
    extreme? improves' (values.map f) = (extreme? improves values).map f := by
  unfold extreme?
  suffices h : ∀ best : Option α, (values.map f).foldl _ (best.map f) =
      (values.foldl _ best).map f from h none
  induction values with
  | nil => exact fun best => rfl
  | cons v values ih =>
    intro best
    rw [List.map_cons, List.foldl_cons, List.foldl_cons, ← ih]
    congr 1
    cases best with
    | none =>
      dsimp only [Option.map_none]
      rw [hf.isComparable_map]
      split <;> rfl
    | some b =>
      dsimp only [Option.map_some]
      rw [himproves]
      split <;> rfl

theorem bound_same_map (a b : Bound α) : (a.map f).same (b.map f) = a.same b := by
  simp only [Bound.same, Bound.map, hf.same_map]

theorem isSatisfied_map (b : Bound α) (x : List α) (tolerance : α) :
    (b.map f).isSatisfied (x.map f) (f tolerance) =
      (b.isSatisfied x tolerance).mapError (Fault.map f) := by
  have hcoordinate : (x.map f)[(b.map f).index]? = x[b.index]?.map f := List.getElem?_map
  unfold Bound.isSatisfied Bound.slack coordinate
  rw [hcoordinate]
  rcases x[b.index]? with _ | v
  · exact congrArg Except.error (Fault.map_noPosition f b.index).symm
  · have hle : decide (-f tolerance ≤ (b.map f).gap (f v)) = decide (-tolerance ≤ b.gap v) := by
      rw [decide_eq_decide, hf.gap_map, ← hf.map_neg, hf.le_iff]
    exact congrArg Except.ok hle

theorem contains_map (s : ActiveSet α) (b : Bound α) :
    (s.map f).contains (b.map f) = s.contains b := by
  simp only [ActiveSet.contains, ActiveSet.map, List.any_map, Function.comp_def, hf.bound_same_map]

variable [DecidableLT α] [DecidableLT β]

theorem before_map (a b : Bound α) : (a.map f).before (b.map f) = a.before b := by
  have hlt : decide (f a.value < f b.value) = decide (a.value < b.value) :=
    decide_eq_decide.mpr (hf.lt_iff a.value b.value)
  change (decide (a.index < b.index) || a.index == b.index && (decide (f a.value < f b.value) ||
    Scalar.same (f a.value) (f b.value) && a.side == .upper && b.side == .lower)) = a.before b
  rw [hlt, hf.same_map]
  rfl

/-! ## Clamping -/

theorem insertSorted_map (b : Bound α) (l : List (Bound α)) :
    ActiveSet.insertSorted (b.map f) (l.map (Bound.map f)) =
      (ActiveSet.insertSorted b l).map (Bound.map f) := by
  induction l with
  | nil => rfl
  | cons c rest ih =>
    rw [List.map_cons, ActiveSet.insertSorted, ActiveSet.insertSorted, hf.before_map, ih]
    split <;> rfl

theorem insert_map (s : ActiveSet α) (b : Bound α) :
    (s.map f).insert (b.map f) = (s.insert b).map f := by
  unfold ActiveSet.insert
  rw [hf.contains_map]
  split
  · rfl
  · exact congrArg ActiveSet.mk (hf.insertSorted_map b s.members)

theorem clampTo_map (here : Iterate α) (b : Bound α) :
    (here.map f).clampTo (b.map f) = (here.clampTo b).map f := by
  unfold Iterate.clampTo
  have hpoint : (here.map f).point[(b.map f).index]? = here.point[b.index]?.map f :=
    List.getElem?_map
  rw [hpoint]
  rcases here.point[b.index]? with _ | v
  · rfl
  · dsimp only [Option.map_some]
    by_cases hgap : b.gap v < 0
    · rw [if_pos hgap, if_pos ((hf.gap_map_lt_zero_iff b v).mpr hgap)]
      unfold Iterate.map
      rw [hf.insert_map, List.map_set]
      rfl
    · rw [if_neg hgap, if_neg (mt (hf.gap_map_lt_zero_iff b v).mp hgap)]

theorem clamp_map (bounds : List (Bound α)) (x : List α) :
    clamp (bounds.map (Bound.map f)) (x.map f) = (clamp bounds x).map f := by
  suffices h : ∀ here : Iterate α, (bounds.map (Bound.map f)).foldl Iterate.clampTo (here.map f) =
      (bounds.foldl Iterate.clampTo here).map f from h ⟨x, .empty⟩
  induction bounds with
  | nil => exact fun here => rfl
  | cons b bounds ih =>
    intro here
    rw [List.map_cons, List.foldl_cons, List.foldl_cons, hf.clampTo_map, ih]

/-! ## Consistency -/

theorem highestLower?_map (bounds : List (Bound α)) (i : Nat) :
    highestLower? (bounds.map (Bound.map f)) i = (highestLower? bounds i).map f := by
  unfold highestLower?
  rw [valuesOn_map]
  exact hf.extreme?_map (fun u v => by simp only [hf.lt_iff]) _

theorem lowestUpper?_map (bounds : List (Bound α)) (i : Nat) :
    lowestUpper? (bounds.map (Bound.map f)) i = (lowestUpper? bounds i).map f := by
  unfold lowestUpper?
  rw [valuesOn_map]
  exact hf.extreme?_map (fun u v => by simp only [hf.lt_iff]) _

theorem conflict?_map (bounds : List (Bound α)) (i : Nat) :
    conflict? (bounds.map (Bound.map f)) i = (conflict? bounds i).map (Fault.map f) := by
  unfold conflict?
  rw [hf.highestLower?_map, hf.lowestUpper?_map]
  rcases highestLower? bounds i with _ | low
  · rfl
  · rcases lowestUpper? bounds i with _ | high
    · rfl
    · dsimp only [Option.map_some]
      by_cases hlt : high < low
      · rw [if_pos hlt, if_pos ((hf.lt_iff high low).mpr hlt)]
        rfl
      · rw [if_neg hlt, if_neg (mt (hf.lt_iff high low).mp hlt)]
        rfl

theorem checkConsistent_map (bounds : List (Bound α)) :
    checkConsistent (bounds.map (Bound.map f)) = (checkConsistent bounds).mapError (Fault.map f) := by
  unfold checkConsistent
  have hfind : ((bounds.map (Bound.map f)).findSome? fun b =>
      conflict? (bounds.map (Bound.map f)) b.index) =
      (bounds.findSome? fun b => conflict? bounds b.index).map (Fault.map f) := by
    rw [List.findSome?_map, List.map_findSome?]
    exact congrArg (List.findSome? · bounds) (funext fun b => hf.conflict?_map bounds b.index)
  rw [hfind]
  cases bounds.findSome? fun b => conflict? bounds b.index <;> rfl

end Embeds

end BoundedFit
