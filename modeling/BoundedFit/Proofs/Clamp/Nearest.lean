import Mathlib.Order.Interval.Set.UnorderedInterval
import Mathlib.Algebra.Order.Group.Unbundled.Abs
import BoundedFit.Proofs.Run.Tight

/-!
# The clamp goes to the nearest feasible point

No coordinate leaves the way from the guess to any feasible point.
-/

namespace BoundedFit

section Way

variable {α : Type} [LinearOrder α]

/-- Each coordinate of `p` lies between those of `x` and of `z`. -/
def OnTheWay (x z p : List α) : Prop :=
  ∀ (i : Nat) (u v w : α), x[i]? = some u → p[i]? = some v → z[i]? = some w → v ∈ Set.uIcc u w

theorem onTheWay_self (x z : List α) : OnTheWay x z x := by
  intro i u v w hu hv _
  obtain rfl := Option.some.inj (hu.symm.trans hv)
  exact Set.left_mem_uIcc

theorem OnTheWay.antisymm {x y z : List α} (hy : y.length = x.length) (hz : z.length = x.length)
    (h : OnTheWay x z y) (h' : OnTheWay x y z) : y = z := by
  refine List.ext_getElem (hy.trans hz.symm) fun i hiy hiz => ?_
  have hx := List.getElem?_eq_getElem (hy ▸ hiy : i < x.length)
  have hiy' := List.getElem?_eq_getElem hiy
  have hiz' := List.getElem?_eq_getElem hiz
  exact Set.eq_of_mem_uIcc_of_mem_uIcc' (h i _ _ _ hx hiy' hiz') (h' i _ _ _ hx hiz' hiy')

variable [Field α] [IsStrictOrderedRing α]

theorem Bound.value_mem_uIcc {b : Bound α} {v w : α} (hout : b.gap v < 0) (hin : 0 ≤ b.gap w) :
    b.value ∈ Set.uIcc v w := by
  cases hside : b.side with
  | lower =>
    rw [gap_of_lower hside] at hout hin
    exact Set.mem_uIcc_of_le (by linarith) (by linarith)
  | upper =>
    rw [gap_of_upper hside] at hout hin
    exact Set.mem_uIcc_of_ge (by linarith) (by linarith)

theorem OnTheWay.clampTo {x z : List α} {here : Iterate α} {b : Bound α} (hb : b.Holds z)
    (h : OnTheWay x z here.point) : OnTheWay x z (here.clampTo b).point := by
  by_cases hviol : b.isViolated here.point = true
  · obtain ⟨v, hv, hout⟩ := (b.isViolated_iff _).mp hviol
    rw [Iterate.clampTo_of_isViolated hviol]
    intro i u v' w hu hv' hw
    by_cases hi : b.index = i
    · subst hi
      have hlt : b.index < here.point.length := (List.getElem?_eq_some_iff.mp hv).1
      obtain rfl : b.value = v' := by simpa [hlt] using hv'
      have hbetween := Bound.value_mem_uIcc hout (hb.gap_nonneg hw)
      exact Set.uIcc_subset_uIcc_right (h b.index u v w hu hv hw) hbetween
    · rw [List.getElem?_set_ne hi] at hv'
      exact h i u v' w hu hv' hw
  · rwa [Iterate.clampTo_of_not_isViolated hviol]

theorem OnTheWay.foldl_clampTo {x z : List α} {bounds : List (Bound α)} (hz : Feasible bounds z)
    {here : Iterate α} (h : OnTheWay x z here.point) :
    OnTheWay x z (bounds.foldl Iterate.clampTo here).point := by
  induction bounds generalizing here with
  | nil => exact h
  | cons b bounds ih =>
    obtain ⟨hb, hz⟩ := List.forall_mem_cons.mp hz
    exact ih hz (h.clampTo hb)

theorem onTheWay_clamp {x z : List α} {bounds : List (Bound α)} (hz : Feasible bounds z) :
    OnTheWay x z (clamp bounds x).point :=
  OnTheWay.foldl_clampTo hz (onTheWay_self x z)

end Way

/-! ## The nearest point -/

section Nearest

variable {α : Type} [Field α] [LinearOrder α]

/-- The point is feasible, and in no coordinate is any feasible point nearer to `x`. -/
structure IsNearest (bounds : List (Bound α)) (x y : List α) : Prop where
  length_eq : y.length = x.length
  feasible : Feasible bounds y
  nearest : ∀ z, Feasible bounds z → ∀ (i : Nat) (u v w : α),
    x[i]? = some u → y[i]? = some v → z[i]? = some w → |v - u| ≤ |w - u|

theorem clamp_of_feasible {bounds : List (Bound α)} {x : List α} (h : Feasible bounds x) :
    clamp bounds x = ⟨x, .empty⟩ :=
  foldl_clampTo_of_not_isViolated fun b hb => (h b hb).not_isViolated

variable [IsStrictOrderedRing α] {bounds : List (Bound α)} {x : List α}

theorem isNearest_clamp (hcons : Consistent bounds) (hlong : ∀ b ∈ bounds, b.index < x.length) :
    IsNearest bounds x (clamp bounds x).point :=
  ⟨length_point_clamp bounds x, feasible_clamp hcons hlong,
    fun _ hz i u v w hu hv hw => Set.abs_sub_left_of_mem_uIcc (onTheWay_clamp hz i u v w hu hv hw)⟩

theorem point_clamp_of_perm {reordered : List (Bound α)} (hcons : Consistent bounds)
    (hperm : reordered.Perm bounds) (hlong : ∀ b ∈ bounds, b.index < x.length) :
    (clamp reordered x).point = (clamp bounds x).point := by
  have hfeasible := feasible_clamp hcons hlong
  have hfeasible' : Feasible reordered (clamp reordered x).point :=
    feasible_clamp (hcons.mono fun b hb => hperm.subset hb) fun b hb => hlong b (hperm.subset hb)
  have hway : OnTheWay x (clamp bounds x).point (clamp reordered x).point :=
    onTheWay_clamp fun b hb => hfeasible b (hperm.subset hb)
  have hway' : OnTheWay x (clamp reordered x).point (clamp bounds x).point :=
    onTheWay_clamp fun b hb => hfeasible' b (hperm.symm.subset hb)
  exact hway.antisymm (length_point_clamp reordered x) (length_point_clamp bounds x) hway'

theorem not_holds_of_mem_active_clamp (hcons : Consistent bounds)
    (hlong : ∀ b ∈ bounds, b.index < x.length) {b : Bound α}
    (hb : b ∈ (clamp bounds x).active.members) : ¬ b.Holds x := by
  intro hholds
  have hnot : b ∉ (⟨x, .empty⟩ : Iterate α).active.members := List.not_mem_nil
  have hmem := mem_of_mem_active_clamp hb
  exact not_mem_active_foldl_clampTo hcons hmem (fun c hc => hc) hlong hholds hnot hb

/-- A run starts at the feasible point that is nearest to the guess in each coordinate, whatever the
order of the bounds. -/
theorem Solver.isNearest_of_make {σ : Type} {problem : Problem α σ} {settings : Settings α}
    {solver : Solver α σ} (hmake : make problem bounds settings = .ok solver)
    (hlong : ∀ b ∈ bounds, b.index < x.length) :
    solver.start (.ofVector x) = .ok (clamp bounds x) ∧
      IsNearest bounds x (clamp bounds x).point ∧
      (∀ reordered : List (Bound α), reordered.Perm bounds →
        (clamp reordered x).point = (clamp bounds x).point) ∧
      (∀ b ∈ (clamp bounds x).active.members, b ∈ bounds ∧ ¬ b.Holds x) ∧
      clamp bounds (clamp bounds x).point = ⟨(clamp bounds x).point, .empty⟩ := by
  obtain ⟨hcheck, -, -, rfl, -, -⟩ := of_make_eq_ok hmake
  have hcons := consistent_of_checkConsistent hcheck
  exact ⟨start_ofVector hlong, isNearest_clamp hcons hlong,
    fun _ hperm => point_clamp_of_perm hcons hperm hlong,
    fun b hb => ⟨mem_of_mem_active_clamp hb, not_holds_of_mem_active_clamp hcons hlong hb⟩,
    clamp_of_feasible (feasible_clamp hcons hlong)⟩

def nested : List (Bound ℚ) := [⟨0, 0, .lower⟩, ⟨1, 4, .upper⟩, ⟨0, 1, .lower⟩, ⟨0, 5, .upper⟩]

theorem isNearest_nested :
    IsNearest nested [-1, 7] [1, 4] ∧ (clamp nested.reverse [-1, 7]).point = [1, 4] ∧
      (clamp nested [-1, 7]).active.size = 3 ∧ (clamp nested.reverse [-1, 7]).active.size = 2 := by
  have hmake : Solver.make Solver.distance.toProblem nested ⟨1, 0, false⟩ = .ok (Solver.clampOnly nested) :=
    Solver.make_of_isOk _ (by decide +kernel) (by decide) (by decide)
  have hlong : ∀ b ∈ nested, b.index < [(-1 : ℚ), 7].length := by decide
  obtain ⟨-, hnearest, hreordered, -⟩ := Solver.isNearest_of_make hmake hlong
  have hpoint : (clamp nested [-1, 7]).point = [1, 4] := by decide +kernel
  rw [hpoint] at hnearest hreordered
  exact ⟨hnearest, hreordered _ nested.reverse_perm, by decide +kernel, by decide +kernel⟩

end Nearest

end BoundedFit
