import BoundedFit.Proofs.Clamp.Nearest
import BoundedFit.Proofs.Embedding
import BoundedFit.Scalar.Limit

/-!
# The box that limits describe

One bound for each limit that is a number.
-/

namespace BoundedFit

variable {α : Type}

/-! ## From limits to bounds -/

namespace Limit

def number? : Limit α → Option α
  | number v => some v
  | posInfinity | negInfinity | notANumber => none

/-- The number that limits coordinate `i` on this side, if there is one. -/
def numberAt? : Option (List (Limit α)) → Nat → Option α
  | none, _ => none
  | some limits, i => limits[i]?.bind number?

/-- One bound for each of the first `n` coordinates that a number limits on this side. -/
def numberBounds (side : Side) (limits : Option (List (Limit α))) (n : Nat) : List (Bound α) :=
  (List.range n).filterMap fun i => (numberAt? limits i).map fun v => ⟨i, v, side⟩

variable {lower upper limits : Option (List (Limit α))} {side : Side} {n : Nat}

theorem lt_of_numberAt? (hlength : ∀ l ∈ limits, l.length = n) {i : Nat} {v : α}
    (h : numberAt? limits i = some v) : i < n := by
  cases limits with
  | none => cases h
  | some l =>
    obtain ⟨limit, hlimit, -⟩ := Option.bind_eq_some_iff.mp h
    rw [← hlength l rfl]
    exact (List.getElem?_eq_some_iff.mp hlimit).1

theorem mem_numberBounds_iff (hlength : ∀ l ∈ limits, l.length = n) {b : Bound α} :
    b ∈ numberBounds side limits n ↔ b.side = side ∧ numberAt? limits b.index = some b.value := by
  unfold numberBounds
  simp only [List.mem_filterMap, List.mem_range, Option.map_eq_some_iff]
  constructor
  · rintro ⟨i, -, v, hv, rfl⟩
    exact ⟨rfl, hv⟩
  · rintro ⟨rfl, hv⟩
    exact ⟨b.index, lt_of_numberAt? hlength hv, b.value, hv, rfl⟩

theorem pairwise_index_numberBounds (side : Side) (limits : Option (List (Limit α))) (n : Nat) :
    (numberBounds side limits n).Pairwise fun a b => a.index < b.index := by
  refine List.Pairwise.filterMap _ (fun i j hij a ha b hb => ?_) List.pairwise_lt_range
  obtain ⟨v, -, rfl⟩ := Option.map_eq_some_iff.mp ha
  obtain ⟨w, -, rfl⟩ := Option.map_eq_some_iff.mp hb
  exact hij

/-- The lower bounds by increasing coordinate, then the upper ones. -/
def boxBounds (lower upper : Option (List (Limit α))) (n : Nat) : List (Bound α) :=
  numberBounds .lower lower n ++ numberBounds .upper upper n

theorem mem_boxBounds_iff (hlower : ∀ l ∈ lower, l.length = n) (hupper : ∀ u ∈ upper, u.length = n)
    {b : Bound α} : b ∈ boxBounds lower upper n ↔
      (b.side = .lower ∧ numberAt? lower b.index = some b.value) ∨
        b.side = .upper ∧ numberAt? upper b.index = some b.value := by
  rw [boxBounds, List.mem_append, mem_numberBounds_iff hlower, mem_numberBounds_iff hupper]

theorem index_lt_of_mem_boxBounds (hlower : ∀ l ∈ lower, l.length = n)
    (hupper : ∀ u ∈ upper, u.length = n) {b : Bound α} (hb : b ∈ boxBounds lower upper n) :
    b.index < n := by
  rcases (mem_boxBounds_iff hlower hupper).mp hb with ⟨-, hv⟩ | ⟨-, hv⟩
  · exact lt_of_numberAt? hlower hv
  · exact lt_of_numberAt? hupper hv

theorem eq_of_mem_boxBounds (hlower : ∀ l ∈ lower, l.length = n) (hupper : ∀ u ∈ upper, u.length = n)
    {b c : Bound α} (hb : b ∈ boxBounds lower upper n) (hc : c ∈ boxBounds lower upper n)
    (hindex : b.index = c.index) (hside : b.side = c.side) : b = c := by
  rw [mem_boxBounds_iff hlower hupper, hindex, hside] at hb
  rw [mem_boxBounds_iff hlower hupper] at hc
  have hvalue : b.value = c.value := by
    rcases hb with ⟨hs, hb⟩ | ⟨hs, hb⟩ <;> rcases hc with ⟨hs', hc⟩ | ⟨hs', hc⟩
    · exact Option.some.inj (hb.symm.trans hc)
    · rw [hs] at hs'
      cases hs'
    · rw [hs] at hs'
      cases hs'
    · exact Option.some.inj (hb.symm.trans hc)
  cases b
  cases c
  simp_all

theorem pairwise_boxBounds (lower upper : Option (List (Limit α))) (n : Nat) :
    (boxBounds lower upper n).Pairwise fun a b => ¬ (a.index = b.index ∧ a.side = b.side) := by
  have hside : ∀ side (limits : Option (List (Limit α))),
      ∀ b ∈ numberBounds side limits n, b.side = side := by
    intro side limits b hb
    obtain ⟨i, -, hb⟩ := List.mem_filterMap.mp hb
    obtain ⟨v, -, rfl⟩ := Option.map_eq_some_iff.mp hb
    rfl
  refine List.pairwise_append.mpr ⟨?_, ?_, fun a ha b hb h => ?_⟩
  · exact (pairwise_index_numberBounds .lower lower n).imp fun hlt h => hlt.ne h.1
  · exact (pairwise_index_numberBounds .upper upper n).imp fun hlt h => hlt.ne h.1
  · rw [hside .lower lower a ha, hside .upper upper b hb] at h
    cases h.2

theorem zipIdx_eq_filterMap (l : List (Limit α)) :
    l.zipIdx = (List.range l.length).filterMap fun i => l[i]?.map fun limit => (limit, i) := by
  induction l using List.reverseRecOn with
  | nil => rfl
  | append_singleton l limit ih =>
    have hsame : ((List.range l.length).filterMap fun i =>
        (l ++ [limit])[i]?.map fun limit => (limit, i)) =
        (List.range l.length).filterMap fun i => l[i]?.map fun limit => (limit, i) := by
      refine List.filterMap_congr fun i hi => ?_
      rw [List.getElem?_append_left (List.mem_range.mp hi)]
    rw [List.zipIdx_append, List.length_append, List.length_singleton, List.range_succ,
      List.filterMap_append, hsame, ← ih]
    simp

variable [Scalar α]

theorem boundsOnSide_eq (side : Side) (l : List (Limit α)) :
    boundsOnSide side l = (numberBounds side (some l) l.length).map (Bound.map number) := by
  unfold boundsOnSide numberBounds
  rw [zipIdx_eq_filterMap, List.filter_filterMap, List.map_filterMap, List.map_filterMap]
  refine List.filterMap_congr fun i _ => ?_
  dsimp only [numberAt?]
  rcases l[i]? with _ | limit
  · rfl
  · cases limit <;> rfl

theorem boundsOnSide_getD (side : Side) (hlength : ∀ l ∈ limits, l.length = n) :
    boundsOnSide side (limits.getD []) = (numberBounds side limits n).map (Bound.map number) := by
  cases limits with
  | none => simp [boundsOnSide, numberBounds, numberAt?]
  | some l =>
    rw [← hlength l rfl]
    exact boundsOnSide_eq side l

omit [Scalar α] in
theorem limitShape_ofVector (l : List (Limit α)) : limitShape (.ofVector l) = [l.length] :=
  if_neg (Nat.one_ne_zero)

theorem limitEntries_map_ofVector (limits : Option (List (Limit α))) :
    limitEntries (limits.map .ofVector) = .ok (limits.getD []) := by
  cases limits <;> rfl

theorem boundsOfLimits_eq (hlower : ∀ l ∈ lower, l.length = n) (hupper : ∀ u ∈ upper, u.length = n) :
    boundsOfLimits (lower.map .ofVector) (upper.map .ofVector) =
      .ok ((boxBounds lower upper n).map (Bound.map number)) := by
  have hlimits : boundsOfLimits (lower.map .ofVector) (upper.map .ofVector) =
      .ok (boundsOnSide .lower (lower.getD []) ++ boundsOnSide .upper (upper.getD [])) := by
    unfold boundsOfLimits
    rw [limitEntries_map_ofVector, limitEntries_map_ofVector]
    rcases lower with _ | l
    · rfl
    · rcases upper with _ | u
      · rfl
      · have hshape : limitShape (.ofVector l) = limitShape (.ofVector u) := by
          rw [limitShape_ofVector, limitShape_ofVector, hlower l rfl, hupper u rfl]
        simp [hshape]
        rfl
  rw [hlimits, boundsOnSide_getD .lower hlower, boundsOnSide_getD .upper hupper, ← List.map_append]
  rfl

end Limit

/-! ## The box -/

namespace Limit

section Box

variable [LinearOrder α] {lower upper : Option (List (Limit α))} {n : Nat}

/-- Each coordinate lies between the numbers that limit it. -/
def InBox (lower upper : Option (List (Limit α))) (x : List α) : Prop :=
  ∀ (i : Nat) (v : α), x[i]? = some v →
    (∀ low ∈ numberAt? lower i, low ≤ v) ∧ ∀ high ∈ numberAt? upper i, v ≤ high

/-- Some lower limit lies above the upper limit of its coordinate. -/
def Crossed (lower upper : Option (List (Limit α))) : Prop :=
  ∃ i, ∃ low ∈ numberAt? lower i, ∃ high ∈ numberAt? upper i, high < low

/-- The nearest value between two limits. -/
def clip (low high : Option α) (v : α) : α :=
  let raised := low.elim v fun low => max low v
  high.elim raised fun high => min high raised

theorem clip_between {low high : Option α} (h : ∀ l ∈ low, ∀ u ∈ high, l ≤ u) (v : α) :
    (∀ l ∈ low, l ≤ clip low high v) ∧ ∀ u ∈ high, clip low high v ≤ u := by
  constructor
  · rintro l rfl
    cases high with
    | none => exact le_max_left l v
    | some u => exact le_min (h l rfl u rfl) (le_max_left l v)
  · rintro u rfl
    exact min_le_left u _

theorem clip_mem_uIcc {low high : Option α} {v w : α} (hlow : ∀ l ∈ low, l ≤ w)
    (hhigh : ∀ u ∈ high, w ≤ u) : clip low high v ∈ Set.uIcc v w := by
  have hraised : v ≤ low.elim v (max · v) ∧ low.elim v (max · v) ≤ max v w := by
    cases low with
    | none => exact ⟨le_refl v, le_max_left v w⟩
    | some l =>
      have hl : l ≤ max v w := (hlow l rfl).trans (le_max_right v w)
      exact ⟨le_max_right l v, max_le hl (le_max_left v w)⟩
  cases high with
  | none => exact ⟨(min_le_left v w).trans hraised.1, hraised.2⟩
  | some u =>
    have hu : min v w ≤ u := (min_le_right v w).trans (hhigh u rfl)
    exact ⟨le_min hu ((min_le_left v w).trans hraised.1), (min_le_right u _).trans hraised.2⟩

end Box

section Clamp

variable [LinearOrder α] {lower upper : Option (List (Limit α))} {n : Nat}
  (hlower : ∀ l ∈ lower, l.length = n) (hupper : ∀ u ∈ upper, u.length = n)

include hlower hupper

theorem consistent_boxBounds_iff : Consistent (boxBounds lower upper n) ↔ ¬ Crossed lower upper := by
  constructor
  · rintro hcons ⟨i, low, hlow, high, hhigh, hlt⟩
    have hle := hcons ⟨i, low, .lower⟩ ((mem_boxBounds_iff hlower hupper).mpr (Or.inl ⟨rfl, hlow⟩))
      ⟨i, high, .upper⟩ ((mem_boxBounds_iff hlower hupper).mpr (Or.inr ⟨rfl, hhigh⟩)) rfl rfl rfl
    exact absurd hlt (not_lt.mpr hle)
  · intro hcrossed low hlow high hhigh hindex hl hu
    rw [mem_boxBounds_iff hlower hupper, hl] at hlow
    rw [mem_boxBounds_iff hlower hupper, hu] at hhigh
    obtain ⟨-, hlow⟩ := hlow.resolve_right fun h => by cases h.1
    obtain ⟨-, hhigh⟩ := hhigh.resolve_left fun h => by cases h.1
    by_contra hlt
    exact hcrossed ⟨low.index, low.value, hlow, high.value, hindex ▸ hhigh, not_le.mp hlt⟩

variable [Field α] [IsStrictOrderedRing α]

theorem feasible_boxBounds_iff {x : List α} (hx : x.length = n) :
    Feasible (boxBounds lower upper n) x ↔ InBox lower upper x := by
  constructor
  · intro h i v hv
    constructor
    · intro low hlow
      have hholds := h ⟨i, low, .lower⟩ ((mem_boxBounds_iff hlower hupper).mpr (Or.inl ⟨rfl, hlow⟩))
      have hgap := hholds.gap_nonneg hv
      rw [Bound.gap_of_lower rfl] at hgap
      exact sub_nonneg.mp hgap
    · intro high hhigh
      have hholds := h ⟨i, high, .upper⟩ ((mem_boxBounds_iff hlower hupper).mpr (Or.inr ⟨rfl, hhigh⟩))
      have hgap := hholds.gap_nonneg hv
      rw [Bound.gap_of_upper rfl] at hgap
      linarith
  · intro h b hb
    have hlt : b.index < x.length := hx ▸ index_lt_of_mem_boxBounds hlower hupper hb
    have hv := List.getElem?_eq_getElem hlt
    refine (b.holds_iff x).mpr ⟨_, hv, ?_⟩
    rcases (mem_boxBounds_iff hlower hupper).mp hb with ⟨hside, hlow⟩ | ⟨hside, hhigh⟩
    · rw [Bound.gap_of_lower hside]
      exact sub_nonneg.mpr ((h b.index _ hv).1 b.value hlow)
    · rw [Bound.gap_of_upper hside]
      linarith [(h b.index _ hv).2 b.value hhigh]

theorem point_clamp_boxBounds (hcrossed : ¬ Crossed lower upper) {x : List α} (hx : x.length = n) :
    (clamp (boxBounds lower upper n) x).point =
      x.mapIdx fun i v => clip (numberAt? lower i) (numberAt? upper i) v := by
  have hcons := (consistent_boxBounds_iff hlower hupper).mpr hcrossed
  have hlong : ∀ b ∈ boxBounds lower upper n, b.index < x.length :=
    fun b hb => hx ▸ index_lt_of_mem_boxBounds hlower hupper hb
  have hlength := length_point_clamp (boxBounds lower upper n) x
  have hclipped : InBox lower upper
      (x.mapIdx fun i v => clip (numberAt? lower i) (numberAt? upper i) v) := by
    intro i w hw
    rw [List.getElem?_mapIdx] at hw
    obtain ⟨v, -, rfl⟩ := Option.map_eq_some_iff.mp hw
    refine clip_between (fun l hl u hu => not_lt.mp fun hlt => hcrossed ⟨i, l, hl, u, hu, hlt⟩) v
  have hclamped := (feasible_boxBounds_iff hlower hupper (hlength.trans hx)).mp
    (feasible_clamp hcons hlong)
  refine OnTheWay.antisymm hlength List.length_mapIdx (onTheWay_clamp ?_) ?_
  · exact (feasible_boxBounds_iff hlower hupper (List.length_mapIdx.trans hx)).mpr hclipped
  · intro i u v w hu hv hw
    rw [List.getElem?_mapIdx, hu] at hv
    obtain rfl := Option.some.inj hv
    exact clip_mem_uIcc (hclamped i w hw).1 (hclamped i w hw).2

theorem mem_active_clamp_boxBounds_iff (hcrossed : ¬ Crossed lower upper) {x : List α} (hx : x.length = n)
    {b : Bound α} : b ∈ (clamp (boxBounds lower upper n) x).active.members ↔
      b ∈ boxBounds lower upper n ∧ ¬ b.Holds x := by
  have hcons := (consistent_boxBounds_iff hlower hupper).mpr hcrossed
  have hlong : ∀ b ∈ boxBounds lower upper n, b.index < x.length :=
    fun b hb => hx ▸ index_lt_of_mem_boxBounds hlower hupper hb
  constructor
  · exact fun hb => ⟨mem_of_mem_active_clamp hb, not_holds_of_mem_active_clamp hcons hlong hb⟩
  · exact fun ⟨hb, hviolated⟩ => mem_active_clamp_of_unique hcons (hlong b hb) hb hviolated
      fun c hc => eq_of_mem_boxBounds hlower hupper hb hc

end Clamp

end Limit

/-! ## Solvers under the bounds of a box -/

theorem embeds_number [Zero α] [Neg α] [Sub α] [LT α] [LE α] : Embeds (Limit.number : α → Limit α) where
  map_zero := rfl
  map_neg _ := rfl
  map_sub _ _ := rfl
  lt_iff _ _ := Iff.rfl
  le_iff _ _ := Iff.rfl

theorem allM_eq_ok {β ε : Type} {l : List β} {check : β → Except ε Bool}
    (h : ∀ a ∈ l, ∃ answer, check a = .ok answer) :
    ∃ answer, l.allM check = .ok answer ∧ (answer = true ↔ ∀ a ∈ l, check a = .ok true) := by
  induction l with
  | nil => exact ⟨true, rfl, by simp⟩
  | cons a l ih =>
    obtain ⟨⟨answer, hcheck⟩, hrest⟩ := List.forall_mem_cons.mp h
    obtain ⟨answer', hall, hanswer'⟩ := ih hrest
    rw [List.forall_mem_cons, hcheck, ← hanswer']
    cases answer with
    | true => exact ⟨answer', by simp [List.allM, hcheck, hall, bind, Except.bind], by simp⟩
    | false => exact ⟨false, by simp [List.allM, hcheck, bind, Except.bind, pure, Except.pure], by simp⟩

section Solver

variable [Field α] [LinearOrder α] [IsStrictOrderedRing α]

omit [IsStrictOrderedRing α] in
theorem Bound.isSatisfied_zero (b : Bound α) {x : List α} (hlong : b.index < x.length) :
    ∃ answer, b.isSatisfied x 0 = .ok answer ∧ (answer = true ↔ b.Holds x) := by
  obtain ⟨v, hv⟩ : ∃ v, x[b.index]? = some v := ⟨_, List.getElem?_eq_getElem hlong⟩
  refine ⟨decide (-0 ≤ b.gap v), ?_, ?_⟩
  · simp [isSatisfied, slack, coordinate, hv, Except.map]
  · simp [b.holds_iff, hv]

/-- The bounds mean the box between the limits. -/
structure Limit.Describes [Scalar α] (lower upper : Option (List (Limit α))) (n : Nat)
    (bounds : List (Bound (Limit α))) : Prop where
  /-- For each coordinate that a number limits, one lower bound, then one upper bound each. -/
  bounds_eq : bounds = (boxBounds lower upper n).map (Bound.map number)
  distinct : bounds.Pairwise fun a b => ¬ a.same b = true
  satisfied_iff : ∀ x : List α, x.length = n →
    ((∀ b ∈ bounds, b.isSatisfied (x.map number) 0 = .ok true) ↔ InBox lower upper x)
  isFeasible : ∀ x : List α, x.length = n →
    ∃ answer, isFeasible bounds (.ofVector (x.map number)) 0 = .ok answer ∧
      (answer = true ↔ InBox lower upper x)
  infeasible_iff : ∀ {σ : Type} (problem : Problem (Limit α) σ) (settings : Settings (Limit α)),
    0 ≤ settings.damping → 0 ≤ settings.maxIterations →
    ((∃ fault, Solver.make problem bounds settings = .error fault ∧ fault.kind = .infeasible) ↔
      Crossed lower upper)
  clamps : ∀ {σ : Type} (problem : Problem (Limit α) σ) (settings : Settings (Limit α)),
    0 ≤ settings.damping → 0 ≤ settings.maxIterations → ¬ Crossed lower upper →
    ∃ solver, Solver.make problem bounds settings = .ok solver ∧ ∀ x : List α, x.length = n →
      ∃ first, solver.start (.ofVector (x.map number)) = .ok first ∧
        first.point =
          (x.mapIdx fun i v => clip (numberAt? lower i) (numberAt? upper i) v).map number ∧
        ∀ b, b ∈ first.active.members ↔
          b ∈ bounds ∧ b.isSatisfied (x.map number) 0 = .ok false

namespace Limit

variable {lower upper : Option (List (Limit α))} {n : Nat}

omit [IsStrictOrderedRing α] in
theorem isSatisfied_map_number {b : Bound α} {x : List α} (hlong : b.index < x.length) :
    ∃ answer, (b.map number).isSatisfied (x.map number) 0 = .ok answer ∧ (answer = true ↔ b.Holds x) := by
  obtain ⟨answer, hanswer, hiff⟩ := b.isSatisfied_zero hlong
  refine ⟨answer, ?_, hiff⟩
  have hmap := embeds_number.isSatisfied_map b x 0
  rw [hanswer] at hmap
  exact hmap

omit [IsStrictOrderedRing α] in
theorem isSatisfied_map_number_iff {b : Bound α} {x : List α} (hlong : b.index < x.length) :
    ((b.map number).isSatisfied (x.map number) 0 = .ok true ↔ b.Holds x) ∧
      ((b.map number).isSatisfied (x.map number) 0 = .ok false ↔ ¬ b.Holds x) := by
  obtain ⟨answer, hanswer, hiff⟩ := isSatisfied_map_number hlong
  rw [hanswer, ← hiff]
  cases answer <;> simp

omit [IsStrictOrderedRing α] in
theorem make_map_number {σ : Type} (problem : Problem (Limit α) σ) (bounds : List (Bound α))
    {settings : Settings (Limit α)} (hdamping : 0 ≤ settings.damping)
    (hcap : 0 ≤ settings.maxIterations) :
    Solver.make problem (bounds.map (Bound.map number)) settings =
      ((checkConsistent bounds).mapError (Fault.map number)).map fun _ =>
        ⟨problem, bounds.map (Bound.map number), settings.damping, settings.maxIterations.toNat,
          settings.verbose⟩ := by
  rw [Solver.make_of_valid problem _ hdamping hcap, embeds_number.checkConsistent_map]

omit [IsStrictOrderedRing α] in
theorem make_infeasible_map_number_iff {σ : Type} (problem : Problem (Limit α) σ)
    (bounds : List (Bound α)) {settings : Settings (Limit α)} (hdamping : 0 ≤ settings.damping)
    (hcap : 0 ≤ settings.maxIterations) :
    (∃ fault, Solver.make problem (bounds.map (Bound.map number)) settings = .error fault ∧
      fault.kind = .infeasible) ↔ ¬ Consistent bounds := by
  rw [make_map_number problem bounds hdamping hcap]
  rcases hcheck : checkConsistent bounds with fault | u
  · obtain ⟨low, hlow, high, hhigh, hindex, hl, hu, hlt, rfl⟩ := of_checkConsistent_eq_error hcheck
    refine iff_of_true ⟨_, rfl, rfl⟩ fun hcons => ?_
    exact absurd (hcons low hlow high hhigh hindex hl hu) (not_le.mpr hlt)
  · refine iff_of_false ?_ (not_not_intro (consistent_of_checkConsistent hcheck))
    rintro ⟨fault, hfault, -⟩
    cases hfault

variable [Scalar α]

/-- Arrays of limits become bounds that hold exactly in the box that they describe, and a solver under
these bounds clips its guess to that box. -/
theorem describes_boundsOfLimits (hlower : ∀ l ∈ lower, l.length = n)
    (hupper : ∀ u ∈ upper, u.length = n) :
    ∃ bounds, boundsOfLimits (lower.map .ofVector) (upper.map .ofVector) = .ok bounds ∧
      Describes lower upper n bounds := by
  have hlong : ∀ {x : List α}, x.length = n → ∀ b ∈ boxBounds lower upper n, b.index < x.length :=
    fun hx b hb => hx ▸ index_lt_of_mem_boxBounds hlower hupper hb
  have hsatisfied : ∀ x : List α, x.length = n →
      ((∀ b ∈ (boxBounds lower upper n).map (Bound.map number),
        b.isSatisfied (x.map number) 0 = .ok true) ↔ InBox lower upper x) := by
    intro x hx
    rw [← feasible_boxBounds_iff hlower hupper hx, List.forall_mem_map]
    exact forall₂_congr fun b hb => (isSatisfied_map_number_iff (hlong hx b hb)).1
  refine ⟨_, boundsOfLimits_eq hlower hupper, ?_⟩
  constructor
  case bounds_eq => rfl
  case distinct =>
    rw [List.pairwise_map]
    refine (pairwise_boxBounds lower upper n).imp fun hdistinct hsame => hdistinct ?_
    rw [embeds_number.bound_same_map, Bound.same_iff] at hsame
    exact ⟨congrArg Bound.index hsame, congrArg Bound.side hsame⟩
  case satisfied_iff => exact hsatisfied
  case isFeasible =>
    intro x hx
    rw [isFeasible_ofVector, ← hsatisfied x hx]
    refine allM_eq_ok (List.forall_mem_map.mpr fun b hb => ?_)
    obtain ⟨answer, hanswer, -⟩ := isSatisfied_map_number (hlong hx b hb)
    exact ⟨answer, hanswer⟩
  case infeasible_iff =>
    intro σ problem settings hdamping hcap
    rw [make_infeasible_map_number_iff problem _ hdamping hcap, consistent_boxBounds_iff hlower hupper,
      not_not]
  case clamps =>
    -- The bounds are those of the numbers, so solver and clamp are those over the numbers alone.
    intro σ problem settings hdamping hcap hcrossed
    have hcons := (consistent_boxBounds_iff hlower hupper).mpr hcrossed
    have hmake := make_map_number problem (boxBounds lower upper n) hdamping hcap
    rw [checkConsistent_of_consistent hcons] at hmake
    refine ⟨_, hmake, fun x hx => ⟨_, Solver.start_ofVector ?_, ?_, fun b => ?_⟩⟩
    · rw [List.length_map]
      exact List.forall_mem_map.mpr (hlong hx)
    · rw [embeds_number.clamp_map, ← point_clamp_boxBounds hlower hupper hcrossed hx]
      rfl
    · rw [embeds_number.clamp_map]
      change b ∈ (clamp (boxBounds lower upper n) x).active.members.map (Bound.map number) ↔ _
      rw [List.mem_map, List.mem_map]
      constructor
      · rintro ⟨c, hc, rfl⟩
        obtain ⟨hc, hviolated⟩ := (mem_active_clamp_boxBounds_iff hlower hupper hcrossed hx).mp hc
        exact ⟨⟨c, hc, rfl⟩, (isSatisfied_map_number_iff (hlong hx c hc)).2.mpr hviolated⟩
      · rintro ⟨⟨c, hc, rfl⟩, hviolated⟩
        rw [(isSatisfied_map_number_iff (hlong hx c hc)).2] at hviolated
        exact ⟨c, (mem_active_clamp_boxBounds_iff hlower hupper hcrossed hx).mpr ⟨hc, hviolated⟩, rfl⟩

end Limit

end Solver

namespace Limit

/-- A problem that is never asked for a step. -/
def still : Problem (Limit ℚ) Unit where
  fresh := ()
  evaluate _ _ := .ok ()
  error _ := 0
  residual _ := []
  jacobian _ := .empty
  step _ active _ := ⟨.ok [], active, ()⟩

def lowLimits : List (Limit ℚ) := [number 0, negInfinity, notANumber]

def highLimits : List (Limit ℚ) := [posInfinity, number 2, number 1]

theorem describes_lowLimits_highLimits :
    lowLimits.length = 3 ∧ highLimits.length = 3 ∧ ¬ Crossed (some lowLimits) (some highLimits) ∧
      ∃ bounds solver first,
        boundsOfLimits (some (.ofVector lowLimits)) (some (.ofVector highLimits)) = .ok bounds ∧
        bounds = [⟨0, number 0, .lower⟩, ⟨1, number 2, .upper⟩, ⟨2, number 1, .upper⟩] ∧
        Solver.make still bounds ⟨0, 0, false⟩ = .ok solver ∧
        solver.start (.ofVector ([-1, 5, 1].map number)) = .ok first ∧
        first.point = [0, 2, 1].map number ∧
        (⟨1, number 2, .upper⟩ : Bound (Limit ℚ)) ∈ first.active.members ∧
        (⟨2, number 1, .upper⟩ : Bound (Limit ℚ)) ∉ first.active.members := by
  have hlower : ∀ l ∈ some lowLimits, l.length = 3 := by decide
  have hupper : ∀ u ∈ some highLimits, u.length = 3 := by decide
  have hcrossed : ¬ Crossed (some lowLimits) (some highLimits) := by
    rintro ⟨i, low, hlow, high, hhigh, -⟩
    rcases i with _ | _ | _ | i
    · cases hhigh
    · cases hlow
    · cases hlow
    · cases hlow
  obtain ⟨bounds, hbounds, hdescribes⟩ := describes_boundsOfLimits hlower hupper
  obtain ⟨solver, hmake, hstart⟩ :=
    hdescribes.clamps still ⟨0, 0, false⟩ (by decide) (by decide) hcrossed
  obtain ⟨first, hfirst, hpoint, hactive⟩ := hstart [-1, 5, 1] rfl
  have hlist : bounds = [⟨0, number 0, .lower⟩, ⟨1, number 2, .upper⟩, ⟨2, number 1, .upper⟩] :=
    hdescribes.bounds_eq
  refine ⟨rfl, rfl, hcrossed, bounds, solver, first, hbounds, hlist, hmake, hfirst, ?_, ?_, ?_⟩
  · rw [hpoint]
    decide +kernel
  · have hout : ¬ (⟨1, 2, .upper⟩ : Bound ℚ).Holds [-1, 5, 1] := by
      simp [Bound.holds_iff, Bound.gap, Side.orient]
      norm_num
    rw [hactive, hlist]
    have hlong : (⟨1, 2, .upper⟩ : Bound ℚ).index < [(-1 : ℚ), 5, 1].length := by decide
    exact ⟨by simp, (isSatisfied_map_number_iff hlong).2.mpr hout⟩
  · have hin : (⟨2, 1, .upper⟩ : Bound ℚ).Holds [-1, 5, 1] := by
      simp [Bound.holds_iff, Bound.gap, Side.orient]
    rw [hactive]
    rintro ⟨-, hviolated⟩
    have hlong : (⟨2, 1, .upper⟩ : Bound ℚ).index < [(-1 : ℚ), 5, 1].length := by decide
    exact (isSatisfied_map_number_iff hlong).2.mp hviolated hin

end Limit

end BoundedFit
