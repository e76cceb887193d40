import Mathlib.Tactic
import Mathlib.Data.List.Range
import BoundedFit.Contour.Cursor

/-!
# Laps

An iteration ends wherever its cursor stands.
-/

namespace BoundedFit.Contour

variable {ι : Type} {c : Contour ι} {k last : Cursor} {visits : List (Cursor × ι)}

/-! ## Iterating -/

/-- Iterating from `k` yields these items, each under the cursor that is given with it, and stops at
`last`. -/
inductive Walks (c : Contour ι) : Cursor → List (Cursor × ι) → Cursor → Prop
  | stop {k : Cursor} : c.next k = .ok none → Walks c k [] k
  | step {k after last : Cursor} {item : ι} {visits : List (Cursor × ι)} :
      c.next k = .ok (some (item, after)) → Walks c after visits last →
      Walks c k ((k, item) :: visits) last

theorem Walks.walk_eq (h : c.Walks k visits last) {n : Nat} (hn : visits.length ≤ n) :
    c.walk n k = .ok (visits.map Prod.snd, last) := by
  induction h generalizing n with
  | stop hnext =>
    cases n with
    | zero => rfl
    | succ n => simp [walk, hnext, bind, Except.bind, pure, Except.pure]
  | step hnext _ ih =>
    cases n with
    | zero => simp at hn
    | succ n =>
      have hrest := ih (Nat.le_of_succ_le_succ hn)
      simp [walk, hnext, hrest, bind, Except.bind, pure, Except.pure]

/-! ## One step -/

theorem isDone_iff_of_closed (h : c.closed = true) :
    c.isDone k = true ↔ c.size ≤ (k.position - k.start).natAbs := by
  simp [isDone, h]

theorem isDone_iff_of_open (h : c.closed = false) :
    c.isDone k = true ↔ k.position < 0 ∨ c.size ≤ k.position := by
  simp [isDone, h]

theorem next_of_isDone (h : c.isDone k = true) : c.next k = .ok none := by
  simp [next, h]

theorem indexOf_of_not_isDone (h : ¬ c.isDone k = true) :
    c.indexOf k = .ok (k.position % c.size) := by
  unfold indexOf linearIndex
  split
  · rename_i hclosed
    rw [isDone_iff_of_closed hclosed] at h
    have hne : c.items ≠ [] := by
      intro hnil
      simp [size, hnil] at h
    simp [hne]
  · rename_i hopen
    rw [isDone_iff_of_open (by simpa using hopen)] at h
    rw [Int.emod_eq_of_lt (by omega) (by omega)]

theorem flatGet_of_getElem? (hword : Word.isSigned c.size = true) {i : Int} (hi : 0 ≤ i) {item : ι}
    (h : c.items[i.toNat]? = some item) : c.flatGet i = .ok item := by
  obtain ⟨p, rfl⟩ := Int.eq_ofNat_of_zero_le hi
  have hlt : p < c.size := (List.getElem?_eq_some_iff.mp h).1
  have hsigned : Word.isSigned p = true := Word.isSigned_of_lt hlt hword
  have hposition : position? c.size p = some p := by
    unfold position?
    rw [if_neg (not_lt.mpr hi), if_pos ⟨hi, Int.ofNat_lt.mpr hlt⟩, Int.toNat_natCast]
  have hitem : c.items[p]? = some item := h
  simp [flatGet, hsigned, hposition, hitem]

theorem exists_next (hword : Word.isSigned c.size = true) (h : ¬ c.isDone k = true) :
    ∃ item, c.items[(k.position % c.size).toNat]? = some item ∧
      c.next k = .ok (some (item, k.advance 1)) := by
  have hindex := indexOf_of_not_isDone h
  have hsize : 0 < (c.size : Int) := by
    by_contra hempty
    have hzero : c.size = 0 := by omega
    refine h ?_
    cases hclosed : c.closed with
    | true => simp [isDone_iff_of_closed hclosed, hzero]
    | false =>
      rw [isDone_iff_of_open hclosed]
      omega
  have hnonneg := Int.emod_nonneg k.position hsize.ne'
  have hlt := Int.emod_lt_of_pos k.position hsize
  have hitem : c.items[(k.position % c.size).toNat]? =
      some (c.items.get ⟨(k.position % c.size).toNat, by unfold size at *; omega⟩) :=
    List.getElem?_eq_getElem _
  refine ⟨_, hitem, ?_⟩
  have hget : c.get k.position = c.flatGet (k.position % c.size) := by
    have hlinear : c.linearIndex k.position = .ok (k.position % c.size) := hindex
    simp [get, hlinear, bind, Except.bind]
  have hvalue : c.valueOf k = c.get k.position := by
    unfold valueOf
    rw [Bool.eq_false_of_not_eq_true h, Bool.and_false]
    rfl
  unfold next
  rw [if_neg h, hvalue, hget, flatGet_of_getElem? hword hnonneg hitem]
  rfl

/-! ## Whole walks -/

/-- The cursor is within a lap of the start of its walk, or at its end. -/
def OnLap (c : Contour ι) (k : Cursor) : Prop :=
  if c.closed then -(c.size : Int) < k.position - k.start ∧ k.position - k.start ≤ c.size
  else 0 ≤ k.position ∧ k.position ≤ c.size

theorem isDone_iff_of_onLap (h : c.OnLap k) : c.isDone k = true ↔ c.remaining k = 0 := by
  unfold OnLap at h
  unfold remaining
  split at h
  · rename_i hclosed
    rw [isDone_iff_of_closed hclosed, if_pos hclosed]
    omega
  · rename_i hopen
    rw [isDone_iff_of_open (by simpa using hopen), if_neg hopen]
    omega

theorem onLap_of_not_isDone (h : ¬ c.isDone k = true) : c.OnLap k := by
  unfold OnLap
  split
  · rename_i hclosed
    rw [isDone_iff_of_closed hclosed] at h
    omega
  · rename_i hopen
    rw [isDone_iff_of_open (by simpa using hopen)] at h
    omega

theorem OnLap.advance (h : c.OnLap k) (hrun : ¬ c.isDone k = true) :
    c.OnLap (k.advance 1) ∧ c.remaining k = c.remaining (k.advance 1) + 1 := by
  unfold OnLap at h ⊢
  unfold remaining Cursor.advance
  split at h
  · rename_i hclosed
    rw [isDone_iff_of_closed hclosed] at hrun
    simp only [hclosed, if_true]
    omega
  · rename_i hopen
    rw [isDone_iff_of_open (by simpa using hopen)] at hrun
    simp only [hopen, Bool.false_eq_true, if_false]
    omega

/-- The position `j` steps after the cursor. -/
def following (c : Contour ι) (k : Cursor) (j : Nat) : Int := (k.position + j) % c.size

theorem OnLap.walks (hword : Word.isSigned c.size = true) (h : c.OnLap k) :
    ∃ visits, c.Walks k visits (k.advance (c.remaining k)) ∧
      visits.map (fun visit => (c.indexOf visit.1, some visit.2)) =
        (List.range (c.remaining k)).map fun j =>
          (.ok (c.following k j), c.items[(c.following k j).toNat]?) := by
  induction hm : c.remaining k generalizing k with
  | zero =>
    refine ⟨[], ?_, rfl⟩
    have hlast : k.advance (0 : Nat) = k := by simp [Cursor.advance]
    rw [hlast]
    exact .stop (next_of_isDone ((isDone_iff_of_onLap h).mpr hm))
  | succ m ih =>
    have hrun : ¬ c.isDone k = true := by
      rw [isDone_iff_of_onLap h, hm]
      exact Nat.succ_ne_zero m
    obtain ⟨honLap, hremaining⟩ := h.advance hrun
    obtain ⟨item, hitem, hnext⟩ := exists_next hword hrun
    obtain ⟨visits, hwalks, hvisits⟩ := ih honLap (by omega)
    have hlast : (k.advance 1).advance m = k.advance (m + 1 : Nat) := by
      unfold Cursor.advance
      push_cast
      rw [add_assoc, add_comm 1]
    have hfirst : c.following k 0 = k.position % c.size := by simp [following]
    have hshift : ∀ j, c.following (k.advance 1) j = c.following k (j + 1) := by
      intro j
      unfold following Cursor.advance
      push_cast
      rw [add_assoc, add_comm 1]
    refine ⟨(k, item) :: visits, hlast ▸ .step hnext hwalks, ?_⟩
    rw [List.map_cons, hvisits, List.range_succ_eq_map, List.map_cons, List.map_map, hfirst,
      indexOf_of_not_isDone hrun, ← hitem]
    simp only [hshift]
    rfl

/-! ## Laps -/

theorem map_following (hposition : 0 ≤ k.position) :
    (List.range c.size).map (c.following k) =
      ((List.range c.size).rotate k.position.toNat).map fun p : Nat => (p : Int) := by
  apply List.ext_getElem
  · simp
  · intro j _ _
    obtain ⟨p, hp⟩ := Int.eq_ofNat_of_zero_le hposition
    simp [following, hp, List.getElem_rotate, add_comm]

theorem map_getElem?_range (items : List ι) :
    (List.range items.length).map (items[·]?) = items.map some := by
  apply List.ext_getElem
  · simp
  · intro j hj _
    have hj' : j < items.length := by simpa using hj
    simp [hj']

/-- What iterating from `k` comes to: it reads the items in `visits` and leaves the cursor at `last`. -/
structure Laps (c : Contour ι) (k : Cursor) (visits : List (Cursor × ι)) (last : Cursor) : Prop where
  ends : c.Walks k visits last
  collected : c.collect k = .ok (visits.map Prod.snd, last)
  of_closed : c.closed = true → (k.position - k.start).natAbs < c.size →
    visits.map (fun visit => some visit.2) =
        (List.range (c.size - (k.position - k.start)).toNat).map
          (fun j => c.items[(c.following k j).toNat]?) ∧
      last = ⟨k.start + c.size, k.start⟩ ∧ c.isDone last = true
  of_open : c.closed = false → 0 ≤ k.position → k.position < c.size →
    visits.map Prod.snd = c.items.drop k.position.toNat ∧ last = ⟨c.size, k.start⟩
  of_done : (c.closed = true → c.size ≤ (k.position - k.start).natAbs) →
    (c.closed = false → k.position < 0 ∨ c.size ≤ k.position) → visits = [] ∧ last = k

theorem laps_of_isDone (h : c.isDone k = true) : c.Laps k [] k := by
  have hstop : c.Walks k [] k := .stop (next_of_isDone h)
  constructor
  case ends => exact hstop
  case collected => exact hstop.walk_eq (Nat.zero_le _)
  case of_closed =>
    intro hclosed hrun
    exact absurd ((isDone_iff_of_closed hclosed).mp h) (not_le.mpr hrun)
  case of_open =>
    intro hopen hnonneg hlt
    have := (isDone_iff_of_open hopen).mp h
    omega
  case of_done => exact fun _ _ => ⟨rfl, rfl⟩

theorem laps_of_not_isDone (hword : Word.isSigned c.size = true) (h : ¬ c.isDone k = true) :
    ∃ visits, c.Laps k visits (k.advance (c.remaining k)) ∧
      visits.map (fun visit => (c.indexOf visit.1, some visit.2)) =
        (List.range (c.remaining k)).map fun j =>
          (.ok (c.following k j), c.items[(c.following k j).toNat]?) := by
  obtain ⟨visits, hwalks, hvisits⟩ := (onLap_of_not_isDone h).walks hword
  have hitems : visits.map (fun visit => some visit.2) =
      (List.range (c.remaining k)).map fun j => c.items[(c.following k j).toNat]? := by
    have hsecond := congrArg (List.map Prod.snd) hvisits
    rwa [List.map_map, List.map_map] at hsecond
  have hlength : visits.length = c.remaining k := by
    simpa using congrArg List.length hvisits
  refine ⟨visits, ?_, hvisits⟩
  constructor
  case ends => exact hwalks
  case collected => exact hwalks.walk_eq hlength.le
  case of_closed =>
    -- The walk ends where the lap is full, counted from the start and not from the cursor.
    intro hclosed hrun
    have hremaining : c.remaining k = (c.size - (k.position - k.start)).toNat := by
      simp [remaining, hclosed]
    have hlast : k.advance (c.remaining k) = ⟨k.start + c.size, k.start⟩ := by
      unfold Cursor.advance
      rw [hremaining, Cursor.mk.injEq]
      exact ⟨by omega, rfl⟩
    rw [← hremaining]
    refine ⟨hitems, hlast, ?_⟩
    rw [hlast, isDone_iff_of_closed hclosed]
    simp
  case of_open =>
    intro hopen hnonneg hlt
    have hremaining : c.remaining k = (c.size - k.position).toNat := by simp [remaining, hopen]
    refine ⟨?_, ?_⟩
    · -- The rest of the contour is visited. No position goes past the end, so none is reduced.
      apply List.map_injective_iff.mpr (Option.some_injective ι)
      rw [List.map_map]
      refine hitems.trans (List.ext_getElem ?_ fun j hj hj' => ?_)
      · simp [hremaining, size]
        omega
      · have hj : j < c.remaining k := by simpa using hj
        have hplace : (c.following k j).toNat = k.position.toNat + j := by
          unfold following
          rw [Int.emod_eq_of_lt (by omega) (by omega)]
          omega
        simp [hplace]
    · -- The cursor ends behind the last item.
      unfold Cursor.advance
      rw [hremaining, Cursor.mk.injEq]
      exact ⟨by omega, rfl⟩
  case of_done =>
    -- The cursor is not done.
    intro hclosed hopen
    refine absurd ?_ h
    cases hflag : c.closed with
    | true => exact (isDone_iff_of_closed hflag).mpr (hclosed hflag)
    | false => exact (isDone_iff_of_open hflag).mpr (hopen hflag)

/-- From every cursor the iteration ends, after the rest of the lap or of the open contour. The length
of a contour is a word. -/
theorem laps_of_cursor (c : Contour ι) (hword : Word.isSigned c.size = true) :
    (∀ k, ∃ visits last, c.Laps k visits last) ∧
      (c.closed = true → c.items ≠ [] → ∀ i, ∃ k visits last,
        c.cursor i = .ok k ∧ c.Laps k visits last ∧
          visits.map Prod.snd = c.items.rotate (i % c.size).toNat ∧
          (visits.map fun visit => c.indexOf visit.1).Perm
            ((List.range c.size).map fun p : Nat => .ok (p : Int))) := by
  refine ⟨fun k => ?_, fun hclosed hne i => ?_⟩
  · by_cases h : c.isDone k = true
    · exact ⟨[], k, laps_of_isDone h⟩
    · obtain ⟨visits, hlaps, -⟩ := laps_of_not_isDone hword h
      exact ⟨visits, _, hlaps⟩
  have hsize : 0 < c.size := List.length_pos_of_ne_nil hne
  have hposition : 0 ≤ i % (c.size : Int) := Int.emod_nonneg i (by omega)
  have hcursor : c.cursor i = .ok (Cursor.startingAt (i % c.size)) := by
    simp [cursor, linearIndex, hclosed, hne, Except.map]
  have hrun : ¬ c.isDone (Cursor.startingAt (i % c.size)) = true := by
    rw [isDone_iff_of_closed hclosed]
    simpa [Cursor.startingAt] using hsize.ne'
  have hremaining : c.remaining (Cursor.startingAt (i % c.size)) = c.size := by
    simp [remaining, hclosed, Cursor.startingAt]
  obtain ⟨visits, hlaps, hvisits⟩ := laps_of_not_isDone hword hrun
  rw [hremaining] at hvisits
  have hfollowing : (List.range c.size).map (c.following (Cursor.startingAt (i % c.size))) = _ :=
    map_following hposition
  refine ⟨_, visits, _, hcursor, hlaps, ?_, ?_⟩
  · -- The items, as a rotation of the contour.
    have hitems := congrArg (List.map Prod.snd) hvisits
    have hplaces := congrArg (List.map fun p : Int => c.items[p.toNat]?) hfollowing
    rw [List.map_map, List.map_map] at hitems hplaces
    apply List.map_injective_iff.mpr (Option.some_injective ι)
    rw [List.map_map, List.map_rotate, ← map_getElem?_range, ← List.map_rotate]
    exact hitems.trans hplaces
  · -- The positions, each of them once.
    have hplaces := congrArg (List.map Prod.fst) hvisits
    rw [List.map_map, List.map_map] at hplaces
    have hperm := ((List.range c.size).rotate_perm (i % c.size).toNat).map fun p : Nat =>
      (.ok (p : Int) : Except (Fault ι) Int)
    have hindices := congrArg (List.map fun p => (.ok p : Except (Fault ι) Int)) hfollowing
    rw [List.map_map, List.map_map] at hindices
    exact (hplaces.trans hindices) ▸ hperm

def triangle : Contour Nat := ⟨[10, 20, 30], true⟩

theorem laps_triangle :
    Word.isSigned triangle.size = true ∧
      (∃ visits, triangle.Laps ⟨1, 2⟩ visits ⟨5, 2⟩ ∧
        visits.map (fun visit => some visit.2) = [some 20, some 30, some 10, some 20]) ∧
      ∃ k visits last, triangle.cursor (-4) = .ok k ∧ triangle.Laps k visits last ∧
        visits.map Prod.snd = [30, 10, 20] := by
  have hword : Word.isSigned triangle.size = true := by decide
  obtain ⟨hlaps, hturn⟩ := laps_of_cursor triangle hword
  obtain ⟨visits, last, hback⟩ := hlaps ⟨1, 2⟩
  obtain ⟨hitems, rfl, -⟩ := hback.of_closed rfl (by decide)
  obtain ⟨k, visits', last', hcursor, hlap, hrotated, -⟩ := hturn rfl (by decide) (-4)
  exact ⟨hword, ⟨visits, hback, hitems⟩, k, visits', last', hcursor, hlap, hrotated⟩

end BoundedFit.Contour
