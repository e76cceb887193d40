import BoundedFit.Proofs.ActiveSet.Sorted
import BoundedFit.Proofs.Step

/-!
# Active sets in use

The last call about a bound decides whether it is a member.
-/

namespace BoundedFit

/-! ## Coordinates -/

theorem pairwise_lt_eraseDups {l : List Nat} (h : l.Pairwise (· ≤ ·)) :
    l.eraseDups.Pairwise (· < ·) := by
  induction hn : l.length using Nat.strong_induction_on generalizing l with
  | _ n ih =>
    subst hn
    cases l with
    | nil => exact List.Pairwise.nil
    | cons i l =>
      obtain ⟨hi, hl⟩ := List.pairwise_cons.mp h
      have hshort : (l.filter fun j => !j == i).length < (i :: l).length :=
        Nat.lt_succ_of_le (List.length_filter_le _ l)
      rw [List.eraseDups_cons, List.pairwise_cons]
      refine ⟨fun j hj => ?_, ih _ hshort (hl.filter _) rfl⟩
      rw [List.mem_eraseDups, List.mem_filter] at hj
      obtain ⟨hj, hne⟩ := hj
      have hne' : j ≠ i := by simpa using hne
      exact lt_of_le_of_ne (hi j hj) hne'.symm

namespace ActiveSet

section Coordinates

variable {α : Type} {s : ActiveSet α} {n i : Nat} {mask : List Bool}

theorem mem_indices : i ∈ s.indices ↔ ∃ m ∈ s.members, m.index = i := by
  simp [indices]

theorem wordIndices_eq (s : ActiveSet α) :
    s.wordIndices = if ∀ m ∈ s.members, Word.isSigned m.index = true then .ok s.indices
      else .error .wordOverflow := by
  unfold wordIndices
  congr 1
  simp only [List.all_eq_true, mem_indices, eq_iff_iff]
  constructor
  · exact fun h m hm => h m.index ⟨m, hm, rfl⟩
  · rintro h i ⟨m, hm, rfl⟩
    exact h m hm

theorem freeMask_refused_iff :
    (∃ fault, s.freeMask n = .error fault) ↔ ∃ m ∈ s.members, n ≤ m.index := by
  constructor
  · rintro ⟨fault, hfault⟩
    by_contra hnone
    push Not at hnone
    rw [freeMask_eq_ok hnone] at hfault
    cases hfault
  · rintro ⟨m, hm, hbeyond⟩
    rcases hmask : s.freeMask n with fault | mask
    · exact ⟨fault, rfl⟩
    · exact absurd ((of_freeMask_eq_ok hmask).1 m hm) (Nat.not_lt.mpr hbeyond)

theorem getElem?_freeMask_eq_false_iff (h : s.freeMask n = .ok mask) :
    mask[i]? = some false ↔ i ∈ s.indices := by
  rw [mem_indices]
  constructor
  · exact exists_mem_of_getElem?_freeMask h
  · rintro ⟨m, hm, rfl⟩
    exact getElem?_freeMask_of_mem h hm

/-- A mask of `n` entries can be made: its length is a signed word, and there is memory for it. -/
def Storable (allocates : Nat → Bool) (n : Nat) : Prop :=
  Word.isSigned n = true ∧ allocates n = true

theorem freeMaskOfSize_of_storable {allocates : Nat → Bool} (h : Storable allocates n) :
    s.freeMaskOfSize allocates n = s.freeMask n := by
  have hnonneg : ¬ (n : Int) < 0 := Int.not_lt.mpr (Int.natCast_nonneg n)
  unfold freeMaskOfSize
  rw [if_neg hnonneg, Int.toNat_natCast, h.1, h.2]
  rfl

theorem exists_fault_of_not_storable {allocates : Nat → Bool} (h : ¬ Storable allocates n) :
    ∃ fault, s.freeMaskOfSize allocates n = .error fault := by
  have hnonneg : ¬ (n : Int) < 0 := Int.not_lt.mpr (Int.natCast_nonneg n)
  unfold freeMaskOfSize
  rw [if_neg hnonneg, Int.toNat_natCast]
  cases hsigned : Word.isSigned n with
  | false => exact ⟨.sizeLimit, rfl⟩
  | true =>
    cases hallocates : allocates n with
    | false => exact ⟨.outOfMemory n, rfl⟩
    | true => exact absurd ⟨hsigned, hallocates⟩ h

variable [LT α] [LE α] [DecidableLE α]

/-- What a set shows of its members: in iteration, as a list of coordinates and as a mask. -/
structure Shows (s : ActiveSet α) : Prop where
  contains_iff : ∀ c, s.contains c = true ↔ ∃ m ∈ s.toList, c.same m = true
  increasing : s.toList.Pairwise Bound.Precedes
  mem_indices_iff : ∀ i, i ∈ s.indices ↔ ∃ m ∈ s.toList, m.index = i
  indices_increasing : s.indices.Pairwise (· < ·)
  wordIndices_eq : s.wordIndices = if ∀ m ∈ s.toList, Word.isSigned m.index = true then .ok s.indices
    else .error .wordOverflow
  mask_refused_iff : ∀ (allocates : Nat → Bool) (n : Nat),
    (∃ fault, s.freeMaskOfSize allocates n = .error fault) ↔
      ¬ Storable allocates n ∨ ∃ m ∈ s.toList, n ≤ m.index
  mask_spec : ∀ (allocates : Nat → Bool) (n : Nat) (mask : List Bool),
    s.freeMaskOfSize allocates n = .ok mask →
      mask.length = n ∧ ∀ i, mask[i]? = some false ↔ i ∈ s.indices

theorem Sorted.indices_increasing (hs : s.Sorted) : s.indices.Pairwise (· < ·) := by
  apply pairwise_lt_eraseDups
  rw [List.pairwise_map]
  refine hs.increasing.imp fun hprecedes => ?_
  rcases hprecedes with hlt | ⟨heq, -⟩
  · exact hlt.le
  · exact heq.le

theorem Sorted.shows (hs : s.Sorted) : s.Shows where
  contains_iff _ := contains_iff_same
  increasing := hs.increasing
  mem_indices_iff _ := mem_indices
  indices_increasing := hs.indices_increasing
  wordIndices_eq := wordIndices_eq s
  mask_refused_iff allocates n := by
    by_cases h : Storable allocates n
    · rw [freeMaskOfSize_of_storable h, freeMask_refused_iff, or_iff_right (not_not.mpr h)]
      rfl
    · exact iff_of_true (exists_fault_of_not_storable h) (Or.inl h)
  mask_spec allocates n mask hmask := by
    by_cases h : Storable allocates n
    · rw [freeMaskOfSize_of_storable h] at hmask
      exact ⟨length_freeMask hmask, fun i => getElem?_freeMask_eq_false_iff hmask⟩
    · obtain ⟨fault, hfault⟩ := exists_fault_of_not_storable (s := s) h
      rw [hfault] at hmask
      cases hmask

end Coordinates

/-! ## Calls -/

/-- A call that may change a set. -/
inductive Call (α : Type) where
  | add (b : Bound α)
  | discard (b : Bound α)
  | remove (b : Bound α)

namespace Call

variable {α : Type}

def bound : Call α → Bound α
  | add b | discard b | remove b => b

def isAdd : Call α → Bool
  | add _ => true
  | discard _ | remove _ => false

end Call

variable {α : Type} [LT α] [LE α] [DecidableLT α] [DecidableLE α]

def perform (s : ActiveSet α) : Call α → Except (Fault α) (ActiveSet α)
  | .add b => .ok (s.insert b)
  | .discard b => .ok (s.erase b)
  | .remove b => s.remove b

/-- A call that is refused changes nothing. -/
def follow (s : ActiveSet α) (call : Call α) : ActiveSet α :=
  match s.perform call with
  | .ok t => t
  | .error _ => s

/-- The set after some calls on a set of the given bounds. -/
def after (initial : List (Bound α)) (calls : List (Call α)) : ActiveSet α :=
  calls.foldl follow (ofList initial)

/-- The bounds that a set is made of count as added. -/
def history (initial : List (Bound α)) (calls : List (Call α)) : List (Call α) :=
  initial.map .add ++ calls

/-- The last call about a bound that is the same as `c`. -/
def lastAbout? (c : Bound α) (history : List (Call α)) : Option (Call α) :=
  (history.filter fun call => call.bound.same c).getLast?

theorem after_eq_foldl (initial : List (Bound α)) (calls : List (Call α)) :
    after initial calls = (history initial calls).foldl follow empty := by
  unfold after history ofList
  rw [List.foldl_append, List.foldl_map]
  rfl

/-! ## One call -/

theorem follow_remove (s : ActiveSet α) (b : Bound α) :
    s.follow (.remove b) = if s.contains b then s.erase b else s := by
  have hfollow : s.follow (.remove b) = match s.remove b with
      | .ok t => t
      | .error _ => s := rfl
  rw [hfollow, remove]
  cases s.contains b <;> rfl

theorem remove_refused_iff (s : ActiveSet α) (b : Bound α) :
    (∃ fault, s.perform (.remove b) = .error fault ∧ fault.kind = .missing ∧ s.follow (.remove b) = s) ↔
      s.contains b = false := by
  have hperform : s.perform (.remove b) = s.remove b := rfl
  rw [hperform, follow_remove, remove]
  cases s.contains b with
  | true => simp
  | false => simp [Fault.kind]

variable [Zero α] [Scalar α] [FloatOrder α] {s : ActiveSet α}

/-- A call decides about the bounds that are the same as its own, and about no others. -/
theorem contains_follow (s : ActiveSet α) (call : Call α) (c : Bound α) :
    (s.follow call).contains c = if call.bound.same c then call.isAdd else s.contains c := by
  cases call with
  | add b =>
    change (s.insert b).contains c = if b.same c then true else s.contains c
    rw [contains_insert]
    cases b.same c <;> rfl
  | discard b =>
    change (s.erase b).contains c = if b.same c then false else s.contains c
    rw [contains_erase]
    cases b.same c <;> rfl
  | remove b =>
    change (s.follow (.remove b)).contains c = if b.same c then false else s.contains c
    rw [follow_remove]
    split
    · rw [contains_erase]
      cases b.same c <;> rfl
    · rename_i hcontains
      split
      · rename_i hsame
        rwa [← contains_congr hsame, ← Bool.not_eq_true]
      · rfl

theorem Sorted.follow (hs : s.Sorted) {call : Call α} (hcall : call.bound.value ≤ call.bound.value) :
    (s.follow call).Sorted := by
  cases call with
  | add b => exact hs.insert hcall
  | discard b => exact hs.filter _
  | remove b =>
    rw [follow_remove]
    split
    · exact hs.filter _
    · exact hs

/-! ## Histories -/

/-- The value of every bound is a number. -/
def Numeric (history : List (Call α)) : Prop := ∀ call ∈ history, call.bound.value ≤ call.bound.value

theorem contains_foldl_follow (s : ActiveSet α) (history : List (Call α)) (c : Bound α) :
    (history.foldl follow s).contains c = (lastAbout? c history).elim (s.contains c) Call.isAdd := by
  unfold lastAbout?
  induction history using List.reverseRecOn with
  | nil => rfl
  | append_singleton history call ih =>
    rw [List.foldl_append, List.foldl_cons, List.foldl_nil, contains_follow, ih, List.filter_append]
    cases hsame : call.bound.same c <;> simp [hsame]

theorem Sorted.foldl_follow (hs : s.Sorted) {history : List (Call α)} (hnumeric : Numeric history) :
    (history.foldl ActiveSet.follow s).Sorted := by
  induction history generalizing s with
  | nil => exact hs
  | cons call history ih =>
    obtain ⟨hcall, hrest⟩ := List.forall_mem_cons.mp hnumeric
    exact ih (hs.follow hcall) hrest

variable {initial others : List (Bound α)} {calls others' : List (Call α)}

theorem contains_after_iff (initial : List (Bound α)) (calls : List (Call α)) (c : Bound α) :
    (after initial calls).contains c = true ↔
      ∃ call, lastAbout? c (history initial calls) = some call ∧ call.isAdd = true := by
  rw [after_eq_foldl, contains_foldl_follow]
  cases lastAbout? c (history initial calls) with
  | none => simp [contains, empty]
  | some call => simp

theorem sorted_after (h : Numeric (history initial calls)) : (after initial calls).Sorted := by
  rw [after_eq_foldl]
  exact sorted_empty.foldl_follow h

/-- However it was built, an active set is an ordered set: the last call about a bound decides whether
it is a member, and sets with the same members show the same, up to the sign of a zero. -/
theorem ordered_set (initial : List (Bound α)) (calls : List (Call α))
    (hnumeric : Numeric (history initial calls)) :
    (∀ c, (after initial calls).contains c = true ↔
        ∃ call, lastAbout? c (history initial calls) = some call ∧ call.isAdd = true) ∧
      (∀ c, (∃ fault, (after initial calls).perform (.remove c) = .error fault ∧ fault.kind = .missing ∧
          (after initial calls).follow (.remove c) = after initial calls) ↔
        (after initial calls).contains c = false) ∧
      (after initial calls).Shows ∧
      ∀ initial' calls', Numeric (history initial' calls') →
        ((∀ c, (after initial calls).contains c = (after initial' calls').contains c) ↔
            (after initial calls).same (after initial' calls') = true) ∧
          ((after initial calls).same (after initial' calls') = true ↔
            List.Forall₂ (fun m m' => m.same m' = true) (after initial calls).toList
              (after initial' calls').toList) := by
  have hs := sorted_after hnumeric
  refine ⟨contains_after_iff initial calls, remove_refused_iff _, hs.shows, fun initial' calls' h => ?_⟩
  have ht := sorted_after h
  exact ⟨(hs.same_iff_contains ht).symm, hs.same_iff_forall₂ ht⟩

def zeroAndOne : List (Bound Float) := [⟨0, 0, .lower⟩, ⟨1, 1, .upper⟩]

/-- The negative zero counts as the zero that is a member already. -/
def bothZeros : List (Call Float) := [.add ⟨0, -0, .lower⟩, .remove ⟨1, 1, .upper⟩]

theorem ordered_set_zeros :
    Numeric (history zeroAndOne bothZeros) ∧ Numeric (history [] [.add ⟨0, (-0 : Float), .lower⟩]) ∧
      (after zeroAndOne bothZeros).size = 1 ∧
      List.Forall₂ (fun m m' => m.same m' = true) (after zeroAndOne bothZeros).toList
        (after [] [.add ⟨0, (-0 : Float), .lower⟩]).toList ∧
      (∃ fault, (after zeroAndOne bothZeros).freeMaskOfSize (· ≤ 100) (0 : Nat) = .error fault) ∧
      ∃ mask, (after zeroAndOne bothZeros).freeMaskOfSize (· ≤ 100) (2 : Nat) = .ok mask ∧
        mask.length = 2 ∧ mask[0]? = some false ∧ mask[1]? ≠ some false := by
  have hnumeric : Numeric (history zeroAndOne bothZeros) := by
    unfold Numeric
    decide +kernel
  have hnumeric' : Numeric (history [] [.add ⟨0, (-0 : Float), .lower⟩]) := by
    unfold Numeric
    decide +kernel
  have hindices : (after zeroAndOne bothZeros).indices = [0] := by decide +kernel
  have hshort : ∀ m ∈ (after zeroAndOne bothZeros).toList, m.index = 0 := by decide +kernel
  obtain ⟨-, -, hshows, hcompare⟩ := ordered_set _ _ hnumeric
  refine ⟨hnumeric, hnumeric', by decide +kernel, (hcompare _ _ hnumeric').2.mp (by decide +kernel), ?_,
    ?_⟩
  · -- Even the empty mask could be stored, but the member lies beyond its end.
    obtain ⟨m, hm, -⟩ := (hshows.mem_indices_iff 0).mp (by rw [hindices]; exact List.mem_singleton_self 0)
    exact (hshows.mask_refused_iff (· ≤ 100) 0).mpr (Or.inr ⟨m, hm, Nat.zero_le _⟩)
  · rcases hmask : (after zeroAndOne bothZeros).freeMaskOfSize (· ≤ 100) (2 : Nat) with fault | mask
    · rcases (hshows.mask_refused_iff (· ≤ 100) 2).mp ⟨fault, hmask⟩ with hlong | ⟨m, hm, hbeyond⟩
      · exact absurd ⟨by decide, by decide⟩ hlong
      · rw [hshort m hm] at hbeyond
        exact absurd hbeyond (by decide)
    · obtain ⟨hlength, hfalse⟩ := hshows.mask_spec _ 2 mask hmask
      rw [hindices] at hfalse
      exact ⟨mask, rfl, hlength, (hfalse 0).mpr (by decide), mt (hfalse 1).mp (by decide)⟩

/-- A coordinate that is no signed word is not listed, and however much memory there is, no mask has
more entries than a signed word counts. -/
theorem indices_refused :
    (¬ ∀ initial : List (Bound Float), Numeric (history initial []) →
        ∃ listed, (after initial []).wordIndices = .ok listed ∧
          ∀ i, i ∈ listed ↔ ∃ m ∈ (after initial []).toList, m.index = i) ∧
      ∀ allocates : Nat → Bool, ¬ ∀ n : Nat,
        (∃ fault, (after ([] : List (Bound Float)) []).freeMaskOfSize allocates n = .error fault) ↔
          ∃ m ∈ (after ([] : List (Bound Float)) []).toList, n ≤ m.index := by
  constructor
  · intro h
    obtain ⟨listed, hlisted, -⟩ := h [⟨2 ^ 63, 0, .lower⟩] (by unfold Numeric; decide +kernel)
    have hrefused : (after [⟨2 ^ 63, (0 : Float), .lower⟩] []).wordIndices = .error .wordOverflow := by
      rfl
    rw [hrefused] at hlisted
    cases hlisted
  · intro allocates h
    have hlong : ¬ Storable allocates (2 ^ 63) := fun hstorable => absurd hstorable.1 (by decide +kernel)
    obtain ⟨m, hm, -⟩ := (h (2 ^ 63)).mp (exists_fault_of_not_storable hlong)
    cases hm

end ActiveSet

end BoundedFit
