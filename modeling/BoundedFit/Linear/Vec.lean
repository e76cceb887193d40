import BoundedFit.Scalar

/-!
# Vectors

A vector is the list of its entries.
-/

namespace BoundedFit.Vec

variable {α : Type} [Add α] [Mul α] [Zero α]

/-- From the first entry to the last. -/
def sum (u : List α) : α := u.foldl (· + ·) 0

def dot (u v : List α) : α := sum (List.zipWith (· * ·) u v)

def norm [Scalar α] (u : List α) : α := Scalar.sqrt (dot u u)

/-- Combines two vectors entry by entry. A vector of length one stands for as many equal entries
as the other one has; any other difference in length is refused. -/
def zipStretched? (f : α → α → α) (u v : List α) : Option (List α) :=
  if u.length = v.length then some (List.zipWith f u v)
  else
    match u, v with
    | [a], v => some (v.map (f a))
    | u, [b] => some (u.map (f · b))
    | _, _ => none

omit [Add α] [Mul α] [Zero α] in
theorem zipStretched?_of_length_eq (f : α → α → α) {u v : List α} (h : u.length = v.length) :
    zipStretched? f u v = some (List.zipWith f u v) := by
  simp [zipStretched?, h]

omit [Add α] [Mul α] [Zero α] in
theorem exists_zipStretched? (f : α → α → α) {u v : List α}
    (h : u.length = v.length ∨ u.length = 1 ∨ v.length = 1) : ∃ w, zipStretched? f u v = some w := by
  by_cases hlength : u.length = v.length
  · exact ⟨_, zipStretched?_of_length_eq f hlength⟩
  · unfold zipStretched?
    rw [if_neg hlength]
    split
    · exact ⟨_, rfl⟩
    · exact ⟨_, rfl⟩
    · rename_i hleft hright
      rcases h with h | h | h
      · exact absurd h hlength
      · obtain ⟨a, ha⟩ := List.length_eq_one_iff.mp h
        exact (hleft a ha).elim
      · obtain ⟨b, hb⟩ := List.length_eq_one_iff.mp h
        exact (hright b hb).elim

omit [Add α] [Mul α] [Zero α] in
/-- Vectors of different lengths are combined if one of them has length one; the other one decides
about the length. -/
theorem of_zipStretched?_eq_some {f : α → α → α} {u v w : List α} (h : zipStretched? f u v = some w) :
    (u.length = v.length ∨ u.length = 1 ∨ v.length = 1) ∧
      w.length = if u.length = 1 then v.length else u.length := by
  unfold zipStretched? at h
  split at h
  · rename_i hlength
    obtain rfl := Option.some.inj h
    simp [hlength]
  · rename_i hne
    split at h
    · obtain rfl := Option.some.inj h
      simp
    · obtain rfl := Option.some.inj h
      simp at hne
      simp [hne]
    · cases h

end BoundedFit.Vec
