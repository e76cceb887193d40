import Mathlib.Data.Prod.Lex
import BoundedFit.Proofs.Exact

/-!
# The order of active sets

Over a linear order they are strictly increasing.
-/

namespace BoundedFit

variable {α : Type}

theorem Side.sign_lt_iff (s t : Side) : s.sign < t.sign ↔ s = .upper ∧ t = .lower := by
  cases s <;> cases t <;> decide

theorem Side.sign_injective : Function.Injective sign := by
  intro s t h
  rw [← Option.some_inj, ← ofSign?_sign s, h, ofSign?_sign t]

/-- What bounds are ordered by. -/
def Bound.key (b : Bound α) : ℕ ×ₗ α ×ₗ ℤ := toLex (b.index, toLex (b.value, b.side.sign))

theorem Bound.key_injective : Function.Injective (key : Bound α → _) := by
  rintro ⟨i, v, s⟩ ⟨j, w, t⟩ h
  simp only [key, EmbeddingLike.apply_eq_iff_eq, Prod.mk.injEq] at h
  obtain ⟨rfl, rfl, hsign⟩ := h
  rw [Side.sign_injective hsign]

theorem ActiveSet.pairwise_insertSorted_of [LT α] [LE α] [DecidableLT α] [DecidableLE α]
    {r : Bound α → Bound α → Prop} {b : Bound α} {l : List (Bound α)}
    (htrans : ∀ c d, r b c → r c d → r b d) (hbefore : ∀ c ∈ l, b.before c = true → r b c)
    (hafter : ∀ c ∈ l, ¬ b.before c = true → r c b) (hl : l.Pairwise r) :
    (insertSorted b l).Pairwise r := by
  induction l with
  | nil => exact List.pairwise_singleton r b
  | cons c rest ih =>
    obtain ⟨hc, hrest⟩ := List.pairwise_cons.mp hl
    unfold insertSorted
    split
    · rename_i h
      have hfirst := hbefore c List.mem_cons_self h
      refine List.pairwise_cons.mpr ⟨fun d hd => ?_, hl⟩
      rcases List.mem_cons.mp hd with rfl | hd
      · exact hfirst
      · exact htrans c d hfirst (hc d hd)
    · rename_i h
      have hlater := hafter c List.mem_cons_self h
      have hinserted := ih (fun d hd => hbefore d (List.mem_cons_of_mem c hd))
        (fun d hd => hafter d (List.mem_cons_of_mem c hd)) hrest
      refine List.pairwise_cons.mpr ⟨fun d hd => ?_, hinserted⟩
      rcases (mem_insertSorted b d rest).mp hd with rfl | hd
      · exact hlater
      · exact hc d hd

variable [LinearOrder α]

theorem Bound.before_iff (a b : Bound α) : a.before b = true ↔ a.key < b.key := by
  unfold before key
  simp [Scalar.same_iff, Prod.Lex.toLex_lt_toLex, Side.sign_lt_iff, and_assoc]

namespace ActiveSet

/-- The members are strictly increasing by coordinate, value and sign. -/
def Ordered (s : ActiveSet α) : Prop := s.members.Pairwise fun a b => a.key < b.key

variable {s : ActiveSet α}

theorem ordered_empty : (empty : ActiveSet α).Ordered := List.Pairwise.nil

theorem Ordered.filter (h : s.Ordered) (keep : Bound α → Bool) : (s.filter keep).Ordered :=
  List.Pairwise.filter keep h

theorem pairwise_insertSorted {b : Bound α} {l : List (Bound α)}
    (hl : l.Pairwise fun a b => a.key < b.key) (hb : b ∉ l) :
    (insertSorted b l).Pairwise fun a b => a.key < b.key := by
  refine pairwise_insertSorted_of (fun c d => lt_trans) (fun c _ => (b.before_iff c).mp)
    (fun c hc h => ?_) hl
  rw [b.before_iff c, not_lt] at h
  exact lt_of_le_of_ne h fun heq => hb (Bound.key_injective heq ▸ hc)

theorem Ordered.insert (h : s.Ordered) (b : Bound α) : (s.insert b).Ordered := by
  unfold ActiveSet.insert
  split
  · exact h
  · rename_i hb
    exact pairwise_insertSorted h fun hmem => hb ((s.contains_iff b).mpr hmem)

theorem ordered_ofList (bounds : List (Bound α)) : (ofList bounds).Ordered := by
  have hfold : ∀ (bounds : List (Bound α)) (s : ActiveSet α), s.Ordered →
      (bounds.foldl insert s).Ordered := by
    intro bounds
    induction bounds with
    | nil => exact fun s hs => hs
    | cons b bounds ih => exact fun s hs => ih (s.insert b) (hs.insert b)
  exact hfold bounds empty ordered_empty

end ActiveSet

end BoundedFit
