import Mathlib.Tactic
import Mathlib.Data.Prod.Lex
import BoundedFit.Scalar.Extended

/-!
# Comparisons of doubles

They compare as their places do; what is no number has no place.
-/

namespace BoundedFit

/-- The numbers among the values are preordered totally, the infinite one above all others on top; what
is no number compares with nothing. -/
class FloatOrder (α : Type) [Zero α] [LT α] [LE α] [Scalar α] : Prop where
  lt_iff : ∀ u v : α, u < v ↔ u ≤ v ∧ ¬ v ≤ u
  le_trans : ∀ u v w : α, u ≤ v → v ≤ w → u ≤ w
  le_self_of_le : ∀ u v : α, u ≤ v → u ≤ u ∧ v ≤ v
  le_total : ∀ u v : α, u ≤ u → v ≤ v → u ≤ v ∨ v ≤ u
  le_self_of_isFinite : ∀ v : α, Scalar.isFinite v = true → v ≤ v
  le_of_infinite : ∀ v w : α, v ≤ v → w ≤ w → Scalar.isFinite w = false → ¬ w < 0 → v ≤ w
  lt_of_infinite : ∀ v w : α, Scalar.isFinite v = true → w ≤ w → Scalar.isFinite w = false →
    ¬ w < 0 → v < w

theorem isComparable_iff {α : Type} [LE α] [DecidableLE α] {v : α} :
    Scalar.isComparable v = true ↔ v ≤ v := by
  simp [Scalar.isComparable, Scalar.same]

namespace FloatOrder

variable {α : Type} [Zero α] [LT α] [LE α] [Scalar α] [FloatOrder α] {u v w : α}

theorem le_of_lt (h : u < v) : u ≤ v := ((lt_iff u v).mp h).1

theorem not_le_of_lt (h : u < v) : ¬ v ≤ u := ((lt_iff u v).mp h).2

theorem le_self_of_lt (h : u < v) : u ≤ u ∧ v ≤ v := le_self_of_le u v (le_of_lt h)

theorem lt_of_lt_of_le (huv : u < v) (hvw : v ≤ w) : u < w := by
  rw [lt_iff]
  refine ⟨le_trans u v w (le_of_lt huv) hvw, fun hwu => not_le_of_lt huv ?_⟩
  exact le_trans v w u hvw hwu

theorem lt_of_le_of_lt (huv : u ≤ v) (hvw : v < w) : u < w := by
  rw [lt_iff]
  refine ⟨le_trans u v w huv (le_of_lt hvw), fun hwu => not_le_of_lt hvw ?_⟩
  exact le_trans w u v hwu huv

theorem le_of_not_lt (hu : u ≤ u) (hv : v ≤ v) (h : ¬ v < u) : u ≤ v := by
  rw [lt_iff] at h
  rcases le_total u v hu hv with huv | hvu
  · exact huv
  · by_contra huv
    exact h ⟨hvu, huv⟩

end FloatOrder

/-! ## Doubles -/

namespace Double

open Float.Model Float.Model.UnpackedFloat

/-- Where a double stands: by its class from the negative to the positive infinity, then by exponent
and mantissa. -/
def place? : UnpackedFloat → Option (ℤ ×ₗ ℤ ×ₗ ℤ)
  | .notANumber => none
  | .infinity .negative => some (toLex (-2, toLex (0, 0)))
  | .finite .negative m e _ => some (toLex (-1, toLex (-e, -m)))
  | .zero _ => some (toLex (0, toLex (0, 0)))
  | .finite .positive m e _ => some (toLex (1, toLex (e, m)))
  | .infinity .positive => some (toLex (2, toLex (0, 0)))

theorem compare_eq (u v : UnpackedFloat) :
    u.compare v = (place? u).bind fun a => (place? v).map fun b => compare a b := by
  rcases u with (_ | _) | _ | _ | ⟨_ | _, m, e, hm⟩ <;>
    rcases v with (_ | _) | _ | _ | ⟨_ | _, m', e', hm'⟩ <;> try rfl
  -- Two finite doubles of one sign compare by exponent, then by mantissa.
  all_goals
    dsimp only [UnpackedFloat.compare, place?, Option.bind_some, Option.map_some]
    rw [Option.some.injEq, eq_comm]
    rcases lt_trichotomy e e' with h | rfl | h <;> rcases lt_trichotomy m m' with h' | rfl | h' <;>
      simp [Prod.Lex.lt_iff, compare_lt_iff_lt.mpr, compare_gt_iff_gt.mpr, Ordering.then, *]

theorem le_iff (u v : Float) :
    u ≤ v ↔ ∃ a ∈ place? u.toModel.unpack, ∃ b ∈ place? v.toModel.unpack, a ≤ b := by
  have hle : u ≤ v ↔ (u.toModel.unpack.compare v.toModel.unpack).any (·.isLE) = true := by
    exact decide_eq_true_iff
  rw [hle, compare_eq]
  rcases place? u.toModel.unpack with _ | a <;> rcases place? v.toModel.unpack with _ | b <;>
    simp [Ordering.isLE_iff_ne_gt, compare_le_iff_le]

theorem lt_iff (u v : Float) :
    u < v ↔ ∃ a ∈ place? u.toModel.unpack, ∃ b ∈ place? v.toModel.unpack, a < b := by
  have hlt : u < v ↔ u.toModel.unpack.compare v.toModel.unpack = some .lt := by
    exact decide_eq_true_iff.trans beq_iff_eq
  rw [hlt, compare_eq]
  rcases place? u.toModel.unpack with _ | a <;> rcases place? v.toModel.unpack with _ | b <;>
    simp [compare_lt_iff_lt]

theorem le_self_iff (v : Float) : v ≤ v ↔ ∃ a, place? v.toModel.unpack = some a := by
  rw [le_iff]
  rcases place? v.toModel.unpack with _ | a <;> simp

theorem place?_zero : place? (0 : Float).toModel.unpack = some (toLex (0, toLex (0, 0))) := by
  decide +kernel

theorem place?_of_infinite {w : Float} (hw : w ≤ w) (hinfinite : Scalar.isFinite w = false)
    (hpos : ¬ w < 0) : place? w.toModel.unpack = some (toLex (2, toLex (0, 0))) := by
  rw [le_self_iff] at hw
  rw [lt_iff, place?_zero] at hpos
  have hfinite : w.toModel.unpack.isFinite = false := hinfinite
  rcases hunpack : w.toModel.unpack with (_ | _) | _ | _ | _
  all_goals rw [hunpack] at hw hpos hfinite
  case infinity.negative =>
    refine absurd ⟨_, rfl, _, rfl, ?_⟩ hpos
    decide
  case infinity.positive => rfl
  case notANumber =>
    obtain ⟨a, ha⟩ := hw
    cases ha
  all_goals cases hfinite

theorem place?_of_isFinite {v : Float} (h : Scalar.isFinite v = true) :
    ∃ a, place? v.toModel.unpack = some a ∧ a < toLex (2, toLex (0, 0)) := by
  have hfinite : v.toModel.unpack.isFinite = true := h
  rcases hunpack : v.toModel.unpack with _ | _ | _ | ⟨_ | _, m, e, hm⟩
  all_goals rw [hunpack] at hfinite
  case infinity => cases hfinite
  case notANumber => cases hfinite
  all_goals exact ⟨_, rfl, by simp [Prod.Lex.lt_iff]⟩

theorem le_top_of_place? {u : UnpackedFloat} {a : ℤ ×ₗ ℤ ×ₗ ℤ} (h : place? u = some a) :
    a ≤ toLex (2, toLex (0, 0)) := by
  rcases u with (_ | _) | _ | _ | ⟨_ | _, m, e, hm⟩
  case notANumber => cases h
  all_goals
    obtain rfl := Option.some.inj h
    simp [Prod.Lex.le_iff]

end Double

open Double in
instance : FloatOrder Float where
  lt_iff u v := by
    rw [lt_iff, le_iff, le_iff]
    rcases place? u.toModel.unpack with _ | a <;> rcases place? v.toModel.unpack with _ | b
    case some.some => simpa using le_of_lt
    all_goals simp
  le_trans u v w huv hvw := by
    rw [le_iff] at *
    obtain ⟨a, ha, b, hb, hab⟩ := huv
    obtain ⟨b', hb', c, hc, hbc⟩ := hvw
    obtain rfl := Option.some.inj (hb.symm.trans hb')
    exact ⟨a, ha, c, hc, hab.trans hbc⟩
  le_self_of_le u v h := by
    rw [le_self_iff, le_self_iff]
    obtain ⟨a, ha, b, hb, -⟩ := (le_iff u v).mp h
    exact ⟨⟨a, ha⟩, ⟨b, hb⟩⟩
  le_total u v hu hv := by
    rw [le_self_iff] at hu hv
    obtain ⟨a, ha⟩ := hu
    obtain ⟨b, hb⟩ := hv
    rcases le_total a b with h | h
    · exact Or.inl ((le_iff u v).mpr ⟨a, ha, b, hb, h⟩)
    · exact Or.inr ((le_iff v u).mpr ⟨b, hb, a, ha, h⟩)
  le_self_of_isFinite v h := by
    obtain ⟨a, ha, -⟩ := place?_of_isFinite h
    exact (le_self_iff v).mpr ⟨a, ha⟩
  le_of_infinite v w hv hw hinfinite hpos := by
    obtain ⟨a, ha⟩ := (le_self_iff v).mp hv
    exact (le_iff v w).mpr ⟨a, ha, _, place?_of_infinite hw hinfinite hpos, le_top_of_place? ha⟩
  lt_of_infinite v w hv hw hinfinite hpos := by
    obtain ⟨a, ha, htop⟩ := place?_of_isFinite hv
    exact (lt_iff v w).mpr ⟨a, ha, _, place?_of_infinite hw hinfinite hpos, htop⟩

/-! ## Exact numbers and what is no number -/

open Extended in
instance {α : Type} [LinearOrder α] [Zero α] [Scalar α] : FloatOrder (Extended α) where
  lt_iff u v := by
    cases u <;> cases v
    case number.number => simpa using le_of_lt
    all_goals simp
  le_trans u v w huv hvw := by
    cases v
    case notANumber => exact absurd huv (not_le_notANumber u)
    case number v =>
      cases u <;> cases w <;> simp_all
      exact huv.trans hvw
  le_self_of_le u v h := by cases u <;> cases v <;> simp_all
  le_total u v hu hv := by
    cases u <;> cases v
    case number.number u v => exact le_total u v
    all_goals simp_all
  le_self_of_isFinite v h := by
    cases v
    case number v => exact le_refl v
    case notANumber => cases h
  -- Every number is finite.
  le_of_infinite v w _ hw hinfinite _ := by
    cases w
    case number w => cases hinfinite
    case notANumber => exact absurd hw (not_notANumber_le _)
  lt_of_infinite v w _ hw hinfinite _ := by
    cases w
    case number w => cases hinfinite
    case notANumber => exact absurd hw (not_notANumber_le _)

end BoundedFit
