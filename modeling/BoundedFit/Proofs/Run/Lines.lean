import Mathlib.Data.List.Count
import BoundedFit.Solver.Log

/-! # Events are lines -/

namespace BoundedFit

/-- A text without a line break. -/
def IsLine (text : String) : Prop := '\n' ∉ text.toList

instance (text : String) : Decidable (IsLine text) := inferInstanceAs (Decidable ('\n' ∉ text.toList))

theorem IsLine.append {s t : String} (hs : IsLine s) (ht : IsLine t) : IsLine (s ++ t) := by
  unfold IsLine at *
  simp [hs, ht]

theorem isLine_ofList {l : List Char} : IsLine (String.ofList l) ↔ '\n' ∉ l := by
  simp [IsLine]

theorem not_mem_toDigits (n : Nat) : '\n' ∉ Nat.toDigits 10 n := by
  intro h
  have hdigit := Nat.isDigit_of_mem_toDigits (by decide) (by decide) h
  exact absurd hdigit (by decide)

theorem isLine_toString (n : Nat) : IsLine (toString n) := by
  rw [Nat.toString_eq_repr, Nat.repr_eq_ofList_toDigits, isLine_ofList]
  exact not_mem_toDigits n

/-! ## Decimals -/

namespace Decimal

theorem not_mem_digits (d : Decimal) : '\n' ∉ d.digits := by
  simp [digits, not_mem_toDigits]

theorem not_mem_dropTrailingZeros {l : List Char} (h : '\n' ∉ l) : '\n' ∉ dropTrailingZeros l := by
  intro hmem
  rw [dropTrailingZeros, List.mem_reverse] at hmem
  exact h (List.mem_reverse.mp ((List.dropWhile_sublist _).subset hmem))

theorem not_mem_split {l : List Char} (h : '\n' ∉ l) (exponent : Int) :
    '\n' ∉ (split l exponent).1 ∧ '\n' ∉ (split l exponent).2 := by
  unfold split
  split
  · simp [h]
  · have htake : ∀ n, '\n' ∉ l.take n := fun n hmem => h (List.mem_of_mem_take hmem)
    have hdrop : ∀ n, '\n' ∉ l.drop n := fun n hmem => h (List.mem_of_mem_drop hmem)
    simp [htake, hdrop]

theorem isLine_joinParts {parts : List Char × List Char} (h : '\n' ∉ parts.1) (h' : '\n' ∉ parts.2) :
    IsLine (joinParts parts) := by
  rw [joinParts, isLine_ofList]
  split
  · exact h
  · simp [h, h']

theorem isLine_exponentText (e : Int) : IsLine (exponentText e) := by
  unfold exponentText
  refine .append (by split <;> decide) ?_
  rw [isLine_ofList]
  simp [not_mem_toDigits]

theorem isLine_compact (limit : Int) (d : Decimal) : IsLine (d.compact limit) := by
  have hjoin : ∀ e, IsLine (joinParts ((split d.digits e).1, dropTrailingZeros (split d.digits e).2)) :=
    fun e => isLine_joinParts (not_mem_split d.not_mem_digits e).1
      (not_mem_dropTrailingZeros (not_mem_split d.not_mem_digits e).2)
  unfold compact
  split
  · exact hjoin d.exponent
  · exact (hjoin 0).append (isLine_exponentText d.exponent)

end Decimal

theorem isLine_generalText (precision : Nat) (v : Float) : IsLine (generalText precision v) := by
  have hsign : ∀ negative : Bool, IsLine (if negative then "-" else "") := by decide
  have hinf : IsLine "inf" := by decide
  unfold generalText Binary64.text
  cases Binary64.ofFloat v with
  | nan => exact (by decide : IsLine "nan")
  | infinite negative => exact (hsign negative).append hinf
  | finite negative mantissa exponent => exact (hsign negative).append (Decimal.isLine_compact _ _)

/-! ## Events -/

namespace Event

theorem isLine_bestText (best : Option Float) : IsLine (bestText best) := by
  cases best with
  | none => exact (by decide : IsLine "inf")
  | some best => exact isLine_generalText errorPrecision best

theorem isLine_iterationText (iteration : Nat) : IsLine (iterationText iteration) := by
  unfold iterationText
  split
  · exact (by decide : IsLine "0").append (isLine_toString iteration)
  · exact isLine_toString iteration

/-- An event is written on one line if the parts that differ between runs are. -/
theorem isLine_text {style : LogStyle} (hscale : ∀ scale, IsLine (style.scale scale))
    (helapsed : IsLine style.elapsed) (event : Event Float) : IsLine (event.text style) := by
  have hindent : IsLine "  " := by decide
  cases event with
  | started active =>
    exact .append (.append (by decide) (isLine_toString active)) (by decide)
  | projecting index scale =>
    exact .append (.append (.append (by decide) (isLine_toString index)) (by decide)) (hscale scale)
  | stepped iteration error best active hit =>
    have herrors := ((hindent.append (isLine_iterationText iteration)).append
      (by decide : IsLine " error=")).append (isLine_generalText errorPrecision error)
    have hactive := ((((herrors.append (by decide : IsLine ", best=")).append (isLine_bestText best)).append
      (by decide : IsLine ", ")).append (isLine_toString active)).append (by decide : IsLine " active")
    have hclosed : ∀ {s}, IsLine s → IsLine (s ++ "; step calculated in " ++ style.elapsed ++ " ms") :=
      fun hs => ((hs.append (by decide)).append helapsed).append (by decide)
    cases hit with
    | none => exact hclosed (hactive.append (by decide : IsLine ""))
    | some index =>
      exact hclosed (hactive.append (.append (.append (by decide) (isLine_toString index)) (by decide)))
  | converged iteration error =>
    exact .append (.append (.append hindent (isLine_iterationText iteration)) (by decide))
      (isLine_generalText settledPrecision error)
  | completed best =>
    exact .append (.append (.append (by decide) helapsed) (by decide)) (isLine_bestText best)

section Printed

variable {α : Type}

/-- What is printed of a log: each event as `line` writes it, and a line break. -/
def printed (line : Event α → String) (log : List (Event α)) : List Char :=
  log.flatMap fun event => (line event).toList ++ ['\n']

theorem count_printed {line : Event α → String} (hline : ∀ event, IsLine (line event))
    (log : List (Event α)) : (printed line log).count '\n' = log.length := by
  unfold printed
  induction log with
  | nil => rfl
  | cons event log ih =>
    have hnone := List.count_eq_zero.mpr (hline event)
    rw [List.flatMap_cons, List.count_append, ih, List.count_append, hnone, List.length_cons,
      List.count_singleton_self]
    omega

end Printed

end Event

end BoundedFit
