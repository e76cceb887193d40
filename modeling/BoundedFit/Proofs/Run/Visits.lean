import Mathlib.Data.List.Chain
import BoundedFit.Proofs.Run

/-!
# What a run evaluates

The visit at position `n` comes after `n` steps.
-/

namespace BoundedFit

theorem Trace.getLast?_visits {α : Type} {t : Trace α} (h : t.fault? = none) :
    ∃ error, t.visits.getLast? = some (t.final.point, error) := by
  induction t with
  | unevaluated here fault => cases h
  | stuck here error block fault => cases h
  | settled here error => exact ⟨error, rfl⟩
  | exhausted here error => exact ⟨error, rfl⟩
  | moved here error block rest ih =>
    obtain ⟨error', hlast⟩ := ih h
    refine ⟨error', ?_⟩
    rw [visits, final, List.getLast?_cons, hlast]
    rfl

namespace Solver

variable {α σ : Type} [Add α] [Sub α] [Mul α] [Div α] [Neg α] [Zero α] [One α]
  [LT α] [LE α] [DecidableLT α] [DecidableLE α] [OfScientific α]
  {solver : Solver α σ} {first : Iterate α}

/-- What holds from each iterate to the one that a step leads to holds along the iterates. -/
theorem isChain_iterates {next : Iterate α → Iterate α → Prop}
    (h : ∀ past before s, solver.Runs first past s.here before → past.length < solver.maxIterations →
      solver.Performs before s → next s.here s.next) :
    (solver.traceFrom first).iterates.IsChain next := by
  suffices hchain : (solver.traceFrom first).iterates.head? = some first ∧
      (solver.traceFrom first).iterates.IsChain next from hchain.2
  refine traceFrom_induction (motive := fun _ here _ t =>
      t.iterates.head? = some here ∧ t.iterates.IsChain next)
    ?unevaluated ?exhausted ?settled ?stuck ?moved
  case moved =>
    intro past before error s rest hruns hlt _ _ hs ⟨hhead, hrest⟩
    refine ⟨rfl, List.isChain_cons.mpr ⟨fun it hit => ?_, hrest⟩⟩
    obtain rfl : s.next = it := by rwa [hhead, Option.mem_some_iff] at hit
    exact h past before s hruns hlt hs
  all_goals
    intros
    exact ⟨rfl, List.isChain_singleton _⟩

/-- After `n` steps the run evaluates this point and finds this error. -/
def Evaluates (solver : Solver α σ) (first : Iterate α) (n : Nat) (visit : List α × α) : Prop :=
  ∃ past here before state, past.length = n ∧ solver.Runs first past here before ∧
    here.point = visit.1 ∧ solver.problem.errorAt here.point before = .ok (visit.2, state)

theorem evaluates_of_getElem? {n : Nat} {visit : List α × α}
    (h : (solver.traceFrom first).visits[n]? = some visit) : solver.Evaluates first n visit := by
  -- However a run ends, its end shows at most one visit.
  have last : ∀ past here before error state, solver.Runs first past here before →
      solver.problem.errorAt here.point before = .ok (error, state) →
      ∀ k, [(here.point, error)][k]? = some visit → solver.Evaluates first (past.length + k) visit := by
    intro past here before error state hruns heval k hk
    rw [List.getElem?_singleton] at hk
    split at hk
    · rename_i hzero
      obtain rfl := Option.some.inj hk
      exact ⟨past, here, before, state, by omega, hruns, rfl, heval⟩
    · cases hk
  have hall : ∀ k, (solver.traceFrom first).visits[k]? = some visit →
      solver.Evaluates first (0 + k) visit := by
    refine traceFrom_induction (motive := fun past _ _ t => ∀ k, t.visits[k]? = some visit →
        solver.Evaluates first (past.length + k) visit)
      ?unevaluated ?exhausted ?settled ?stuck ?moved
    case unevaluated =>
      intro past here before fault _ _ k hk
      cases hk
    case exhausted =>
      exact fun past here before error state hruns _ heval => last past here before error state hruns heval
    case settled =>
      exact fun past here before error state hruns _ heval _ =>
        last past here before error state hruns heval
    case stuck =>
      exact fun past here before error state _ hruns _ heval _ _ =>
        last past here before error state hruns heval
    case moved =>
      intro past before error s rest hruns _ heval _ _ ih k hk
      rcases k with _ | k
      · exact last past s.here before error s.state hruns heval 0 hk
      · have hlater := ih k hk
        rwa [List.length_cons, Nat.add_right_comm] at hlater
  have hn := hall n h
  rwa [Nat.zero_add] at hn

theorem trace_succ_of_performs {before : σ} {s : Stage α σ} (hs : solver.Performs before s) (n : Nat) :
    ∃ error, solver.trace (n + 1) s.here before =
      .moved s.here error s.block (solver.trace n s.next s.after) := by
  obtain ⟨error, heval, hlarge⟩ := hs.continues
  refine ⟨error, ?_⟩
  rw [trace]
  simp [heval, hlarge, advance_of_performs hs]

theorem drop_visits {past : List (Stage α σ)} {here : Iterate α} {before : σ}
    (hruns : solver.Runs first past here before) :
    (solver.traceFrom first).visits.drop past.length =
      (solver.trace (solver.maxIterations - past.length) here before).visits := by
  induction hruns with
  | start => rfl
  | @step past s before hruns hlt hs ih =>
    have hsucc : solver.maxIterations - past.length =
        solver.maxIterations - (s :: past).length + 1 := by
      rw [List.length_cons]
      omega
    obtain ⟨error, htrace⟩ :=
      trace_succ_of_performs hs (solver.maxIterations - (s :: past).length)
    rw [hsucc, htrace, Trace.visits] at ih
    rw [List.length_cons, ← List.drop_drop, ih]
    rfl

theorem fault_traceFrom {past : List (Stage α σ)} {here : Iterate α} {before : σ}
    (hruns : solver.Runs first past here before) :
    (solver.traceFrom first).fault? =
      (solver.trace (solver.maxIterations - past.length) here before).fault? := by
  induction hruns with
  | start => rfl
  | @step past s before hruns hlt hs ih =>
    have hsucc : solver.maxIterations - past.length =
        solver.maxIterations - (s :: past).length + 1 := by
      rw [List.length_cons]
      omega
    obtain ⟨error, htrace⟩ :=
      trace_succ_of_performs hs (solver.maxIterations - (s :: past).length)
    rw [ih, hsucc, htrace]
    rfl

theorem fault_of_errorAt {past : List (Stage α σ)} {here : Iterate α} {before : σ} {fault : Fault α}
    (hruns : solver.Runs first past here before)
    (h : solver.problem.errorAt here.point before = .error fault) :
    (solver.traceFrom first).fault? = some fault := by
  rw [fault_traceFrom hruns]
  generalize solver.maxIterations - past.length = n
  cases n with
  | zero => simp [trace, h, Trace.fault?]
  | succ n => simp [trace, h, Trace.fault?]

theorem fault_of_advance {here : Iterate α} {state : σ} {fault : Fault α}
    (hasks : solver.Asks first here state) (h : (solver.advance here state).next = .error fault) :
    (solver.traceFrom first).fault? = some fault := by
  obtain ⟨past, before, hruns, hlt, error, heval, hlarge⟩ := hasks
  obtain ⟨n, hn⟩ : ∃ n, solver.maxIterations - past.length = n + 1 :=
    Nat.exists_eq_succ_of_ne_zero (by omega)
  rw [fault_traceFrom hruns, hn, trace]
  simp [heval, hlarge, h, Trace.fault?]

theorem head?_visits_trace {here : Iterate α} {before state : σ} {error : α}
    (h : solver.problem.errorAt here.point before = .ok (error, state)) (n : Nat) :
    (solver.trace n here before).visits.head? = some (here.point, error) := by
  cases n with
  | zero => simp [trace, h, Trace.visits]
  | succ n =>
    rw [trace]
    simp only [h]
    split
    · rfl
    · split <;> rfl

theorem getElem?_visits_iff {n : Nat} {visit : List α × α} :
    (solver.traceFrom first).visits[n]? = some visit ↔ solver.Evaluates first n visit := by
  constructor
  · exact evaluates_of_getElem?
  · rintro ⟨past, here, before, state, rfl, hruns, hpoint, heval⟩
    rw [← List.head?_drop, drop_visits hruns, head?_visits_trace heval, hpoint]

theorem isChain_visits {next : List α × α → List α × α → Prop}
    (h : ∀ past before s error error' state, solver.Runs first past s.here before →
      solver.Performs before s →
      solver.problem.errorAt s.here.point before = .ok (error, s.state) →
      ¬ error < convergenceTolerance →
      solver.problem.errorAt s.next.point s.after = .ok (error', state) →
      next (s.here.point, error) (s.next.point, error')) :
    (solver.traceFrom first).visits.IsChain next := by
  rw [List.isChain_iff_getElem]
  intro n hn
  obtain ⟨past', here, before', state, hlength, hruns, hpoint, heval⟩ :=
    evaluates_of_getElem? (List.getElem?_eq_getElem hn)
  rcases hruns with _ | @⟨past, s, before, hruns, hlt, hs⟩
  · simp at hlength
  · obtain ⟨error, heval', hlarge⟩ := hs.continues
    have hbefore : (solver.traceFrom first).visits[n]? = some (s.here.point, error) := by
      rw [getElem?_visits_iff]
      exact ⟨past, s.here, before, s.state, by simpa using hlength, hruns, rfl, heval'⟩
    have hstep := h past before s error _ state hruns hs heval' hlarge heval
    rw [List.getElem?_eq_getElem (by omega)] at hbefore
    rw [Option.some.inj hbefore]
    rwa [hpoint] at hstep

end Solver

end BoundedFit
