import BoundedFit.Solver.Result

/-!
# Runs of the solver

An invariant of a run is proved along `Runs` and holds for every iterate of the trace.
-/

namespace BoundedFit

/-- One step of a run: the iterate it starts from and the state evaluated there, the proposed step
with the bounds that stay pinned, the bound that stops it, and the iterate and state after it. -/
structure Stage (α σ : Type) where
  here : Iterate α
  state : σ
  delta : List α
  kept : ActiveSet α
  block : Option (Block α)
  next : Iterate α
  after : σ

/-- What the solver counts on in a step: it has one component for each coordinate, it leaves the
pinned coordinates alone, and no bound gets pinned on the way. -/
structure StepFits {α : Type} [Zero α] (here : Iterate α) (delta : List α) (kept : ActiveSet α) :
    Prop where
  length_eq : delta.length = here.point.length
  pinned : ∀ b ∈ here.active.members, delta.getD b.index 0 = 0
  kept_subset : ∀ b ∈ kept.members, b ∈ here.active.members

/-- The bounds that stopped the steps of a trace. -/
def Trace.blocks {α : Type} : Trace α → List (Block α)
  | unevaluated .. | settled .. | exhausted .. => []
  | stuck _ _ block _ => block.toList
  | moved _ _ block rest => block.toList ++ rest.blocks

theorem Trace.mem_points_of_mem_visits {α : Type} {t : Trace α} {visit : List α × α}
    (h : visit ∈ t.visits) : visit.1 ∈ t.points := by
  induction t with
  | unevaluated here fault => cases h
  | stuck here error block fault | settled here error | exhausted here error =>
    rw [List.mem_singleton.mp h]
    exact List.mem_singleton_self _
  | moved here error block rest ih =>
    rcases List.mem_cons.mp h with rfl | h
    · exact List.mem_cons_self
    · exact List.mem_cons_of_mem _ (ih h)

theorem Trace.final_mem_iterates {α : Type} (t : Trace α) : t.final ∈ t.iterates := by
  induction t with
  | moved here error block rest ih => exact List.mem_cons_of_mem _ ih
  | _ => exact List.mem_singleton_self _

theorem Best.foldl_update_point {α : Type} [Zero α] [LT α] [DecidableLT α] [Scalar α]
    (visits : List (List α × α)) (start : Best α) :
    (visits.foldl Best.update start).point = start.point ∨
      ∃ visit ∈ visits, (visits.foldl Best.update start).point = visit.1 := by
  induction visits generalizing start with
  | nil => exact Or.inl rfl
  | cons visit visits ih =>
    rw [List.foldl_cons]
    rcases ih (start.update visit) with h | ⟨later, hmem, h⟩
    · rw [h]
      unfold Best.update
      split
      · exact Or.inr ⟨visit, List.mem_cons_self, rfl⟩
      · exact Or.inl rfl
    · exact Or.inr ⟨later, List.mem_cons_of_mem _ hmem, h⟩

theorem Solver.best_point {α : Type} [Zero α] [LT α] [DecidableLT α] [Scalar α] (guess : List α)
    (t : Trace α) : (Solver.best guess t).point = guess ∨ (Solver.best guess t).point ∈ t.points := by
  rcases Best.foldl_update_point t.visits ⟨guess, none⟩ with h | ⟨visit, hmem, h⟩
  · exact Or.inl h
  · right
    unfold Solver.best
    rw [h]
    exact Trace.mem_points_of_mem_visits hmem

section Evaluation

variable {α σ : Type} {problem : Problem α σ} {x : List α} {before state : σ}

theorem Problem.errorAt_eq_ok_iff {error : α} :
    problem.errorAt x before = .ok (error, state) ↔
      problem.evaluate (.ofVector x) before = .ok state ∧ problem.error state = error := by
  unfold errorAt
  rcases problem.evaluate (.ofVector x) before with fault | found
  · simp [Except.map]
  · simp only [Except.map, Except.ok.injEq, Prod.mk.injEq]
    constructor
    · rintro ⟨rfl, rfl⟩
      exact ⟨rfl, rfl⟩
    · rintro ⟨rfl, rfl⟩
      exact ⟨rfl, rfl⟩

theorem Problem.errorAt_eq_error_iff {fault : Fault α} :
    problem.errorAt x before = .error fault ↔
      problem.evaluate (.ofVector x) before = .error fault := by
  unfold errorAt
  rcases problem.evaluate (.ofVector x) before with fault' | found <;> simp [Except.map]

end Evaluation

namespace Solver

/-! ## The first iterate -/

section Start

variable {α σ : Type} [Zero α] [LT α] [LE α] [DecidableLT α] [DecidableLE α] {solver : Solver α σ}

theorem make_of_valid (problem : Problem α σ) (bounds : List (Bound α)) {settings : Settings α}
    (hdamping : 0 ≤ settings.damping) (hcap : 0 ≤ settings.maxIterations) :
    make problem bounds settings = (checkConsistent bounds).map fun _ =>
      ⟨problem, bounds, settings.damping, settings.maxIterations.toNat, settings.verbose⟩ := by
  unfold make checkDamping checkCap
  rw [if_pos hdamping, if_neg (Int.not_lt.mpr hcap)]
  cases checkConsistent bounds <;> rfl

theorem make_of_isOk (problem : Problem α σ) {bounds : List (Bound α)} {settings : Settings α}
    (hcheck : (checkConsistent bounds).isOk = true) (hdamping : 0 ≤ settings.damping)
    (hcap : 0 ≤ settings.maxIterations) :
    make problem bounds settings = .ok
      ⟨problem, bounds, settings.damping, settings.maxIterations.toNat, settings.verbose⟩ := by
  rw [make_of_valid problem bounds hdamping hcap]
  cases h : checkConsistent bounds with
  | error fault => simp [h, Except.isOk, Except.toBool] at hcheck
  | ok => rfl

theorem of_make_eq_ok {problem : Problem α σ} {bounds : List (Bound α)} {settings : Settings α}
    (h : make problem bounds settings = .ok solver) :
    checkConsistent bounds = .ok () ∧ 0 ≤ settings.damping ∧ solver.problem = problem ∧
      solver.bounds = bounds ∧ solver.damping = settings.damping ∧
      (solver.maxIterations : Int) = settings.maxIterations := by
  unfold make checkDamping checkCap at h
  split at h
  · rename_i hdamping
    split at h
    · cases h
    · rename_i hcap
      rcases hcheck : checkConsistent bounds with fault | u
      · simp [hcheck, bind, Except.bind] at h
      · simp only [hcheck, bind, Except.bind, pure, Except.pure, Except.ok.injEq] at h
        have htoNat : (settings.maxIterations.toNat : Int) = settings.maxIterations := by omega
        subst h
        exact ⟨rfl, hdamping, rfl, rfl, rfl, htoNat⟩
  · cases h

theorem make_of_make {problem other : Problem α σ} {bounds others : List (Bound α)}
    {settings : Settings α} (h : make problem bounds settings = .ok solver)
    (hcheck : checkConsistent others = .ok ()) :
    make other others settings = .ok { solver with problem := other, bounds := others } := by
  obtain ⟨hcheck', hdamping, -, -, -, hcap⟩ := of_make_eq_ok h
  have hcap' : 0 ≤ settings.maxIterations := by omega
  have hfull := make_of_isOk problem (by rw [hcheck']; rfl) hdamping hcap'
  rw [h] at hfull
  obtain rfl := Except.ok.inj hfull
  exact make_of_isOk other (by rw [hcheck]; rfl) hdamping hcap'

variable [Sub α] [Neg α]

theorem start_of_long {guess : Tensor α} {x : List α} (hguess : guess.toVector? = some x)
    (hlong : ∀ b ∈ solver.bounds, b.index < x.length) :
    solver.start guess = .ok (clamp solver.bounds x) := by
  unfold start
  have hfind : solver.bounds.find? (fun b => decide (x.length ≤ b.index)) = none := by
    rw [List.find?_eq_none]
    intro b hb
    simpa using hlong b hb
  simp only [hguess, hfind]

theorem start_of_short {guess : Tensor α} {x : List α} (hguess : guess.toVector? = some x)
    (hshort : ∃ b ∈ solver.bounds, x.length ≤ b.index) :
    ∃ fault, solver.start guess = .error fault ∧ fault.kind = .argument := by
  obtain ⟨b, hb, hbeyond⟩ := hshort
  unfold start
  simp only [hguess]
  split
  · exact ⟨_, rfl, rfl⟩
  · rename_i hfind
    exact absurd (List.find?_eq_none.mp hfind b hb) (by simpa using hbeyond)

theorem of_start_eq_ok {guess : Tensor α} {first : Iterate α}
    (h : solver.start guess = .ok first) :
    ∃ x, guess.toVector? = some x ∧ (∀ b ∈ solver.bounds, b.index < x.length) ∧
      first = clamp solver.bounds x := by
  unfold start at h
  split at h
  · cases h
  · rename_i x hguess
    split at h
    · cases h
    · rename_i hfind
      refine ⟨x, hguess, fun b hb => ?_, (Except.ok.inj h).symm⟩
      simpa using List.find?_eq_none.mp hfind b hb

theorem start_ofVector {x : List α} (hlong : ∀ b ∈ solver.bounds, b.index < x.length) :
    solver.start (.ofVector x) = .ok (clamp solver.bounds x) :=
  start_of_long (Tensor.toVector?_ofVector x) hlong

theorem start_cases (solver : Solver α σ) (guess : Tensor α) :
    (∃ fault, solver.start guess = .error fault ∧ fault.kind = .argument) ∨
      ∃ x, (∀ b ∈ solver.bounds, b.index < x.length) ∧
        solver.start guess = .ok (clamp solver.bounds x) := by
  unfold start
  split
  · exact Or.inl ⟨_, rfl, rfl⟩
  · rename_i x _
    split
    · exact Or.inl ⟨_, rfl, rfl⟩
    · rename_i hfind
      right
      refine ⟨x, fun b hb => ?_, rfl⟩
      simpa using List.find?_eq_none.mp hfind b hb

end Start

/-! ## Iterates and steps of a run -/

variable {α σ : Type} [Add α] [Sub α] [Mul α] [Div α] [Neg α] [Zero α] [One α]
  [LT α] [LE α] [DecidableLT α] [DecidableLE α] [OfScientific α]

/-- The evaluation at `here` leads to `state` and does not end the run. -/
def Continues (solver : Solver α σ) (here : Iterate α) (before state : σ) : Prop :=
  ∃ error, solver.problem.errorAt here.point before = .ok (error, state) ∧
    ¬ error < convergenceTolerance

structure Performs (solver : Solver α σ) (before : σ) (s : Stage α σ) : Prop where
  continues : solver.Continues s.here before s.state
  proposed : solver.problem.step solver.damping s.here.active s.state = ⟨.ok s.delta, s.kept, s.after⟩
  stopped : closestBlock solver.bounds s.here.point s.delta s.kept = .ok s.block
  landed : Iterate.land ⟨s.here.point, s.kept⟩ s.delta s.block = .ok s.next

inductive Runs (solver : Solver α σ) (first : Iterate α) : List (Stage α σ) → Iterate α → σ → Prop
  | start : Runs solver first [] first solver.problem.fresh
  | step {past : List (Stage α σ)} {s : Stage α σ} {before : σ} :
      Runs solver first past s.here before → past.length < solver.maxIterations →
      solver.Performs before s → Runs solver first (s :: past) s.next s.after

/-- The run from `first` evaluates `here` into `state` and asks it for a step. -/
def Asks (solver : Solver α σ) (first here : Iterate α) (state : σ) : Prop :=
  ∃ past before, solver.Runs first past here before ∧ past.length < solver.maxIterations ∧
    solver.Continues here before state

/-- The run from `first` takes this step. -/
def Takes (solver : Solver α σ) (first : Iterate α) (s : Stage α σ) : Prop :=
  ∃ past before, solver.Runs first past s.here before ∧ past.length < solver.maxIterations ∧
    solver.Performs before s

/-- Every step that is proposed in the run from `first`, with the bounds that stay pinned, is as
required at the iterate it starts from. -/
def EveryStep (solver : Solver α σ) (first : Iterate α)
    (required : Iterate α → List α → ActiveSet α → Prop) : Prop :=
  ∀ past here before state delta, solver.Runs first past here before →
    past.length < solver.maxIterations → solver.Continues here before state →
    (solver.problem.step solver.damping here.active state).delta = .ok delta →
    required here delta (solver.problem.step solver.damping here.active state).active

variable {solver : Solver α σ} {first : Iterate α}

theorem Runs.length_le {past : List (Stage α σ)} {here : Iterate α} {state : σ}
    (h : solver.Runs first past here state) : past.length ≤ solver.maxIterations := by
  cases h with
  | start => exact Nat.zero_le _
  | step _ hlt _ => exact hlt

theorem Takes.asks {s : Stage α σ} (h : solver.Takes first s) : solver.Asks first s.here s.state := by
  obtain ⟨past, before, hruns, hlt, hs⟩ := h
  exact ⟨past, before, hruns, hlt, hs.continues⟩

theorem EveryStep.imp {required weaker : Iterate α → List α → ActiveSet α → Prop}
    (h : solver.EveryStep first required)
    (himp : ∀ here delta kept, required here delta kept → weaker here delta kept) :
    solver.EveryStep first weaker := by
  intro past here before state delta hruns hlt hcontinues hdelta
  exact himp _ _ _ (h past here before state delta hruns hlt hcontinues hdelta)

theorem EveryStep.of_performs {required : Iterate α → List α → ActiveSet α → Prop}
    (h : solver.EveryStep first required) {past : List (Stage α σ)} {before : σ} {s : Stage α σ}
    (hruns : solver.Runs first past s.here before) (hlt : past.length < solver.maxIterations)
    (hs : solver.Performs before s) : required s.here s.delta s.kept := by
  have hstep := h past s.here before s.state s.delta hruns hlt hs.continues
  rw [hs.proposed] at hstep
  exact hstep rfl

/-! ## Steps of the trace -/

theorem advance_of_performs {before : σ} {s : Stage α σ} (h : solver.Performs before s) :
    solver.advance s.here s.state = ⟨s.block, .ok (s.next, s.after)⟩ := by
  unfold advance
  simp only [h.proposed, h.stopped, h.landed, Except.map]

theorem performs_of_advance {here next : Iterate α} {before state after : σ}
    (hcontinues : solver.Continues here before state)
    (h : (solver.advance here state).next = .ok (next, after)) :
    ∃ s, solver.Performs before s ∧ s.here = here ∧ s.state = state ∧ s.next = next ∧
      s.after = after := by
  unfold advance at h
  cases hproposal : solver.problem.step solver.damping here.active state with
  | mk delta? kept rest =>
  simp only [hproposal] at h
  cases delta? with
  | error fault => cases h
  | ok delta =>
    cases hblock : closestBlock solver.bounds here.point delta kept with
    | error fault =>
      simp only [hblock] at h
      cases h
    | ok block =>
      simp only [hblock] at h
      cases hland : Iterate.land ⟨here.point, kept⟩ delta block with
      | error fault =>
        simp only [hland, Except.map] at h
        cases h
      | ok landed =>
        simp only [hland, Except.map, Except.ok.injEq, Prod.mk.injEq] at h
        obtain ⟨rfl, rfl⟩ := h
        exact ⟨⟨here, state, delta, kept, block, landed, rest⟩,
          ⟨hcontinues, hproposal, hblock, hland⟩, rfl, rfl, rfl, rfl⟩

theorem closestBlock_of_advance {here : Iterate α} {state : σ} {stop : Block α}
    (h : (solver.advance here state).block = some stop) :
    ∃ delta, (solver.problem.step solver.damping here.active state).delta = .ok delta ∧
      closestBlock solver.bounds here.point delta
        (solver.problem.step solver.damping here.active state).active = .ok (some stop) := by
  unfold advance at h
  cases hdelta : (solver.problem.step solver.damping here.active state).delta with
  | error fault =>
    simp only [hdelta] at h
    cases h
  | ok delta =>
    simp only [hdelta] at h
    split at h
    · cases h
    · rename_i block hblock
      obtain rfl : block = some stop := h
      exact ⟨delta, rfl, hblock⟩

/-- What holds wherever a run may end, and is carried back over each of its steps, holds of its
trace. -/
theorem traceFrom_induction {motive : List (Stage α σ) → Iterate α → σ → Trace α → Prop}
    (unevaluated : ∀ past here before fault, solver.Runs first past here before →
      solver.problem.errorAt here.point before = .error fault →
      motive past here before (.unevaluated here fault))
    (exhausted : ∀ past here before error state, solver.Runs first past here before →
      past.length = solver.maxIterations →
      solver.problem.errorAt here.point before = .ok (error, state) →
      motive past here before (.exhausted here error))
    (settled : ∀ past here before error state, solver.Runs first past here before →
      past.length < solver.maxIterations →
      solver.problem.errorAt here.point before = .ok (error, state) →
      error < convergenceTolerance → motive past here before (.settled here error))
    (stuck : ∀ past here before error state fault, solver.Runs first past here before →
      past.length < solver.maxIterations →
      solver.problem.errorAt here.point before = .ok (error, state) →
      ¬ error < convergenceTolerance → (solver.advance here state).next = .error fault →
      motive past here before (.stuck here error (solver.advance here state).block fault))
    (moved : ∀ past before error s rest, solver.Runs first past s.here before →
      past.length < solver.maxIterations →
      solver.problem.errorAt s.here.point before = .ok (error, s.state) →
      ¬ error < convergenceTolerance → solver.Performs before s →
      motive (s :: past) s.next s.after rest →
      motive past s.here before (.moved s.here error s.block rest)) :
    motive [] first solver.problem.fresh (solver.traceFrom first) := by
  suffices h : ∀ n past here before, solver.Runs first past here before →
      past.length + n = solver.maxIterations → motive past here before (solver.trace n here before) from
    h _ [] first solver.problem.fresh .start (Nat.zero_add _)
  -- On the number of steps that are left; those in `past` are the ones taken so far.
  intro n
  induction n with
  | zero =>
    intro past here before hruns hn
    unfold trace
    split
    · rename_i fault heval
      exact unevaluated past here before fault hruns heval
    · rename_i error state heval
      exact exhausted past here before error state hruns hn heval
  | succ n ih =>
    intro past here before hruns hn
    have hlt : past.length < solver.maxIterations := by omega
    unfold trace
    split
    · rename_i fault heval
      exact unevaluated past here before fault hruns heval
    · rename_i error state heval
      split
      · rename_i hsmall
        exact settled past here before error state hruns hlt heval hsmall
      · rename_i hlarge
        cases hnext : (solver.advance here state).next with
        | error fault =>
          simp only [hnext]
          exact stuck past here before error state fault hruns hlt heval hlarge hnext
        | ok landed =>
          obtain ⟨next, after⟩ := landed
          obtain ⟨s, hs, rfl, rfl, rfl, rfl⟩ := performs_of_advance ⟨error, heval, hlarge⟩ hnext
          simp only [advance_of_performs hs]
          have hlength : (s :: past).length + n = solver.maxIterations := by
            rw [List.length_cons]
            omega
          exact moved past before error s _ hruns hlt heval hlarge hs
            (ih _ _ _ (hruns.step hlt hs) hlength)

/-! ## What a trace shows is reached by the run -/

theorem runs_of_getElem?_iterates {n : Nat} {it : Iterate α}
    (h : (solver.traceFrom first).iterates[n]? = some it) :
    ∃ past state, past.length = n ∧ solver.Runs first past it state := by
  have last : ∀ past here before, solver.Runs first past here before → ∀ k, [here][k]? = some it →
      ∃ later state, later.length = past.length + k ∧ solver.Runs first later it state := by
    intro past here before hruns k hk
    rw [List.getElem?_singleton] at hk
    split at hk
    · rename_i hzero
      obtain rfl := Option.some.inj hk
      exact ⟨past, before, by omega, hruns⟩
    · cases hk
  have hall : ∀ k, (solver.traceFrom first).iterates[k]? = some it →
      ∃ later state, later.length = 0 + k ∧ solver.Runs first later it state := by
    refine traceFrom_induction (motive := fun past _ _ t => ∀ k, t.iterates[k]? = some it →
        ∃ later state, later.length = past.length + k ∧ solver.Runs first later it state)
      ?unevaluated ?exhausted ?settled ?stuck ?moved
    case moved =>
      intro past before error s rest hruns _ _ _ _ ih k hk
      rcases k with _ | k
      · exact last past s.here before hruns 0 hk
      · obtain ⟨later, state, hlength, hlater⟩ := ih k hk
        exact ⟨later, state, by rw [hlength, List.length_cons]; omega, hlater⟩
    case unevaluated => exact fun past here before _ hruns _ => last past here before hruns
    case exhausted => exact fun past here before _ _ hruns _ _ => last past here before hruns
    case settled => exact fun past here before _ _ hruns _ _ _ => last past here before hruns
    case stuck => exact fun past here before _ _ _ hruns _ _ _ _ => last past here before hruns
  obtain ⟨past, state, hlength, hruns⟩ := hall n h
  exact ⟨past, state, by omega, hruns⟩

theorem runs_of_mem_iterates {it : Iterate α} (h : it ∈ (solver.traceFrom first).iterates) :
    ∃ past state, solver.Runs first past it state := by
  obtain ⟨n, hn⟩ := List.mem_iff_getElem?.mp h
  obtain ⟨past, state, -, hruns⟩ := runs_of_getElem?_iterates hn
  exact ⟨past, state, hruns⟩

theorem closestBlock_of_mem_blocks {stop : Block α} (h : stop ∈ (solver.traceFrom first).blocks) :
    ∃ past here before state delta, solver.Runs first past here before ∧
      past.length < solver.maxIterations ∧ solver.Continues here before state ∧
      (solver.problem.step solver.damping here.active state).delta = .ok delta ∧
      closestBlock solver.bounds here.point delta
        (solver.problem.step solver.damping here.active state).active = .ok (some stop) := by
  revert h
  refine traceFrom_induction (motive := fun _ _ _ t => stop ∈ t.blocks → _)
    ?unevaluated ?exhausted ?settled ?stuck ?moved
  case moved =>
    intro past before error s rest hruns hlt _ _ hs ih h
    rcases List.mem_append.mp h with h | h
    · have hstop := hs.stopped
      rw [Option.mem_toList.mp h] at hstop
      refine ⟨past, s.here, before, s.state, s.delta, hruns, hlt, hs.continues, ?_⟩
      rw [hs.proposed]
      exact ⟨rfl, hstop⟩
    · exact ih h
  case stuck =>
    intro past here before error state fault hruns hlt heval hlarge _ h
    obtain ⟨delta, hdelta, hblock⟩ := closestBlock_of_advance (Option.mem_toList.mp h)
    exact ⟨past, here, before, state, delta, hruns, hlt, ⟨error, heval, hlarge⟩, hdelta, hblock⟩
  all_goals
    intros
    rename_i h
    cases h

/-- A fault that breaks off the trace comes from an evaluation or from a step of the run. -/
theorem fault_of_traceFrom {fault : Fault α} (h : (solver.traceFrom first).fault? = some fault) :
    ∃ past here before, solver.Runs first past here before ∧
      (solver.problem.errorAt here.point before = .error fault ∨
        ∃ state, past.length < solver.maxIterations ∧ solver.Continues here before state ∧
          (solver.advance here state).next = .error fault) := by
  revert h
  refine traceFrom_induction (motive := fun _ _ _ t => t.fault? = some fault → _)
    ?unevaluated ?exhausted ?settled ?stuck ?moved
  case unevaluated =>
    intro past here before fault' hruns heval h
    obtain rfl := Option.some.inj h
    exact ⟨past, here, before, hruns, Or.inl heval⟩
  case stuck =>
    intro past here before error state fault' hruns hlt heval hlarge hnext h
    obtain rfl := Option.some.inj h
    exact ⟨past, here, before, hruns, Or.inr ⟨state, hlt, ⟨error, heval, hlarge⟩, hnext⟩⟩
  case moved => exact fun past before error s rest _ _ _ _ _ ih h => ih h
  all_goals
    intros
    rename_i h
    cases h

/-! ## The result of a run -/

theorem exists_iterates_traceFrom (solver : Solver α σ) (first : Iterate α) :
    ∃ later, (solver.traceFrom first).iterates = first :: later := by
  unfold traceFrom
  generalize solver.problem.fresh = state
  cases solver.maxIterations with
  | zero =>
    unfold trace
    split <;> exact ⟨[], rfl⟩
  | succ n =>
    unfold trace
    split
    · exact ⟨[], rfl⟩
    · split
      · exact ⟨[], rfl⟩
      · dsimp only
        split
        · exact ⟨[], rfl⟩
        · exact ⟨_, rfl⟩

theorem mem_iterates_traceFrom (solver : Solver α σ) (first : Iterate α) :
    first ∈ (solver.traceFrom first).iterates := by
  obtain ⟨later, hlater⟩ := exists_iterates_traceFrom solver first
  rw [hlater]
  exact List.mem_cons_self

section Best

variable [Scalar α]

theorem best_point_mem (solver : Solver α σ) (first : Iterate α) :
    (best first.point (solver.traceFrom first)).point ∈ (solver.traceFrom first).points := by
  rcases best_point first.point (solver.traceFrom first) with h | h
  · rw [h]
    exact List.mem_map_of_mem (mem_iterates_traceFrom solver first)
  · exact h

theorem optimize_of_start {guess : Tensor α} (h : solver.start guess = .ok first) :
    solver.optimize guess = solver.conclude first.point (solver.traceFrom first) := by
  unfold optimize
  rw [h]
  rfl

theorem exists_start_of_optimize {guess : Tensor α} {result : Result α}
    (h : solver.optimize guess = .ok result) : ∃ first, solver.start guess = .ok first := by
  rcases hstart : solver.start guess with fault | first
  · rw [optimize, hstart] at h
    cases h
  · exact ⟨first, rfl⟩

theorem of_optimize_eq_ok {guess : Tensor α} (hstart : solver.start guess = .ok first)
    {result : Result α} (h : solver.optimize guess = .ok result) :
    (solver.traceFrom first).fault? = none ∧
      acceptAll solver.bounds (best first.point (solver.traceFrom first)).point = .ok () ∧
      result = solver.summary first.point (solver.traceFrom first) := by
  rw [optimize_of_start hstart] at h
  unfold conclude at h
  split at h
  · cases h
  · rename_i hfault
    rcases haccept : acceptAll solver.bounds (best first.point (solver.traceFrom first)).point
      with fault | u
    · rw [haccept] at h
      cases h
    · rw [haccept] at h
      exact ⟨hfault, rfl, (Except.ok.inj h).symm⟩

theorem optimize_of_fault {guess : Tensor α} (hstart : solver.start guess = .ok first)
    {fault : Fault α} (h : (solver.traceFrom first).fault? = some fault) :
    solver.optimize guess = .error fault := by
  rw [optimize_of_start hstart]
  unfold conclude
  rw [h]

theorem active_of_optimize {guess : Tensor α} (hstart : solver.start guess = .ok first)
    {result : Result α} (h : solver.optimize guess = .ok result) :
    result.active = (solver.traceFrom first).final.active.members := by
  obtain ⟨-, -, rfl⟩ := of_optimize_eq_ok hstart h
  rfl

theorem fault_of_optimize {guess : Tensor α} (hstart : solver.start guess = .ok first)
    (haccept : ∀ x ∈ (solver.traceFrom first).points, acceptAll solver.bounds x = .ok ())
    {fault : Fault α} (h : solver.optimize guess = .error fault) :
    (solver.traceFrom first).fault? = some fault := by
  rw [optimize_of_start hstart] at h
  unfold conclude at h
  split at h
  · rename_i fault' hfault
    rw [hfault, Except.error.inj h]
  · rw [haccept _ (best_point_mem solver first)] at h
    cases h

end Best

end Solver

end BoundedFit
