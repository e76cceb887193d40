import BoundedFit.Proofs.Contour.Index

/-!
# Contours in use

An item is read at every index of its position until another one is assigned there.
-/

namespace BoundedFit.Contour

variable {ι : Type}

/-- A contour with the cursors that walk along it. -/
structure Session (ι : Type) where
  contour : Contour ι
  cursors : List Cursor

inductive Action (ι : Type) where
  | assign (i : Int) (item : ι)
  | setClosed (closed : Bool)
  /-- A new cursor that starts at an index. -/
  | place (i : Int)
  | advance (slot : Nat) (steps : Int)
  | retreat (slot : Nat) (steps : Int)
  /-- A new cursor some steps away from another one. -/
  | branch (slot : Nat) (steps : Int)
  | next (slot : Nat)

/-- Whether the action is about cursors only. -/
def Action.isMove : Action ι → Bool
  | assign .. | setClosed _ => false
  | place _ | advance .. | retreat .. | branch .. | next _ => true

namespace Session

def perform (here : Session ι) : Action ι → Except (Fault ι) (Session ι)
  | .assign i item => (here.contour.set i item).map fun contour => { here with contour }
  | .setClosed closed => .ok { here with contour := { here.contour with closed } }
  | .place i => (here.contour.cursor i).map fun k => { here with cursors := here.cursors ++ [k] }
  | .advance slot steps => .ok { here with cursors := here.cursors.modify slot (·.advance steps) }
  | .retreat slot steps => .ok { here with cursors := here.cursors.modify slot (·.retreat steps) }
  | .branch slot steps =>
    let branched := here.cursors[slot]?.map fun k => (k + steps : Cursor)
    .ok { here with cursors := here.cursors ++ branched.toList }
  | .next slot =>
    match here.cursors[slot]? with
    | none => .ok here
    | some k => (here.contour.next k).map fun
      | none => here
      | some (_, k) => { here with cursors := here.cursors.set slot k }

/-- An action that is refused changes nothing. -/
def follow (here : Session ι) (action : Action ι) : Session ι :=
  match here.perform action with
  | .ok there => there
  | .error _ => here

def after (here : Session ι) (actions : List (Action ι)) : Session ι := actions.foldl follow here

variable {here : Session ι} {i j : Int} {p : Nat}

/-! ## One action -/

theorem perform_assign_refused_iff (hword : Word.isSigned here.contour.size = true) (item : ι) :
    (∃ fault, here.perform (.assign i item) = .error fault) ↔ here.contour.Refuses i := by
  rw [← set_refused_iff hword item, perform]
  cases here.contour.set i item <;> simp [Except.map]

theorem follow_of_refused {action : Action ι} {fault : Fault ι} (h : here.perform action = .error fault) :
    here.follow action = here := by
  unfold follow
  rw [h]

theorem follow_assign_of_refuses (h : here.contour.Refuses i)
    (hword : Word.isSigned here.contour.size = true) (item : ι) :
    here.follow (.assign i item) = here := by
  obtain ⟨fault, hfault⟩ := (perform_assign_refused_iff hword item).mpr h
  exact follow_of_refused hfault

theorem contour_follow_assign (h : here.contour.Addresses i p)
    (hword : Word.isSigned here.contour.size = true) (item : ι) :
    (here.follow (.assign i item)).contour =
      { here.contour with items := here.contour.items.set p item } := by
  rw [follow, perform, h.set hword]
  rfl

theorem contour_follow_of_isMove {action : Action ι} (h : action.isMove = true) :
    (here.follow action).contour = here.contour := by
  cases action with
  | assign i item => cases h
  | setClosed closed => cases h
  | place i =>
    rw [follow, perform]
    cases here.contour.cursor i <;> rfl
  | advance slot steps => rfl
  | retreat slot steps => rfl
  | branch slot steps => rfl
  | next slot =>
    rw [follow, perform]
    rcases here.cursors[slot]? with _ | k
    · rfl
    · dsimp only
      rcases here.contour.next k with fault | (_ | ⟨item, k⟩) <;> rfl

theorem items_follow (hword : Word.isSigned here.contour.size = true) (action : Action ι) :
    (here.follow action).contour.items = here.contour.items ∨
      ∃ i item p, action = .assign i item ∧ here.contour.Addresses i p ∧
        (here.follow action).contour.items = here.contour.items.set p item := by
  cases action with
  | setClosed closed => exact Or.inl rfl
  | assign i item =>
    by_cases hrefuses : here.contour.Refuses i
    · rw [follow_assign_of_refuses hrefuses hword]
      exact Or.inl rfl
    · obtain ⟨p, hp⟩ := exists_addresses hrefuses
      exact Or.inr ⟨i, item, p, rfl, hp, by rw [contour_follow_assign hp hword item]⟩
  | _ => exact Or.inl (congrArg Contour.items (contour_follow_of_isMove rfl))

theorem size_follow (hword : Word.isSigned here.contour.size = true) (action : Action ι) :
    (here.follow action).contour.size = here.contour.size := by
  unfold size
  rcases items_follow hword action with hitems | ⟨i, item, p, -, -, hitems⟩ <;> simp [hitems]

theorem isSigned_follow (hword : Word.isSigned here.contour.size = true) (action : Action ι) :
    Word.isSigned (here.follow action).contour.size = true := by
  rw [size_follow hword action]
  exact hword

theorem get_follow_assign (hword : Word.isSigned here.contour.size = true)
    (hi : ¬ here.contour.Refuses i) (hj : ¬ here.contour.Refuses j) (item : ι) :
    (here.follow (.assign i item)).contour.get j =
      if (here.contour.size : Int) ∣ j - i then .ok item else here.contour.get j := by
  obtain ⟨p, hp⟩ := exists_addresses hi
  obtain ⟨q, hq⟩ := exists_addresses hj
  obtain ⟨old, hold, hread⟩ := hq.get hword
  have hcontour := contour_follow_assign hp hword item
  have hsize : (here.follow (.assign i item)).contour.size = here.contour.size := size_follow hword _
  have hq' : (here.follow (.assign i item)).contour.Addresses j q := by
    constructor
    · rw [hsize]
      exact hq.lt_size
    · rw [hsize, hcontour]
      exact hq.inside
    · rw [hsize]
      exact hq.emod_eq
  obtain ⟨new, hnew, hread'⟩ := hq'.get (isSigned_follow hword _)
  rw [hcontour] at hnew
  rw [hread', hread]
  by_cases hsame : p = q
  · subst hsame
    rw [List.getElem?_set_self hp.lt_size] at hnew
    rw [if_pos ((hp.eq_iff hq).mp rfl), Option.some.inj hnew]
  · rw [List.getElem?_set_ne hsame, hold] at hnew
    rw [if_neg (mt (hp.eq_iff hq).mpr hsame), Option.some.inj hnew]

/-! ## Any number of actions -/

/-- One of the actions assigns an item at this position. -/
def Overwrites (here : Session ι) (actions : List (Action ι)) (p : Nat) : Prop :=
  ∃ done i item rest, actions = done ++ .assign i item :: rest ∧ (here.after done).contour.Addresses i p

theorem size_after (hword : Word.isSigned here.contour.size = true) (actions : List (Action ι)) :
    (here.after actions).contour.size = here.contour.size := by
  induction actions generalizing here with
  | nil => rfl
  | cons action rest ih =>
    exact (ih (isSigned_follow hword action)).trans (size_follow hword action)

theorem getElem?_items_after (hword : Word.isSigned here.contour.size = true)
    {actions : List (Action ι)} (h : ¬ here.Overwrites actions p) :
    (here.after actions).contour.items[p]? = here.contour.items[p]? := by
  induction actions generalizing here with
  | nil => rfl
  | cons action rest ih =>
    have hlater : ¬ (here.follow action).Overwrites rest p := by
      rintro ⟨done, i, item, later, rfl, haddress⟩
      exact h ⟨action :: done, i, item, later, rfl, haddress⟩
    refine (ih (isSigned_follow hword action) hlater).trans ?_
    rcases items_follow hword action with hitems | ⟨i, item, q, rfl, hq, hitems⟩
    · rw [hitems]
    · have hne : q ≠ p := by
        rintro rfl
        exact h ⟨[], i, item, rest, rfl, hq⟩
      rw [hitems, List.getElem?_set_ne hne]

/-- What can be read and written by indices and under cursors. -/
structure Reads (here : Session ι) : Prop where
  get_refused_iff : ∀ i, (∃ fault, here.contour.get i = .error fault) ↔ here.contour.Refuses i
  assign_refused_iff : ∀ i item,
    (∃ fault, here.perform (.assign i item) = .error fault) ↔ here.contour.Refuses i
  refused_unchanged : ∀ action fault, here.perform action = .error fault → here.follow action = here
  get_assigned : ∀ i item, ¬ here.contour.Refuses i → ∀ j, ¬ here.contour.Refuses j →
    (here.follow (.assign i item)).contour.get j =
      if (here.contour.size : Int) ∣ j - i then .ok item else here.contour.get j
  assigned_closed : ∀ i item,
    (here.follow (.assign i item)).contour.closed = here.contour.closed
  turned : ∀ closed, (here.follow (.setClosed closed)).contour.closed = closed ∧
    (here.follow (.setClosed closed)).contour.items = here.contour.items
  moved : ∀ action, action.isMove = true → (here.follow action).contour = here.contour
  value_refused_iff : ∀ k,
    (∃ fault, here.contour.valueOf k = .error fault ∧ fault.kind = .index) ↔ here.contour.Leaves k
  value : ∀ k, ¬ here.contour.Leaves k → ∃ (p : Nat) (item : ι), here.contour.indexOf k = .ok p ∧
    p < here.contour.size ∧ here.contour.items[p]? = some item ∧ here.contour.valueOf k = .ok item

theorem reads (hword : Word.isSigned here.contour.size = true) : here.Reads := by
  constructor
  case get_refused_iff => exact fun i => Contour.get_refused_iff hword
  case assign_refused_iff => exact fun i item => perform_assign_refused_iff hword item
  case refused_unchanged => exact fun action fault => follow_of_refused
  case get_assigned => exact fun i item hi j hj => get_follow_assign hword hi hj item
  case assigned_closed =>
    intro i item
    by_cases hrefuses : here.contour.Refuses i
    · rw [follow_assign_of_refuses hrefuses hword]
    · obtain ⟨p, hp⟩ := exists_addresses hrefuses
      rw [contour_follow_assign hp hword item]
  case turned => exact fun closed => ⟨rfl, rfl⟩
  case moved => exact fun action => contour_follow_of_isMove
  case value_refused_iff =>
    refine fun k => ⟨fun ⟨fault, hfault, _⟩ => ?_, valueOf_of_leaves⟩
    by_contra hnot
    obtain ⟨p, item, -, -, -, hvalue⟩ := valueOf_of_not_leaves hnot hword
    rw [hvalue] at hfault
    cases hfault
  case value => exact fun k hnot => valueOf_of_not_leaves hnot hword

/-- An item is still read at every index of its position unless one was assigned there. The length of
a contour is a word. -/
theorem reads_after (here : Session ι) (hword : Word.isSigned here.contour.size = true)
    (actions : List (Action ι)) :
    (here.after actions).contour.size = here.contour.size ∧ (here.after actions).Reads ∧
      ∀ p item, here.contour.items[p]? = some item → ¬ here.Overwrites actions p →
        ∀ i, (here.after actions).contour.Addresses i p →
          (here.after actions).contour.get i = .ok item := by
  have hsize := size_after hword actions
  have hword' : Word.isSigned (here.after actions).contour.size = true := by
    rw [hsize]
    exact hword
  refine ⟨hsize, reads hword', fun p item hitem hkept i haddress => ?_⟩
  obtain ⟨found, hfound, hget⟩ := haddress.get hword'
  rw [getElem?_items_after hword hkept, hitem] at hfound
  rw [hget, Option.some.inj hfound]

/-- Three items, of which the middle one was assigned at index 7 while the contour was closed. -/
def rewritten : Session Nat :=
  (⟨⟨[10, 20, 30], false⟩, []⟩ : Session Nat).after
    [.place 1, .setClosed true, .advance 0 7, .assign 7 99]

theorem reads_rewritten :
    Word.isSigned rewritten.contour.size = true ∧
      (rewritten.after [.setClosed false, .assign 3 5]).contour.size = 3 ∧
      (rewritten.after [.setClosed false, .assign 3 5]).contour.get (-2) = .ok 99 ∧
      (rewritten.after [.setClosed false, .assign 3 5]).cursors = [⟨8, 1⟩] ∧
      ∃ fault, (rewritten.after [.setClosed false, .assign 3 5]).contour.valueOf ⟨8, 1⟩ = .error fault ∧
        fault.kind = .index := by
  have hword : Word.isSigned rewritten.contour.size = true := by decide
  have hkept : ¬ rewritten.Overwrites [.setClosed false, .assign 3 5] 1 := by
    rintro ⟨_ | ⟨_, _ | ⟨_, done⟩⟩, i, item, rest, heq, haddress⟩
    · cases heq
    · cases heq
      have hlt : (3 : Int) < 3 := (haddress.inside rfl).2
      exact absurd hlt (lt_irrefl 3)
    · simp at heq
  obtain ⟨hsize, hreads, hitems⟩ := reads_after rewritten hword [.setClosed false, .assign 3 5]
  refine ⟨hword, hsize, hitems 1 99 rfl hkept (-2) ⟨?_, fun _ => ?_, rfl⟩, rfl, ?_⟩
  · decide
  · decide
  · exact (hreads.value_refused_iff ⟨8, 1⟩).mpr (Or.inr ⟨rfl, Or.inr (by decide)⟩)

end Session

end BoundedFit.Contour
