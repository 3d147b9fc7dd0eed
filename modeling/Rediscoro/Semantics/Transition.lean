import Mathlib.Algebra.Order.Ring.Nat
import Mathlib.Logic.Relation
import Mathlib.Tactic.Common

/-! Runs of a partial step function.

A system is a step function that may refuse an action. A run is a list of
actions that are all accepted. A guard restricts the steps of a run by the state
they start in; what a guarded step preserves, a guarded run preserves.

A step that does several things is taken apart into moves, each small enough to
preserve an invariant by itself. What may be assumed of a run is then a property
of its last state that the states before share, such as one of its history.
-/

set_option autoImplicit false

namespace Rediscoro.Semantics

variable {σ α : Type} (step : σ → α → Option σ)

/-- The state at the end of a run, if every action is accepted. -/
def runFrom : σ → List α → Option σ
  | state, [] => some state
  | state, action :: rest =>
      match step state action with
      | none => none
      | some next => runFrom next rest

/-- Every step of the run meets the guard. -/
def Guarded (guard : σ → α → Prop) : σ → List α → Prop
  | _, [] => True
  | state, action :: rest =>
      guard state action ∧
        match step state action with
        | none => True
        | some next => Guarded guard next rest

/-- A guard that can be evaluated can be evaluated along a run. -/
instance decidableGuarded (guard : σ → α → Prop) [∀ state action, Decidable (guard state action)] :
    (state : σ) → (actions : List α) → Decidable (Guarded step guard state actions)
  | _, [] => inferInstanceAs (Decidable True)
  | state, action :: rest =>
      let _later : Decidable (match step state action with
          | none => True
          | some next => Guarded step guard next rest) :=
        match step state action with
        | none => inferInstanceAs (Decidable True)
        | some next => decidableGuarded guard next rest
      inferInstanceAs (Decidable (guard state action ∧ _))

variable {step}

theorem runFrom_cons {state last : σ} {action : α} {rest : List α}
    (run : runFrom step state (action :: rest) = some last) :
    ∃ next, step state action = some next ∧ runFrom step next rest = some last := by
  rw [runFrom] at run
  split at run
  · cases run
  · rename_i next stepped
    exact ⟨next, stepped, run⟩

theorem Guarded.cons {guard : σ → α → Prop} {state next : σ} {action : α} {rest : List α} (met : guard state action)
    (stepped : step state action = some next) (later : Guarded step guard next rest) :
    Guarded step guard state (action :: rest) := by
  refine ⟨met, ?_⟩
  rw [stepped]
  exact later

theorem Guarded.tail {guard : σ → α → Prop} {state next : σ} {action : α} {rest : List α}
    (guarded : Guarded step guard state (action :: rest)) (stepped : step state action = some next) :
    Guarded step guard next rest := by
  have later := guarded.2
  rw [stepped] at later
  exact later

theorem Guarded.front {guard : σ → α → Prop} {state : σ} {first second : List α}
    (guarded : Guarded step guard state (first ++ second)) : Guarded step guard state first := by
  induction first generalizing state with
  | nil => trivial
  | cons action rest ih =>
    refine ⟨guarded.1, ?_⟩
    split
    · trivial
    · rename_i next stepped
      exact ih (guarded.tail stepped)

/-- The later part of a run is guarded, from where its first part ends. -/
theorem Guarded.behind {guard : σ → α → Prop} {state middle : σ} {first second : List α}
    (guarded : Guarded step guard state (first ++ second)) (run : runFrom step state first = some middle) :
    Guarded step guard middle second := by
  induction first generalizing state with
  | nil =>
    cases run
    exact guarded
  | cons action rest ih =>
    obtain ⟨next, stepped, later⟩ := runFrom_cons run
    exact ih (guarded.tail stepped) later

/-- Every run is free of guards. -/
theorem guarded_true {state : σ} (actions : List α) : Guarded step (fun _ _ => True) state actions := by
  induction actions generalizing state with
  | nil => trivial
  | cons action rest ih =>
    refine ⟨trivial, ?_⟩
    split
    · trivial
    · exact ih

/-- An invariant of the guarded steps holds wherever a guarded run ends. -/
theorem runFrom_invariant {guard : σ → α → Prop} (invariant : σ → Prop)
    (kept : ∀ state action next, invariant state → guard state action → step state action = some next →
      invariant next)
    {state last : σ} {actions : List α} (holds : invariant state) (guarded : Guarded step guard state actions)
    (run : runFrom step state actions = some last) : invariant last := by
  induction actions generalizing state with
  | nil => cases run; exact holds
  | cons action rest ih =>
    obtain ⟨next, stepped, run⟩ := runFrom_cons run
    exact ih (kept state action next holds guarded.1 stepped) (guarded.tail stepped) run

/-- What the actions of a run show, one after another. -/
def along {β : Type} (step : σ → α → Option σ) (shown : σ → α → List β) : σ → List α → List β
  | _, [] => []
  | state, action :: rest =>
      shown state action ++
        match step state action with
        | none => []
        | some next => along step shown next rest

/-- An invariant of a state and of what was shown before it, step by step. -/
theorem runFrom_along {β : Type} {shown : σ → α → List β} (invariant : σ → List β → Prop)
    (kept : ∀ state action next before, invariant state before → step state action = some next →
      invariant next (before ++ shown state action))
    {state last : σ} {actions : List α} {before : List β} (holds : invariant state before)
    (run : runFrom step state actions = some last) : invariant last (before ++ along step shown state actions) := by
  induction actions generalizing state before with
  | nil =>
    cases run
    rwa [along, List.append_nil]
  | cons action rest ih =>
    obtain ⟨next, stepped, run⟩ := runFrom_cons run
    rw [along, stepped, ← List.append_assoc]
    exact ih (kept state action next before holds stepped) run

theorem runFrom_append {state middle last : σ} {first second : List α} (left : runFrom step state first = some middle)
    (right : runFrom step middle second = some last) : runFrom step state (first ++ second) = some last := by
  induction first generalizing state with
  | nil => cases left; exact right
  | cons action rest ih =>
    obtain ⟨next, stepped, left⟩ := runFrom_cons left
    rw [List.cons_append, runFrom, stepped]
    exact ih left

/-- A system that follows every guarded step of another with some steps of its
own follows every guarded run of it. -/
theorem runFrom_simulates {τ β : Type} {move : τ → β → Option τ} {guard : σ → α → Prop} (related : σ → τ → Prop)
    (follows : ∀ state other action next, related state other → guard state action →
      step state action = some next → ∃ moves other', runFrom move other moves = some other' ∧ related next other')
    {state last : σ} {other : τ} {actions : List α} (holds : related state other)
    (guarded : Guarded step guard state actions) (run : runFrom step state actions = some last) :
    ∃ moves other', runFrom move other moves = some other' ∧ related last other' := by
  induction actions generalizing state other with
  | nil =>
    cases run
    exact ⟨[], other, rfl, holds⟩
  | cons action rest ih =>
    obtain ⟨next, stepped, run⟩ := runFrom_cons run
    obtain ⟨moves, middle, moved, held⟩ := follows state other action next holds guarded.1 stepped
    obtain ⟨later, other', movedOn, result⟩ := ih held (guarded.tail stepped) run
    exact ⟨moves ++ later, other', runFrom_append moved movedOn, result⟩

/-- Two systems whose steps agree, refusals included, agree in their runs. -/
theorem runFrom_related {τ : Type} {other : τ → α → Option τ} {related : σ → τ → Prop}
    (agree : ∀ state twin action, related state twin → Option.Rel related (step state action) (other twin action))
    {state : σ} {twin : τ} (holds : related state twin) (actions : List α) :
    Option.Rel related (runFrom step state actions) (runFrom other twin actions) := by
  induction actions generalizing state twin with
  | nil => exact .some holds
  | cons action rest ih =>
    have first := agree state twin action holds
    rw [runFrom, runFrom]
    generalize step state action = left at first ⊢
    generalize other twin action = right at first ⊢
    cases first with
    | some held => exact ih held
    | none => exact .none

section Outputs

variable {ω : Type} {output : σ → α → List ω}

/-- What the steps of a run put out, up to a refused one. -/
def outputs (step : σ → α → Option σ) (output : σ → α → List ω) : σ → List α → List ω
  | _, [] => []
  | state, action :: rest =>
      match step state action with
      | none => []
      | some next => output state action ++ outputs step output next rest

theorem outputs_cons {state next : σ} {action : α} {rest : List α} (stepped : step state action = some next) :
    outputs step output state (action :: rest) = output state action ++ outputs step output next rest := by
  rw [outputs, stepped]

/-- Runs of the same actions from states that cannot be told apart put out the same. -/
theorem outputs_related {output' : σ → α → List ω} {guard : σ → α → Prop} {related : σ → σ → Prop}
    (agree : ∀ state twin next next' action, related state twin → guard state action → guard twin action →
      step state action = some next → step twin action = some next' →
      related next next' ∧ output state action = output' twin action)
    {state twin last last' : σ} {actions : List α} (holds : related state twin)
    (left : Guarded step guard state actions) (right : Guarded step guard twin actions)
    (run : runFrom step state actions = some last) (run' : runFrom step twin actions = some last') :
    outputs step output state actions = outputs step output' twin actions := by
  induction actions generalizing state twin with
  | nil => rfl
  | cons action rest ih =>
    obtain ⟨next, stepped, run⟩ := runFrom_cons run
    obtain ⟨next', stepped', run'⟩ := runFrom_cons run'
    obtain ⟨held, same⟩ := agree state twin next next' action holds left.1 right.1 stepped stepped'
    rw [outputs_cons stepped, outputs_cons stepped', same,
      ih held (left.tail stepped) (right.tail stepped') run run']

/-- What every step from an invariant puts out, the run puts out. -/
theorem outputs_invariant (invariant : σ → Prop) (fine : ω → Prop) {actions : List α}
    (kept : ∀ state next action, action ∈ actions → invariant state → step state action = some next →
      invariant next ∧ ∀ shown ∈ output state action, fine shown)
    {state : σ} (holds : invariant state) : ∀ shown ∈ outputs step output state actions, fine shown := by
  induction actions generalizing state with
  | nil => nofun
  | cons action rest ih =>
    cases stepped : step state action with
    | none =>
      rw [outputs, stepped]
      nofun
    | some next =>
      obtain ⟨held, shown⟩ := kept state next action (List.mem_cons_self ..) holds stepped
      rw [outputs_cons stepped]
      exact List.forall_mem_append.mpr
        ⟨shown, ih (fun state next action member => kept state next action (List.mem_cons_of_mem _ member)) held⟩

end Outputs

section Moves

variable {move : σ → σ → Prop}

/-- A run whose steps are all sequences of moves is one. -/
theorem runFrom_moves
    (follows : ∀ state action next, step state action = some next → Relation.ReflTransGen move state next)
    {state last : σ} {actions : List α} (run : runFrom step state actions = some last) :
    Relation.ReflTransGen move state last := by
  induction actions generalizing state with
  | nil =>
    cases run
    exact .refl
  | cons action rest ih =>
    obtain ⟨next, stepped, run⟩ := runFrom_cons run
    exact (follows state action next stepped).trans (ih run)

/-- An invariant of the moves into allowed states holds in every allowed state reached,
when the states before an allowed one are allowed. -/
theorem moves_invariant {allowed invariant : σ → Prop}
    (earlier : ∀ state next, move state next → allowed next → allowed state)
    (kept : ∀ state next, invariant state → move state next → allowed next → invariant next)
    {first last : σ} (moves : Relation.ReflTransGen move first last) (holds : invariant first)
    (fine : allowed last) : invariant last := by
  induction moves with
  | refl => exact holds
  | tail _ moved ih => exact kept _ _ (ih (earlier _ _ moved fine)) moved fine

end Moves

end Rediscoro.Semantics
