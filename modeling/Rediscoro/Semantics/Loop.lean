import Mathlib.Algebra.Order.Ring.Nat
import Mathlib.Tactic.Common

/-! Loops with an explicit body.

A body answers one pass: go round again with a new state, or leave with a
result. `iterate` bounds the passes and stays partial; `run` is the total loop
of a body whose passes decrease a measure. Everything about a total loop is
proved from `run_again`, `run_leave` and the rules below, never from the fuel.
-/

set_option autoImplicit false

namespace Rediscoro.Semantics

inductive Pass (σ ρ : Type) where
  | again (state : σ)
  | leave (result : ρ)

variable {σ τ ρ : Type}

/-- At most `fuel` passes; `none` when the loop is still running by then. -/
def iterate (body : σ → Pass σ ρ) : Nat → σ → Option ρ
  | 0, _ => none
  | fuel + 1, state =>
      match body state with
      | .again next => iterate body fuel next
      | .leave result => some result

theorem iterate_again {body : σ → Pass σ ρ} {fuel : Nat} {state next : σ}
    (pass : body state = .again next) : iterate body (fuel + 1) state = iterate body fuel next := by
  simp only [iterate, pass]

theorem iterate_leave {body : σ → Pass σ ρ} {fuel : Nat} {state : σ} {result : ρ}
    (pass : body state = .leave result) : iterate body (fuel + 1) state = some result := by
  simp only [iterate, pass]

/-- Passes beyond the last one change nothing. -/
theorem iterate_more {body : σ → Pass σ ρ} {fuel : Nat} {state : σ} {result : ρ}
    (done : iterate body fuel state = some result) (extra : Nat) :
    iterate body (fuel + extra) state = some result := by
  induction fuel generalizing state with
  | zero => simp [iterate] at done
  | succ fuel ih =>
    rw [Nat.succ_add]
    cases pass : body state with
    | again next =>
      rw [iterate_again pass] at done ⊢
      exact ih done
    | leave result =>
      rw [iterate_leave pass] at done ⊢
      exact done

theorem iterate_of_le {body : σ → Pass σ ρ} {fuel enough : Nat} {state : σ} {result : ρ}
    (done : iterate body fuel state = some result) (within : fuel ≤ enough) :
    iterate body enough state = some result := by
  obtain ⟨extra, rfl⟩ := Nat.exists_eq_add_of_le within
  exact iterate_more done extra

def Pass.map {ρ' : Type} (f : σ → τ) (g : ρ → ρ') : Pass σ ρ → Pass τ ρ'
  | .again state => .again (f state)
  | .leave result => .leave (g result)

/-- A loop over translated states whose passes are the translated ones. -/
theorem iterate_map {ρ' : Type} {body : σ → Pass σ ρ} {body' : τ → Pass τ ρ'} {f : σ → τ} {g : ρ → ρ'}
    (pass : ∀ state, body' (f state) = (body state).map f g) (fuel : Nat) (state : σ) :
    iterate body' fuel (f state) = (iterate body fuel state).map g := by
  induction fuel generalizing state with
  | zero => rfl
  | succ fuel ih =>
    have here := pass state
    cases took : body state with
    | again next =>
      rw [took] at here
      rw [iterate_again here, iterate_again took]
      exact ih next
    | leave result =>
      rw [took] at here
      rw [iterate_leave here, iterate_leave took]
      rfl

/-- Some number of passes lead from one state to the other. -/
inductive Reaches (body : σ → Pass σ ρ) : σ → σ → Prop where
  | refl (state : σ) : Reaches body state state
  | again {state next last : σ} : body state = .again next → Reaches body next last → Reaches body state last

theorem Reaches.trans {body : σ → Pass σ ρ} {first second third : σ} (left : Reaches body first second)
    (right : Reaches body second third) : Reaches body first third := by
  induction left with
  | refl => exact right
  | again pass _ ih => exact .again pass (ih right)

theorem Reaches.one {body : σ → Pass σ ρ} {state next : σ} (pass : body state = .again next) :
    Reaches body state next := .again pass (.refl next)

/-- Some number of passes lead to this one. -/
def Leads (body : σ → Pass σ ρ) (state : σ) (pass : Pass σ ρ) : Prop := ∃ last, Reaches body state last ∧
    body last = pass

theorem Leads.now {body : σ → Pass σ ρ} {state : σ} {pass : Pass σ ρ} (same : body state = pass) :
    Leads body state pass := ⟨state, .refl state, same⟩

theorem Leads.after {body : σ → Pass σ ρ} {state next : σ} {pass : Pass σ ρ} (reaches : Reaches body state next)
    (leads : Leads body next pass) : Leads body state pass := by
  obtain ⟨last, onward, same⟩ := leads
  exact ⟨last, reaches.trans onward, same⟩

theorem Leads.reaches {body : σ → Pass σ ρ} {state next : σ} (leads : Leads body state (.again next)) :
    Reaches body state next := by
  obtain ⟨last, onward, same⟩ := leads
  exact onward.trans (.one same)

/-- Two states with the same next pass lead to the same passes. -/
theorem Leads.congr {body : σ → Pass σ ρ} {state other : σ} {pass : Pass σ ρ} (same : body state = body other)
    (leads : Leads body other pass) : Leads body state pass := by
  obtain ⟨last, onward, left⟩ := leads
  cases onward with
  | refl => exact .now (same.trans left)
  | again first rest => exact ⟨last, .again (same.trans first) rest, left⟩

/-- A state that leads to a pass which leaves is done after enough passes. -/
theorem Leads.iterate {body : σ → Pass σ ρ} {state : σ} {result : ρ} (leads : Leads body state (.leave result)) :
    ∃ fuel, Semantics.iterate body fuel state = some result := by
  obtain ⟨last, reaches, left⟩ := leads
  induction reaches with
  | refl => exact ⟨1, iterate_leave left⟩
  | again pass _ ih =>
    obtain ⟨fuel, done⟩ := ih left
    exact ⟨fuel + 1, (iterate_again pass).trans done⟩

/-- The number of passes allowed does not change the result. -/
theorem iterate_deterministic {body : σ → Pass σ ρ} {first second : Nat} {state : σ} {left right : ρ}
    (one : Semantics.iterate body first state = some left)
    (other : Semantics.iterate body second state = some right) : left = right := by
  have more := iterate_more one second
  rw [Nat.add_comm, iterate_more other first] at more
  exact (Option.some.inj more).symm

/-- Every pass that goes round again decreases the measure. -/
def Decreases (body : σ → Pass σ ρ) (measure : σ → Nat) : Prop :=
  ∀ state next, body state = .again next → measure next < measure state

theorem iterate_terminates {body : σ → Pass σ ρ} {measure : σ → Nat}
    (decreases : Decreases body measure) (fuel : Nat) (state : σ) (enough : measure state < fuel) :
    (iterate body fuel state).isSome = true := by
  induction fuel generalizing state with
  | zero => omega
  | succ fuel ih =>
    cases pass : body state with
    | again next =>
      rw [iterate_again pass]
      have smaller := decreases state next pass
      exact ih next (by omega)
    | leave result => rw [iterate_leave pass]; rfl

section Total

variable {body : σ → Pass σ ρ} {measure : σ → Nat}

/-- The total loop of a body that decreases a measure. -/
def run (decreases : Decreases body measure) (state : σ) : ρ :=
  (iterate body (measure state + 1) state).get
    (iterate_terminates decreases _ state (Nat.lt_succ_self _))

theorem iterate_run (decreases : Decreases body measure) (state : σ) {fuel : Nat}
    (enough : measure state < fuel) : iterate body fuel state = some (run decreases state) :=
  iterate_of_le (Option.some_get _).symm enough

theorem run_again (decreases : Decreases body measure) {state next : σ}
    (pass : body state = .again next) : run decreases state = run decreases next := by
  have smaller := decreases state next pass
  have whole := iterate_run decreases state (Nat.lt_succ_self (measure state))
  rw [iterate_again pass, iterate_run decreases next smaller] at whole
  exact (Option.some.inj whole).symm

theorem run_leave (decreases : Decreases body measure) {state : σ} {result : ρ}
    (pass : body state = .leave result) : run decreases state = result := by
  have whole := iterate_run decreases state (Nat.lt_succ_self (measure state))
  rw [iterate_leave pass] at whole
  exact (Option.some.inj whole).symm

theorem run_reaches (decreases : Decreases body measure) {state last : σ} (reaches : Reaches body state last) :
    run decreases state = run decreases last := by
  induction reaches with
  | refl => rfl
  | again pass _ ih => exact (run_again decreases pass).trans ih

/-- Induction over the passes still to come. -/
theorem run_induction (decreases : Decreases body measure) {motive : σ → Prop}
    (pass : ∀ state, (∀ next, body state = .again next → motive next) → motive state)
    (state : σ) : motive state := by
  induction bound : measure state using Nat.strongRecOn generalizing state with
  | _ size ih =>
    apply pass state
    intro next again
    exact ih (measure next) (bound ▸ decreases state next again) next rfl

/-- Partial correctness: an invariant of the passes and what it gives at the exit. -/
theorem run_invariant (decreases : Decreases body measure) (invariant : σ → Prop) (post : ρ → Prop)
    (kept : ∀ state next, invariant state → body state = .again next → invariant next)
    (left : ∀ state result, invariant state → body state = .leave result → post result)
    (state : σ) (holds : invariant state) : post (run decreases state) := by
  induction state using run_induction decreases with
  | _ state ih =>
    cases pass : body state with
    | again next =>
      rw [run_again decreases pass]
      exact ih next pass (kept state next holds pass)
    | leave result =>
      rw [run_leave decreases pass]
      exact left state result holds pass

/-- Two loops whose passes keep a relation leave with related results. -/
theorem run_related {ρ' : Type} {body' : τ → Pass τ ρ'} {measure' : τ → Nat}
    (decreases : Decreases body measure) (decreases' : Decreases body' measure')
    (related : σ → τ → Prop) (agree : ρ → ρ' → Prop)
    (kept : ∀ state other next, related state other → body state = .again next →
      ∃ next', body' other = .again next' ∧ related next next')
    (left : ∀ state other result, related state other → body state = .leave result →
      agree result (run decreases' other))
    (state : σ) (other : τ) (holds : related state other) :
    agree (run decreases state) (run decreases' other) := by
  induction state using run_induction decreases generalizing other with
  | _ state ih =>
    cases pass : body state with
    | again next =>
      obtain ⟨next', again, holds'⟩ := kept state other next holds pass
      rw [run_again decreases pass, run_again decreases' again]
      exact ih next pass next' holds'
    | leave result =>
      rw [run_leave decreases pass]
      exact left state other result holds pass

/-- Two passes that both go round again, with related states, or both leave, with results that agree. -/
inductive Pass.Rel {ρ' : Type} (related : σ → τ → Prop) (agree : ρ → ρ' → Prop) : Pass σ ρ → Pass τ ρ' → Prop where
  | again {state : σ} {other : τ} (held : related state other) : Rel related agree (.again state) (.again other)
  | leave {result : ρ} {other : ρ'} (held : agree result other) : Rel related agree (.leave result) (.leave other)

/-- Two loops that go round together. -/
theorem run_alike {ρ' : Type} {body' : τ → Pass τ ρ'} {measure' : τ → Nat} (decreases : Decreases body measure)
    (decreases' : Decreases body' measure') {related : σ → τ → Prop} {agree : ρ → ρ' → Prop}
    (together : ∀ state other, related state other → Pass.Rel related agree (body state) (body' other))
    {state : σ} {other : τ} (holds : related state other) : agree (run decreases state) (run decreases' other) := by
  induction state using run_induction decreases generalizing other with
  | _ state ih =>
    have passes := together state other holds
    generalize pass : body state = left at passes
    generalize pass' : body' other = right at passes
    cases passes with
    | again held =>
      rw [run_again decreases pass, run_again decreases' pass']
      exact ih _ pass held
    | leave held =>
      rw [run_leave decreases pass, run_leave decreases' pass']
      exact held

end Total

end Rediscoro.Semantics
