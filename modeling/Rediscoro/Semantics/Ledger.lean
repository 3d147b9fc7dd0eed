import Mathlib.Algebra.Order.Ring.Nat
import Mathlib.Tactic.Common

/-! A ledger of claims that are served in the order they were entered. -/

set_option autoImplicit false

namespace Rediscoro.Semantics

/-- What was entered is what was served followed by what is still waiting. -/
structure Ledger (α : Type) where
  entered : List α
  served : List α
  waiting : List α
  balanced : served ++ waiting = entered

namespace Ledger

variable {α : Type}

def empty : Ledger α := ⟨[], [], [], rfl⟩

inductive Move (α : Type) where
  | enter (owners : List α)
  | serve (owner : α)
  | wipe

def enter (ledger : Ledger α) (owners : List α) : Ledger α :=
  { entered := ledger.entered ++ owners
    served := ledger.served
    waiting := ledger.waiting ++ owners
    balanced := by rw [← List.append_assoc, ledger.balanced] }

/-- Only the owner in front may be served. -/
def move [DecidableEq α] (ledger : Ledger α) : Move α → Option (Ledger α)
  | .enter owners => some (ledger.enter owners)
  | .serve owner =>
      if front : ledger.waiting.head? = some owner then
        some
          { entered := ledger.entered
            served := ledger.served ++ [owner]
            waiting := ledger.waiting.tail
            balanced := by
              obtain ⟨rest, shape⟩ := List.head?_eq_some_iff.mp front
              rw [← ledger.balanced, shape, List.append_assoc]
              rfl }
      else none
  | .wipe => some empty

theorem move_serve [DecidableEq α] {ledger : Ledger α} {owner : α} {rest : List α}
    (front : ledger.waiting = owner :: rest) :
    ∃ next, ledger.move (.serve owner) = some next ∧ next.entered = ledger.entered ∧
      next.served = ledger.served ++ [owner] ∧ next.waiting = rest := by
  have head : ledger.waiting.head? = some owner := by rw [front]; rfl
  refine ⟨_, dif_pos head, rfl, rfl, ?_⟩
  show ledger.waiting.tail = rest
  rw [front]
  rfl

/-- The claims served so far are the first ones entered, in order. -/
theorem served_at (ledger : Ledger α) {j : Nat} {owner : α} (served : ledger.served[j]? = some owner) :
    ledger.entered[j]? = some owner := by
  have bound : j < ledger.served.length := (List.getElem?_eq_some_iff.mp served).1
  rw [← ledger.balanced, List.getElem?_append_left bound]
  exact served

end Ledger

end Rediscoro.Semantics
