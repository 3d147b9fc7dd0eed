import Rediscoro.Resp3.Mirror

/-! The read loop of the parser's callers.

After each commit `do_read` and the handshake call `parse_one` until it asks for
more octets or fails, building the message of every root and reclaiming the
parser before the next call. `drain` is that loop; it records every root with
the parser as it was when the root was returned. A session feeds chunks one
after another and drains after each, until an error ends it for good.
-/

set_option autoImplicit false

namespace Rediscoro.Resp3

open Rediscoro.Semantics

/-- A root and the parser that returned it, before `reclaim`. -/
structure Root (β τ : Type) where
  index : Nat
  parser : Parser β τ

structure Drained (β τ : Type) where
  roots : List (Root β τ)
  answer : Parser.Answer
  parser : Parser β τ

namespace Parser

variable {β τ : Type} [Source β τ] [FloatChars]

theorem data_parsePass {p : Parser β τ} (top : topsValue p.stack = true) :
    (after p.parsePass).data = p.data.drop (nextToken p.limits p.data).used := by
  have input := input_proceed (p.perform (nextToken p.limits p.data))
  rw [parsePass_value top, ← data_perform]
  exact congrArg Source.data input

theorem limits_parsePass (p : Parser β τ) : (after p.parsePass).limits = p.limits := by
  by_cases empty : p.stack = []
  · simp only [parsePass, empty]
    rfl
  · cases top : topsValue p.stack with
    | true => rw [parsePass_value top, limits_proceed, limits_perform]
    | false => rw [parsePass_covered empty top]; rfl

theorem parsePass_shrinks (p : Parser β τ) : (after p.parsePass).data.length ≤ p.data.length := by
  by_cases empty : p.stack = []
  · simp only [parsePass, empty]
    exact Nat.le_refl _
  · cases top : topsValue p.stack with
    | true => rw [data_parsePass top, List.length_drop]; exact Nat.sub_le ..
    | false => rw [parsePass_covered empty top]; exact Nat.le_refl _

/-- A root is returned by a pass that consumed the last element of its message. -/
theorem parsePass_root {p q : Parser β τ} {root : Nat} (left : p.parsePass = .leave (.ok (some root), q)) :
    q.data.length < p.data.length := by
  by_cases empty : p.stack = []
  · simp only [parsePass, empty] at left
    cases left
  · cases top : topsValue p.stack with
    | true =>
      have octets : q.data = p.data.drop (nextToken p.limits p.data).used := by
        rw [← data_parsePass top, left]
        rfl
      have within := nextToken_within p.limits p.data
      rw [parsePass_value top] at left
      cases performed : p.perform (nextToken p.limits p.data) with
      | mk valued r =>
        rw [performed] at left
        rcases valued with stop | _ | step
        · cases stop <;> cases left
        · cases left
        · have less := perform_shrinks within performed
          have input := data_perform p (nextToken p.limits p.data)
          rw [performed, ← octets] at input
          rw [← input]
          exact less
    | false => rw [parsePass_covered empty top] at left; cases left

theorem parseLoop_root {p q : Parser β τ} {root : Nat} (left : p.parseLoop = (.ok (some root), q)) :
    q.data.length < p.data.length := by
  have post := run_invariant parsePass_decreases (fun r : Parser β τ => r.data.length ≤ p.data.length)
    (fun result => ∀ root, result.1 = .ok (some root) → result.2.data.length < p.data.length)
    (by
      intro r next bound again
      have less := parsePass_shrinks r
      rw [again] at less
      exact Nat.le_trans less bound)
    (by
      rintro r ⟨answer, q⟩ bound leave root rfl
      exact Nat.lt_of_lt_of_le (parsePass_root leave) bound)
    p (Nat.le_refl _) root
  have same : run parsePass_decreases p = (.ok (some root), q) := left
  rw [same] at post
  exact post rfl

/-- A call keeps the limits and never has more octets unread than before. -/
theorem parseOne_keeps (p : Parser β τ) :
    p.parseOne.2.limits = p.limits ∧ p.parseOne.2.data.length ≤ p.data.length := by
  have kept (q : Parser β τ) (same : q.limits = p.limits) (bound : q.data.length ≤ p.data.length) :
      (after q.parsePass).limits = p.limits ∧ (after q.parsePass).data.length ≤ p.data.length :=
    ⟨(limits_parsePass q).trans same, Nat.le_trans (parsePass_shrinks q) bound⟩
  unfold parseOne
  split
  · exact ⟨rfl, Nat.le_refl _⟩
  · split
    · exact ⟨rfl, Nat.le_refl _⟩
    · refine run_invariant parsePass_decreases
        (fun q : Parser β τ => q.limits = p.limits ∧ q.data.length ≤ p.data.length)
        (fun result => result.2.limits = p.limits ∧ result.2.data.length ≤ p.data.length) ?_ ?_ _
        ⟨rfl, Nat.le_refl _⟩
      · rintro q next ⟨same, bound⟩ again
        have kept := kept q same bound
        rwa [again] at kept
      · rintro q result ⟨same, bound⟩ left
        have kept := kept q same bound
        rwa [left] at kept

theorem parseOne_root {p q : Parser β τ} {root : Nat} (left : p.parseOne = (.ok (some root), q)) :
    q.data.length < p.data.length := by
  unfold parseOne at left
  split at left
  · cases left
  · split at left
    · cases left
    · have less := parseLoop_root left
      exact less

/-! The loop over `parse_one`. -/

def drainPass (state : List (Root β τ) × Parser β τ) : Pass (List (Root β τ) × Parser β τ) (Drained β τ) :=
  match state.2.parseOne with
  | (.ok (some root), p) => .again (state.1 ++ [⟨root, p⟩], p.reclaim)
  | (answer, p) => .leave ⟨state.1, answer, p⟩

theorem drainPass_root {p q : Parser β τ} {root : Nat} (parsed : p.parseOne = (.ok (some root), q))
    (roots : List (Root β τ)) : drainPass (roots, p) = .again (roots ++ [⟨root, q⟩], q.reclaim) := by
  simp only [drainPass, parsed]

theorem drainPass_end {p q : Parser β τ} {answer : Answer} (parsed : p.parseOne = (answer, q))
    (last : ∀ root, answer ≠ .ok (some root)) (roots : List (Root β τ)) :
    drainPass (roots, p) = .leave ⟨roots, answer, q⟩ := by
  simp only [drainPass, parsed]

theorem drainPass_decreases : Decreases (drainPass (β := β)) (fun state => state.2.data.length) := by
  intro state next again
  unfold drainPass at again
  split at again
  · rename_i root p parsed
    cases again
    simp only [data_reclaim]
    exact parseOne_root parsed
  · cases again

def drain (p : Parser β τ) : Drained β τ := run drainPass_decreases ([], p)

/-- Roots found earlier stand in front of those still to come. -/
theorem drain_from (state : List (Root β τ) × Parser β τ) (earlier : List (Root β τ)) :
    run drainPass_decreases (earlier ++ state.1, state.2) =
      { run drainPass_decreases state with roots := earlier ++ (run drainPass_decreases state).roots } := by
  induction state using run_induction (drainPass_decreases (β := β)) with | _ state ih
  obtain ⟨roots, p⟩ := state
  match parsed : p.parseOne with
  | (.ok (some root), q) =>
    have again := drainPass_root parsed
    have rest := ih _ (again roots)
    rw [run_again _ (again (earlier ++ roots)), run_again _ (again roots), List.append_assoc]
    exact rest
  | (.ok none, q) =>
    rw [run_leave _ (drainPass_end parsed nofun _), run_leave _ (drainPass_end parsed nofun _)]
  | (.error stop, q) =>
    rw [run_leave _ (drainPass_end parsed nofun _), run_leave _ (drainPass_end parsed nofun _)]

theorem drain_root {p q : Parser β τ} {root : Nat} (parsed : p.parseOne = (.ok (some root), q)) :
    p.drain = { q.reclaim.drain with roots := ⟨root, q⟩ :: q.reclaim.drain.roots } := by
  rw [drain, run_again _ (drainPass_root parsed [])]
  exact drain_from ([], q.reclaim) [⟨root, q⟩]

theorem drain_end {p q : Parser β τ} {answer : Answer} (parsed : p.parseOne = (answer, q))
    (last : ∀ root, answer ≠ .ok (some root)) : p.drain = ⟨[], answer, q⟩ :=
  run_leave _ (drainPass_end parsed last [])

/-- Induction over the calls of `parse_one` that the loop makes. -/
theorem drain_induction {motive : Parser β τ → Prop}
    (root : ∀ p q root, p.parseOne = (.ok (some root), q) → motive q.reclaim → motive p)
    (last : ∀ p q answer, p.parseOne = (answer, q) → (∀ root, answer ≠ .ok (some root)) → motive p)
    (p : Parser β τ) : motive p := by
  induction size : p.data.length using Nat.strongRecOn generalizing p with
  | _ bound ih =>
    match parsed : p.parseOne with
    | (.ok (some index), q) =>
      have less := parseOne_root parsed
      exact root p q index parsed (ih _ (by rw [data_reclaim]; omega) _ rfl)
    | (.ok none, q) => exact last p q _ parsed nofun
    | (.error stop, q) => exact last p q _ parsed nofun

/-- What a call and a `reclaim` keep, holds at every root of the loop and at its end. -/
theorem drain_invariant (invariant : Parser β τ → Prop)
    (call : ∀ p : Parser β τ, invariant p → invariant p.parseOne.2)
    (reclaimed : ∀ p : Parser β τ, invariant p → invariant p.reclaim) {p : Parser β τ} (holds : invariant p) :
    invariant p.drain.parser ∧ ∀ root ∈ p.drain.roots, invariant root.parser := by
  induction p using drain_induction with
  | root p q root parsed ih =>
    have next := call p holds
    rw [parsed] at next
    obtain ⟨last, later⟩ := ih (reclaimed q next)
    rw [drain_root parsed]
    exact ⟨last, List.forall_mem_cons.mpr ⟨next, later⟩⟩
  | last p q answer parsed last =>
    have next := call p holds
    rw [parsed] at next
    rw [drain_end parsed last]
    exact ⟨next, nofun⟩

theorem drain_keeps (p : Parser β τ) :
    p.drain.parser.limits = p.limits ∧ p.drain.parser.data.length ≤ p.data.length :=
  (drain_invariant (fun q => q.limits = p.limits ∧ q.data.length ≤ p.data.length)
    (by
      rintro q ⟨same, bound⟩
      obtain ⟨limits, fewer⟩ := parseOne_keeps q
      exact ⟨limits.trans same, Nat.le_trans fewer bound⟩)
    (by
      rintro q ⟨same, bound⟩
      exact ⟨same, by rw [data_reclaim]; exact bound⟩)
    ⟨rfl, Nat.le_refl _⟩).1

end Parser

end Rediscoro.Resp3
