import Rediscoro.Connection.Dispatch
import Rediscoro.Resp3.Streams

/-! The dispatch loop as deliveries of what the parser returns.

The loop calls `parse_one` until it asks for more octets, just as `drain` does, and
between two calls it touches the pipeline and the sinks only. So what it delivers are
the messages of the drained roots, one after another, until there are enough or one
comes that nobody waits for.
-/

set_option autoImplicit false

namespace Rediscoro

open Rediscoro.Semantics Rediscoro.Resp3 Rediscoro.Pipeline

theorem Pipeline.onMessage_eq_none_iff {σ μ ε : Type} [ResponseSink σ μ ε] {p : Pipeline} {msg : μ}
    {sinks : Sinks σ μ ε} : p.onMessage msg sinks = none ↔ p.hasPendingRead = false := by
  unfold onMessage Pipeline.dispatch hasPendingRead
  cases p.awaitingRead <;> simp

namespace Connection

variable {σ : Type} [ResponseSink σ Message ErrorInfo]

/-- Messages that were delivered, why that stopped before all were, and what is left behind. -/
structure Attended (σ : Type) where
  taken : List Message
  outcome : Option Outcome
  pipeline : Pipeline
  sinks : Sinks σ Message ErrorInfo

section Attend

variable (enough : Sinks σ Message ErrorInfo → Bool)

def attend : List Message → Pipeline → Sinks σ Message ErrorInfo → Attended σ
  | [], pipeline, sinks => ⟨[], none, pipeline, sinks⟩
  | msg :: rest, pipeline, sinks =>
      match pipeline.onMessage msg sinks with
      | none => ⟨[], some .unsolicited, pipeline, sinks⟩
      | some (pipeline, sinks) =>
          if enough sinks then ⟨[msg], some .complete, pipeline, sinks⟩
          else { attend rest pipeline sinks with taken := msg :: (attend rest pipeline sinks).taken }

variable {enough} {msg : Message} {rest messages : List Message} {pipeline next : Pipeline}
  {sinks after : Sinks σ Message ErrorInfo}

theorem attend_unsolicited (refused : pipeline.onMessage msg sinks = none) :
    attend enough (msg :: rest) pipeline sinks = ⟨[], some .unsolicited, pipeline, sinks⟩ := by
  simp only [attend, refused]

theorem attend_enough (delivered : pipeline.onMessage msg sinks = some (next, after)) (complete : enough after = true) :
    attend enough (msg :: rest) pipeline sinks = ⟨[msg], some .complete, next, after⟩ := by
  simp only [attend, delivered, complete, if_true]

theorem attend_again (delivered : pipeline.onMessage msg sinks = some (next, after))
    (incomplete : ¬ enough after = true) :
    attend enough (msg :: rest) pipeline sinks =
      { attend enough rest next after with taken := msg :: (attend enough rest next after).taken } := by
  simp only [attend, delivered, if_neg incomplete]

/-- The messages that were delivered are the first ones, and all of them unless something stopped it. -/
theorem attend_taken : (attend enough messages pipeline sinks).taken <+: messages ∧
    ((attend enough messages pipeline sinks).outcome = none →
      (attend enough messages pipeline sinks).taken = messages) := by
  induction messages generalizing pipeline sinks with
  | nil => exact ⟨List.prefix_rfl, fun _ => rfl⟩
  | cons msg rest ih =>
    cases delivered : pipeline.onMessage msg sinks with
    | none =>
      rw [attend_unsolicited delivered]
      exact ⟨List.nil_prefix, nofun⟩
    | some answered =>
      obtain ⟨next, after⟩ := answered
      by_cases complete : enough after = true
      · rw [attend_enough delivered complete]
        exact ⟨List.cons_prefix_cons.mpr ⟨rfl, List.nil_prefix⟩, nofun⟩
      · rw [attend_again delivered complete]
        obtain ⟨first, all⟩ := @ih next after
        exact ⟨List.cons_prefix_cons.mpr ⟨rfl, first⟩, fun none => congrArg (List.cons msg) (all none)⟩

end Attend

namespace Exchange

/-- How the loop ends where the parser returns no further root. -/
def ended (answer : Parser.Answer) (x : Exchange σ) : Outcome × Exchange σ :=
  match answer with
  | .error (.protocol errc) => (.invalid errc, x.onError errc)
  | .error _ => (.faulty, x)
  | .ok _ => (.starved, x)

/-- The end of the loop, given what it delivered of the drained roots. A loop that was stopped leaves `parser`. -/
def conclude (attended : Attended σ) (parser : Parser Buffer View) (drained : Drained Buffer View) :
    Outcome × Exchange σ :=
  match attended.outcome with
  | some outcome => (outcome, ⟨parser, attended.pipeline, attended.sinks⟩)
  | none => ended drained.answer ⟨drained.parser, attended.pipeline, attended.sinks⟩

variable {fuel : Nat} {memory : Memory} {enough : Sinks σ Message ErrorInfo → Bool}

/-- What the messages of the roots are built to. -/
def Built (fuel : Nat) (memory : Memory) (roots : List (Root Buffer View)) (messages : List Message) : Prop :=
  (roots.map fun root => build fuel (root.parser.contents memory) root.index) =
    messages.map fun msg => some (.ok msg)

/-- The messages of a root and of those behind it. -/
theorem Built.cons {root : Root Buffer View} {roots : List (Root Buffer View)} {messages : List Message}
    (built : Built fuel memory (root :: roots) messages) :
    ∃ msg rest, messages = msg :: rest ∧ build fuel (root.parser.contents memory) root.index = some (.ok msg) ∧
      Built fuel memory roots rest := by
  unfold Built at built
  rw [List.map_cons] at built
  obtain ⟨msg, rest, rfl, here, later⟩ := List.map_eq_cons_iff.mp built.symm
  exact ⟨msg, rest, rfl, here.symm, later.symm⟩

variable [FloatChars]

section Passes

variable {p q : Parser Buffer View} {root : Nat} {msg : Message} {pipeline next : Pipeline}
  {sinks after : Sinks σ Message ErrorInfo}

theorem dispatchPass_unsolicited (parsed : p.parseOne = (.ok (some root), q))
    (refused : pipeline.onMessage msg sinks = none) :
    dispatchPass fuel memory enough ⟨p, pipeline, sinks⟩ = .leave (.unsolicited, ⟨q, pipeline, sinks⟩) := by
  simp [dispatchPass, parsed, Pipeline.onMessage_eq_none_iff.mp refused]

theorem dispatchPass_delivered (parsed : p.parseOne = (.ok (some root), q))
    (built : build fuel (q.contents memory) root = some (.ok msg))
    (delivered : pipeline.onMessage msg sinks = some (next, after)) :
    dispatchPass fuel memory enough ⟨p, pipeline, sinks⟩ =
      if enough after then .leave (.complete, ⟨q.reclaim, next, after⟩) else .again ⟨q.reclaim, next, after⟩ := by
  have pending : pipeline.hasPendingRead = true := by
    cases pending : pipeline.hasPendingRead with
    | true => rfl
    | false =>
      rw [Pipeline.onMessage_eq_none_iff.mpr pending] at delivered
      cases delivered
  simp [dispatchPass, parsed, pending, deliver, built, delivered]

theorem dispatchPass_ended {answer : Parser.Answer} (parsed : p.parseOne = (answer, q))
    (last : ∀ root, answer ≠ .ok (some root)) :
    dispatchPass fuel memory enough ⟨p, pipeline, sinks⟩ = .leave (ended answer ⟨q, pipeline, sinks⟩) := by
  match answer, last, parsed with
  | .ok none, _, parsed | .error (.protocol _), _, parsed | .error .assertion, _, parsed
  | .error .outOfRange, _, parsed => simp [dispatchPass, parsed, ended]
  | .ok (some root), last, _ => exact absurd rfl (last root)

end Passes

/-- The loop delivers the messages of the drained roots. -/
theorem dispatch_attend {p : Parser Buffer View} {pipeline : Pipeline} {sinks : Sinks σ Message ErrorInfo}
    {messages : List Message} (built : Built fuel memory p.drain.roots messages) :
    ∃ parser, dispatch fuel memory enough ⟨p, pipeline, sinks⟩ =
      conclude (attend enough messages pipeline sinks) parser p.drain := by
  induction p using Parser.drain_induction generalizing pipeline sinks messages with
  | root p q root parsed ih =>
    rw [Parser.drain_root parsed] at built ⊢
    obtain ⟨msg, rest, rfl, here, later⟩ := built.cons
    cases delivered : pipeline.onMessage msg sinks with
    | none =>
      refine ⟨q, ?_⟩
      rw [attend_unsolicited delivered]
      exact run_leave _ (dispatchPass_unsolicited parsed delivered)
    | some answered =>
      obtain ⟨next, after⟩ := answered
      have pass : dispatchPass fuel memory enough ⟨p, pipeline, sinks⟩ = _ :=
        dispatchPass_delivered parsed here delivered
      by_cases complete : enough after = true
      · refine ⟨q.reclaim, ?_⟩
        rw [if_pos complete] at pass
        rw [attend_enough delivered complete]
        exact run_leave _ pass
      · obtain ⟨parser, same⟩ := @ih next after rest later
        refine ⟨parser, ?_⟩
        rw [if_neg complete] at pass
        rw [attend_again delivered complete]
        exact (run_again _ pass).trans same
  | last p q answer parsed last =>
    rw [Parser.drain_end parsed last] at built ⊢
    obtain rfl : messages = [] := List.map_eq_nil_iff.mp built.symm
    exact ⟨q, run_leave _ (dispatchPass_ended parsed last)⟩

end Exchange

end Connection

end Rediscoro
