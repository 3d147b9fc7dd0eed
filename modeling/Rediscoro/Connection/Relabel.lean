import Rediscoro.Connection.Traffic

/-! Sinks under other names.

The pipeline knows a sink by its reference only. Where one store holds the sinks of another under
other names, the pipeline with the names changed does to the first what it does to the second, and
so does the loop that parses and delivers.
-/

set_option autoImplicit false

namespace Rediscoro.Pipeline

open Rediscoro.Semantics

def PendingItem.relabel (name : SinkRef → SinkRef) (item : PendingItem) : PendingItem :=
  { item with sink := name item.sink }

def AwaitingItem.relabel (name : SinkRef → SinkRef) (item : AwaitingItem) : AwaitingItem :=
  { item with sink := name item.sink }

def relabel (name : SinkRef → SinkRef) (p : Pipeline) : Pipeline :=
  { p with
    pendingWrite := p.pendingWrite.map (.relabel name)
    awaitingRead := p.awaitingRead.map (.relabel name) }

section Queues

variable {name other : SinkRef → SinkRef} {p : Pipeline}

theorem refs_relabel : (p.relabel name).refs = p.refs.map name := by
  simp only [refs, relabel, List.map_append, List.map_map]
  rfl

/-- Only the names of the queued requests matter. -/
theorem relabel_congr (same : ∀ ref ∈ p.refs, name ref = other ref) : p.relabel name = p.relabel other := by
  have pending : p.pendingWrite.map (PendingItem.relabel name) = p.pendingWrite.map (PendingItem.relabel other) := by
    apply List.map_congr_left
    intro item member
    have queued : item.sink ∈ p.refs := List.mem_append_left _ (List.mem_map_of_mem member)
    rw [PendingItem.relabel, PendingItem.relabel, same _ queued]
  have awaiting : p.awaitingRead.map (AwaitingItem.relabel name) = p.awaitingRead.map (AwaitingItem.relabel other) := by
    apply List.map_congr_left
    intro item member
    have queued : item.sink ∈ p.refs := List.mem_append_right _ (List.mem_map_of_mem member)
    rw [AwaitingItem.relabel, AwaitingItem.relabel, same _ queued]
  rw [relabel, relabel, pending, awaiting]

theorem pendingCount_relabel : (p.relabel name).pendingCount = p.pendingCount := by
  simp only [pendingCount, relabel, List.length_map]

theorem hasPendingRead_relabel : (p.relabel name).hasPendingRead = p.hasPendingRead := by
  simp only [hasPendingRead, relabel, List.isEmpty_map]

theorem nextWriteBuffer_relabel : (p.relabel name).nextWriteBuffer = p.nextWriteBuffer := by
  simp only [nextWriteBuffer, relabel, List.head?_map, Option.map_map]
  rfl

theorem push_relabel (req : Request) (ref : SinkRef) (deadline : TimePoint) :
    (p.relabel name).push req (name ref) deadline = (p.push req ref deadline).map (relabel name) := by
  have limits : (p.relabel name).limits = p.limits := rfl
  have bytes : (p.relabel name).pendingWriteBytes = p.pendingWriteBytes := rfl
  unfold push
  rw [pendingCount_relabel, limits, bytes, apply_ite (Option.map (relabel name)), apply_ite (Option.map (relabel name))]
  simp [relabel, PendingItem.relabel, PendingItem.unsent]

theorem onWriteDone_relabel (n : Nat) : (p.relabel name).onWriteDone n = (p.onWriteDone n).map (relabel name) := by
  unfold onWriteDone
  simp only [relabel]
  cases p.pendingWrite with
  | nil => rfl
  | cons front rest =>
    simp only [List.map_cons, PendingItem.relabel]
    split
    · split
      · simp [relabel, AwaitingItem.relabel]
      · simp [relabel, PendingItem.relabel]
    · rfl

end Queues

section Replies

variable {σ μ ε : Type} [ResponseSink σ μ ε] {name : SinkRef → SinkRef} {p : Pipeline} {here there : Sinks σ μ ε}

/-- The sinks of the one store are found in the other under these names. -/
structure Sinks.Named (name : SinkRef → SinkRef) (here there : Sinks σ μ ε) : Prop where
  apart : ∀ i j, i < here.cells.length → j < here.cells.length → name i = name j → i = j
  found : ∀ i, i < here.cells.length → there.cells[name i]? = here.cells[i]?

namespace Sinks.Named

variable {ref : SinkRef}

omit [ResponseSink σ μ ε] in
theorem lt (named : Named name here there) (inside : ref < here.cells.length) : name ref < there.cells.length := by
  have found := named.found ref inside
  rw [List.getElem?_eq_getElem inside] at found
  exact (List.getElem?_eq_some_iff.mp found).1

omit [ResponseSink σ μ ε] in
/-- Each store gets one more sink, and it has the next name. -/
theorem concat {other : SinkRef → SinkRef} {after beyond : Sinks σ μ ε} {sink : σ} (named : Named name here there)
    (earlier : ∀ i < here.cells.length, other i = name i) (last : other here.cells.length = there.cells.length)
    (here' : after.cells = here.cells ++ [sink]) (there' : beyond.cells = there.cells ++ [sink]) :
    Named other after beyond := by
  have length : after.cells.length = here.cells.length + 1 := by rw [here', List.length_append, List.length_singleton]
  have below {i : SinkRef} (inside : i < here.cells.length) : other i < there.cells.length :=
    earlier i inside ▸ named.lt inside
  constructor
  · intro i j left right equal
    rw [length, Nat.lt_succ_iff_lt_or_eq] at left right
    rcases left with left | rfl <;> rcases right with right | rfl
    · rw [earlier i left, earlier j right] at equal
      exact named.apart i j left right equal
    · exact absurd (equal.trans last) (Nat.ne_of_lt (below left))
    · exact absurd (equal.symm.trans last) (Nat.ne_of_lt (below right))
    · rfl
  · intro i inside
    rw [length, Nat.lt_succ_iff_lt_or_eq] at inside
    rcases inside with inside | rfl
    · rw [here', there', List.getElem?_append_left (below inside), List.getElem?_append_left inside, earlier i inside]
      exact named.found i inside
    · rw [here', there', last, List.getElem?_concat_length, List.getElem?_concat_length]

theorem isComplete (named : Named name here there) (inside : ref < here.cells.length) :
    there.isComplete (name ref) = here.isComplete ref := by
  rw [Sinks.isComplete, Sinks.isComplete, named.found ref inside]

theorem deliver (named : Named name here there) (inside : ref < here.cells.length) (delivery : Delivery μ ε) :
    Named name (here.deliver ref delivery) (there.deliver (name ref) delivery) := by
  have size := Sinks.length_cells_deliver here ref delivery
  refine ⟨by rw [size]; exact named.apart, fun i within => ?_⟩
  rw [size] at within
  have sink := List.getElem?_eq_getElem inside
  have twin := (named.found ref inside).trans sink
  by_cases complete : ResponseSink.isComplete here.cells[ref] = true
  · -- both leave a complete sink alone
    simp only [Sinks.deliver, sink, twin, complete, if_true]
    exact named.found i within
  · by_cases same : i = ref
    · subst same
      rw [cells_deliver_open sink complete delivery, cells_deliver_open twin complete delivery]
    · have elsewhere : name i ≠ name ref := fun equal => same (named.apart i ref within inside equal)
      rw [cells_deliver_of_ne same, cells_deliver_of_ne elsewhere]
      exact named.found i within

end Sinks.Named

/-- A reply under other names. -/
theorem dispatch_relabel (named : Sinks.Named name here there) (stocked : p.Stocked here) (delivery : Delivery μ ε) :
    Option.Rel (fun left right => right.1 = left.1.relabel name ∧ Sinks.Named name left.2 right.2)
      (p.dispatch delivery here) ((p.relabel name).dispatch delivery there) := by
  unfold dispatch
  simp only [relabel]
  cases queue : p.awaitingRead with
  | nil => exact .none
  | cons front rest =>
    have inside : front.sink < here.cells.length := by
      apply stocked.bound
      simp [refs, queue]
    have after := named.deliver inside delivery
    have within : front.sink < (here.deliver front.sink delivery).cells.length := by
      rwa [Sinks.length_cells_deliver]
    apply Option.Rel.some
    simp only [AwaitingItem.relabel, after.isComplete within]
    refine ⟨?_, after⟩
    split
    · rfl
    · simp [queue, AwaitingItem.relabel]

end Replies

end Rediscoro.Pipeline

namespace Rediscoro.Connection

open Rediscoro.Semantics Rediscoro.Resp3 Rediscoro.Pipeline

namespace Exchange

variable {σ : Type} [ResponseSink σ Message ErrorInfo] {name : SinkRef → SinkRef} {x y : Exchange σ}

/-- The same parser, and the same requests under other names. -/
structure Alike (name : SinkRef → SinkRef) (x y : Exchange σ) : Prop where
  parser : y.parser = x.parser
  pipeline : y.pipeline = x.pipeline.relabel name
  sinks : Sinks.Named name x.sinks y.sinks
  stocked : x.pipeline.Stocked x.sinks

theorem Alike.onError (alike : Alike name x y) (errc : ProtocolErrc) :
    Alike name (x.onError errc) (y.onError errc) := by
  obtain ⟨parser, pipeline, sinks⟩ := y
  obtain ⟨rfl, rfl, named, stocked⟩ := alike
  have replies := dispatch_relabel named stocked (.error { code := .protocol errc })
  simp only [Exchange.onError, hasPendingRead_relabel, Pipeline.onError]
  split
  · generalize answered : x.pipeline.dispatch (.error { code := .protocol errc }) x.sinks = left at replies ⊢
    generalize (x.pipeline.relabel name).dispatch (.error { code := .protocol errc }) sinks = right at replies ⊢
    cases replies with
    | none => exact ⟨rfl, rfl, named, stocked⟩
    | some same => exact ⟨rfl, same.1, same.2, (Pipeline.dispatch_answered answered).stocked stocked⟩
  · exact ⟨rfl, rfl, named, stocked⟩

variable (fuel : Nat) (memory : Memory)

/-- Both loops have the same outcome. -/
def Ends (name : SinkRef → SinkRef) (left right : Outcome × Exchange σ) : Prop :=
  right.1 = left.1 ∧ Alike name left.2 right.2

theorem Alike.deliver (alike : Alike name x y) (root : Nat) :
    Pass.Rel (Alike name) (Ends name) (Exchange.deliver fuel memory (fun _ => false) x root)
      (Exchange.deliver fuel memory (fun _ => false) y root) := by
  obtain ⟨parser, pipeline, sinks⟩ := y
  obtain ⟨rfl, rfl, named, stocked⟩ := alike
  have same : Alike name x ⟨x.parser, x.pipeline.relabel name, sinks⟩ := ⟨rfl, rfl, named, stocked⟩
  have ends : Ends name (.faulty, x) (.faulty, ⟨x.parser, x.pipeline.relabel name, sinks⟩) := ⟨rfl, same⟩
  unfold Exchange.deliver
  -- the message is built from the parser alone
  generalize build fuel (x.parser.contents memory) root = built
  rcases built with - | fault | msg
  · exact .leave ends
  · exact .leave ends
  · have replies := dispatch_relabel named stocked (.message msg)
    simp only [Pipeline.onMessage]
    generalize answered : x.pipeline.dispatch (.message msg) x.sinks = left at replies ⊢
    generalize (x.pipeline.relabel name).dispatch (.message msg) sinks = right at replies ⊢
    cases replies with
    | none => exact .leave ends
    | some held =>
      apply Pass.Rel.again
      exact ⟨rfl, held.1, held.2, (Pipeline.dispatch_answered answered).stocked stocked⟩

variable [FloatChars]

theorem Alike.dispatchPass (alike : Alike name x y) :
    Pass.Rel (Alike name) (Ends name) (Exchange.dispatchPass fuel memory (fun _ => false) x)
      (Exchange.dispatchPass fuel memory (fun _ => false) y) := by
  obtain ⟨parser, pipeline, sinks⟩ := y
  obtain ⟨rfl, rfl, named, stocked⟩ := alike
  have fed (parser : Parser Buffer View) :
      Alike name { x with parser := parser } ⟨parser, x.pipeline.relabel name, sinks⟩ := ⟨rfl, rfl, named, stocked⟩
  have ends (outcome : Outcome) (parser : Parser Buffer View) :
      Ends name (outcome, { x with parser := parser }) (outcome, ⟨parser, x.pipeline.relabel name, sinks⟩) :=
    ⟨rfl, fed parser⟩
  unfold Exchange.dispatchPass
  simp only [hasPendingRead_relabel]
  generalize x.parser.parseOne = parsed
  obtain ⟨stop | found, parser⟩ := parsed
  · cases stop with
    | protocol errc =>
      apply Pass.Rel.leave
      exact ⟨rfl, (fed parser).onError errc⟩
    | _ => exact .leave (ends .faulty parser)
  · cases found with
    | none => exact .leave (ends .starved parser)
    | some root =>
      dsimp only
      split
      · exact (fed parser).deliver fuel memory root
      · exact .leave (ends .unsolicited parser)

/-- The loop over the same octets, under other names. -/
theorem Alike.dispatch (alike : Alike name x y) :
    Ends name (Exchange.dispatch fuel memory (fun _ => false) x) (Exchange.dispatch fuel memory (fun _ => false) y) :=
  run_alike _ _ (fun _ _ held => held.dispatchPass fuel memory) alike

end Exchange

end Rediscoro.Connection
