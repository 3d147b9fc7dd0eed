import Rediscoro.Resp3.Frames
import Rediscoro.Resp3.ZeroCopy
import Rediscoro.Semantics.Transition

/-! The parser under any sequence of calls.

`prepare`, `commit`, `parse_one`, `reclaim` and `reset` may come in any order, with
any octets, and cut a message at any point. Whatever was called before, the next call
of `parse_one` ends, and its stack of frames is in order.
-/

set_option autoImplicit false

namespace Rediscoro.Resp3

open Rediscoro.Semantics

inductive ParserOp where
  | prepare (minSize : Nat)
  /-- The octets that the caller has written into the prepared span. -/
  | commit (octets : Bytes)
  | parseOne
  | reclaim
  | reset
  deriving DecidableEq, Repr

/-- The octets committed by a sequence of calls. -/
def committed (ops : List ParserOp) : Nat :=
  (ops.map fun op => match op with
    | .commit octets => octets.length
    | _ => 0).sum

namespace Parser

/-- `none` where more is committed than the prepared span holds. -/
def operate [FloatChars] (p : Parser Buffer View) : ParserOp → Option (Parser Buffer View)
  | .prepare minSize => some { p with input := p.input.prepare minSize }
  | .commit octets =>
      if octets.length ≤ p.input.available then
        some { p with input := (p.input.write octets).commit octets.length }
      else none
  | .parseOne => some p.parseOne.2
  | .reclaim => some p.reclaim
  | .reset => some p.reset

section Stack

variable {β τ : Type}

/-- The order of the frames, the top one first, and the counters of the containers. -/
structure FrameStack (p : Parser β τ) : Prop where
  adjacent : p.stack.IsChain fun upper lower => lower.state = .value ↔ upper.state = .attribute
  bottom : ∀ frame, p.stack.getLast? = some frame → frame.state ≠ .attribute
  containers : ∀ frame ∈ p.stack, frame.state ≠ .value → frame.state ≠ .attribute →
    frame.produced < frame.expected ∧
      (if frame.containerType = .map then 2 * frame.expected else frame.expected) < 2 ^ 32 ∧
      ∃ node, p.tree.nodes[frame.nodeIndex]? = some node ∧
        node.childCount = if frame.containerType = .map then 2 * frame.produced else frame.produced

variable {tree : RawTree τ} {done : List Nat} {bound : Nat} {frames : List Frame}

theorem adjacent_of_waiting (waiting : Waiting tree done bound frames) :
    (Frame.value :: frames).IsChain fun upper lower => lower.state = .value ↔ upper.state = .attribute := by
  induction waiting with
  | bottom => exact .singleton _
  | @container _ frame _ _ is older apart below ih =>
    -- a container frame is neither a value nor an attribute frame, so it can stand in the place of a value frame
    have neither := is.drives.neither
    refine .cons_cons ⟨fun value => absurd value neither.1, nofun⟩ ?_
    cases ih with
    | singleton => exact .singleton _
    | cons_cons first rest =>
      exact .cons_cons ⟨fun value => absurd (first.mp value) nofun, fun block => absurd block neither.2⟩ rest
  | @block _ frame _ is below ih =>
    refine .cons_cons ⟨fun value => ?_, nofun⟩ (.cons_cons ⟨fun _ => is.state, fun _ => rfl⟩ ih)
    rw [is.state] at value
    cases value

theorem bottom_of_waiting (waiting : Waiting tree done bound frames) {frame : Frame}
    (last : (Frame.value :: frames).getLast? = some frame) : frame.state ≠ .attribute := by
  induction waiting with
  | bottom =>
    cases last
    exact nofun
  | @container _ top below _ is older apart waiting ih =>
    rw [List.getLast?_cons_cons] at last
    cases below with
    | nil =>
      obtain rfl : top = frame := by simpa using last
      exact is.drives.neither.2
    | cons next rest =>
      rw [List.getLast?_cons_cons] at last
      exact ih (by rw [List.getLast?_cons_cons]; exact last)
  | block is below ih =>
    rw [List.getLast?_cons_cons, List.getLast?_cons_cons] at last
    exact ih last

theorem containers_of_waiting (waiting : Waiting tree done bound frames) :
    ∀ frame ∈ frames, frame.state ≠ .value → frame.state ≠ .attribute → ∃ node, Open tree done frame node := by
  induction waiting with
  | bottom => exact nofun
  | @container _ top _ node is older apart below ih =>
    rw [List.forall_mem_cons]
    exact ⟨fun _ _ => ⟨node, is⟩, ih⟩
  | block is below ih =>
    rw [List.forall_mem_cons, List.forall_mem_cons]
    exact ⟨fun _ other => absurd is.state other, fun value => absurd rfl value, ih⟩

theorem Standing.frameStack {p : Parser β τ} (standing : p.Standing done frames) : p.FrameStack := by
  have waiting := standing.sound.waiting
  have chain := adjacent_of_waiting waiting
  have counters : ∀ frame ∈ frames, frame.state ≠ .value → frame.state ≠ .attribute →
      frame.produced < frame.expected ∧
        (if frame.containerType = .map then 2 * frame.expected else frame.expected) < 2 ^ 32 ∧
        ∃ node, p.tree.nodes[frame.nodeIndex]? = some node ∧
          node.childCount = if frame.containerType = .map then 2 * frame.produced else frame.produced := by
    intro frame member value block
    obtain ⟨node, is⟩ := containers_of_waiting waiting frame member value block
    have arity (n : Nat) : frame.containerType.arity n = if frame.containerType = .map then 2 * n else n := by
      have drives := is.drives
      have other : frame.containerType ≠ .attribute := by
        intro kind
        unfold Frame.Drives at drives
        split at drives <;> simp [kind] at drives
      simp [Kind.arity, other]
    have fits := is.fits
    have count := is.count
    rw [arity] at fits count
    exact ⟨is.unfinished, fits, node, is.found, count⟩
  rcases standing.shape with stack | stack
  · refine ⟨stack ▸ chain, fun frame last => bottom_of_waiting waiting (stack ▸ last), ?_⟩
    rw [stack, List.forall_mem_cons]
    exact ⟨fun value => absurd rfl value, counters⟩
  · have below : frames.IsChain fun upper lower => lower.state = .value ↔ upper.state = .attribute := by
      cases chain with
      | singleton => exact .nil
      | cons_cons first rest => exact rest
    refine ⟨stack ▸ below, ?_, stack ▸ counters⟩
    intro frame last
    rw [stack] at last
    apply bottom_of_waiting waiting
    cases frames with
    | nil => cases last
    | cons top rest => rw [List.getLast?_cons_cons]; exact last

end Stack

variable [FloatChars]

/-- Every call keeps the frames in order, and only a commit adds octets. -/
theorem operate_standing {p next : Parser Buffer View} {op : ParserOp} {done : List Nat} {frames : List Frame}
    {load' : Nat} (standing : p.Standing done frames) (within : p.load + committed [op] ≤ load')
    (small : load' < 2 ^ 32)
    (operated : p.operate op = some next) : (∃ done frames, next.Standing done frames) ∧ next.load ≤ load' := by
  cases op with
  | prepare minSize =>
    cases operated
    refine ⟨⟨done, frames, standing.sound, standing.shape⟩, ?_⟩
    have same : (p.input.prepare minSize).data = p.input.data := p.input.data_prepare minSize
    simpa [load, data, Source.data, same, committed] using within
  | commit octets =>
    rw [operate] at operated
    split at operated
    · rename_i fits
      cases operated
      refine ⟨⟨done, frames, standing.sound, standing.shape⟩, ?_⟩
      have longer := p.input.data_commit_write fits
      simp only [load, data, Source.data, longer, List.length_append, committed, List.map_cons, List.map_nil,
        List.sum_cons, List.sum_nil] at within ⊢
      omega
    · cases operated
  | parseOne =>
    cases operated
    have steps := parseOne_steps standing (Nat.le_trans (Nat.le_add_right _ _) within) small
    exact ⟨steps.2.1, steps.1⟩
  | reclaim =>
    cases operated
    refine ⟨⟨[], [], Sound.start, .inr rfl⟩, ?_⟩
    have octets : p.reclaim.data = p.data := data_reclaim p
    rw [load] at within ⊢
    rw [octets]
    show 0 + p.data.length ≤ load'
    omega
  | reset =>
    cases operated
    refine ⟨⟨[], [], Sound.start, .inr rfl⟩, ?_⟩
    have octets : p.reset.data = [] := p.input.data_reset
    rw [load, octets]
    exact Nat.zero_le _

theorem run_standing {p last : Parser Buffer View} {ops : List ParserOp} {done : List Nat} {frames : List Frame}
    (standing : p.Standing done frames) (short : p.load + committed ops < 2 ^ 32)
    (run : runFrom operate p ops = some last) : (∃ done frames, last.Standing done frames) ∧ last.load < 2 ^ 32 := by
  induction ops generalizing p done frames with
  | nil =>
    cases run
    exact ⟨⟨done, frames, standing⟩, by simpa [committed] using short⟩
  | cons op rest ih =>
    obtain ⟨next, stepped, run⟩ := runFrom_cons run
    have split : committed (op :: rest) = committed [op] + committed rest := by
      simp only [committed, List.map_cons, List.sum_cons, List.map_nil, List.sum_nil, Nat.add_zero]
    rw [split] at short
    obtain ⟨⟨done', frames', standing'⟩, within⟩ := operate_standing standing (Nat.le_refl _) (by omega) stepped
    exact ih standing' (by omega) run

/-- The parser as the loop of `parse_one` starts with it. -/
def entered (p : Parser Buffer View) : Parser Buffer View :=
  { p with stack := if p.stack = [] then [.value] else p.stack }

/-- The frames stay in order from one pass of the loop to the next. -/
theorem reaches_frameStack {p q : Parser Buffer View} {done : List Nat} {frames : List Frame}
    (standing : p.Standing done frames) (present : p.stack ≠ []) (small : p.load < 2 ^ 32)
    (reaches : Reaches parsePass p q) : q.FrameStack := by
  induction reaches generalizing done frames with
  | refl => exact standing.frameStack
  | again pass rest ih =>
    have steps := parsePass_steps standing present (Nat.le_refl _) small
    rw [pass] at steps
    obtain ⟨within, present', done', frames', standing'⟩ := steps
    exact ih standing' present' (by omega)

/-- After any calls, a call of `parse_one` returns within a number of passes that the unread
octets bound, never for want of a frame, a key or a node, and the stack is in order before,
during and after it. -/
theorem parseOne_total_sound {limits : Limits} {ops : List ParserOp} {p : Parser Buffer View}
    (short : committed ops < 2 ^ 32) (run : runFrom operate (fresh limits) ops = some p) :
    (p.treeReady = false → p.failed = false →
      iterate parsePass (2 * p.data.length + 2) p.entered = some p.parseOne) ∧
    (∀ stop, p.parseOne.1 = .error stop →
      ∃ error, stop = .protocol error ∧ error ≠ .invalidState ∧ error ≠ .invalidMapPairs) ∧
    p.FrameStack ∧ (∀ q, Reaches parsePass p.entered q → q.FrameStack) ∧ p.parseOne.2.FrameStack := by
  have nothing : (fresh limits).load = 0 := by
    simp only [load, fresh, start, data, Source.data]
    rfl
  obtain ⟨⟨done, frames, standing⟩, small⟩ :=
    run_standing (p := fresh limits) ⟨Sound.start, .inr rfl⟩ (by rw [nothing]; omega) run
  obtain ⟨-, ⟨done', frames', after⟩, errors, -⟩ := parseOne_steps standing (Nat.le_refl _) small
  refine ⟨?_, errors, standing.frameStack, ?_, after.frameStack⟩
  · intro consumed healthy
    rw [parseOne, if_neg (by simp [consumed]), if_neg (by simp [healthy])]
    apply iterate_run
    have work : workLeft p.entered ≤ 2 * p.data.length + 1 := by
      rw [workLeft]
      show 2 * p.data.length + _ ≤ _
      split <;> omega
    exact Nat.lt_succ_of_le work
  · intro q reaches
    refine reaches_frameStack standing.entered ?_ small reaches
    show (if p.stack = [] then [.value] else p.stack) ≠ []
    split
    · exact List.cons_ne_nil _ _
    · assumption

omit [FloatChars] in
/-- A map whose first key carries attributes, cut behind the key of an attribute. -/
theorem parseOne_total_sound_nested :
    letI := FloatChars.none
    ∃ p, runFrom operate (fresh {})
        [.prepare 64, .commit [37, 50, 13, 10, 124, 49, 13, 10], .parseOne, .commit [43, 97, 13, 10], .parseOne] =
        some p ∧
      p.stack.map (·.state) = [.value, .attribute, .value, .mapKey] ∧ p.FrameStack ∧ p.parseOne.2.FrameStack := by
  let := FloatChars.none
  have reached : (runFrom operate (fresh {})
      [.prepare 64, .commit [37, 50, 13, 10, 124, 49, 13, 10], .parseOne, .commit [43, 97, 13, 10], .parseOne]).map
        (fun p => p.stack.map (·.state)) = some [.value, .attribute, .value, .mapKey] := by decide +kernel
  obtain ⟨p, run, stack⟩ := Option.map_eq_some_iff.mp reached
  obtain ⟨-, -, before, -, after⟩ := parseOne_total_sound (by decide) run
  exact ⟨p, run, stack, before, after⟩

end Parser

end Rediscoro.Resp3
