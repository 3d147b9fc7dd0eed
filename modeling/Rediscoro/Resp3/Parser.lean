import Rediscoro.Resp3.Token

/-! The incremental RESP3 parser.

The parser owns its input, the tree under construction and an explicit stack
of frames whose head is the source's `stack_.back()`. Every member function
returns its answer together with the parser it leaves behind; `Stop` is an
answer that is no value: a protocol error, a failed assertion, or the exception
of an index out of range.

The code is written once over any `Source` of octets. `Parser Buffer View` is
the parser of the repository, whose nodes hold views into its buffer;
`Parser Bytes Text` is the same code over plain octets, whose nodes hold copies of
the texts a message is made of.
-/

set_option autoImplicit false

namespace Rediscoro.Resp3

open Rediscoro.Semantics

inductive FrameKind where
  | value | array | mapKey | mapValue | attribute
  deriving DecidableEq, Repr

/-- For maps and attributes `expected` and `produced` count pairs. -/
structure Frame where
  state : FrameKind
  containerType : Kind := .null
  expected : Nat := 0
  produced : Nat := 0
  nodeIndex : Nat := 0
  pendingKey : Nat := 0
  hasPendingKey : Bool := false
  deriving DecidableEq, Repr

def Frame.value : Frame := { state := .value }

/-- A run of links waiting for the next node. -/
structure PendingAttributes where
  first : Nat := 0
  count : Nat := 0
  deriving DecidableEq, Repr

inductive Stop where
  | protocol (error : ProtocolErrc)
  | assertion
  | outOfRange
  deriving DecidableEq, Repr

inductive StepIndex where
  | continueParsing
  | produced (index : Nat)
  deriving DecidableEq, Repr

/-- What the parser needs of its input: the unread octets, how to drop some of
them, a text for a part of them, and how to free the octets already read. -/
class Source (β : Type) (τ : outParam Type) where
  data : β → Bytes
  consume : β → Nat → β
  text : β → Kind → Span → τ
  compact : β → β
  data_consume : ∀ input n, data (consume input n) = (data input).drop n
  data_compact : ∀ input, data (compact input) = data input

instance : Source Buffer View where
  data := Buffer.data
  consume := Buffer.consume
  text buf _ span := buf.slice span.offset span.length
  compact := Buffer.compact
  data_consume := Buffer.data_consume
  data_compact := Buffer.data_compact

/-- The kinds whose text reaches the message; the others keep a decoded value beside it. -/
def Kind.textual : Kind → Bool
  | .simpleString | .simpleError | .bigNumber | .bulkString | .bulkError | .verbatimString => true
  | _ => false

instance : Source Bytes Text where
  data octets := octets
  consume octets n := octets.drop n
  text octets kind span := if kind.textual then (octets.drop span.offset).take span.length else []
  compact octets := octets
  data_consume _ _ := rfl
  data_compact _ := rfl

/-- The half-built message: the tree and the attributes waiting for its next node. -/
structure Assembly (τ : Type) where
  tree : RawTree τ := {}
  pendingAttrs : PendingAttributes := {}

structure Parser (β τ : Type) extends Assembly τ where
  input : β
  stack : List Frame := []
  failed : Bool := false
  treeReady : Bool := false
  limits : Limits := {}

namespace Assembly

variable {τ : Type}

/-- `pending_attrs_.attach`: the index is that of the node just pushed, so `nodes.at` finds it. -/
def attachPending (a : Assembly τ) (index : Nat) : Assembly τ :=
  if a.pendingAttrs.count = 0 then a
  else
    { tree := a.tree.update index fun node =>
        { node with firstAttr := a.pendingAttrs.first, attrCount := a.pendingAttrs.count } }

/-- `pending_attrs_.push`. -/
def pushPending (a : Assembly τ) (kvNode : Nat) : Assembly τ :=
  { tree := a.tree.link kvNode
    pendingAttrs :=
      { first := if a.pendingAttrs.count = 0 then a.tree.nextLink else a.pendingAttrs.first
        count := u32 (a.pendingAttrs.count + 1) } }

/-- Appends a node, whose index is `tree.nextIndex`, and hands it the pending attributes. -/
def pushNode (a : Assembly τ) (node : RawNode τ) : Assembly τ :=
  { a with tree := a.tree.push node }.attachPending a.tree.nextIndex

/-- The new count of a container node; its window of links starts where its first child is linked. -/
def adopt (tree : RawTree τ) (index count : Nat) : RawTree τ :=
  tree.update index fun node =>
    { node with
      firstChild := if node.childCount = 0 then tree.nextLink else node.firstChild
      childCount := count }

def adoptElement (a : Assembly τ) (parent : Frame) (childIdx : Nat) : Assembly τ :=
  { a with tree := (adopt a.tree parent.nodeIndex (u32 (parent.produced + 1))).link childIdx }

def adoptEntry (a : Assembly τ) (parent : Frame) (childIdx : Nat) : Assembly τ :=
  { a with
    tree := ((adopt a.tree parent.nodeIndex (u32 (u32 (parent.produced + 1) * 2))).link parent.pendingKey).link
      childIdx }

end Assembly

namespace Parser

/-- A parser that has read nothing of `input` yet. -/
def start {β τ : Type} (limits : Limits) (input : β) : Parser β τ := { input := input, limits := limits }

/-- A newly constructed parser of the repository. -/
def fresh (limits : Limits) : Parser Buffer View := start limits .fresh

/-- Forgets everything but the failure flag and the limits. -/
def clear {β τ : Type} (p : Parser β τ) (input : β) : Parser β τ :=
  { p with toAssembly := {}, input := input, stack := [], treeReady := false }

def reset (p : Parser Buffer View) : Parser Buffer View := { p.clear p.input.reset with failed := false }

/-- `prepare`, the caller's write into the span, and `commit`. -/
def feed (p : Parser Buffer View) (minSize : Nat) (chunk : Bytes) : Parser Buffer View :=
  { p with input := p.input.feed minSize chunk }

variable {β τ : Type}

def containerNode (type : Kind) (len nextLink : Nat) : RawNode Span :=
  { type := type, text := .empty, i64 := len, firstChild := nextLink, childCount := 0 }

def containerFrame (type : Kind) (len index : Nat) : Frame :=
  { state := if type = .map then .mapKey else .array, containerType := type, expected := len, nodeIndex := index }

def attributeFrame (pairs : Nat) : Frame :=
  { state := .attribute, containerType := .attribute, expected := pairs }

/-- The loop of `attach_to_parent` over the frames under the completed node. -/
def attachToParent (p : Parser β τ) (childIdx : Nat) : List Frame → Except Stop StepIndex × Parser β τ
  | [] => (.ok (.produced childIdx), { p with stack := [] })
  | parent :: rest =>
      match parent.state with
      | .array =>
          if ¬ (parent.containerType = .array ∨ parent.containerType = .set ∨ parent.containerType = .push) then
            (.error .assertion, { p with stack := parent :: rest })
          else if p.tree.nodes.length ≤ parent.nodeIndex then
            (.error .outOfRange, { p with stack := parent :: rest })
          else if u32 (parent.produced + 1) = parent.expected then
            attachToParent { p with toAssembly := p.adoptElement parent childIdx } parent.nodeIndex rest
          else
            (.ok .continueParsing,
              { p with
                toAssembly := p.adoptElement parent childIdx
                stack := .value :: { parent with produced := u32 (parent.produced + 1) } :: rest })
      | .mapKey =>
          if parent.containerType ≠ .map then (.error .assertion, { p with stack := parent :: rest })
          else
            (.ok .continueParsing,
              { p with
                stack := .value ::
                  { parent with pendingKey := childIdx, hasPendingKey := true, state := .mapValue } :: rest })
      | .mapValue =>
          if parent.containerType ≠ .map then (.error .assertion, { p with stack := parent :: rest })
          else if ¬ parent.hasPendingKey then
            (.error (.protocol .invalidMapPairs), { p with stack := parent :: rest })
          else if p.tree.nodes.length ≤ parent.nodeIndex then
            (.error .outOfRange, { p with stack := parent :: rest })
          else if u32 (parent.produced + 1) = parent.expected then
            attachToParent { p with toAssembly := p.adoptEntry parent childIdx } parent.nodeIndex rest
          else
            (.ok .continueParsing,
              { p with
                toAssembly := p.adoptEntry parent childIdx
                stack := .value ::
                  { parent with
                    hasPendingKey := false, produced := u32 (parent.produced + 1), state := .mapKey } :: rest })
      | .attribute =>
          if parent.containerType ≠ .attribute then (.error .assertion, { p with stack := parent :: rest })
          else if ¬ parent.hasPendingKey then
            (.ok .continueParsing,
              { p with stack := .value :: { parent with pendingKey := childIdx, hasPendingKey := true } :: rest })
          else if u32 (parent.produced + 1) = parent.expected then
            (.ok .continueParsing,
              { p with toAssembly := (p.pushPending parent.pendingKey).pushPending childIdx, stack := rest })
          else
            (.ok .continueParsing,
              { p with
                toAssembly := (p.pushPending parent.pendingKey).pushPending childIdx
                stack := .value ::
                  { parent with hasPendingKey := false, produced := u32 (parent.produced + 1) } :: rest })
      | .value => (.error (.protocol .invalidState), { p with stack := parent :: rest })

abbrev Answer := Except Stop (Option Nat)

/-- A protocol error marks the parser as failed; an assertion or exception does not get that far. -/
def fail (p : Parser β τ) (stop : Stop) : Answer × Parser β τ :=
  match stop with
  | .protocol _ => (.error stop, { p with failed := true })
  | _ => (.error stop, p)

/-- What the loop of `parse_one` does with the answer of `attach_to_parent`. -/
def settle : Except Stop StepIndex × Parser β τ → Pass (Parser β τ) (Answer × Parser β τ)
  | (.error stop, p) => .leave (p.fail stop)
  | (.ok .continueParsing, p) => .again p
  | (.ok (.produced root), p) => .leave (.ok (some root), { p with treeReady := true })

/-- What the loop of `parse_one` does with the answer of `parse_value`. -/
def proceed : Except Stop (Option StepIndex) × Parser β τ → Pass (Parser β τ) (Answer × Parser β τ)
  | (.error stop, p) => .leave (p.fail stop)
  | (.ok none, p) => .leave (.ok none, p)
  | (.ok (some .continueParsing), p) => .again p
  | (.ok (some (.produced index)), p) => settle (p.attachToParent index p.stack.tail)

/-- Attaching changes the assembly and the stack, nothing else. -/
theorem attachToParent_only (p : Parser β τ) (childIdx : Nat) (frames : List Frame) :
    ∃ a stack, (p.attachToParent childIdx frames).2 = { p with toAssembly := a, stack := stack } := by
  induction frames generalizing p childIdx with
  | nil => exact ⟨_, _, rfl⟩
  | cons parent rest ih =>
    unfold attachToParent
    repeat' split
    all_goals first | exact ⟨_, _, rfl⟩ | exact ih _ _

theorem attachToParent_input (p : Parser β τ) (childIdx : Nat) (frames : List Frame) :
    (p.attachToParent childIdx frames).2.input = p.input := by
  obtain ⟨a, stack, same⟩ := attachToParent_only p childIdx frames
  rw [same]

/-- The parser a pass leaves behind, whether the loop goes on or not. -/
def after : Pass (Parser β τ) (Answer × Parser β τ) → Parser β τ
  | .again p => p
  | .leave result => result.2

theorem input_settle (attached : Except Stop StepIndex × Parser β τ) :
    (after (settle attached)).input = attached.2.input := by
  match attached with
  | (.error (.protocol _), _) | (.error .assertion, _) | (.error .outOfRange, _) => rfl
  | (.ok .continueParsing, _) | (.ok (.produced _), _) => rfl

theorem input_proceed (valued : Except Stop (Option StepIndex) × Parser β τ) :
    (after (proceed valued)).input = valued.2.input := by
  match valued with
  | (.error (.protocol _), _) | (.error .assertion, _) | (.error .outOfRange, _) => rfl
  | (.ok none, _) | (.ok (some .continueParsing), _) => rfl
  | (.ok (some (.produced index)), p) =>
    simp only [proceed]
    rw [input_settle, attachToParent_input]

theorem limits_settle (attached : Except Stop StepIndex × Parser β τ) :
    (after (settle attached)).limits = attached.2.limits := by
  match attached with
  | (.error (.protocol _), _) | (.error .assertion, _) | (.error .outOfRange, _) => rfl
  | (.ok .continueParsing, _) | (.ok (.produced _), _) => rfl

theorem limits_proceed (valued : Except Stop (Option StepIndex) × Parser β τ) :
    (after (proceed valued)).limits = valued.2.limits := by
  match valued with
  | (.error (.protocol _), _) | (.error .assertion, _) | (.error .outOfRange, _) => rfl
  | (.ok none, _) | (.ok (some .continueParsing), _) => rfl
  | (.ok (some (.produced index)), p) =>
    obtain ⟨a, stack, only⟩ := attachToParent_only p index p.stack.tail
    simp only [proceed]
    rw [limits_settle, only]

section Input

variable [Source β τ]

def data (p : Parser β τ) : Bytes := Source.data p.input

def consume (p : Parser β τ) (n : Nat) : Parser β τ := { p with input := Source.consume p.input n }

def reclaim (p : Parser β τ) : Parser β τ := p.clear (Source.compact p.input)

/-- The changes of state for a token. Views are taken before the octets are consumed. -/
def perform (p : Parser β τ) : Token → Except Stop (Option StepIndex) × Parser β τ
  | .more => (.ok none, p)
  | .bad error used => (.error (.protocol error), p.consume used)
  | .attributes pairs used =>
      (.ok (some .continueParsing),
        { p.consume used with stack := if pairs = 0 then p.stack else attributeFrame pairs :: p.stack })
  | .container type len used =>
      let node := (containerNode type len p.tree.nextLink).map (Source.text p.input)
      if len = 0 then
        (.ok (some (.produced p.tree.nextIndex)), { p.consume used with toAssembly := p.pushNode node })
      else
        -- The value frame on top becomes the frame that drives the container.
        (.ok (some .continueParsing),
          { p.consume used with
            toAssembly := p.pushNode node
            stack := containerFrame type len p.tree.nextIndex :: p.stack.tail })
  | .leaf node used =>
      (.ok (some (.produced p.tree.nextIndex)),
        { p.consume used with toAssembly := p.pushNode (node.map (Source.text p.input)) })

def topsValue (stack : List Frame) : Bool := stack.head?.map (·.state) == some .value

def parseValue [FloatChars] (p : Parser β τ) : Except Stop (Option StepIndex) × Parser β τ :=
  if ¬ topsValue p.stack then (.error .assertion, p) else p.perform (nextToken p.limits p.data)

def parsePass [FloatChars] (p : Parser β τ) : Pass (Parser β τ) (Answer × Parser β τ) :=
  match p.stack with
  | [] => .leave (p.fail (.protocol .invalidState))
  | frame :: _ =>
      match frame.state with
      | .value => proceed p.parseValue
      | _ => .again { p with stack := .value :: p.stack }

/-! The loop ends: every pass consumes octets or puts the missing value frame on top. -/

@[simp] theorem data_consume (p : Parser β τ) (n : Nat) : (p.consume n).data = p.data.drop n :=
  Source.data_consume p.input n

@[simp] theorem stack_consume (p : Parser β τ) (n : Nat) : (p.consume n).stack = p.stack := rfl

@[simp] theorem data_reclaim (p : Parser β τ) : p.reclaim.data = p.data := Source.data_compact p.input

/-- A token's octets are taken off the input. -/
theorem data_perform (p : Parser β τ) (token : Token) : (p.perform token).2.data = p.data.drop token.used := by
  cases token with
  | more => rfl
  | bad error used => exact data_consume p used
  | attributes pairs used => exact data_consume p used
  | container type len used =>
    simp only [perform]
    split
    · exact data_consume p used
    · exact data_consume p used
  | leaf node used => exact data_consume p used

theorem limits_perform (p : Parser β τ) (token : Token) : (p.perform token).2.limits = p.limits := by
  cases token with
  | container type len used =>
    simp only [perform]
    split <;> rfl
  | _ => rfl

theorem perform_shrinks {p next : Parser β τ} {token : Token} {step : StepIndex}
    (within : token.Within p.data.length) (stepped : p.perform token = (.ok (some step), next)) :
    next.data.length < p.data.length := by
  have octets := data_perform p token
  rw [stepped] at octets
  rw [octets, List.length_drop]
  cases token with
  | more => cases stepped
  | bad error used => cases stepped
  | attributes pairs used | container type len used =>
    have := within.1
    have := within.2
    simp only [Token.used]
    omega
  | leaf node used =>
    have := within.1
    have := within.2.1
    simp only [Token.used]
    omega

def workLeft (p : Parser β τ) : Nat := 2 * p.data.length + if topsValue p.stack then 0 else 1

theorem proceed_decreases {p q next : Parser β τ} {step : StepIndex} (shorter : q.data.length < p.data.length)
    (again : proceed (.ok (some step), q) = .again next) : workLeft next < workLeft p := by
  have input := input_proceed (.ok (some step), q)
  rw [again] at input
  have octets : next.data.length = q.data.length := congrArg (fun b => (Source.data b).length) input
  unfold workLeft
  split <;> omega

variable [FloatChars]

theorem parsePass_value {p : Parser β τ} (top : topsValue p.stack = true) :
    p.parsePass = proceed (p.perform (nextToken p.limits p.data)) := by
  unfold parsePass
  split
  · rename_i empty
    simp [topsValue, empty] at top
  · rename_i frame rest stacked
    have value : frame.state = .value := by simpa [topsValue, stacked] using top
    simp only [value, parseValue, top, not_true_eq_false, if_false]

theorem parsePass_covered {p : Parser β τ} (present : p.stack ≠ []) (covered : topsValue p.stack = false) :
    p.parsePass = .again { p with stack := .value :: p.stack } := by
  unfold parsePass
  split
  · contradiction
  · rename_i frame rest stacked
    have other : frame.state ≠ .value := by simpa [topsValue, stacked] using covered
    split
    · contradiction
    · rw [stacked]

theorem parsePass_decreases : Decreases (parsePass (β := β)) workLeft := by
  intro p next again
  by_cases empty : p.stack = []
  · simp only [parsePass, empty] at again
    cases again
  · cases top : topsValue p.stack with
    | true =>
      rw [parsePass_value top] at again
      have within := nextToken_within p.limits p.data
      match performed : p.perform (nextToken p.limits p.data), again with
      | (.ok (some step), q), again => exact proceed_decreases (perform_shrinks within performed) again
    | false =>
      rw [parsePass_covered empty top] at again
      cases again
      have before : workLeft p = 2 * p.data.length + 1 := by simp only [workLeft, top]; rfl
      rw [before]
      exact Nat.lt_succ_self _

/-- The loop of `parse_one`. -/
def parseLoop (p : Parser β τ) : Answer × Parser β τ := run parsePass_decreases p

def parseOne (p : Parser β τ) : Answer × Parser β τ :=
  if p.treeReady then (.error (.protocol .treeNotConsumed), p)
  else if p.failed then (.error (.protocol .parserFailed), p)
  else parseLoop { p with stack := if p.stack = [] then [.value] else p.stack }

end Input

end Parser

end Rediscoro.Resp3
