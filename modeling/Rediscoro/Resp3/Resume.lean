import Rediscoro.Resp3.Lexing
import Rediscoro.Resp3.ZeroCopy

/-! The copying parser across the arrival of octets.

A call that asked for more octets is resumed by the next one as if it had seen them
from the start, and a call that was decided is decided the same way with more octets
behind. So it does not matter to the copying parser how its input was cut, as long as
the line limit, which looks at how much has arrived, is out of reach. Where it is not,
a call may fail that would have been resumed, so the roots that were returned are those
of the whole input from its front on.
-/

set_option autoImplicit false

namespace Rediscoro.Resp3

open Rediscoro.Semantics

namespace Parser

/-! Adding octets commutes with every change of state. -/

section Append

variable (more : Bytes)

theorem recast_same {β γ τ : Type} (p : Parser β τ) (input : γ) :
    p.recast (fun _ text => text) input =
      { toAssembly := p.toAssembly, input := input, stack := p.stack, failed := p.failed, treeReady := p.treeReady,
        limits := p.limits } := by
  have nodes : p.tree.nodes.map (RawNode.map fun _ text => text) = p.tree.nodes := List.map_id p.tree.nodes
  simp only [recast, Assembly.map, RawTree.map, nodes]

theorem attachToParent_append (p : Parser Bytes Text) (childIdx : Nat) (frames : List Frame) :
    (p.append more).attachToParent childIdx frames =
      ((p.attachToParent childIdx frames).1, (p.attachToParent childIdx frames).2.append more) := by
  have echoed := attachToParent_recast (fun _ text => text) (p.input ++ more) p childIdx frames
  have input := attachToParent_input p childIdx frames
  rw [recast_same, recast_same, ← input] at echoed
  rw [append, ← input]
  exact echoed

/-- A pass with more octets behind those it saw. -/
def extend :
    Pass (Parser Bytes Text) (Answer × Parser Bytes Text) → Pass (Parser Bytes Text) (Answer × Parser Bytes Text)
  | .again p => .again (p.append more)
  | .leave result => .leave (result.1, result.2.append more)

theorem fail_append (p : Parser Bytes Text) (stop : Stop) :
    (p.append more).fail stop = ((p.fail stop).1, (p.fail stop).2.append more) := by
  cases stop <;> rfl

theorem settle_append (attached : Except Stop StepIndex × Parser Bytes Text) :
    settle (attached.1, attached.2.append more) = extend more (settle attached) := by
  match attached with
  | (.error stop, p) => exact congrArg Pass.leave (fail_append more p stop)
  | (.ok .continueParsing, p) | (.ok (.produced root), p) => rfl

theorem proceed_append (valued : Except Stop (Option StepIndex) × Parser Bytes Text) :
    proceed (valued.1, valued.2.append more) = extend more (proceed valued) := by
  match valued with
  | (.error stop, p) => exact congrArg Pass.leave (fail_append more p stop)
  | (.ok none, p) | (.ok (some .continueParsing), p) => rfl
  | (.ok (some (.produced index)), p) =>
    have attached := attachToParent_append more p index p.stack.tail
    simp only [proceed]
    rw [← settle_append, ← attached]
    rfl

theorem text_append {input : Bytes} {kind : Kind} {span : Span} (inside : span.offset + span.length ≤ input.length) :
    Source.text (input ++ more) kind span = Source.text input kind span := by
  simp only [Source.text]
  rw [List.drop_append_of_le_length (by omega), List.take_append_of_le_length (by rw [List.length_drop]; omega)]

theorem node_append {input : Bytes} (node : RawNode Span)
    (inside : node.text.offset + node.text.length ≤ input.length) :
    node.map (Source.text (input ++ more)) = node.map (Source.text input) :=
  congrArg (fun text => { node with text := text }) (text_append more inside)

theorem consume_append {p : Parser Bytes Text} {used : Nat} (within : used ≤ p.input.length) :
    (p.append more).consume used = (p.consume used).append more := by
  show { p with input := (p.input ++ more).drop used } = { p with input := p.input.drop used ++ more }
  rw [List.drop_append_of_le_length within]

theorem perform_append {p : Parser Bytes Text} {token : Token} (within : token.Within p.input.length) :
    (p.append more).perform token = ((p.perform token).1, (p.perform token).2.append more) := by
  cases token with
  | more => rfl
  | bad error used => simp only [perform, consume_append more within]
  | attributes pairs used =>
    simp only [perform, consume_append more within.2]
    rfl
  | container type len used =>
    simp only [perform, consume_append more within.2]
    rw [show (p.append more).input = p.input ++ more from rfl, show (p.append more).tree = p.tree from rfl,
      node_append more (containerNode type len p.tree.nextLink) (Nat.zero_le _)]
    split <;> rfl
  | leaf node used =>
    obtain ⟨-, within, inside⟩ := within
    simp only [perform, consume_append more within]
    rw [show (p.append more).input = p.input ++ more from rfl, node_append more node (Nat.le_trans inside within)]
    rfl

variable [FloatChars]

/-- A pass that finds the same token with more octets behind is the same pass. -/
theorem parsePass_append {p : Parser Bytes Text}
    (steady : topsValue p.stack = true → nextToken p.limits (p.input ++ more) = nextToken p.limits p.input) :
    (p.append more).parsePass = extend more p.parsePass := by
  by_cases empty : p.stack = []
  · simp only [parsePass, empty, show (p.append more).stack = [] from empty]
    exact congrArg Pass.leave (fail_append more p _)
  · cases top : topsValue p.stack with
    | true =>
      rw [parsePass_value top, parsePass_value (p := p.append more) top]
      simp only [data, Source.data, show (p.append more).limits = p.limits from rfl,
        show (p.append more).input = p.input ++ more from rfl]
      rw [steady top, perform_append more (nextToken_within p.limits p.input), proceed_append]
    | false =>
      rw [parsePass_covered empty top, parsePass_covered (p := p.append more) empty top]
      rfl

end Append

/-! Calls that asked for more octets. -/

section Waiting

variable {β τ : Type}

/-- Going on keeps the flags; only a protocol error or a root sets one. -/
theorem proceed_again {q next : Parser β τ} {answer : Except Stop (Option StepIndex)}
    (again : proceed (answer, q) = .again next) : next.failed = q.failed ∧ next.treeReady = q.treeReady := by
  rcases answer with stop | _ | _ | index
  · cases again
  · cases again
  · cases again
    exact ⟨rfl, rfl⟩
  · obtain ⟨a, stack, only⟩ := attachToParent_only q index q.stack.tail
    simp only [proceed] at again
    generalize q.attachToParent index q.stack.tail = attached at only again
    obtain ⟨step, r⟩ := attached
    obtain rfl : r = _ := only
    rcases step with stop | _ | root
    · cases again
    · cases again
      exact ⟨rfl, rfl⟩
    · cases again

theorem settle_ne_none {attached : Except Stop StepIndex × Parser β τ} {q : Parser β τ} :
    settle attached ≠ .leave (.ok none, q) := by
  match attached with
  | (.error (.protocol _), _) | (.error .assertion, _) | (.error .outOfRange, _) => nofun
  | (.ok .continueParsing, _) | (.ok (.produced _), _) => nofun

variable [Source β τ]

theorem flags_perform (p : Parser β τ) (token : Token) :
    (p.perform token).2.failed = p.failed ∧ (p.perform token).2.treeReady = p.treeReady := by
  cases token with
  | container type len used =>
    simp only [perform]
    split <;> exact ⟨rfl, rfl⟩
  | _ => exact ⟨rfl, rfl⟩

variable [FloatChars]

/-- The parser is in the middle of a message, or before one, and cannot go on. -/
structure Waits (p : Parser β τ) : Prop where
  healthy : p.failed = false
  consumed : p.treeReady = false
  top : topsValue p.stack = true
  short : nextToken p.limits p.data = .more

theorem parsePass_waits {p : Parser β τ} (waits : p.Waits) : p.parsePass = .leave (.ok none, p) := by
  rw [parsePass_value waits.top, waits.short]
  rfl

/-- Asking again without new octets changes nothing. -/
theorem parseOne_waits {p : Parser β τ} (waits : p.Waits) : p.parseOne = (.ok none, p) := by
  have present : p.stack ≠ [] := by
    intro empty
    have top := waits.top
    rw [empty] at top
    cases top
  rw [parseOne, if_neg (by simp [waits.consumed]), if_neg (by simp [waits.healthy]), if_neg present]
  exact run_leave _ (parsePass_waits waits)

theorem parsePass_again {p next : Parser β τ} (again : p.parsePass = .again next) :
    next.failed = p.failed ∧ next.treeReady = p.treeReady := by
  by_cases empty : p.stack = []
  · simp only [parsePass, empty] at again
    cases again
  · cases top : topsValue p.stack with
    | true =>
      have flags := flags_perform p (nextToken p.limits p.data)
      rw [parsePass_value top] at again
      obtain ⟨failed, ready⟩ := proceed_again again
      exact ⟨failed.trans flags.1, ready.trans flags.2⟩
    | false =>
      rw [parsePass_covered empty top] at again
      cases again
      exact ⟨rfl, rfl⟩

/-- More octets are asked for only where the parser cannot go on, and it is left as it is. -/
theorem parsePass_none {p q : Parser β τ} (left : p.parsePass = .leave (.ok none, q)) :
    q = p ∧ topsValue p.stack = true ∧ nextToken p.limits p.data = .more := by
  by_cases empty : p.stack = []
  · simp only [parsePass, empty] at left
    cases left
  · cases top : topsValue p.stack with
    | true =>
      rw [parsePass_value top] at left
      generalize nextToken p.limits p.data = token at left ⊢
      cases token with
      | more => cases left; exact ⟨rfl, rfl, rfl⟩
      | bad error used => cases left
      | attributes pairs used => cases left
      | container type len used =>
        simp only [perform] at left
        split at left
        · exact absurd left settle_ne_none
        · cases left
      | leaf node used => exact absurd left settle_ne_none
    | false =>
      rw [parsePass_covered empty top] at left
      cases left

theorem parseOne_none {p q : Parser β τ} (parsed : p.parseOne = (.ok none, q)) : q.Waits := by
  unfold parseOne at parsed
  split at parsed
  · cases parsed
  · split at parsed
    · cases parsed
    · rename_i ready failed
      have post := run_invariant parsePass_decreases
        (fun r : Parser β τ => r.failed = false ∧ r.treeReady = false)
        (fun result => result.1 = .ok none → result.2.Waits)
        (by
          rintro r next ⟨healthy, consumed⟩ again
          obtain ⟨first, second⟩ := parsePass_again again
          exact ⟨first.trans healthy, second.trans consumed⟩)
        (by
          rintro r ⟨answer, last⟩ ⟨healthy, consumed⟩ left rfl
          obtain ⟨rfl, top, short⟩ := parsePass_none left
          exact ⟨healthy, consumed, top, short⟩)
        { p with stack := if p.stack = [] then [.value] else p.stack }
        ⟨Bool.eq_false_iff.mpr failed, Bool.eq_false_iff.mpr ready⟩
      have same : run parsePass_decreases { p with stack := if p.stack = [] then [.value] else p.stack } =
        (.ok none, q) := parsed
      rw [same] at post
      exact post rfl

end Waiting

/-! Resuming with more octets. -/

section Resuming

variable [FloatChars] {p q : Parser Bytes Text} {more : Bytes}

/-- No token that the loop meets is read differently with more octets behind. -/
def Steady (more : Bytes) (p : Parser Bytes Text) : Prop :=
  ∀ q, Reaches parsePass p q → topsValue q.stack = true → nextToken q.limits q.input ≠ .more →
    nextToken q.limits (q.input ++ more) = nextToken q.limits q.input

theorem reaches_keeps (reaches : Reaches parsePass p q) :
    q.limits = p.limits ∧ q.data.length ≤ p.data.length := by
  induction reaches with
  | refl => exact ⟨rfl, Nat.le_refl _⟩
  | @again p next q pass _ ih =>
    have limits := limits_parsePass p
    have shrinks := parsePass_shrinks p
    rw [pass] at limits shrinks
    exact ⟨ih.1.trans limits, Nat.le_trans ih.2 shrinks⟩

omit [FloatChars] in
theorem roomy_of {r : Parser Bytes Text} (roomy : (p.input ++ more).length ≤ p.limits.maxRespLineBytes)
    (kept : r.limits = p.limits ∧ r.data.length ≤ p.data.length) :
    (r.input ++ more).length ≤ r.limits.maxRespLineBytes := by
  have fewer : r.input.length ≤ p.input.length := kept.2
  rw [List.length_append] at roomy ⊢
  rw [kept.1]
  omega

theorem steady_of_roomy (roomy : (p.input ++ more).length ≤ p.limits.maxRespLineBytes) : p.Steady more := by
  intro q reaches _ decided
  exact nextToken_append (roomy_of roomy (reaches_keeps reaches)) decided

/-- A loop that ends without a protocol error has met headers and leaves only. -/
theorem steady_of_fine (short : p.input.length ≤ Buffer.sizeMax)
    (fine : ∀ errc, p.parseLoop.1 ≠ .error (.protocol errc)) : p.Steady more := by
  intro r reaches top decided
  refine nextToken_append_spelled more (Nat.le_trans (reaches_keeps reaches).2 short) decided ?_
  intro error used token
  have left : r.parsePass = .leave ((r.consume used).fail (.protocol error)) := by
    rw [parsePass_value top]
    exact congrArg (fun token => proceed (r.perform token)) token
  have loop : p.parseLoop = (r.consume used).fail (.protocol error) :=
    (run_reaches parsePass_decreases reaches).trans (run_leave _ left)
  exact fine error (congrArg Prod.fst loop)

theorem parseLoop_append (steady : p.Steady more) :
    (p.append more).parseLoop =
      match p.parseLoop with
      | (.ok none, q) => (q.append more).parseLoop
      | (answer, q) => (answer, q.append more) := by
  induction p using run_induction (parsePass_decreases (β := Bytes)) with | _ p ih
  by_cases short : topsValue p.stack = true ∧ nextToken p.limits p.input = .more
  · have left : p.parsePass = .leave (.ok none, p) := by
      rw [parsePass_value short.1]
      exact congrArg (fun token => proceed (p.perform token)) short.2
    have stopped : p.parseLoop = (.ok none, p) := run_leave _ left
    rw [stopped]
  · have same := parsePass_append more fun top => steady p (.refl p) top fun token => short ⟨top, token⟩
    cases pass : p.parsePass with
    | again next =>
      rw [pass] at same
      have first : p.parseLoop = next.parseLoop := run_again _ pass
      have second : (p.append more).parseLoop = (next.append more).parseLoop := run_again _ same
      rw [first, second]
      exact ih next pass fun q reaches => steady q (.again pass reaches)
    | leave result =>
      rw [pass] at same
      have first : p.parseLoop = result := run_leave _ pass
      have second : (p.append more).parseLoop = (result.1, result.2.append more) := run_leave _ same
      rw [first, second]
      match result with
      | (.ok none, q) =>
        obtain ⟨rfl, top, token⟩ := parsePass_none pass
        exact absurd ⟨top, token⟩ short
      | (.ok (some root), q) | (.error stop, q) => rfl

/-- Past the two flags a call is the loop. -/
theorem parseOne_loop (consumed : p.treeReady = false) (healthy : p.failed = false) :
    p.parseOne = parseLoop { p with stack := if p.stack = [] then [.value] else p.stack } := by
  simp [parseOne, consumed, healthy]

/-- The tokens of the next call do not depend on whether more octets are behind: the line limit is out of reach,
or the call gives no protocol error. -/
def Extendable (more : Bytes) (p : Parser Bytes Text) : Prop :=
  (p.input ++ more).length ≤ p.limits.maxRespLineBytes ∨
    p.input.length ≤ Buffer.sizeMax ∧ ∀ errc, p.parseOne.1 ≠ .error (.protocol errc)

theorem Extendable.steady (extendable : p.Extendable more) (consumed : p.treeReady = false)
    (healthy : p.failed = false) : Steady more { p with stack := if p.stack = [] then [.value] else p.stack } := by
  rcases extendable with roomy | ⟨short, fine⟩
  · exact steady_of_roomy roomy
  · rw [parseOne_loop consumed healthy] at fine
    exact steady_of_fine short fine

/-- A decided call is decided the same way with more octets behind. -/
theorem parseOne_append {answer : Answer} (extendable : p.Extendable more) (parsed : p.parseOne = (answer, q))
    (decided : answer ≠ .ok none) : (p.append more).parseOne = (answer, q.append more) := by
  cases consumed : p.treeReady with
  | true =>
    rw [parseOne, if_pos consumed] at parsed
    rw [parseOne, if_pos (by exact consumed)]
    cases parsed
    rfl
  | false =>
    cases healthy : p.failed with
    | true =>
      rw [parseOne, if_neg (by simp [consumed]), if_pos healthy] at parsed
      rw [parseOne, if_neg (by simp [append, consumed]), if_pos (by exact healthy)]
      cases parsed
      rfl
    | false =>
      have loop := parseLoop_append (extendable.steady consumed healthy)
      rw [parseOne_loop consumed healthy] at parsed
      rw [parsed] at loop
      rw [parseOne_loop (p := p.append more) consumed healthy]
      match answer, decided, loop with
      | .ok (some root), _, loop | .error stop, _, loop => exact loop

/-- A call that asked for more is resumed. -/
theorem parseOne_resume (extendable : p.Extendable more) (parsed : p.parseOne = (.ok none, q)) :
    (p.append more).parseOne = (q.append more).parseOne := by
  have waits := parseOne_none parsed
  have present : q.stack ≠ [] := by
    intro empty
    have top := waits.top
    rw [empty] at top
    cases top
  cases consumed : p.treeReady with
  | true => rw [parseOne, if_pos consumed] at parsed; cases parsed
  | false =>
    cases healthy : p.failed with
    | true => rw [parseOne, if_neg (by simp [consumed]), if_pos healthy] at parsed; cases parsed
    | false =>
      have loop := parseLoop_append (extendable.steady consumed healthy)
      rw [parseOne_loop consumed healthy] at parsed
      rw [parsed] at loop
      rw [parseOne_loop (p := p.append more) consumed healthy,
        parseOne_loop (p := q.append more) waits.consumed waits.healthy,
        if_neg (show ¬ (q.append more).stack = [] from present)]
      exact loop

end Resuming

/-! The loop over `parse_one`. -/

section Drains

variable {β τ : Type} [Source β τ] [FloatChars]

/-- The loop sees its parser through `parse_one` only. -/
theorem drain_congr {p q : Parser β τ} (same : p.parseOne = q.parseOne) : p.drain = q.drain := by
  match parsed : q.parseOne with
  | (.ok (some root), r) => rw [drain_root parsed, drain_root (same.trans parsed)]
  | (.ok none, r) => rw [drain_end parsed nofun, drain_end (same.trans parsed) nofun]
  | (.error stop, r) => rw [drain_end parsed nofun, drain_end (same.trans parsed) nofun]

/-- Where the loop ends without an error, the parser waits. -/
theorem drain_waits {p : Parser β τ} {value : Option Nat} (ended : p.drain.answer = .ok value) :
    value = none ∧ p.drain.parser.Waits := by
  induction p using drain_induction with
  | root p q root parsed ih =>
    rw [drain_root parsed] at ended ⊢
    exact ih ended
  | last p q answer parsed last =>
    rw [drain_end parsed last] at ended ⊢
    obtain rfl : answer = .ok value := ended
    cases value with
    | none => exact ⟨rfl, parseOne_none parsed⟩
    | some root => exact absurd rfl (last root)

end Drains

section Pieces

variable [FloatChars] {p q : Parser Bytes Text} {more : Bytes}

/-- The line limit is out of reach, or all lengths fit; calls that give no protocol error are then extendable. -/
def Roomy (more : Bytes) (p : Parser Bytes Text) : Prop :=
  (p.input ++ more).length ≤ p.limits.maxRespLineBytes ∨ p.input.length ≤ Buffer.sizeMax

theorem Roomy.extendable {answer : Answer} (roomy : p.Roomy more) (parsed : p.parseOne = (answer, q))
    (fine : ∀ errc, answer ≠ .error (.protocol errc)) : p.Extendable more := by
  rcases roomy with roomy | short
  · exact .inl roomy
  · refine .inr ⟨short, ?_⟩
    rw [parsed]
    exact fine

omit [FloatChars] in
theorem Roomy.of {r : Parser Bytes Text} (roomy : p.Roomy more)
    (kept : r.limits = p.limits ∧ r.data.length ≤ p.data.length) : r.Roomy more :=
  roomy.imp (fun roomy => roomy_of roomy kept) (fun short => Nat.le_trans kept.2 short)

/-- With more octets behind, a loop that ended in an error ends the same way, a protocol error only if the line
limit is out of reach. -/
theorem drain_append_error {stop : Stop} (roomy : p.Roomy more)
    (decided : (p.input ++ more).length ≤ p.limits.maxRespLineBytes ∨ ∀ errc, stop ≠ .protocol errc)
    (ended : p.drain.answer = .error stop) :
    (p.append more).drain.trees = p.drain.trees ∧ (p.append more).drain.answer = .error stop := by
  induction p using drain_induction with
  | root p q root parsed ih =>
    have kept := parseOne_keeps p
    rw [parsed] at kept
    rw [drain_root parsed] at ended ⊢
    rw [drain_root (parseOne_append (roomy.extendable parsed nofun) parsed nofun)]
    obtain ⟨trees, answer⟩ := ih (roomy.of (r := q.reclaim) kept)
      (decided.imp_left fun within => roomy_of within (r := q.reclaim) kept) ended
    exact ⟨congrArg (List.cons (root, q.tree)) trees, answer⟩
  | last p q answer parsed last =>
    rw [drain_end parsed last] at ended ⊢
    obtain rfl : answer = .error stop := ended
    have extendable : p.Extendable more := by
      rcases decided with within | assertion
      · exact .inl within
      · exact roomy.extendable parsed fun errc same => assertion errc (Except.error.inj same)
    rw [drain_end (parseOne_append extendable parsed nofun) nofun]
    exact ⟨rfl, rfl⟩

/-- A loop that asked for more goes on where it stopped. -/
theorem drain_append_resume {value : Option Nat} (roomy : p.Roomy more) (ended : p.drain.answer = .ok value) :
    (p.append more).drain.trees = p.drain.trees ++ (p.drain.parser.append more).drain.trees ∧
      (p.append more).drain.answer = (p.drain.parser.append more).drain.answer := by
  induction p using drain_induction with
  | root p q root parsed ih =>
    have kept := parseOne_keeps p
    rw [parsed] at kept
    rw [drain_root parsed] at ended ⊢
    rw [drain_root (parseOne_append (roomy.extendable parsed nofun) parsed nofun)]
    obtain ⟨trees, answer⟩ := ih (roomy.of (r := q.reclaim) kept) ended
    exact ⟨congrArg (List.cons (root, q.tree)) trees, answer⟩
  | last p q answer parsed last =>
    rw [drain_end parsed last] at ended ⊢
    match answer, parsed, last with
    | .ok none, parsed, _ =>
      rw [drain_congr (parseOne_resume (roomy.extendable parsed nofun) parsed)]
      exact ⟨rfl, rfl⟩
    | .ok (some root), _, last => exact absurd rfl (last root)

/-- Whatever ended the loop, what it has returned is returned with more octets behind too. -/
theorem drain_append_isPrefix (roomy : p.Roomy more) : p.drain.trees <+: (p.append more).drain.trees := by
  induction p using drain_induction with
  | root p q root parsed ih =>
    have kept := parseOne_keeps p
    rw [parsed] at kept
    rw [drain_root parsed, drain_root (parseOne_append (roomy.extendable parsed nofun) parsed nofun)]
    exact List.cons_prefix_cons.mpr ⟨rfl, ih (roomy.of (r := q.reclaim) kept)⟩
  | last p q answer parsed last =>
    rw [drain_end parsed last]
    exact List.nil_prefix

/-- Reading pieces one after another, draining after each, until an error stops it for good. -/
def readAll : Parser Bytes Text → List Bytes → List (Nat × RawTree Text) × Answer
  | _, [] => ([], .ok none)
  | p, piece :: rest =>
      match (p.append piece).drain.answer with
      | .error stop => ((p.append piece).drain.trees, .error stop)
      | .ok _ =>
          let later := (p.append piece).drain.parser.readAll rest
          ((p.append piece).drain.trees ++ later.1, later.2)

/-- How the octets were cut does not matter. -/
theorem readAll_flatten {pieces : List Bytes} (waiting : p.parseOne = (.ok none, q))
    (roomy : (p.input ++ pieces.flatten).length ≤ p.limits.maxRespLineBytes) :
    p.readAll pieces = ((p.append pieces.flatten).drain.trees, (p.append pieces.flatten).drain.answer) := by
  induction pieces generalizing p q with
  | nil =>
    have same : p.append [] = p := by rw [append, List.append_nil]
    rw [List.flatten_nil, same, drain_end waiting nofun]
    rfl
  | cons piece rest ih =>
    rw [List.flatten_cons] at roomy
    have joined : p.append (piece ++ rest.flatten) = (p.append piece).append rest.flatten := by
      simp only [append, List.append_assoc]
    have roomy' : ((p.append piece).input ++ rest.flatten).length ≤ (p.append piece).limits.maxRespLineBytes := by
      rw [append, List.append_assoc]
      exact roomy
    rw [List.flatten_cons, joined, readAll]
    cases ended : (p.append piece).drain.answer with
    | error stop =>
      obtain ⟨trees, answer⟩ := drain_append_error (.inl roomy') (.inl roomy') ended
      rw [trees, answer]
    | ok value =>
      obtain ⟨trees, answer⟩ := drain_append_resume (.inl roomy') ended
      obtain ⟨-, waits⟩ := drain_waits ended
      have later := ih (parseOne_waits waits) (roomy_of roomy' (drain_keeps _))
      rw [trees, answer]
      dsimp only
      rw [later]

end Pieces

end Parser

end Rediscoro.Resp3
