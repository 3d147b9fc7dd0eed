import Rediscoro.Resp3.Session

/-! The limit on lines, however they arrive.

A line is measured twice: by the octets in front of its end once the end is found,
and by everything that has arrived as long as it is not. The second measure counts a
carriage return whose line feed is still to come, so it rejects a line of exactly the
longest length when the octets are cut there.
-/

set_option autoImplicit false

namespace Rediscoro.Resp3

open Rediscoro.Semantics

/-- The text in front of the line's end is one the parser accepts for the kind, whatever its length. -/
def Acceptable [FloatChars] (limits : Limits) (kind : Kind) (text : Bytes) : Prop :=
  match kind with
  | .simpleString | .simpleError | .bigNumber => True
  | .integer => (parseI64 text).isSome = true
  | .doubleNumber => parseDouble text = true
  | .bulkString | .bulkError | .verbatimString =>
      ∃ n, parseI64 text = some n ∧ -1 ≤ n ∧ n.toNat ≤ limits.maxRespBulkBytes ∧
        (header kind text).length + n.toNat + 2 ≤ Buffer.sizeMax
  | .array | .map | .set | .push =>
      ∃ n, parseI64 text = some n ∧ -1 ≤ n ∧ n ≤ limits.maxRespContainerLen ∧
        (n = -1 ∨ isRepresentableLength kind n = true)
  | .attribute =>
      ∃ n, parseI64 text = some n ∧ 0 ≤ n ∧ n ≤ limits.maxRespContainerLen ∧ isRepresentableLength kind n = true
  | .null | .boolean => False

/-- More octets are needed, or the token takes all there are. -/
def Token.Takes (length : Nat) : Token → Prop
  | .more => True
  | .bad .. => False
  | .attributes _ used | .container _ _ used | .leaf _ used => used = length

section Tokens

variable [FloatChars] {limits : Limits} {kind : Kind} {text : Bytes}

omit [FloatChars] in
/-- No line ends before its end. -/
theorem findCrlf_partial {front rest : Bytes} (free : findCrlf text = none) (whole : front ++ rest = text ++ crlf)
    (proper : rest ≠ []) : findCrlf front = none := by
  cases found : findCrlf front with
  | none => rfl
  | some pos =>
    have later : findCrlf (text ++ crlf) = some pos := by
      rw [← whole]
      exact findPair_append found rest
    have ends : findCrlf (text ++ crlf) = some text.length := findPair_after (by decide) free []
    have bound := findPair_bound found
    have length := congrArg List.length whole
    have some := List.length_pos_iff.mpr proper
    cases later.symm.trans ends
    simp only [List.length_append, crlf, List.length_cons, List.length_nil] at length
    omega

variable (limits) in
/-- A line that has not ended yet is measured by all that has arrived. -/
theorem nextToken_partial (lined : kind ≠ .null ∧ kind ≠ .boolean) (free : findCrlf text = none)
    {front rest : Bytes} (whole : kindToPrefix kind :: (front ++ rest) = header kind text) (proper : rest ≠ []) :
    nextToken limits (kindToPrefix kind :: front) =
      if front.length > limits.maxRespLineBytes then .bad .invalidLength 0 else .more := by
  have open' := findCrlf_partial free (List.cons.inj whole).2 proper
  have parsed : parseLengthAfterType limits (kindToPrefix kind :: front) =
      if front.length > limits.maxRespLineBytes then .error .invalidLength else .ok none := by
    simp only [parseLengthAfterType, List.drop_succ_cons, List.drop_zero, open']
  have headed (next : LengthHeader → Token) : withHeader limits (kindToPrefix kind :: front) next =
      if front.length > limits.maxRespLineBytes then .bad .invalidLength 0 else .more := by
    rw [withHeader, parsed]
    split <;> rename_i answer <;> split at answer <;> simp_all
  have lined' : lineToken limits kind (kindToPrefix kind :: front) =
      if front.length > limits.maxRespLineBytes then .bad .invalidLength 0 else .more := by
    simp only [lineToken, List.drop_succ_cons, List.drop_zero, open']
  simp only [nextToken, List.head?_cons, prefixToKind_kindToPrefix]
  cases kind with
  | null => exact absurd rfl lined.1
  | boolean => exact absurd rfl lined.2
  | simpleString | simpleError | integer | doubleNumber | bigNumber => exact lined'
  | _ => exact headed _

omit [FloatChars] in
theorem findCrlf_whole (free : findCrlf text = none) : findCrlf (text ++ crlf) = some text.length :=
  findPair_after (by decide) free []

theorem nextToken_overlong (lined : kind ≠ .null ∧ kind ≠ .boolean) (free : findCrlf text = none)
    (long : limits.maxRespLineBytes < text.length) : nextToken limits (header kind text) = .bad .invalidLength 0 := by
  have ends := findCrlf_whole free
  have headed (next : LengthHeader → Token) : withHeader limits (header kind text) next = .bad .invalidLength 0 := by
    simp only [withHeader, parseLengthAfterType, header, List.drop_succ_cons, List.drop_zero, ends, if_pos long]
  have lined' : lineToken limits kind (header kind text) = .bad .invalidLength 0 := by
    simp only [lineToken, header, List.drop_succ_cons, List.drop_zero, ends, if_pos long]
  simp only [nextToken, show (header kind text).head? = some (kindToPrefix kind) from rfl, prefixToKind_kindToPrefix]
  cases kind with
  | null => exact absurd rfl lined.1
  | boolean => exact absurd rfl lined.2
  | simpleString | simpleError | integer | doubleNumber | bigNumber => exact lined'
  | _ => exact headed _

theorem nextToken_whole (free : findCrlf text = none) (short : text.length ≤ limits.maxRespLineBytes)
    (acceptable : Acceptable limits kind text) :
    (nextToken limits (header kind text)).Takes (header kind text).length := by
  have ends := findCrlf_whole free
  have taken : (text ++ crlf).take text.length = text := List.take_left
  have size : (header kind text).length = 1 + text.length + 2 := header_length kind text
  have headed {n : Int} (read : parseI64 text = some n) (next : LengthHeader → Token) :
      withHeader limits (header kind text) next = next ⟨n, (header kind text).length⟩ := by
    simp only [withHeader, parseLengthAfterType, header, List.drop_succ_cons, List.drop_zero, ends,
      if_neg (Nat.not_lt.mpr short), taken, read]
    rw [show 1 + text.length + 2 = (kindToPrefix kind :: (text ++ crlf)).length from size.symm]
  simp only [nextToken, show (header kind text).head? = some (kindToPrefix kind) from rfl, prefixToKind_kindToPrefix]
  cases kind with
  | null | boolean => cases acceptable
  | simpleString | simpleError | bigNumber =>
    simp only [elementToken, lineToken, header, List.drop_succ_cons, List.drop_zero, ends,
      if_neg (Nat.not_lt.mpr short)]
    exact size.symm
  | integer =>
    obtain ⟨value, read⟩ := Option.isSome_iff_exists.mp acceptable
    simp only [elementToken, lineToken, header, List.drop_succ_cons, List.drop_zero, ends,
      if_neg (Nat.not_lt.mpr short), taken, read]
    exact size.symm
  | doubleNumber =>
    have read : parseDouble text = true := acceptable
    simp only [elementToken, lineToken, header, List.drop_succ_cons, List.drop_zero, ends,
      if_neg (Nat.not_lt.mpr short), taken, read, if_true]
    exact size.symm
  | bulkString | bulkError | verbatimString =>
    obtain ⟨n, read, least, most, room⟩ := acceptable
    simp only [elementToken, bulkToken]
    rw [headed read]
    have within : exceedsI64Limit n limits.maxRespBulkBytes = false := by
      unfold exceedsI64Limit
      split
      · rfl
      · simpa using most
    dsimp only
    rw [if_neg (by omega), if_neg (by simp [within])]
    by_cases null : n = -1
    · rw [if_pos null]
      exact rfl
    · rw [if_neg null, if_neg (by omega), if_pos (by omega)]
      trivial
  | array | map | set | push =>
    obtain ⟨n, read, least, most, representable⟩ := acceptable
    simp only [elementToken]
    rw [headed read, startContainer]
    dsimp only
    rw [if_neg (by omega), if_neg (by omega)]
    by_cases null : n = -1
    · rw [if_pos null]
      exact rfl
    · rw [if_neg null, if_neg (not_not.mpr (representable.resolve_left null))]
      exact rfl
  | «attribute» =>
    obtain ⟨n, read, least, most, representable⟩ := acceptable
    simp only [elementToken]
    rw [headed read, startAttribute]
    dsimp only
    rw [if_neg (by omega), if_neg (by omega)]
    by_cases empty : n = 0
    · rw [if_pos empty]
      exact rfl
    · rw [if_neg empty, if_neg (not_not.mpr representable)]
      exact rfl

end Tokens

/-! One call. -/

namespace Parser

section Calls

variable {β τ : Type}

/-- Frames never complain about a length. -/
theorem attachToParent_length (p : Parser β τ) (childIdx : Nat) (frames : List Frame) :
    (p.attachToParent childIdx frames).1 ≠ .error (.protocol .invalidLength) := by
  induction frames generalizing p childIdx with
  | nil => nofun
  | cons parent rest ih =>
    unfold attachToParent
    repeat' split
    all_goals first | exact ih _ _ | nofun

/-- The loop goes on, or does not leave because of a length. -/
def Silent : Pass (Parser β τ) (Answer × Parser β τ) → Prop
  | .again _ => True
  | .leave result => result.1 ≠ .error (.protocol .invalidLength)

theorem fail_silent {p : Parser β τ} {stop : Stop} (other : stop ≠ .protocol .invalidLength) :
    Silent (.leave (p.fail stop)) := by
  cases stop with
  | protocol error => exact fun same => other (Except.error.inj same)
  | assertion | outOfRange => nofun

theorem proceed_silent {answer : Except Stop (Option StepIndex)} (other : answer ≠ .error (.protocol .invalidLength))
    (p : Parser β τ) : Silent (proceed (answer, p)) := by
  rcases answer with stop | _ | _ | index
  · exact fail_silent fun same => other (congrArg _ same)
  · simp [proceed, Silent]
  · trivial
  · have attached := attachToParent_length p index p.stack.tail
    simp only [proceed]
    generalize p.attachToParent index p.stack.tail = settled at attached ⊢
    rcases settled with ⟨stop | _ | root, q⟩
    · exact fail_silent fun same => attached (congrArg _ same)
    · trivial
    · simp [settle, Silent]

/-- The parser expects a value, in the middle of a message or in front of one. -/
structure Expects (p : Parser β τ) : Prop where
  healthy : p.failed = false
  consumed : p.treeReady = false
  top : p.stack = [] ∨ topsValue p.stack = true

variable [Source β τ] [FloatChars]

theorem parsePass_silent {p : Parser β τ} (fine : ∀ used, nextToken p.limits p.data ≠ .bad .invalidLength used) :
    Silent p.parsePass := by
  by_cases empty : p.stack = []
  · simp only [parsePass, empty]
    exact fail_silent (by simp)
  · cases top : topsValue p.stack with
    | true =>
      have other : (p.perform (nextToken p.limits p.data)).1 ≠ .error (.protocol .invalidLength) := by
        generalize nextToken p.limits p.data = token at fine ⊢
        cases token with
        | bad error used =>
          intro same
          obtain rfl : error = .invalidLength := by simpa [perform] using same
          exact fine used rfl
        | container type len used =>
          simp only [perform]
          split <;> simp
        | more | attributes pairs used | leaf node used => simp [perform]
      rw [parsePass_value top]
      exact proceed_silent other _
    | false =>
      rw [parsePass_covered empty top]
      trivial

/-- Without octets there is nothing to complain about. -/
theorem parseLoop_empty {p : Parser β τ} (empty : p.data = []) :
    p.parseLoop.1 ≠ .error (.protocol .invalidLength) ∧ p.parseLoop.2.data = [] := by
  have pass {q : Parser β τ} (empty : q.data = []) : Silent q.parsePass ∧ (after q.parsePass).data = [] := by
    refine ⟨parsePass_silent ?_, ?_⟩
    · rw [empty]
      nofun
    · have fewer := parsePass_shrinks q
      rw [empty] at fewer
      exact List.eq_nil_of_length_eq_zero (Nat.le_zero.mp fewer)
  refine run_invariant parsePass_decreases (fun q : Parser β τ => q.data = [])
    (fun result => result.1 ≠ .error (.protocol .invalidLength) ∧ result.2.data = []) ?_ ?_ p empty
  · intro q next empty again
    have kept := (pass empty).2
    rwa [again] at kept
  · intro q result empty left
    have kept := pass empty
    rwa [left] at kept

theorem drain_empty {p : Parser β τ} (empty : p.data = []) : p.drain.answer ≠ .error (.protocol .invalidLength) := by
  match parsed : p.parseOne with
  | (.ok (some root), q) =>
    have fewer := parseOne_root parsed
    rw [empty] at fewer
    exact absurd fewer (Nat.not_lt_zero _)
  | (.ok none, q) =>
    rw [drain_end parsed nofun]
    nofun
  | (.error stop, q) =>
    rw [drain_end parsed nofun]
    unfold parseOne at parsed
    split at parsed
    · cases parsed
      nofun
    split at parsed
    · cases parsed
      nofun
    have loop := (parseLoop_empty (p := { p with stack := if p.stack = [] then [.value] else p.stack }) empty).1
    rw [parsed] at loop
    exact loop

/-- The first pass of a call looks at the octets in front. -/
theorem Expects.firstPass {p : Parser β τ} (expects : p.Expects) :
    ∃ q : Parser β τ, q.data = p.data ∧ q.limits = p.limits ∧ topsValue q.stack = true ∧ q.Expects ∧
      p.parseOne = q.parseLoop := by
  have top : topsValue (if p.stack = [] then [.value] else p.stack) = true := by
    split
    · rfl
    · exact expects.top.resolve_left ‹_›
  refine ⟨{ p with stack := if p.stack = [] then [.value] else p.stack }, rfl, rfl, top,
    ⟨expects.healthy, expects.consumed, .inr top⟩, ?_⟩
  simp only [parseOne, expects.consumed, expects.healthy, Bool.false_eq_true, if_false]

/-- A call that takes all the octets leaves nothing to complain about. -/
theorem Expects.parseOne_takes {p : Parser β τ} (expects : p.Expects)
    (takes : (nextToken p.limits p.data).Takes p.data.length) :
    p.parseOne.1 ≠ .error (.protocol .invalidLength) ∧ (p.parseOne.1 = .ok none ∨ p.parseOne.2.data = []) := by
  obtain ⟨q, octets, limits, top, -, call⟩ := expects.firstPass
  rw [← octets, ← limits] at takes
  have silent : Silent q.parsePass := by
    apply parsePass_silent
    intro used bad
    rw [bad] at takes
    exact takes
  have behind := data_parsePass top
  rw [call]
  by_cases short : nextToken q.limits q.data = .more
  · have left : q.parsePass = .leave (.ok none, q) := by
      rw [parsePass_value top, short]
      rfl
    have loop : q.parseLoop = (.ok none, q) := run_leave _ left
    rw [loop]
    exact ⟨nofun, .inl rfl⟩
  · have used : (nextToken q.limits q.data).used = q.data.length := by
      generalize nextToken q.limits q.data = token at takes short ⊢
      cases token with
      | more => exact absurd rfl short
      | bad error used => cases takes
      | attributes pairs used | container type len used | leaf node used => exact takes
    rw [used, List.drop_length] at behind
    cases pass : q.parsePass with
    | again next =>
      rw [pass] at behind
      have loop : q.parseLoop = next.parseLoop := run_again _ pass
      rw [loop]
      obtain ⟨fine, empty⟩ := parseLoop_empty behind
      exact ⟨fine, .inr empty⟩
    | leave result =>
      rw [pass] at behind silent
      have loop : q.parseLoop = result := run_leave _ pass
      rw [loop]
      exact ⟨silent, .inr behind⟩

theorem Expects.drain_takes {p : Parser β τ} (expects : p.Expects)
    (takes : (nextToken p.limits p.data).Takes p.data.length) :
    p.drain.answer ≠ .error (.protocol .invalidLength) := by
  obtain ⟨fine, rest⟩ := expects.parseOne_takes takes
  match parsed : p.parseOne with
  | (.ok (some root), q) =>
    rw [parsed] at rest
    have empty : q.reclaim.data = [] := (data_reclaim q).trans (rest.resolve_left nofun)
    rw [drain_root parsed]
    exact drain_empty empty
  | (.ok none, q) =>
    rw [drain_end parsed nofun]
    nofun
  | (.error stop, q) =>
    rw [drain_end parsed nofun]
    rw [parsed] at fine
    exact fine

/-- The octets in front are not enough, or already too many. -/
theorem Expects.drain_more {p : Parser β τ} (expects : p.Expects) (short : nextToken p.limits p.data = .more) :
    p.drain.answer = .ok none ∧ p.drain.parser.Expects ∧ p.drain.parser.limits = p.limits ∧
      p.drain.parser.data = p.data := by
  obtain ⟨q, octets, limits, top, later, call⟩ := expects.firstPass
  have left : q.parsePass = .leave (.ok none, q) := by
    rw [parsePass_value top, limits, octets, short]
    rfl
  have parsed : p.parseOne = (.ok none, q) := call.trans (run_leave _ left)
  rw [drain_end parsed nofun]
  exact ⟨rfl, later, limits, octets⟩

theorem Expects.drain_bad {p : Parser β τ} {error : ProtocolErrc} {used : Nat} (expects : p.Expects)
    (bad : nextToken p.limits p.data = .bad error used) : p.drain.answer = .error (.protocol error) := by
  obtain ⟨q, octets, limits, top, -, call⟩ := expects.firstPass
  have left : q.parsePass = .leave (.error (.protocol error), { q.consume used with failed := true }) := by
    rw [parsePass_value top, limits, octets, bad]
    rfl
  have parsed : p.parseOne = (.error (.protocol error), _) := call.trans (run_leave _ left)
  rw [drain_end parsed nofun]

end Calls

end Parser

/-! Whole sessions. -/

namespace Reader

variable [FloatChars] {kind : Kind} {text : Bytes}

/-- A read of a session that goes on: the octets join those that wait. -/
theorem step_reads {r next : Reader} {room : Nat} {octets : Bytes} (status : r.status = .ok none)
    (stepped : r.step (.chunk room octets) = some next) :
    next = r.take room octets ∧ (r.parser.feed room octets).data = r.parser.data ++ octets := by
  obtain ⟨read, -⟩ | ⟨room', octets', stop, read, stopped, -⟩ | ⟨room', octets', value, read, -, fits, rfl⟩ :=
    step_cases stepped
  · cases read
  · rw [status] at stopped
    cases stopped
  · cases read
    exact ⟨rfl, r.parser.input.data_feed fits⟩

/-- Reads that bring nothing change nothing. -/
theorem runFrom_nothing {r last : Reader} {cut : List (Nat × Bytes)} (waits : r.parser.Waits)
    (status : r.status = .ok none) (nothing : (cut.map (·.2)).flatten = [])
    (run : runFrom step r (pieces cut) = some last) : last.status = .ok none := by
  induction cut generalizing r with
  | nil =>
    cases run
    exact status
  | cons piece rest ih =>
    obtain ⟨room, octets⟩ := piece
    obtain ⟨rfl, nothing⟩ := List.append_eq_nil_iff.mp nothing
    obtain ⟨next, stepped, run⟩ := runFrom_cons run
    obtain ⟨rfl, fed⟩ := step_reads status stepped
    rw [List.append_nil] at fed
    have still : (r.parser.feed room []).Waits := by
      refine ⟨waits.healthy, waits.consumed, waits.top, ?_⟩
      rw [fed]
      exact waits.short
    have drained := Parser.drain_end (Parser.parseOne_waits still) nofun
    refine ih ?_ ?_ nothing run
    · rw [take, drained]
      exact still
    · rw [take, drained]

/-- Some read ends between the carriage return and the line feed of a line whose octets
`seen` were read before. -/
def CutInside (seen : Bytes) (cut : List (Nat × Bytes)) (kind : Kind) (text : Bytes) : Prop :=
  ∃ front back, cut = front ++ back ∧ front ≠ [] ∧
    seen ++ (front.map (·.2)).flatten = kindToPrefix kind :: (text ++ [cr])

omit [FloatChars] in
theorem cutInside_cons {seen : Bytes} {piece : Nat × Bytes} {rest : List (Nat × Bytes)}
    (later : seen ++ piece.2 ≠ kindToPrefix kind :: (text ++ [cr])) :
    CutInside seen (piece :: rest) kind text ↔ CutInside (seen ++ piece.2) rest kind text := by
  constructor
  · rintro ⟨front, back, joined, present, octets⟩
    cases front with
    | nil => exact absurd rfl present
    | cons first front =>
      obtain ⟨rfl, joined'⟩ := List.cons.inj joined
      rw [List.map_cons, List.flatten_cons, ← List.append_assoc] at octets
      refine ⟨front, back, joined', ?_, octets⟩
      rintro rfl
      exact later (by simpa using octets)
  · rintro ⟨front, back, joined, present, octets⟩
    refine ⟨piece :: front, back, congrArg _ joined, List.cons_ne_nil _ _, ?_⟩
    rw [List.map_cons, List.flatten_cons, ← List.append_assoc]
    exact octets

omit [FloatChars] in
theorem not_cutInside {seen : Bytes} {cut : List (Nat × Bytes)}
    (longer : (kindToPrefix kind :: (text ++ [cr])).length < seen.length) : ¬CutInside seen cut kind text := by
  rintro ⟨front, back, -, -, octets⟩
  have length := congrArg List.length octets
  rw [List.length_append] at length
  omega

/-- The last answer names the length when the line is too long, or just not too long and cut inside its end. -/
def Judged (r last : Reader) (cut : List (Nat × Bytes)) (kind : Kind) (text : Bytes) : Prop :=
  last.status = .error (.protocol .invalidLength) ↔
    r.parser.limits.maxRespLineBytes < text.length ∨
      (text.length = r.parser.limits.maxRespLineBytes ∧ CutInside r.parser.data cut kind text)

section Reads

variable {r last : Reader} {room : Nat} {octets : Bytes} {rest : List (Nat × Bytes)}
  (expects : (r.parser.feed room octets).Expects)
  (fed : (r.parser.feed room octets).data = r.parser.data ++ octets)
  (run : runFrom step (r.take room octets) (pieces rest) = some last)

include expects fed run

/-- The line ends with this read: its length decides. -/
theorem judged_whole (lined : kind ≠ .null ∧ kind ≠ .boolean) (free : findCrlf text = none)
    (acceptable : Acceptable r.parser.limits kind text) (whole : r.parser.data ++ octets = header kind text)
    (nothing : (rest.map (·.2)).flatten = []) : Judged r last ((room, octets) :: rest) kind text := by
  have size : (header kind text).length = 1 + text.length + 2 := header_length kind text
  have inside : ¬CutInside r.parser.data ((room, octets) :: rest) kind text := by
    rw [cutInside_cons]
    · apply not_cutInside
      simp only [whole, size, List.length_cons, List.length_append, List.length_nil]
      omega
    · intro same
      have length := congrArg List.length (same.symm.trans whole)
      simp only [size, List.length_cons, List.length_append, List.length_nil] at length
      omega
  have limits : (r.parser.feed room octets).limits = r.parser.limits := rfl
  by_cases long : r.parser.limits.maxRespLineBytes < text.length
  · have bad : (r.parser.feed room octets).drain.answer = .error (.protocol .invalidLength) := by
      apply expects.drain_bad
      rw [fed, whole, limits]
      exact nextToken_overlong lined free long
    rw [Judged, runFrom_stopped bad run]
    exact iff_of_true bad (.inl long)
  · have fine : (r.parser.feed room octets).drain.answer ≠ .error (.protocol .invalidLength) := by
      apply expects.drain_takes
      rw [fed, whole, limits]
      exact nextToken_whole free (Nat.not_lt.mp long) acceptable
    apply iff_of_false _ (not_or.mpr ⟨long, fun both => inside both.2⟩)
    cases ended : (r.parser.feed room octets).drain.answer with
    | error stop =>
      rw [runFrom_stopped ended run]
      exact fine
    | ok value =>
      obtain ⟨rfl, waits⟩ := Parser.drain_waits ended
      rw [runFrom_nothing waits ended nothing run]
      nofun

/-- The octets so far are rejected although the line has not ended. -/
theorem judged_overlong {front : Bytes} (token : nextToken r.parser.limits (kindToPrefix kind :: front) =
      .bad .invalidLength 0)
    (arrived : r.parser.data ++ octets = kindToPrefix kind :: front)
    (behind : front ++ (rest.map (·.2)).flatten = text ++ crlf) (ends : (rest.map (·.2)).flatten ≠ [])
    (overlong : front.length > r.parser.limits.maxRespLineBytes) :
    Judged r last ((room, octets) :: rest) kind text := by
  have bad : (r.parser.feed room octets).drain.answer = .error (.protocol .invalidLength) := by
    apply expects.drain_bad
    rw [fed, arrived]
    exact token
  have length := congrArg List.length behind
  have more := List.length_pos_iff.mpr ends
  simp only [List.length_append, crlf, List.length_cons, List.length_nil] at length
  rw [Judged, runFrom_stopped bad run]
  apply iff_of_true bad
  by_cases long : r.parser.limits.maxRespLineBytes < text.length
  · exact .inl long
  · -- everything but the line feed has arrived
    have all : front = text ++ [cr] := by
      have taken := congrArg (List.take (text.length + 1)) behind
      rwa [List.take_left' (by omega), show text ++ crlf = (text ++ [cr]) ++ [lf] by simp [crlf],
        List.take_left' (by simp)] at taken
    refine .inr ⟨by omega, [(room, octets)], rest, rfl, List.cons_ne_nil _ _, ?_⟩
    simp [arrived, all]

end Reads

/-- However a line arrives, it is judged by its length, and by a cut inside its end if it is just not too long. -/
theorem judged {r last : Reader} {cut : List (Nat × Bytes)} (expects : r.parser.Expects)
    (status : r.status = .ok none) (lined : kind ≠ .null ∧ kind ≠ .boolean) (free : findCrlf text = none)
    (acceptable : Acceptable r.parser.limits kind text)
    (whole : r.parser.data ++ (cut.map (·.2)).flatten = header kind text)
    (proper : r.parser.data ≠ header kind text) (run : runFrom step r (pieces cut) = some last) :
    Judged r last cut kind text := by
  -- over the reads, as long as the line has not ended
  induction cut generalizing r with
  | nil => exact absurd ((List.append_nil _).symm.trans whole) proper
  | cons piece rest ih =>
    obtain ⟨room, octets⟩ := piece
    obtain ⟨next, stepped, run⟩ := runFrom_cons run
    obtain ⟨rfl, fed⟩ := step_reads status stepped
    have expects' : (r.parser.feed room octets).Expects := ⟨expects.healthy, expects.consumed, expects.top⟩
    have arrives : (r.parser.data ++ octets) ++ (rest.map (·.2)).flatten = header kind text := by
      rw [List.append_assoc]
      exact whole
    by_cases ends : (rest.map (·.2)).flatten = []
    · rw [ends, List.append_nil] at arrives
      exact judged_whole expects' fed run lined free acceptable arrives ends
    · -- more is needed and the next read decides, unless this one was the cut inside the end
      have waiting (short : nextToken r.parser.limits (r.parser.data ++ octets) = .more)
          (later : text.length = r.parser.limits.maxRespLineBytes →
            r.parser.data ++ octets ≠ kindToPrefix kind :: (text ++ [cr])) :
          Judged r last ((room, octets) :: rest) kind text := by
        rw [← fed] at short
        obtain ⟨answer, again, limits, kept⟩ := expects'.drain_more short
        have data : (r.take room octets).parser.data = r.parser.data ++ octets := kept.trans fed
        have limits : (r.take room octets).parser.limits = r.parser.limits := limits
        have further : Judged (r.take room octets) last rest kind text := by
          apply ih again answer (limits ▸ acceptable) (data ▸ arrives) _ run
          rw [data]
          intro all
          rw [all] at arrives
          exact ends (List.append_right_eq_self.mp arrives)
        rw [Judged, limits, data] at further
        rw [Judged, further]
        refine or_congr_right (and_congr_right fun measured => Iff.symm ?_)
        apply cutInside_cons
        exact later measured
      cases arrived : r.parser.data ++ octets with
      | nil =>
        rw [arrived] at waiting
        exact waiting rfl fun _ => nofun
      | cons first front =>
        rw [arrived] at arrives waiting
        obtain rfl : first = kindToPrefix kind := (List.cons.inj arrives).1
        have token := nextToken_partial (r.parser.limits) lined free arrives ends
        by_cases overlong : front.length > r.parser.limits.maxRespLineBytes
        · rw [if_pos overlong] at token
          exact judged_overlong expects' fed run token arrived (List.cons.inj arrives).2 ends overlong
        · rw [if_neg overlong] at token
          apply waiting token
          intro measured same
          have length := congrArg List.length (List.cons.inj same).2
          simp only [List.length_append, List.length_cons, List.length_nil] at length
          omega

/-- The limit on lines is one law exactly when no line of the longest length is cut inside its end. -/
theorem lineLimit_law {r last : Reader} {cut : List (Nat × Bytes)} (expects : r.parser.Expects)
    (status : r.status = .ok none) (consumed : r.parser.data = []) (lined : kind ≠ .null ∧ kind ≠ .boolean)
    (free : findCrlf text = none) (acceptable : Acceptable r.parser.limits kind text)
    (whole : (cut.map (·.2)).flatten = header kind text) (run : runFrom step r (pieces cut) = some last) :
    (last.status = .error (.protocol .invalidLength) ↔ r.parser.limits.maxRespLineBytes < text.length) ↔
      ¬(text.length = r.parser.limits.maxRespLineBytes ∧ CutInside [] cut kind text) := by
  have verdict : Judged r last cut kind text := by
    apply judged expects status lined free acceptable _ _ run
    · rw [consumed]
      exact whole
    · rw [consumed]
      nofun
  rw [Judged, consumed] at verdict
  rw [verdict]
  constructor
  · intro law both
    exact absurd both.1 (Nat.ne_of_gt (law.mp (.inr both)))
  · intro apart
    exact ⟨fun either => either.resolve_right apart, .inl⟩

/-- A text of two octets whose end arrives in two reads. -/
def cutEnd : List (Nat × Bytes) := [(4096, wire "+OK\r"), (4096, wire "\n")]

/-- The same text, cut in its middle. -/
def cutText : List (Nat × Bytes) := [(4096, wire "+O"), (4096, wire "K\r\n")]

omit [FloatChars] in
/-- Two octets are not longer than two, and are rejected. -/
theorem cutEnd_rejected :
    letI := FloatChars.none
    (runFrom step (start { maxRespLineBytes := 2 }) (pieces cutEnd)).map status =
        some (.error (.protocol .invalidLength)) ∧
      (cutEnd.map (·.2)).flatten = header .simpleString (wire "OK") ∧ (wire "OK").length ≤ 2 := by
  let := FloatChars.none
  decide +kernel

omit [FloatChars] in
theorem cutText_accepted :
    letI := FloatChars.none
    ∃ last, runFrom step (start { maxRespLineBytes := 2 }) (pieces cutText) = some last ∧
      last.status ≠ .error (.protocol .invalidLength) := by
  let := FloatChars.none
  have reads : (runFrom step (start { maxRespLineBytes := 2 }) (pieces cutText)).isSome = true := by decide +kernel
  obtain ⟨last, run⟩ := Option.isSome_iff_exists.mp reads
  refine ⟨last, run, ?_⟩
  have uncut : ¬CutInside [] cutText .simpleString (wire "OK") := by
    rw [cutText, cutInside_cons (by decide +kernel), cutInside_cons (by decide +kernel)]
    exact not_cutInside (by decide +kernel)
  have acceptable : Acceptable (start { maxRespLineBytes := 2 }).parser.limits .simpleString (wire "OK") := trivial
  have law : (last.status = .error (.protocol .invalidLength) ↔ 2 < (wire "OK").length) ↔
      ¬((wire "OK").length = 2 ∧ CutInside [] cutText .simpleString (wire "OK")) :=
    lineLimit_law ⟨rfl, rfl, .inl rfl⟩ rfl rfl (by decide) (by decide +kernel) acceptable (by decide +kernel) run
  intro rejected
  exact absurd ((law.mpr fun both => uncut both.2).mp rejected) (by decide +kernel)

end Reader

end Rediscoro.Resp3
