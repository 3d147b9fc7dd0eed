import Rediscoro.Resp3.Buffer
import Rediscoro.Semantics.Transition

/-! The buffer as a queue of octets.

Whatever is prepared, written, committed, consumed, compacted and reset, the
buffer offers the octets committed since the last reset but for those consumed.
The span that `prepare` returns is the room behind the write position. Positions
and sizes never leave the range of `size_t`, so its arithmetic never wraps.
-/

set_option autoImplicit false

namespace Rediscoro.Resp3

open Rediscoro.Semantics

inductive BufferOp where
  | prepare (minSize : Nat)
  /-- The caller writes into the prepared span, some octets behind its start. -/
  | write (offset : Nat) (octets : Bytes)
  | commit (n : Nat)
  | consume (n : Nat)
  | compact
  | reset
  deriving DecidableEq, Repr

/-- Some octets of a list are replaced by others. -/
def overwrite (octets : Bytes) (offset : Nat) (chunk : Bytes) : Bytes :=
  octets.take offset ++ chunk ++ octets.drop (offset + chunk.length)

theorem length_overwrite {octets chunk : Bytes} {offset : Nat} (fits : offset + chunk.length ≤ octets.length) :
    (overwrite octets offset chunk).length = octets.length := by
  simp only [overwrite, List.length_append, List.length_take, List.length_drop]
  omega

/-! What a queue of octets is: what was put in, and how much of it was taken out. -/

structure ByteQueue where
  committed : Bytes := []
  consumed : Nat := 0
  /-- Room for more, with what the caller has written there. -/
  span : Bytes := []

namespace ByteQueue

def unread (q : ByteQueue) : Bytes := q.committed.drop q.consumed

/-- A span that is given out anew may hold anything. -/
inductive Step : ByteQueue → BufferOp → ByteQueue → Prop where
  | prepare {q : ByteQueue} {n : Nat} (span : Bytes) (room : n ≤ span.length) :
      Step q (.prepare n) { q with span := span }
  | write {q : ByteQueue} {offset : Nat} {chunk : Bytes} (fits : offset + chunk.length ≤ q.span.length) :
      Step q (.write offset chunk) { q with span := overwrite q.span offset chunk }
  | commit {q : ByteQueue} {n : Nat} (within : n ≤ q.span.length) :
      Step q (.commit n) { q with committed := q.committed ++ q.span.take n, span := q.span.drop n }
  | consume {q : ByteQueue} {n : Nat} (held : n ≤ q.unread.length) :
      Step q (.consume n) { q with consumed := q.consumed + n }
  | compact {q : ByteQueue} (span : Bytes) : Step q .compact { q with span := span }
  | reset {q : ByteQueue} (span : Bytes) : Step q .reset { span := span }

inductive Run : ByteQueue → List BufferOp → ByteQueue → Prop where
  | nil (q : ByteQueue) : Run q [] q
  | cons {q next last : ByteQueue} {op : BufferOp} {rest : List BufferOp} (step : Step q op next)
      (later : Run next rest last) : Run q (op :: rest) last

end ByteQueue

namespace Buffer

/-- The room behind the write position. -/
def span (buf : Buffer) : Bytes := buf.bytes.drop buf.writePos

theorem length_span (buf : Buffer) : buf.span.length = buf.available := by simp [span, available]

def fill (buf : Buffer) (offset : Nat) (chunk : Bytes) (fits : offset + chunk.length ≤ buf.available) : Buffer :=
  { buf with
    bytes := buf.bytes.take buf.writePos ++ overwrite buf.span offset chunk
    write_le := by
      have := buf.write_le
      simp only [List.length_append, List.length_take, length_overwrite (buf.length_span ▸ fits), length_span,
        available]
      omega }

/-- `none` where an assertion fails, or the caller leaves the span or the range of `size_t`. -/
def step (buf : Buffer) : BufferOp → Option Buffer
  | .prepare n => if buf.writePos + n ≤ sizeMax then some (buf.prepare n) else none
  | .write offset chunk =>
      if fits : offset + chunk.length ≤ buf.available then some (buf.fill offset chunk fits) else none
  | .commit n => if n ≤ buf.available then some (buf.commit n) else none
  | .consume n => if n ≤ buf.size then some (buf.consume n) else none
  | .compact => some buf.compact
  | .reset => some buf.reset

/-! What the operations do to the unread octets and to the span. -/

theorem data_commit (buf : Buffer) {n : Nat} (within : n ≤ buf.available) :
    (buf.commit n).data = buf.data ++ buf.span.take n := by
  have order := buf.read_le
  have bound := buf.write_le
  rw [available] at within
  have moved : (buf.commit n).writePos = buf.writePos + n := Nat.min_eq_left (by omega)
  rw [data_eq_drop_take, data_eq_drop_take, moved]
  simp only [commit, span]
  rw [List.take_add, List.drop_append_of_le_length]
  rw [List.length_take]
  omega

theorem span_commit (buf : Buffer) {n : Nat} (within : n ≤ buf.available) : (buf.commit n).span = buf.span.drop n := by
  have bound := buf.write_le
  rw [available] at within
  have moved : (buf.commit n).writePos = buf.writePos + n := Nat.min_eq_left (by omega)
  rw [span, moved, span, List.drop_drop]
  rfl

section Fill

variable (buf : Buffer) {offset : Nat} {chunk : Bytes} (fits : offset + chunk.length ≤ buf.available)

theorem data_fill : (buf.fill offset chunk fits).data = buf.data := by
  have bound := buf.write_le
  rw [data_eq_drop_take, data_eq_drop_take]
  simp only [fill]
  rw [List.take_append_of_le_length, List.take_take, Nat.min_self]
  rw [List.length_take]
  omega

theorem span_fill : (buf.fill offset chunk fits).span = overwrite buf.span offset chunk := by
  have front : (buf.bytes.take buf.writePos).length = buf.writePos := List.length_take_of_le buf.write_le
  exact List.drop_left' front

end Fill

/-! Sizes. -/

/-- Every size the growth loop comes to lies between the write position and the largest `size_t`. -/
theorem growSize_le {buf : Buffer} {n : Nat} (sized : buf.bytes.length ≤ sizeMax)
    (representable : buf.writePos + n ≤ sizeMax) : buf.growSize n ≤ sizeMax := by
  have bound := buf.write_le
  apply run_invariant (growPass_decreases buf.writePos n)
    (fun newSize => buf.writePos ≤ newSize.val ∧ newSize.val ≤ sizeMax) (fun newSize => newSize ≤ sizeMax)
  · rintro newSize next ⟨reached, small⟩ pass
    unfold growPass at pass
    split at pass
    · split at pass
      · cases pass
      · -- a size that is doubled is at most half of the largest
        cases pass
        dsimp only
        omega
    · cases pass
  · rintro newSize result ⟨reached, small⟩ pass
    unfold growPass at pass
    split at pass
    · split at pass
      · cases pass
        exact representable
      · cases pass
    · cases pass
      exact small
  · split
    · exact ⟨bound, sized⟩
    · exact ⟨by dsimp only; omega, by decide⟩

theorem length_prepare_le {buf : Buffer} {n : Nat} (sized : buf.bytes.length ≤ sizeMax)
    (representable : buf.writePos + n ≤ sizeMax) : (buf.prepare n).bytes.length ≤ sizeMax := by
  have grown := growSize_le sized representable
  unfold prepare ensureWritable
  split
  · rw [List.length_replicate]
    have least : 1 ≤ sizeMax := by decide
    omega
  · split
    · exact sized
    · simp only [resize, List.length_append, List.length_replicate]
      omega

theorem length_compact (buf : Buffer) : buf.compact.bytes.length = buf.bytes.length := by
  have bound := buf.write_le
  have size := buf.data_length
  unfold compact
  split
  · rfl
  · simp only [List.length_append, List.length_drop, Buffer.size] at size ⊢
    omega

/-! The buffer follows the queue. -/

structure Follows (buf : Buffer) (q : ByteQueue) : Prop where
  data : buf.data = q.unread
  span : buf.span = q.span
  counted : q.consumed ≤ q.committed.length
  sized : buf.bytes.length ≤ sizeMax

theorem Follows.step {buf next : Buffer} {q : ByteQueue} {op : BufferOp} (follows : buf.Follows q)
    (stepped : buf.step op = some next) : ∃ q', ByteQueue.Step q op q' ∧ next.Follows q' := by
  have counted := follows.counted
  cases op with
  | prepare n =>
    rw [Buffer.step] at stepped
    split at stepped
    · rename_i representable
      cases stepped
      refine ⟨_, .prepare (buf.prepare n).span ?_, ?_, rfl, counted, length_prepare_le follows.sized representable⟩
      · rw [length_span]
        exact buf.le_available_prepare n
      · rw [data_prepare, follows.data]
        rfl
    · cases stepped
  | write offset chunk =>
    rw [Buffer.step] at stepped
    split at stepped
    · rename_i fits
      cases stepped
      refine ⟨_, .write ?_, ?_, ?_, counted, ?_⟩
      · rw [← follows.span, length_span]
        exact fits
      · rw [data_fill, follows.data]
        rfl
      · rw [span_fill, follows.span]
      · have sized := follows.sized
        have bound := buf.write_le
        have length : (buf.fill offset chunk fits).bytes.length = buf.bytes.length := by
          simp only [fill, List.length_append, List.length_take, length_overwrite (buf.length_span ▸ fits), length_span,
            available]
          omega
        rw [length]
        exact sized
    · cases stepped
  | commit n =>
    rw [Buffer.step] at stepped
    split at stepped
    · rename_i within
      cases stepped
      refine ⟨_, .commit ?_, ?_, ?_, ?_, follows.sized⟩
      · rw [← follows.span, length_span]
        exact within
      · rw [data_commit buf within, follows.data, follows.span]
        exact (List.drop_append_of_le_length counted).symm
      · rw [span_commit buf within, follows.span]
      · rw [List.length_append]
        exact Nat.le_add_right_of_le counted
    · cases stepped
  | consume n =>
    rw [Buffer.step] at stepped
    split at stepped
    · rename_i held
      cases stepped
      rw [← data_length, follows.data] at held
      refine ⟨_, .consume held, ?_, follows.span, ?_, follows.sized⟩
      · rw [data_consume, follows.data]
        exact List.drop_drop
      · rw [ByteQueue.unread, List.length_drop] at held
        dsimp only
        omega
    · cases stepped
  | compact =>
    cases stepped
    refine ⟨_, .compact buf.compact.span, ?_, rfl, counted, ?_⟩
    · rw [data_compact, follows.data]
      rfl
    · rw [length_compact]
      exact follows.sized
  | reset =>
    cases stepped
    exact ⟨_, .reset buf.reset.span, data_reset buf, rfl, Nat.le_refl 0, follows.sized⟩

theorem Follows.run {buf last : Buffer} {q : ByteQueue} {ops : List BufferOp} (follows : buf.Follows q)
    (run : runFrom Buffer.step buf ops = some last) : ∃ q', ByteQueue.Run q ops q' ∧ last.Follows q' := by
  induction ops generalizing buf q with
  | nil =>
    cases run
    exact ⟨q, .nil q, follows⟩
  | cons op rest ih =>
    obtain ⟨next, stepped, run⟩ := runFrom_cons run
    obtain ⟨middle, step, follows⟩ := follows.step stepped
    obtain ⟨q', later, follows⟩ := ih follows run
    exact ⟨q', .cons step later, follows⟩

/-- In every run the positions stay in order and the unread octets are those of the queue;
`prepare` always finds room, and neither it nor `compact` changes what is offered. -/
theorem buffer_follows_queue {initialCapacity : Nat} (small : initialCapacity ≤ sizeMax) {ops : List BufferOp}
    {buf : Buffer} (run : runFrom Buffer.step (ofCapacity initialCapacity) ops = some buf) :
    (∃ q, ByteQueue.Run { span := (ofCapacity initialCapacity).span } ops q ∧ buf.data = q.committed.drop q.consumed) ∧
      (buf.readPos ≤ buf.writePos ∧ buf.writePos ≤ buf.bytes.length ∧ buf.bytes.length ≤ sizeMax) ∧
      (∀ n, buf.writePos + n ≤ sizeMax →
        n ≤ (buf.prepare n).available ∧ (buf.prepare n).bytes.length ≤ sizeMax ∧ (buf.prepare n).data = buf.data) ∧
      buf.compact.data = buf.data := by
  have start : (ofCapacity initialCapacity).Follows { span := (ofCapacity initialCapacity).span } := by
    refine ⟨rfl, rfl, Nat.le_refl 0, ?_⟩
    simp only [ofCapacity, List.length_replicate]
    split
    · decide
    · exact small
  obtain ⟨q, runs, follows⟩ := start.run run
  refine ⟨⟨q, runs, follows.data⟩, ⟨buf.read_le, buf.write_le, follows.sized⟩, fun n representable => ?_,
    buf.data_compact⟩
  exact ⟨buf.le_available_prepare n, length_prepare_le follows.sized representable, buf.data_prepare n⟩

/-- Five octets go through a buffer of four, compacted in between. -/
theorem buffer_follows_queue_compacted :
    ∃ buf, runFrom Buffer.step (ofCapacity 4)
      [.prepare 3, .write 0 [1, 2, 3], .commit 3, .consume 2, .compact, .prepare 2, .write 0 [4, 5], .commit 2] =
      some buf ∧
      (∃ q, ByteQueue.Run { span := (ofCapacity 4).span }
        [.prepare 3, .write 0 [1, 2, 3], .commit 3, .consume 2, .compact, .prepare 2, .write 0 [4, 5], .commit 2] q ∧
        buf.data = q.committed.drop q.consumed) ∧ buf.data = [3, 4, 5] := by
  have run : ((runFrom Buffer.step (ofCapacity 4)
      [.prepare 3, .write 0 [1, 2, 3], .commit 3, .consume 2, .compact, .prepare 2, .write 0 [4, 5], .commit 2]).map
      data) = some [3, 4, 5] := by decide
  obtain ⟨buf, reached, offered⟩ := Option.map_eq_some_iff.mp run
  exact ⟨buf, reached, (buffer_follows_queue (by decide) reached).1, offered⟩

end Buffer

end Rediscoro.Resp3
