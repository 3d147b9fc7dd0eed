import Rediscoro.Resp3.Kind
import Rediscoro.Semantics.Loop

/-! The parser's input buffer and the text views into it.

A buffer owns one vector and two positions. Beside the source's three members
the model keeps `storage`, the identity of the vector's allocation, which every
enlarging `resize` replaces. A view names the allocation it points into, so a
view that survived a reallocation is recognised. Nothing is known of what a look
through such a view finds: a `Memory` says it, and whoever looks is given one.
-/

set_option autoImplicit false

namespace Rediscoro.Resp3

open Rediscoro.Semantics

/-- The positions never leave the vector; the source asserts this at each call. -/
structure Buffer where
  bytes : Bytes
  readPos : Nat
  writePos : Nat
  storage : Nat
  read_le : readPos ≤ writePos
  write_le : writePos ≤ bytes.length

/-- `raw_node::text`: a `string_view` into the buffer's vector. -/
structure View where
  storage : Nat
  offset : Nat
  length : Nat
  deriving DecidableEq, Repr

/-- The octets of a text. -/
abbrev Text := Bytes

/-- The octet found at each position of a view whose storage is gone. -/
abbrev Memory := View → Nat → UInt8

/-- The storage was overwritten with zeros. -/
def Memory.zeroed : Memory := fun _ _ => 0

namespace Buffer

def ofCapacity (initialCapacity : Nat) : Buffer :=
  { bytes := List.replicate (if initialCapacity = 0 then 1 else initialCapacity) 0
    readPos := 0, writePos := 0, storage := 0, read_le := Nat.le_refl 0, write_le := Nat.zero_le _ }

def fresh : Buffer := ofCapacity 4096

def size (buf : Buffer) : Nat := buf.writePos - buf.readPos

def data (buf : Buffer) : Bytes := (buf.bytes.drop buf.readPos).take (buf.writePos - buf.readPos)

/-- Room behind the write position: the size of the span `prepare` returns. -/
def available (buf : Buffer) : Nat := buf.bytes.length - buf.writePos

/-! Growth. `new_size` doubles until the request fits, unless doubling would overflow. -/

def sizeMax : Nat := 2 ^ 64 - 1

def growPass (writePos n : Nat) (newSize : { k : Nat // 0 < k }) : Pass { k : Nat // 0 < k } Nat :=
  if newSize.val - writePos < n then
    if newSize.val > sizeMax / 2 then .leave (writePos + n)
    else .again ⟨newSize.val * 2, Nat.mul_pos newSize.property (by decide)⟩
  else .leave newSize.val

theorem growPass_decreases (writePos n : Nat) :
    Decreases (growPass writePos n) (fun newSize => 2 ^ 64 - newSize.val) := by
  intro newSize next pass
  have positive := newSize.property
  unfold growPass at pass
  split at pass
  · split at pass
    · cases pass
    · rename_i small
      unfold sizeMax at small
      cases pass
      dsimp only
      omega
  · cases pass

/-- The size the vector is resized to when `n` octets do not fit. -/
def growSize (buf : Buffer) (n : Nat) : Nat :=
  run (growPass_decreases buf.writePos n)
    (if positive : 0 < buf.bytes.length then ⟨buf.bytes.length, positive⟩ else ⟨1, Nat.one_pos⟩)

/-- `buffer_.resize`: an enlarged vector is a new allocation. -/
def resize (buf : Buffer) (newSize : Nat) : Buffer :=
  { buf with
    bytes := buf.bytes ++ List.replicate (newSize - buf.bytes.length) 0
    storage := if buf.bytes.length < newSize then buf.storage + 1 else buf.storage
    write_le := by
      have := buf.write_le
      simp only [List.length_append]
      omega }

def ensureWritable (buf : Buffer) (n : Nat) : Buffer :=
  if buf.bytes = [] then
    { bytes := List.replicate (max n 1) 0, readPos := 0, writePos := 0, storage := buf.storage + 1
      read_le := Nat.le_refl 0, write_le := Nat.zero_le _ }
  else if n ≤ buf.available then buf
  else buf.resize (buf.growSize n)

def prepare (buf : Buffer) (minSize : Nat) : Buffer := buf.ensureWritable minSize

/-- The caller's writes into the prepared span, which end where the span does. -/
def write (buf : Buffer) (chunk : Bytes) : Buffer :=
  { buf with
    bytes := buf.bytes.take buf.writePos ++ chunk.take buf.available ++
      buf.bytes.drop (buf.writePos + (chunk.take buf.available).length)
    write_le := by
      have := buf.write_le
      simp only [List.length_append, List.length_take, List.length_drop, available]
      omega }

/-- `n <= buffer_.size() - write_pos_` is asserted; a larger `n` would stop at the end. -/
def commit (buf : Buffer) (n : Nat) : Buffer :=
  { buf with
    writePos := min (buf.writePos + n) buf.bytes.length
    read_le := by have := buf.read_le; have := buf.write_le; omega
    write_le := Nat.min_le_right _ _ }

/-- `n <= size()` is asserted; a larger `n` would stop at the write position. -/
def consume (buf : Buffer) (n : Nat) : Buffer :=
  { buf with
    readPos := min (buf.readPos + n) buf.writePos
    read_le := Nat.min_le_right _ _ }

def reset (buf : Buffer) : Buffer :=
  { buf with readPos := 0, writePos := 0, read_le := Nat.le_refl 0, write_le := Nat.zero_le _ }

/-- Moves the unread octets to the front of the same allocation. -/
def compact (buf : Buffer) : Buffer :=
  if buf.readPos = 0 then buf
  else
    { buf with
      bytes := buf.data ++ buf.bytes.drop buf.data.length
      readPos := 0, writePos := buf.size
      read_le := Nat.zero_le _
      write_le := by
        have := buf.write_le
        have := buf.read_le
        simp only [size, data, List.length_append, List.length_take, List.length_drop]
        omega }

/-- One chunk of input as every caller delivers it: room is prepared, the chunk
is written into the returned span and its octets are committed. -/
def feed (buf : Buffer) (minSize : Nat) (chunk : Bytes) : Buffer :=
  ((buf.prepare minSize).write chunk).commit chunk.length

/-- `prepare` enlarges the vector, and so moves it to a new allocation. -/
def Grows (buf : Buffer) (n : Nat) : Prop := buf.bytes = [] ∨ buf.available < n

instance (buf : Buffer) (n : Nat) : Decidable (buf.Grows n) := inferInstanceAs (Decidable (_ ∨ _))

/-- A view of `length` octets, `offset` octets into the unread data. -/
def slice (buf : Buffer) (offset length : Nat) : View := ⟨buf.storage, buf.readPos + offset, length⟩

/-- Reading through a view; an empty view is never dereferenced. -/
def read (buf : Buffer) (view : View) : Option Text :=
  if view.length = 0 then some []
  else if view.storage = buf.storage then some ((buf.bytes.drop view.offset).take view.length)
  else none

/-- A look through a view, which finds as many octets as the view is long wherever it points. -/
def look (memory : Memory) (buf : Buffer) (view : View) : Text :=
  (buf.read view).getD ((List.range view.length).map (memory view))

/-! What the operations do to the unread octets. -/

theorem data_length (buf : Buffer) : buf.data.length = buf.size := by
  have := buf.write_le
  have := buf.read_le
  simp only [data, size, List.length_take, List.length_drop]
  omega

theorem data_eq_drop_take (buf : Buffer) : buf.data = (buf.bytes.take buf.writePos).drop buf.readPos := by
  rw [data, List.drop_take]

@[simp] theorem data_consume (buf : Buffer) (n : Nat) : (buf.consume n).data = buf.data.drop n := by
  have length := buf.data_length
  rw [data_eq_drop_take, data_eq_drop_take, List.drop_drop]
  simp only [consume]
  rcases Nat.le_total (buf.readPos + n) buf.writePos with within | beyond
  · rw [Nat.min_eq_left within]
  · rw [Nat.min_eq_right beyond, List.drop_of_length_le, List.drop_of_length_le] <;>
      simp only [List.length_take] <;> omega

@[simp] theorem data_reset (buf : Buffer) : buf.reset.data = [] := by
  simp [reset, data]

@[simp] theorem data_compact (buf : Buffer) : buf.compact.data = buf.data := by
  unfold compact
  split
  · rfl
  · rw [data_eq_drop_take]
    simp only [List.drop_zero, ← data_length, List.take_left]

theorem le_growSize (buf : Buffer) (n : Nat) : n ≤ buf.growSize n - buf.writePos := by
  refine run_invariant (growPass_decreases buf.writePos n) (fun _ => True)
    (fun newSize => n ≤ newSize - buf.writePos) (fun _ _ _ _ => trivial) ?_ _ trivial
  intro newSize result _ pass
  unfold growPass at pass
  split at pass
  · split at pass
    · cases pass; omega
    · cases pass
  · cases pass; omega

theorem le_available_prepare (buf : Buffer) (n : Nat) : n ≤ (buf.prepare n).available := by
  have grown := buf.le_growSize n
  unfold prepare ensureWritable
  split
  · simp only [available, List.length_replicate]; omega
  · split
    · assumption
    · simp only [available, resize, List.length_append, List.length_replicate]; omega

theorem storage_prepare (buf : Buffer) (n : Nat) :
    (buf.prepare n).storage = if buf.Grows n then buf.storage + 1 else buf.storage := by
  have grown := buf.le_growSize n
  unfold prepare ensureWritable Grows
  by_cases empty : buf.bytes = []
  · simp [empty]
  · by_cases fits : n ≤ buf.available
    · simp [empty, fits]
    · have enlarged : buf.bytes.length < buf.growSize n := by
        have := buf.write_le
        simp only [available] at fits
        omega
      simp [empty, fits, resize, enlarged]

theorem prepare_of_not_grows {buf : Buffer} {n : Nat} (stays : ¬ buf.Grows n) : buf.prepare n = buf := by
  simp only [Grows, not_or, Nat.not_lt] at stays
  simp [prepare, ensureWritable, stays]

@[simp] theorem data_prepare (buf : Buffer) (n : Nat) : (buf.prepare n).data = buf.data := by
  have room := buf.write_le
  unfold prepare ensureWritable
  split
  · rename_i empty
    simp [data, empty]
  · split
    · rfl
    · simp only [data, resize]
      rw [List.drop_append_of_le_length (by have := buf.read_le; omega),
        List.take_append_of_le_length (by simp only [List.length_drop]; omega)]

theorem data_commit_write (buf : Buffer) {chunk : Bytes} (room : chunk.length ≤ buf.available) :
    ((buf.write chunk).commit chunk.length).data = buf.data ++ chunk := by
  have readLe := buf.read_le
  have writeLe := buf.write_le
  have whole : chunk.take buf.available = chunk := List.take_of_length_le room
  have front : (buf.bytes.take buf.writePos).length = buf.writePos := by
    rw [List.length_take]; omega
  simp only [available] at room
  -- The write position moves exactly past the chunk, so the readable part is front ++ chunk.
  have readable : ((buf.write chunk).commit chunk.length).bytes.take
      ((buf.write chunk).commit chunk.length).writePos = buf.bytes.take buf.writePos ++ chunk := by
    simp only [commit, write, whole]
    rw [Nat.min_eq_left (by simp only [List.length_append, List.length_drop, front]; omega),
      List.take_append_of_le_length (by simp only [List.length_append, front]; omega),
      List.take_of_length_le (by simp only [List.length_append, front]; omega)]
  rw [data_eq_drop_take, data_eq_drop_take, readable]
  exact List.drop_append_of_le_length (front.symm ▸ readLe)

/-- A fed chunk that fits the prepared span joins the unread octets at their end. -/
theorem data_feed (buf : Buffer) {n : Nat} {chunk : Bytes} (fits : chunk.length ≤ (buf.prepare n).available) :
    (buf.feed n chunk).data = buf.data ++ chunk := by
  rw [feed, data_commit_write _ fits, data_prepare]

@[simp] theorem read_consume (buf : Buffer) (n : Nat) : (buf.consume n).read = buf.read := rfl

theorem read_slice (buf : Buffer) {offset length : Nat} (within : offset + length ≤ buf.data.length) :
    buf.read (buf.slice offset length) = some ((buf.data.drop offset).take length) := by
  rw [data_length, size] at within
  unfold read slice
  split
  · rename_i empty
    simp only at empty
    simp [empty]
  · rw [if_pos rfl, data, List.drop_take, List.drop_drop, List.take_take, Nat.min_eq_left (by omega)]

/-- Octets below the write position keep their place while others are written behind them. -/
theorem read_commit_write {buf : Buffer} {chunk : Bytes} {view : View}
    (below : view.offset + view.length ≤ buf.writePos) :
    ((buf.write chunk).commit chunk.length).read view = buf.read view := by
  have room := buf.write_le
  simp only [read, commit, write]
  rw [List.append_assoc, List.drop_append_of_le_length (by simp only [List.length_take]; omega),
    List.take_append_of_le_length (by simp only [List.length_take, List.length_drop]; omega),
    List.drop_take, List.take_take, Nat.min_eq_left (by omega)]
  rfl

/-- Texts in the storage that the buffer has do not depend on what is found elsewhere. -/
theorem look_here {buf : Buffer} {view : View} (here : view.storage = buf.storage) (memory later : Memory) :
    buf.look memory view = buf.look later view := by
  unfold look read
  rw [if_pos here]
  split <;> rfl

/-- A look finds as many octets as the view promises, in the buffer or elsewhere. -/
theorem look_length {buf : Buffer} {view : View} (memory : Memory)
    (below : view.offset + view.length ≤ buf.writePos) : (buf.look memory view).length = view.length := by
  have room := buf.write_le
  unfold look read
  split
  · rename_i empty
    exact empty.symm
  · split
    · rw [Option.getD_some, List.length_take, List.length_drop]
      omega
    · rw [Option.getD_none, List.length_map, List.length_range]

/-- The octets that the views have shown so far, found again when their storage is gone. -/
def remembered (memory : Memory) (buf : Buffer) : Memory := fun view i => (buf.look memory view).getD i 0

theorem look_remembered {memory : Memory} {buf moved : Buffer} {view : View} (gone : view.storage ≠ moved.storage)
    (below : view.offset + view.length ≤ buf.writePos) :
    moved.look (buf.remembered memory) view = buf.look memory view := by
  have whole := look_length memory below
  by_cases empty : view.length = 0
  · simp [look, read, empty]
  · have lost : moved.read view = none := by rw [read, if_neg empty, if_neg gone]
    rw [look, lost, Option.getD_none, ← whole]
    apply List.ext_getElem?
    intro i
    rw [List.getElem?_map]
    by_cases inside : i < (buf.look memory view).length
    · rw [List.getElem?_range inside, List.getElem?_eq_getElem inside]
      simp [remembered, inside]
    · rw [List.getElem?_eq_none (by simpa using inside), List.getElem?_eq_none (Nat.not_lt.mp inside)]
      rfl

theorem storage_feed (buf : Buffer) (n : Nat) (chunk : Bytes) :
    (buf.feed n chunk).storage = if buf.Grows n then buf.storage + 1 else buf.storage :=
  buf.storage_prepare n

@[simp] theorem writePos_prepare (buf : Buffer) (n : Nat) : (buf.prepare n).writePos = buf.writePos := by
  unfold prepare ensureWritable
  split
  · rename_i empty
    have bound := buf.write_le
    rw [empty] at bound
    exact (Nat.le_zero.mp bound).symm
  · split <;> rfl

theorem writePos_le_commit_write (buf : Buffer) (chunk : Bytes) :
    buf.writePos ≤ ((buf.write chunk).commit chunk.length).writePos := by
  have bound := (buf.write chunk).write_le
  have same : (buf.write chunk).writePos = buf.writePos := rfl
  show _ ≤ min (buf.writePos + chunk.length) (buf.write chunk).bytes.length
  omega

end Buffer

end Rediscoro.Resp3
