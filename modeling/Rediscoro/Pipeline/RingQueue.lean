import Mathlib.Data.List.Forall2
import Rediscoro.Semantics.Loop
import Rediscoro.Semantics.Ring
import Rediscoro.Semantics.Transition

/-! `ring_queue`: the queue behind both queues of the pipeline.

The storage is a list of cells, as many as the capacity; a cell holds a value
while an element is constructed in it. Queues live side by side in a store, where
one can be made or assigned by moving another. `none` says where an assertion of
the source fails.
-/

set_option autoImplicit false

namespace Rediscoro.Pipeline

open Rediscoro.Semantics

variable {α : Type}

/-- What the allocator type says of itself. -/
structure AllocTraits where
  propagateOnContainerMoveAssignment : Bool
  isAlwaysEqual : Bool
  /-- There is an `==`. -/
  comparable : Bool

structure RingQueue (α : Type) where
  /-- Equal allocators have equal numbers. -/
  alloc : Nat := 0
  data : List (Option α) := []
  head : Nat := 0
  size : Nat := 0

namespace RingQueue

def cap (q : RingQueue α) : Nat := q.data.length

def front (q : RingQueue α) : Option α := if 0 < q.size then (q.data[q.head]?).join else none

def popFront (q : RingQueue α) : Option (RingQueue α) :=
  if 0 < q.size ∧ 0 < q.cap then
    some { q with
      data := q.data.set q.head none
      head := if q.size - 1 = 0 then 0 else (q.head + 1) % q.cap
      size := q.size - 1 }
  else none

/-! Growth. -/

theorem doubled_pos (newCap : { k : Nat // 0 < k }) : 0 < newCap.val * 2 := Nat.mul_pos newCap.property Nat.two_pos

def growPass (need : Nat) (newCap : { k : Nat // 0 < k }) : Pass { k : Nat // 0 < k } Nat :=
  if newCap.val < need then .again ⟨newCap.val * 2, doubled_pos newCap⟩ else .leave newCap.val

theorem growPass_decreases (need : Nat) : Decreases (growPass need) fun newCap => need - newCap.val := by
  intro newCap next pass
  have positive := newCap.property
  unfold growPass at pass
  split at pass
  · cases pass
    dsimp only
    omega
  · cases pass

/-- The capacity that the doubling comes to. -/
def grownCap (q : RingQueue α) (need : Nat) : Nat :=
  run (growPass_decreases need) ⟨max 8 q.cap, by omega⟩

/-- The elements are moved to the front of the new storage. -/
def ensureCapacity (q : RingQueue α) (need : Nat) : RingQueue α :=
  if need ≤ q.cap then q
  else
    { q with
      data := window q.data q.head q.size ++ List.replicate (q.grownCap need - q.size) none
      head := 0 }

/-- Constructs a value behind the last one; there is room for it. -/
def construct (q : RingQueue α) (value : α) : RingQueue α :=
  { q with data := q.data.set ((q.head + q.size) % q.cap) (some value), size := q.size + 1 }

/-- `emplace_back`, and `push_back` with it. -/
def emplaceBack (q : RingQueue α) (value : α) : RingQueue α := (q.ensureCapacity (q.size + 1)).construct value

/-! Clearing and moving. -/

theorem size_popFront {q next : RingQueue α} (popped : q.popFront = some next) : next.size < q.size := by
  unfold popFront at popped
  split at popped
  · rename_i held
    cases popped
    dsimp only
    omega
  · cases popped

def clearPass (q : RingQueue α) : Pass (RingQueue α) (Option (RingQueue α)) :=
  if 0 < q.size then
    match q.popFront with
    | some next => .again next
    | none => .leave none
  else .leave (some { q with head := 0 })

theorem clearPass_decreases : Decreases (clearPass (α := α)) size := by
  intro q next pass
  unfold clearPass at pass
  split at pass
  · split at pass
    · rename_i popped
      cases pass
      exact size_popFront popped
    · cases pass
  · cases pass

def clear (q : RingQueue α) : Option (RingQueue α) := run clearPass_decreases q

def clearAndDeallocate (q : RingQueue α) : Option (RingQueue α) :=
  q.clear.map fun q => if q.data = [] then q else { q with data := [], head := 0 }

/-- What is left of a queue whose storage was taken. -/
def robbed (q : RingQueue α) : RingQueue α := { q with data := [], head := 0, size := 0 }

/-- `steal_storage`: the queue with the storage of the other. -/
def steal (q other : RingQueue α) : RingQueue α :=
  { q with data := other.data, head := other.head, size := other.size }

/-- One element is moved from the second queue to the first. -/
def transferPass (queues : RingQueue α × RingQueue α) :
    Pass (RingQueue α × RingQueue α) (Option (RingQueue α × RingQueue α)) :=
  if queues.2.size = 0 then .leave (some queues)
  else
    match queues.2.front, queues.2.popFront with
    | some value, some rest => .again (queues.1.emplaceBack value, rest)
    | _, _ => .leave none

theorem transferPass_decreases : Decreases (transferPass (α := α)) fun queues => queues.2.size := by
  intro queues next pass
  unfold transferPass at pass
  split at pass
  · cases pass
  · split at pass
    · rename_i popped
      cases pass
      exact size_popFront popped
    · cases pass

def transfer (q other : RingQueue α) : Option (RingQueue α × RingQueue α) := run transferPass_decreases (q, other)

def canStealStorageFrom (traits : AllocTraits) (q other : RingQueue α) : Bool :=
  traits.isAlwaysEqual || (traits.comparable && q.alloc == other.alloc)

/-- The assignment `q = std::move(other)` of two different queues. -/
def moveAssign (traits : AllocTraits) (q other : RingQueue α) : Option (RingQueue α × RingQueue α) :=
  if traits.propagateOnContainerMoveAssignment then
    q.clearAndDeallocate.map fun q => ({ q with alloc := other.alloc }.steal other, other.robbed)
  else if q.canStealStorageFrom traits other then
    q.clearAndDeallocate.map fun q => (q.steal other, other.robbed)
  else q.clear.bind fun q => q.transfer other

end RingQueue

/-! Operations on queues that live side by side. -/

inductive QueueOp (α : Type) where
  | make (alloc : Nat)
  | pushBack (i : Nat) (value : α)
  | popFront (i : Nat)
  | front (i : Nat)
  | clear (i : Nat)
  | moveConstruct (i : Nat)
  | moveAssign (i j : Nat)

namespace QueueOp

/-- What an operation does, given what its parts do to a queue. -/
structure Model (α θ : Type) where
  make : Nat → θ
  pushBack : θ → α → θ
  popFront : θ → Option θ
  front : θ → Option α
  clear : θ → Option θ
  /-- The new queue and what is left of the one it was made from. -/
  moveConstruct : θ → θ × θ
  moveAssign : θ → θ → Option (θ × θ)

variable {θ : Type}

/-- `none` where an assertion fails or no such queue is there. -/
def step (m : Model α θ) (queues : List θ) : QueueOp α → Option (List θ)
  | .make alloc => some (queues ++ [m.make alloc])
  | .pushBack i value => (queues[i]?).map fun q => queues.set i (m.pushBack q value)
  | .popFront i => ((queues[i]?).bind m.popFront).map fun q => queues.set i q
  | .front i => ((queues[i]?).bind m.front).map fun _ => queues
  | .clear i => ((queues[i]?).bind m.clear).map fun q => queues.set i q
  | .moveConstruct i => (queues[i]?).map fun q => queues.set i (m.moveConstruct q).2 ++ [(m.moveConstruct q).1]
  | .moveAssign i j =>
      if i = j then some queues
      else
        (queues[i]?).bind fun q => (queues[j]?).bind fun other =>
          (m.moveAssign q other).map fun pair => (queues.set i pair.1).set j pair.2

/-- The queues of the source. -/
def rings (traits : AllocTraits) : Model α (RingQueue α) where
  make alloc := { alloc := alloc }
  pushBack := RingQueue.emplaceBack
  popFront := RingQueue.popFront
  front := RingQueue.front
  clear := RingQueue.clear
  moveConstruct q := (RingQueue.steal { alloc := q.alloc } q, q.robbed)
  moveAssign := RingQueue.moveAssign traits

/-- The reference: first in, first out. -/
def lists : Model α (List α) where
  make _ := []
  pushBack values value := values ++ [value]
  popFront
    | [] => none
    | _ :: rest => some rest
  front := List.head?
  clear _ := some []
  moveConstruct values := (values, [])
  moveAssign _ other := some (other, [])

end QueueOp

/-! A ring queue and the list it stands for. -/

namespace RingQueue

structure Represents (q : RingQueue α) (values : List α) : Prop where
  fits : q.size ≤ q.cap
  within : q.head < q.cap ∨ q.head = 0 ∧ q.cap = 0
  contents : window q.data q.head q.size = values.map some

namespace Represents

variable {q other : RingQueue α} {values more : List α} {value : α}

theorem empty (alloc : Nat) : Represents ({ alloc := alloc } : RingQueue α) [] :=
  ⟨Nat.le_refl 0, .inr ⟨rfl, rfl⟩, rfl⟩

theorem size_eq (represents : Represents q values) : q.size = values.length := by
  have lengths := congrArg List.length represents.contents
  rw [length_window, List.length_map] at lengths
  exact lengths

/-- The element in front is found, and taken off. -/
theorem pop (represents : Represents q (value :: values)) :
    q.front = some value ∧ ∃ next, q.popFront = some next ∧ Represents next values := by
  have size : q.size = values.length + 1 := represents.size_eq
  have room : values.length < q.data.length := by
    have := represents.fits
    rw [cap] at this
    omega
  have start : q.head < q.data.length := by
    rcases represents.within with inside | ⟨-, none⟩
    · exact inside
    · rw [cap] at none
      omega
  have split := represents.contents
  rw [size, window_pop room start none, List.map_cons, List.cons.injEq] at split
  refine ⟨?_, _, if_pos ⟨by omega, Nat.zero_lt_of_lt start⟩, ?_⟩
  · rw [front, if_pos (by omega)]
    exact split.1
  · refine ⟨?_, ?_, ?_⟩
    · simp only [cap, List.length_set]
      omega
    · left
      simp only [cap, List.length_set]
      split
      · omega
      · exact Nat.mod_lt _ (Nat.zero_lt_of_lt start)
    · rw [size, Nat.add_sub_cancel]
      split
      · -- the queue is empty now, and its head goes back
        rename_i last
        rw [last]
        rw [List.eq_nil_of_length_eq_zero last]
        rfl
      · exact split.2

theorem none_left (represents : Represents q []) : q.front = none ∧ q.popFront = none := by
  have size : q.size = 0 := represents.size_eq
  simp [front, popFront, size]

theorem le_grownCap (q : RingQueue α) (need : Nat) : need ≤ q.grownCap need := by
  apply run_invariant (growPass_decreases need) (fun _ => True) (fun newCap => need ≤ newCap) (fun _ _ _ _ => trivial)
    _ _ trivial
  intro newCap result _ pass
  unfold growPass at pass
  split at pass
  · cases pass
  · cases pass
    omega

/-- Growing keeps the elements in their order, wherever the head was. -/
theorem grow (represents : Represents q values) (need : Nat) :
    Represents (q.ensureCapacity need) values ∧ need ≤ (q.ensureCapacity need).cap := by
  have enough := le_grownCap q need
  have size := represents.size_eq
  have fits := represents.fits
  unfold ensureCapacity
  split
  · rename_i roomy
    exact ⟨represents, roomy⟩
  · rename_i short
    have grown : (window q.data q.head q.size ++ List.replicate (q.grownCap need - q.size) none).length =
        q.grownCap need := by
      rw [List.length_append, length_window, List.length_replicate]
      omega
    refine ⟨⟨?_, .inl ?_, ?_⟩, ?_⟩
    · simp only [cap, grown]
      omega
    · simp only [cap, grown]
      omega
    · have front := window_front (window q.data q.head q.size) (List.replicate (q.grownCap need - q.size) none)
      rw [length_window] at front
      exact front.trans represents.contents
    · simp only [cap, grown]
      exact enough

theorem construct (represents : Represents q values) (room : q.size < q.cap) (value : α) :
    Represents (q.construct value) (values ++ [value]) := by
  refine ⟨?_, ?_, ?_⟩
  · simp only [RingQueue.construct, cap, List.length_set]
    exact room
  · simp only [RingQueue.construct, cap, List.length_set]
    exact represents.within
  · simp only [RingQueue.construct, cap]
    rw [window_push room, represents.contents, List.map_append]
    rfl

theorem emplaceBack (represents : Represents q values) (value : α) :
    Represents (q.emplaceBack value) (values ++ [value]) := by
  obtain ⟨grown, roomy⟩ := represents.grow (q.size + 1)
  have size : (q.ensureCapacity (q.size + 1)).size = q.size := grown.size_eq.trans represents.size_eq.symm
  exact grown.construct (by omega) value

theorem clear (represents : Represents q values) : ∃ next, q.clear = some next ∧ Represents next [] := by
  apply run_invariant clearPass_decreases (fun q => ∃ values, Represents q values)
    (fun result => ∃ next, result = some next ∧ Represents next []) _ _ q ⟨values, represents⟩
  · rintro q next ⟨values, represents⟩ pass
    cases values with
    | nil => simp [clearPass, represents.size_eq] at pass
    | cons value rest =>
      obtain ⟨-, later, popped, shorter⟩ := represents.pop
      simp only [clearPass, represents.size_eq, List.length_cons, Nat.zero_lt_succ, if_true, popped] at pass
      cases pass
      exact ⟨rest, shorter⟩
  · rintro q result ⟨values, represents⟩ pass
    cases values with
    | nil =>
      have empty : q.size = 0 := represents.size_eq
      rw [clearPass, if_neg (by omega)] at pass
      cases pass
      refine ⟨_, rfl, represents.fits, ?_, ?_⟩
      · exact (Nat.eq_zero_or_pos q.cap).elim (fun none => .inr ⟨rfl, none⟩) .inl
      · rw [empty]
        rfl
    | cons value rest =>
      obtain ⟨-, later, popped, shorter⟩ := represents.pop
      simp only [clearPass, represents.size_eq, List.length_cons, Nat.zero_lt_succ, if_true, popped] at pass
      cases pass

theorem robbed (q : RingQueue α) : Represents q.robbed [] := ⟨Nat.le_refl 0, .inr ⟨rfl, rfl⟩, rfl⟩

theorem steal (represents : Represents other values) (q : RingQueue α) : Represents (q.steal other) values :=
  ⟨represents.fits, represents.within, represents.contents⟩

/-- Element by element the second queue goes behind the first. -/
theorem transfer (left : Represents q values) (right : Represents other more) :
    ∃ first second, q.transfer other = some (first, second) ∧ Represents first (values ++ more) ∧
      Represents second [] := by
  -- a round takes off the head of the second list
  induction more generalizing q other values with
  | nil =>
    have done : transferPass (q, other) = .leave (some (q, other)) := if_pos right.size_eq
    exact ⟨q, other, run_leave transferPass_decreases done, by rw [List.append_nil]; exact left, right⟩
  | cons value rest ih =>
    obtain ⟨front, later, popped, shorter⟩ := right.pop
    have goes : transferPass (q, other) = .again (q.emplaceBack value, later) := by
      simp [transferPass, right.size_eq, front, popped]
    obtain ⟨first, second, moved, joined, empty⟩ := ih (left.emplaceBack value) shorter
    refine ⟨first, second, (run_again transferPass_decreases goes).trans moved, ?_, empty⟩
    rw [List.append_assoc] at joined
    exact joined

theorem moveAssign (traits : AllocTraits) (left : Represents q values) (right : Represents other more) :
    ∃ first second, q.moveAssign traits other = some (first, second) ∧ Represents first more ∧
      Represents second [] := by
  obtain ⟨cleared, clears, empty⟩ := left.clear
  unfold RingQueue.moveAssign clearAndDeallocate
  rw [clears]
  split
  · exact ⟨_, _, rfl, right.steal _, .robbed other⟩
  · split
    · exact ⟨_, _, rfl, right.steal _, .robbed other⟩
    · obtain ⟨first, second, moved, joined, rest⟩ := empty.transfer right
      exact ⟨first, second, moved, joined, rest⟩

end Represents

end RingQueue

/-! Runs. -/

namespace QueueOp

open RingQueue

variable {θ κ : Type}

/-- Two models whose parts agree. -/
structure Agree (related : θ → κ → Prop) (m : Model α θ) (n : Model α κ) : Prop where
  make : ∀ alloc, related (m.make alloc) (n.make alloc)
  pushBack : ∀ {q twin} value, related q twin → related (m.pushBack q value) (n.pushBack twin value)
  popFront : ∀ {q twin}, related q twin → Option.Rel related (m.popFront q) (n.popFront twin)
  front : ∀ {q twin}, related q twin → m.front q = n.front twin
  clear : ∀ {q twin}, related q twin → Option.Rel related (m.clear q) (n.clear twin)
  moveConstruct : ∀ {q twin}, related q twin →
    related (m.moveConstruct q).1 (n.moveConstruct twin).1 ∧ related (m.moveConstruct q).2 (n.moveConstruct twin).2
  moveAssign : ∀ {q twin other counterpart}, related q twin → related other counterpart →
    Option.Rel (fun pair twins => related pair.1 twins.1 ∧ related pair.2 twins.2) (m.moveAssign q other)
      (n.moveAssign twin counterpart)

section Agree

variable {related : θ → κ → Prop} {queues : List θ} {twins : List κ}

theorem found_related (same : List.Forall₂ related queues twins) (i : Nat) :
    Option.Rel related queues[i]? twins[i]? := by
  induction same generalizing i with
  | nil => exact .none
  | cons first _ ih =>
    cases i with
    | zero => exact .some first
    | succ i => exact ih i

theorem set_related (same : List.Forall₂ related queues twins) (i : Nat) {q : θ} {twin : κ} (new : related q twin) :
    List.Forall₂ related (queues.set i q) (twins.set i twin) := by
  induction same generalizing i with
  | nil => exact .nil
  | cons first rest ih =>
    cases i with
    | zero => exact .cons new rest
    | succ i => exact .cons first (ih i)

/-- A queue is found in both stores, and the rest of the operation agrees, or in none. -/
theorem bind_related {γ δ : Type} {outcome : γ → δ → Prop} {left : Option θ} {right : Option κ} {f : θ → Option γ}
    {g : κ → Option δ} (same : Option.Rel related left right)
    (agree : ∀ q twin, related q twin → Option.Rel outcome (f q) (g twin)) :
    Option.Rel outcome (left.bind f) (right.bind g) := by
  cases same with
  | some held => exact agree _ _ held
  | none => exact .none

theorem map_related {γ δ : Type} {outcome : γ → δ → Prop} {left : Option θ} {right : Option κ} {f : θ → γ} {g : κ → δ}
    (same : Option.Rel related left right) (agree : ∀ q twin, related q twin → outcome (f q) (g twin)) :
    Option.Rel outcome (left.map f) (right.map g) := by
  cases same with
  | some held => exact .some (agree _ _ held)
  | none => exact .none

theorem step_related {m : Model α θ} {n : Model α κ} (agree : Agree related m n) (op : QueueOp α)
    (same : List.Forall₂ related queues twins) :
    Option.Rel (List.Forall₂ related) (step m queues op) (step n twins op) := by
  cases op with
  | make alloc => exact .some (List.rel_append same (.cons (agree.make alloc) .nil))
  | pushBack i value =>
    exact map_related (found_related same i) fun q twin held => set_related same i (agree.pushBack value held)
  | popFront i =>
    have popped := bind_related (found_related same i) fun q twin held => agree.popFront held
    exact map_related popped fun q twin held => set_related same i held
  | front i =>
    have seen : Option.Rel (fun (value other : α) => value = other) ((queues[i]?).bind m.front)
        ((twins[i]?).bind n.front) := by
      apply bind_related (found_related same i)
      intro q twin held
      rw [agree.front held]
      cases n.front twin with
      | none => exact .none
      | some value => exact .some rfl
    exact map_related seen fun _ _ _ => same
  | clear i =>
    have cleared := bind_related (found_related same i) fun q twin held => agree.clear held
    exact map_related cleared fun q twin held => set_related same i held
  | moveConstruct i =>
    apply map_related (found_related same i)
    intro q twin held
    obtain ⟨made, left⟩ := agree.moveConstruct held
    exact List.rel_append (set_related same i left) (.cons made .nil)
  | moveAssign i j =>
    simp only [step]
    split
    · exact .some same
    · apply bind_related (found_related same i)
      intro q twin held
      apply bind_related (found_related same j)
      intro other counterpart holds
      apply map_related (agree.moveAssign held holds)
      intro pair twins held
      exact set_related (set_related same i held.1) j held.2

end Agree

/-- A ring queue of the source and the list behind it. -/
def Refines (q : RingQueue α) (values : List α) : Prop := q.Represents values ∧ q.front = values.head?

theorem refines_of_represents {q : RingQueue α} {values : List α} (represents : q.Represents values) :
    Refines q values := by
  refine ⟨represents, ?_⟩
  cases values with
  | nil => exact represents.none_left.1
  | cons value rest => exact represents.pop.1

theorem rings_agree (traits : AllocTraits) : Agree Refines (rings traits) (lists : Model α (List α)) where
  make alloc := refines_of_represents (.empty alloc)
  pushBack value refines := refines_of_represents (refines.1.emplaceBack value)
  popFront := by
    rintro q values ⟨represents, -⟩
    cases values with
    | nil =>
      have none : (rings traits).popFront q = none := represents.none_left.2
      rw [none]
      exact .none
    | cons value rest =>
      obtain ⟨-, next, popped, shorter⟩ := represents.pop
      have some : (rings traits).popFront q = some next := popped
      rw [some]
      exact .some (refines_of_represents shorter)
  front refines := refines.2
  clear := by
    rintro q values ⟨represents, -⟩
    obtain ⟨next, cleared, empty⟩ := represents.clear
    have some : (rings traits).clear q = some next := cleared
    rw [some]
    exact .some (refines_of_represents empty)
  moveConstruct refines :=
    ⟨refines_of_represents (refines.1.steal _), refines_of_represents (.robbed _)⟩
  moveAssign := by
    rintro q values other more ⟨left, -⟩ ⟨right, -⟩
    obtain ⟨first, second, moved, joined, empty⟩ := left.moveAssign traits right
    have some : (rings traits).moveAssign q other = some (first, second) := moved
    rw [some]
    exact .some ⟨refines_of_represents joined, refines_of_represents empty⟩

/-- However queues are filled, emptied and moved, each holds what a list would hold, and an
operation fails only where it fails for lists. -/
theorem rings_refine_lists (traits : AllocTraits) (ops : List (QueueOp α)) :
    Option.Rel (List.Forall₂ Refines) (runFrom (step (rings traits)) [] ops) (runFrom (step lists) [] ops) :=
  runFrom_related (fun _ _ op same => step_related (rings_agree traits) op same) .nil ops

/-- Six elements behind a wrapped head, and growth in the middle of it. -/
example : (runFrom (step (rings ⟨false, false, false⟩)) []
    ([.make 0] ++ (List.range 8).map (.pushBack 0) ++ List.replicate 5 (.popFront 0) ++
      (List.range 6).map (.pushBack 0))).map (List.map fun q => (q.head, q.cap, window q.data q.head q.size)) =
    some [(0, 16, [5, 6, 7, 0, 1, 2, 3, 4, 5].map some)] := by decide

end QueueOp

end Rediscoro.Pipeline
