import Rediscoro.Adapter.Adapt

/-! `adapt` succeeds exactly on the messages that represent a value.

`Represents` says, by recursion on the target, when a message stands for a value;
it knows nothing of positions, errors or the order in which the adapters look at
a message. The loops over elements and entries are proved against it once, for
any adapters of what they hold.
-/

set_option autoImplicit false

namespace Rediscoro.Adapter

open Rediscoro.Semantics Rediscoro.Resp3

/-- Every integer of the message is an `std::int64_t`. -/
inductive Fits : Message → Prop where
  | scalar {value : Scalar} {attrs : Option (List (Message × Message))}
      (range : ∀ n, value = .integer n → -2 ^ 63 ≤ n ∧ n < 2 ^ 63) : Fits (.scalar value attrs)
  | sequence {kind : SequenceKind} {elements : List Message} {attrs : Option (List (Message × Message))}
      (each : ∀ element ∈ elements, Fits element) : Fits (.sequence kind elements attrs)
  | map {entries : List (Message × Message)} {attrs : Option (List (Message × Message))}
      (keys : ∀ entry ∈ entries, Fits entry.1) (values : ∀ entry ∈ entries, Fits entry.2) : Fits (.map entries attrs)

/-! Integers. -/

namespace IntegerType

variable (type : IntegerType)

/-- A value in the range of its type is cast to itself. -/
theorem wrap_eq {value : Int} (range : type.min ≤ value ∧ value ≤ type.max) : type.wrap value = value := by
  obtain ⟨signed, width⟩ := type
  obtain ⟨low, high⟩ := range
  cases signed with
  | false =>
    simp only [min, max, wrap, Bool.false_eq_true, if_false] at low high ⊢
    exact Int.emod_eq_of_lt low (by omega)
  | true =>
    simp only [min, max, wrap, if_true] at low high ⊢
    apply Int.bmod_eq_of_le_mul_two <;> cases width <;> simp only [Width.bits] at low high ⊢ <;> omega

/-- What `adapt_integral` checks before the cast: nothing but the sign at 64 bits. -/
def Passes (value : Int) : Prop :=
  if type.signed then ¬(type.width.bits < 64 ∧ (value < type.min ∨ type.max < value))
  else ¬value < 0 ∧ ¬(type.width.bits < 64 ∧ type.max < value)

/-- For an `std::int64_t` the checks are the range of the type. -/
theorem passes_iff {value : Int} (range : -2 ^ 63 ≤ value ∧ value < 2 ^ 63) :
    type.Passes value ↔ type.min ≤ value ∧ value ≤ type.max := by
  obtain ⟨signed, width⟩ := type
  cases signed <;> cases width <;>
    simp only [Passes, min, max, Width.bits, Bool.false_eq_true, if_false, if_true] <;> omega

end IntegerType

/-! Scalars. -/

section Scalars

theorem adaptString_iff (msg : Message) (value : Bytes) :
    adaptString msg = .ok value ↔
      ∃ scalar attrs, msg = .scalar scalar attrs ∧
        (scalar = .simpleString value ∨ scalar = .bulkString value ∨
          ∃ encoding, scalar = .verbatimString encoding value) := by
  cases msg with
  | scalar scalar attrs => cases scalar <;> simp [adaptString]
  | sequence kind elements attrs => simp [adaptString]
  | map entries attrs => simp [adaptString]

theorem adaptInteger_iff (type : IntegerType) {msg : Message} (fits : Fits msg) (value : type.Value) :
    adaptInteger type msg = .ok value ↔ ∃ attrs, msg = .scalar (.integer value.val) attrs := by
  cases fits with
  | sequence each => simp [adaptInteger]
  | map keys values => simp [adaptInteger]
  | @scalar scalar attrs range =>
    cases scalar
    case integer n =>
      have checked : adaptInteger type (.scalar (.integer n) attrs) = .ok value ↔
          type.Passes n ∧ type.staticCast n = value := by
        simp only [adaptInteger, IntegerType.Passes]
        split_ifs <;> simp_all
      rw [checked, type.passes_iff (range n rfl)]
      constructor
      · rintro ⟨inside, rfl⟩
        exact ⟨attrs, by simp only [IntegerType.staticCast, type.wrap_eq inside]⟩
      · rintro ⟨_, same⟩
        cases same
        exact ⟨value.2, Subtype.ext (type.wrap_eq value.2)⟩
    all_goals simp [adaptInteger]

theorem adaptBoolean_iff (msg : Message) (value : Bool) :
    adaptBoolean msg = .ok value ↔ ∃ attrs, msg = .scalar (.boolean value) attrs := by
  cases msg with
  | scalar scalar attrs => cases scalar <;> simp [adaptBoolean]
  | sequence kind elements attrs => simp [adaptBoolean]
  | map entries attrs => simp [adaptBoolean]

theorem adaptDouble_iff {δ : Type} (readDouble : Bytes → δ) (msg : Message) (value : δ) :
    adaptDouble readDouble msg = .ok value ↔
      ∃ literal attrs, msg = .scalar (.doubleNumber literal) attrs ∧ readDouble literal = value := by
  cases msg with
  | scalar scalar attrs => cases scalar <;> simp [adaptDouble]
  | sequence kind elements attrs => simp [adaptDouble]
  | map entries attrs => simp [adaptDouble]

end Scalars

/-! Containers, against any relation that says what their contents represent. -/

section Containers

variable {α κ ν : Type}

theorem adaptOptional_iff {adapt : Message → Except Error α} {represents : α → Prop} {msg : Message}
    (inner : ∀ value, adapt msg = .ok value ↔ represents value) (value : Option α) :
    adaptOptional adapt msg = .ok value ↔
      (isNull msg = true ∧ value = none) ∨ (isNull msg = false ∧ ∃ held, value = some held ∧ represents held) := by
  simp only [← inner]
  cases null : isNull msg with
  | true => simp [adaptOptional, null, eq_comm]
  | false => cases result : adapt msg <;> simp [adaptOptional, null, result, Except.map, eq_comm]

section Elements

variable {adapt : Message → Except Error α} {represents : Message → α → Prop}

theorem adaptElements_iff {elems : List Message}
    (each : ∀ elem ∈ elems, ∀ value, adapt elem = .ok value ↔ represents elem value) (i : Nat)
    (values : List.Vector α elems.length) :
    adaptElements adapt i elems = .ok values ↔ List.Forall₂ represents elems values.toList := by
  induction elems generalizing i with
  | nil =>
    obtain rfl := values.eq_nil
    simp [adaptElements]
  | cons elem rest ih =>
    obtain ⟨first, others, rfl⟩ := values.exists_eq_cons
    have later := ih (fun elem inside => each elem (List.mem_cons_of_mem _ inside)) (i + 1) others
    have now := each elem List.mem_cons_self first
    rw [List.Vector.toList_cons, List.forall₂_cons, ← now, ← later]
    simp only [adaptElements]
    cases adapt elem with
    | error e => simp
    | ok value =>
      cases adaptElements adapt (i + 1) rest with
      | error e => simp
      | ok values =>
        simp only [Except.ok.injEq]
        constructor
        · intro same
          have heads := congrArg List.Vector.head same
          have tails := congrArg List.Vector.tail same
          simp only [List.Vector.head_cons, List.Vector.tail_cons] at heads tails
          exact ⟨heads, tails⟩
        · rintro ⟨rfl, rfl⟩
          rfl

theorem adaptSequence_iff {msg : Message}
    (each : ∀ kind elems attrs, msg = .sequence kind elems attrs →
      ∀ elem ∈ elems, ∀ value, adapt elem = .ok value ↔ represents elem value) (values : List α) :
    adaptSequence adapt msg = .ok values ↔
      ∃ kind elems attrs, msg = .sequence kind elems attrs ∧ List.Forall₂ represents elems values := by
  cases msg with
  | scalar scalar attrs => simp [adaptSequence]
  | map entries attrs => simp [adaptSequence]
  | sequence kind elems attrs =>
    have loop := adaptElements_iff (each kind elems attrs rfl) 0
    simp only [Message.sequence.injEq, adaptSequence]
    constructor
    · intro success
      cases result : adaptElements adapt 0 elems with
      | error e => simp [result, Except.map] at success
      | ok adapted =>
        simp only [result, Except.map, Except.ok.injEq] at success
        exact ⟨kind, elems, attrs, ⟨rfl, rfl, rfl⟩, success ▸ (loop adapted).mp result⟩
    · rintro ⟨_, _, _, ⟨rfl, rfl, rfl⟩, all⟩
      have success := (loop ⟨values, all.length_eq.symm⟩).mpr all
      rw [success]
      rfl

theorem adaptStdArray_iff {msg : Message}
    (each : ∀ kind elems attrs, msg = .sequence kind elems attrs →
      ∀ elem ∈ elems, ∀ value, adapt elem = .ok value ↔ represents elem value)
    (size : Nat) (values : List.Vector α size) :
    adaptStdArray size adapt msg = .ok values ↔
      ∃ elems attrs, msg = .sequence .array elems attrs ∧ List.Forall₂ represents elems values.toList := by
  cases msg with
  | scalar scalar attrs => simp [adaptStdArray]
  | map entries attrs => simp [adaptStdArray]
  | sequence kind elems attrs =>
    cases kind
    case array =>
      have loop := adaptElements_iff (each .array elems attrs rfl) 0
      simp only [Message.sequence.injEq, adaptStdArray, true_and]
      by_cases same : elems.length = size
      · subst same
        have plain : (adaptElements adapt 0 elems).map (fun adapted => adapted) = adaptElements adapt 0 elems := by
          cases adaptElements adapt 0 elems <;> rfl
        rw [dif_pos rfl, plain, loop]
        constructor
        · intro all
          exact ⟨elems, attrs, ⟨rfl, rfl⟩, all⟩
        · rintro ⟨_, _, ⟨rfl, rfl⟩, all⟩
          exact all
      · rw [dif_neg same]
        constructor
        · intro success
          cases success
        · rintro ⟨_, _, ⟨rfl, rfl⟩, all⟩
          exact absurd (all.length_eq.trans values.toList_length) same
    all_goals simp [adaptStdArray]

end Elements

section Entries

variable [DecidableEq κ] (label : κ → Option Bytes) {adaptKey : Message → Except Error κ}
  {adaptValue : Message → Except Error ν} {representsKey : Message → κ → Prop} {representsValue : Message → ν → Prop}

/-- The pairs in the order of the message, none of them inserted over another. -/
def inserted (out : Finmap fun _ : κ => ν) (pairs : List (κ × ν)) : Finmap fun _ : κ => ν :=
  pairs.foldl (fun held pair => held.insert pair.1 pair.2) out

theorem adaptEntries_iff {entries : List (Message × Message)}
    (keys : ∀ entry ∈ entries, ∀ key, adaptKey entry.1 = .ok key ↔ representsKey entry.1 key)
    (values : ∀ entry ∈ entries, ∀ value, adaptValue entry.2 = .ok value ↔ representsValue entry.2 value)
    (i : Nat) (out held : Finmap fun _ : κ => ν) :
    adaptEntries label adaptKey adaptValue i out entries = .ok held ↔
      ∃ pairs,
        List.Forall₂ (fun entry pair => representsKey entry.1 pair.1 ∧ representsValue entry.2 pair.2) entries pairs ∧
        (pairs.map Prod.fst).Nodup ∧ (∀ pair ∈ pairs, pair.1 ∉ out) ∧ inserted out pairs = held := by
  -- on the entries, for any map that holds what came before them
  induction entries generalizing i out with
  | nil => simp [adaptEntries, inserted]
  | cons entry rest ih =>
    obtain ⟨km, vm⟩ := entry
    have thisKey := keys (km, vm) List.mem_cons_self
    have thisValue := values (km, vm) List.mem_cons_self
    have later := ih (fun entry inside => keys entry (List.mem_cons_of_mem _ inside))
      (fun entry inside => values entry (List.mem_cons_of_mem _ inside)) (i + 1)
    constructor
    · intro success
      simp only [adaptEntries] at success
      split at success
      · cases success
      rename_i key keyed
      split_ifs at success with present
      split at success
      · cases success
      rename_i value valued
      obtain ⟨pairs, all, distinct, fresh, rfl⟩ := (later (out.insert key value)).mp success
      have apart : ∀ pair ∈ pairs, pair.1 ≠ key ∧ pair.1 ∉ out := by
        intro pair inside
        simpa only [Finmap.mem_insert, not_or] using fresh pair inside
      refine ⟨(key, value) :: pairs, .cons ⟨(thisKey key).mp keyed, (thisValue value).mp valued⟩ all, ?_, ?_, rfl⟩
      · rw [List.map_cons, List.nodup_cons]
        refine ⟨?_, distinct⟩
        rw [List.mem_map]
        rintro ⟨pair, inside, same⟩
        exact (apart pair inside).1 same
      · intro pair inside
        rcases List.mem_cons.mp inside with rfl | inside
        · exact present
        · exact (apart pair inside).2
    · rintro ⟨pairs, represented, distinct, fresh, rfl⟩
      obtain ⟨⟨key, value⟩, others, ⟨keyed, valued⟩, all, rfl⟩ := List.forall₂_cons_left_iff.mp represented
      rw [List.map_cons, List.nodup_cons, List.mem_map] at distinct
      have present : key ∉ out := fresh _ List.mem_cons_self
      simp only [adaptEntries, (thisKey key).mpr keyed, (thisValue value).mpr valued, if_neg present]
      refine (later (out.insert key value)).mpr ⟨others, all, distinct.2, ?_, rfl⟩
      intro pair inside
      rw [Finmap.mem_insert, not_or]
      exact ⟨fun same => distinct.1 ⟨pair, inside, same⟩, fresh pair (List.mem_cons_of_mem _ inside)⟩

/-- Pairs with distinct keys are all in the map, and nothing else is. -/
theorem lookup_inserted {pairs : List (κ × ν)} (distinct : (pairs.map Prod.fst).Nodup) {out : Finmap fun _ : κ => ν}
    (fresh : ∀ pair ∈ pairs, pair.1 ∉ out) (key : κ) (value : ν) :
    (inserted out pairs).lookup key = some value ↔ out.lookup key = some value ∨ (key, value) ∈ pairs := by
  induction pairs generalizing out with
  | nil => simp [inserted]
  | cons pair rest ih =>
    rw [List.map_cons, List.nodup_cons, List.mem_map] at distinct
    have present : pair.1 ∉ out := fresh pair List.mem_cons_self
    have apart : ∀ other ∈ rest, other.1 ∉ out.insert pair.1 pair.2 := by
      intro other inside
      rw [Finmap.mem_insert, not_or]
      exact ⟨fun same => distinct.1 ⟨other, inside, same⟩, fresh other (List.mem_cons_of_mem _ inside)⟩
    have step := ih distinct.2 apart
    rw [inserted, List.foldl_cons, ← inserted, step, List.mem_cons]
    by_cases same : key = pair.1
    · subst same
      have none : out.lookup pair.1 = none := Finmap.lookup_eq_none.mpr present
      simp only [Finmap.lookup_insert, none, Option.some.injEq, reduceCtorEq, false_or]
      constructor
      · rintro (rfl | inside)
        · exact .inl rfl
        · exact .inr inside
      · rintro (equal | inside)
        · exact .inl (congrArg Prod.snd equal).symm
        · exact .inr inside
    · rw [Finmap.lookup_insert_of_ne out same]
      constructor
      · rintro (old | inside)
        · exact .inl old
        · exact .inr (.inr inside)
      · rintro (old | equal | inside)
        · exact .inl old
        · exact absurd (congrArg Prod.fst equal) same
        · exact .inr inside

theorem adaptMap_iff {msg : Message}
    (keys : ∀ entries attrs, msg = .map entries attrs →
      ∀ entry ∈ entries, ∀ key, adaptKey entry.1 = .ok key ↔ representsKey entry.1 key)
    (values : ∀ entries attrs, msg = .map entries attrs →
      ∀ entry ∈ entries, ∀ value, adaptValue entry.2 = .ok value ↔ representsValue entry.2 value)
    (held : Finmap fun _ : κ => ν) :
    adaptMap label adaptKey adaptValue msg = .ok held ↔
      ∃ entries attrs pairs, msg = .map entries attrs ∧
        List.Forall₂ (fun entry pair => representsKey entry.1 pair.1 ∧ representsValue entry.2 pair.2) entries pairs ∧
        (pairs.map Prod.fst).Nodup ∧ ∀ key value, held.lookup key = some value ↔ (key, value) ∈ pairs := by
  cases msg with
  | scalar scalar attrs => simp [adaptMap]
  | sequence kind elems attrs => simp [adaptMap]
  | map entries attrs =>
    have loop := adaptEntries_iff label (keys entries attrs rfl) (values entries attrs rfl) 0 ∅ held
    have empty : ∀ pairs : List (κ × ν), ∀ pair ∈ pairs, pair.1 ∉ (∅ : Finmap fun _ : κ => ν) :=
      fun _ _ _ => Finmap.notMem_empty
    have contents : ∀ {pairs : List (κ × ν)}, (pairs.map Prod.fst).Nodup → ∀ key value,
        (inserted ∅ pairs).lookup key = some value ↔ (key, value) ∈ pairs := by
      intro pairs distinct key value
      rw [lookup_inserted distinct (empty pairs)]
      simp
    rw [adaptMap, loop]
    constructor
    · rintro ⟨pairs, all, distinct, -, rfl⟩
      exact ⟨entries, attrs, pairs, rfl, all, distinct, contents distinct⟩
    · rintro ⟨_, _, pairs, same, all, distinct, holds⟩
      cases same
      refine ⟨pairs, all, distinct, empty pairs, ?_⟩
      apply Finmap.ext_lookup
      intro key
      apply Option.ext
      intro value
      rw [contents distinct, holds]

end Entries

end Containers

/-! The whole grammar of targets. -/

section Exactness

variable {δ : Type} [DecidableEq δ] (readDouble : Bytes → δ)

/-- The message stands for the value, as one of the type the target names. -/
def Represents : (target : Target) → Message → target.Value δ → Prop
  | .string, msg, (value : Bytes) =>
      ∃ scalar attrs, msg = .scalar scalar attrs ∧
        (scalar = .simpleString value ∨ scalar = .bulkString value ∨
          ∃ encoding, scalar = .verbatimString encoding value)
  | .integer _, msg, value => ∃ attrs, msg = .scalar (.integer value.val) attrs
  | .boolean, msg, (value : Bool) => ∃ attrs, msg = .scalar (.boolean value) attrs
  | .double, msg, (value : δ) =>
      ∃ literal attrs, msg = .scalar (.doubleNumber literal) attrs ∧ readDouble literal = value
  | .optional inner, msg, (value : Option (inner.Value δ)) =>
      (isNull msg = true ∧ value = none) ∨ (isNull msg = false ∧ ∃ held, value = some held ∧ Represents inner msg held)
  | .sequence element, msg, (values : List (element.Value δ)) =>
      ∃ kind elems attrs, msg = .sequence kind elems attrs ∧ List.Forall₂ (Represents element) elems values
  | .array _ element, msg, values =>
      ∃ elems attrs, msg = .sequence .array elems attrs ∧ List.Forall₂ (Represents element) elems values.toList
  | .map key value, msg, (held : Finmap fun _ : key.Value δ => value.Value δ) =>
      ∃ entries attrs pairs, msg = .map entries attrs ∧
        List.Forall₂ (fun entry pair => Represents key entry.1 pair.1 ∧ Represents value entry.2 pair.2) entries pairs ∧
        (pairs.map Prod.fst).Nodup ∧ ∀ k v, held.lookup k = some v ↔ (k, v) ∈ pairs

theorem adapt_iff (target : Target) {msg : Message} (fits : Fits msg) (value : target.Value δ) :
    adapt readDouble target msg = .ok value ↔ Represents readDouble target msg value := by
  -- on the target; what a container holds fits because the container does
  induction target generalizing msg with
  | string => exact adaptString_iff msg value
  | integer type => exact adaptInteger_iff type fits value
  | boolean => exact adaptBoolean_iff msg value
  | double => exact adaptDouble_iff readDouble msg value
  | optional inner ih => exact adaptOptional_iff (ih fits) value
  | sequence element ih =>
    apply adaptSequence_iff
    rintro kind elems attrs rfl elem inside
    cases fits with
    | sequence each => exact ih (each elem inside)
  | array size element ih =>
    apply adaptStdArray_iff
    rintro kind elems attrs rfl elem inside
    cases fits with
    | sequence each => exact ih (each elem inside)
  | map key value keyExact valueExact =>
    apply adaptMap_iff
    · rintro entries attrs rfl entry inside
      cases fits with
      | map keys values => exact keyExact (keys entry inside)
    · rintro entries attrs rfl entry inside
      cases fits with
      | map keys values => exact valueExact (values entry inside)

/-- `adapt` succeeds exactly with the value that the message represents, and
returns an error exactly when it represents none. -/
theorem adapt_exact (target : Target) {msg : Message} (fits : Fits msg) :
    (∀ value, adapt readDouble target msg = .ok value ↔ Represents readDouble target msg value) ∧
      ((∃ e, adapt readDouble target msg = .error e) ↔ ∀ value, ¬Represents readDouble target msg value) := by
  have iffs := adapt_iff readDouble target fits
  refine ⟨iffs, ?_⟩
  simp only [← iffs]
  cases adapt readDouble target msg with
  | error e => simp
  | ok value => simp

end Exactness

/-- An array of the largest `std::uint8_t`, a null and the integer after it. -/
def octets : Message :=
  .sequence .array [.scalar (.integer 255) none, .scalar (.null .null) none, .scalar (.integer 256) none] none

theorem octets_fit : Fits octets := by
  apply Fits.sequence
  intro element inside
  simp only [List.mem_cons, List.not_mem_nil, or_false] at inside
  rcases inside with rfl | rfl | rfl <;> apply Fits.scalar <;> intro n same <;> cases same <;> decide

/-- The null is an empty optional; 256 is in the range of 16 bits and out of the range of 8. -/
theorem octets_exact :
    Represents (id : Bytes → Bytes) (.sequence (.optional (.integer ⟨true, .bits16⟩))) octets
        [some ⟨255, by decide⟩, none, some ⟨256, by decide⟩] ∧
      ∀ value, ¬Represents (id : Bytes → Bytes) (.sequence (.optional (.integer ⟨false, .bits8⟩))) octets value :=
  ⟨((adapt_exact id _ octets_fit).1 _).mp rfl, (adapt_exact id _ octets_fit).2.mp ⟨_, rfl⟩⟩

end Rediscoro.Adapter
