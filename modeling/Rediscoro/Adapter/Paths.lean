import Rediscoro.Adapter.Adapt

/-! The path of an adapter error.

`follow` reads a path from the root of a message on, against the type asked for,
and keeps what it passes on the way: the elements, keys and values that an adapter
looks at before the one the path names. The errors of `adapt` are then read back
with it. The loops are inverted once, for any adapters of what they hold.
-/

set_option autoImplicit false

namespace Rediscoro.Adapter

open Rediscoro.Semantics Rediscoro.Resp3

/-- Where a path leads: a message, the type asked of it, and what comes before. -/
structure Trail where
  earlier : List (Target × Message)
  target : Target
  message : Message

def Trail.after (trail : Trail) (earlier : List (Target × Message)) : Trail :=
  { trail with earlier := earlier ++ trail.earlier }

def elementsOf : Message → List Message
  | .sequence _ elems _ => elems
  | _ => []

def entriesOf : Message → List (Message × Message)
  | .map entries _ => entries
  | _ => []

/-- The first entry whose key adapts to the text. -/
def positionOf (text : Bytes) (entries : List (Message × Message)) : Nat :=
  entries.findIdx fun entry => decide ((adaptString entry.1).toOption = some text)

section Steps

variable (key value : Target) (next : Message → Option Trail) (i : Nat)

/-- Keys and values in the order in which they are adapted. -/
def flattened (entries : List (Message × Message)) : List (Target × Message) :=
  entries.flatMap fun entry => [(key, entry.1), (value, entry.2)]

def intoElement (element : Target) (elems : List Message) : Option Trail := do
  let trail ← next (← elems[i]?)
  return trail.after ((elems.take i).map fun elem => (element, elem))

def intoKey (entries : List (Message × Message)) : Option Trail := do
  let trail ← next (← entries[i]?).1
  return trail.after (flattened key value (entries.take i))

def intoValue (entries : List (Message × Message)) : Option Trail := do
  let entry ← entries[i]?
  let trail ← next entry.2
  return trail.after (flattened key value (entries.take i) ++ [(key, entry.1)])

end Steps

def follow : Target → List PathElement → Message → Option Trail
  | target, [], msg => some ⟨[], target, msg⟩
  -- an optional adds nothing to the path
  | .optional inner, step :: rest, msg => follow inner (step :: rest) msg
  | .sequence element, .index i :: rest, msg => intoElement (follow element rest) i element (elementsOf msg)
  | .array _ element, .index i :: rest, msg => intoElement (follow element rest) i element (elementsOf msg)
  | .map key value, .index i :: .field .key :: rest, msg => intoKey key value (follow key rest) i (entriesOf msg)
  | .map key value, .index i :: .field .value :: rest, msg => intoValue key value (follow value rest) i (entriesOf msg)
  | .map key value, .key text :: rest, msg =>
      if key = .string then intoValue key value (follow value rest) (positionOf text (entriesOf msg)) (entriesOf msg)
      else none
  | _, _, _ => none

/-- The error of the culprit itself, before any caller has put its place in front. -/
def Error.bare (e : Error) : Error := { e with path := [] }

theorem Error.bare_inEntry (e : Error) (label : Option Bytes) (i : Nat) (field : Field) :
    (e.inEntry label i field).bare = e.bare := by
  cases label <;> rfl

theorem Error.kind_inEntry (e : Error) (label : Option Bytes) (i : Nat) (field : Field) :
    (e.inEntry label i field).kind = e.kind := by
  cases label <;> rfl

/-! The errors that the adapters make themselves have no path. -/

theorem adaptString_error {msg : Message} {e : Error} (failed : adaptString msg = .error e) :
    e.path = [] ∧ getKind msg = e.actualType := by
  cases msg with
  | scalar scalar attrs => cases scalar <;> cases failed <;> exact ⟨rfl, rfl⟩
  | sequence kind elems attrs => cases failed; exact ⟨rfl, rfl⟩
  | map entries attrs => cases failed; exact ⟨rfl, rfl⟩

theorem adaptInteger_error {type : IntegerType} {msg : Message} {e : Error}
    (failed : adaptInteger type msg = .error e) : e.path = [] ∧ getKind msg = e.actualType := by
  cases msg with
  | scalar scalar attrs =>
    cases scalar
    case integer n =>
      simp only [adaptInteger] at failed
      split_ifs at failed <;> cases failed <;> exact ⟨rfl, rfl⟩
    all_goals cases failed; exact ⟨rfl, rfl⟩
  | sequence kind elems attrs => cases failed; exact ⟨rfl, rfl⟩
  | map entries attrs => cases failed; exact ⟨rfl, rfl⟩

theorem adaptBoolean_error {msg : Message} {e : Error} (failed : adaptBoolean msg = .error e) :
    e.path = [] ∧ getKind msg = e.actualType := by
  cases msg with
  | scalar scalar attrs => cases scalar <;> cases failed <;> exact ⟨rfl, rfl⟩
  | sequence kind elems attrs => cases failed; exact ⟨rfl, rfl⟩
  | map entries attrs => cases failed; exact ⟨rfl, rfl⟩

theorem adaptDouble_error {δ : Type} {readDouble : Bytes → δ} {msg : Message} {e : Error}
    (failed : adaptDouble readDouble msg = .error e) : e.path = [] ∧ getKind msg = e.actualType := by
  cases msg with
  | scalar scalar attrs => cases scalar <;> cases failed <;> exact ⟨rfl, rfl⟩
  | sequence kind elems attrs => cases failed; exact ⟨rfl, rfl⟩
  | map entries attrs => cases failed; exact ⟨rfl, rfl⟩

/-! What a loop that fails has passed. -/

section Loops

variable {α κ ν : Type}

theorem error_of_map {β : Type} {result : Except Error α} {f : α → β} {e : Error} (failed : result.map f = .error e) :
    result = .error e := by
  cases result with
  | error own => exact congrArg Except.error (Except.error.inj failed)
  | ok value => cases failed

theorem adaptElements_error {adapt : Message → Except Error α} {elems : List Message} {i : Nat} {e : Error}
    (failed : adaptElements adapt i elems = .error e) :
    ∃ j elem own, elems[j]? = some elem ∧ adapt elem = .error own ∧ e = own.prependPath (.index (i + j)) ∧
      ∀ before ∈ elems.take j, ∃ value, adapt before = .ok value := by
  induction elems generalizing i with
  | nil => cases failed
  | cons elem rest ih =>
    simp only [adaptElements] at failed
    cases result : adapt elem with
    | error own =>
      rw [result] at failed
      cases failed
      exact ⟨0, elem, own, rfl, result, rfl, by simp⟩
    | ok value =>
      rw [result] at failed
      -- the element adapts, so the error is one of the rest
      have later : adaptElements adapt (i + 1) rest = .error e := by
        cases others : adaptElements adapt (i + 1) rest with
        | error own => simpa [others] using failed
        | ok values => simp [others] at failed
      obtain ⟨j, culprit, own, place, itself, path, before⟩ := ih later
      have shifted : i + 1 + j = i + (j + 1) := by omega
      rw [shifted] at path
      refine ⟨j + 1, culprit, own, place, itself, path, ?_⟩
      rw [List.take_succ_cons, List.forall_mem_cons]
      exact ⟨⟨value, result⟩, before⟩

/-- The key of the entry at `j` fails, or its value does under a key that no entry before it has. -/
theorem adaptEntries_error [DecidableEq κ] {label : κ → Option Bytes} {adaptKey : Message → Except Error κ}
    {adaptValue : Message → Except Error ν} {entries : List (Message × Message)} {i : Nat}
    {out : Finmap fun _ : κ => ν} {e : Error} (failed : adaptEntries label adaptKey adaptValue i out entries = .error e)
    (kind : e.kind ≠ .duplicateKey) :
    ∃ j entry own, entries[j]? = some entry ∧
      (∀ before ∈ entries.take j, ∃ key value, adaptKey before.1 = .ok key ∧ adaptValue before.2 = .ok value) ∧
      ((adaptKey entry.1 = .error own ∧ e = (own.prependPath (.field .key)).prependPath (.index (i + j))) ∨
        ∃ key, adaptKey entry.1 = .ok key ∧ adaptValue entry.2 = .error own ∧
          e = own.inEntry (label key) (i + j) .value ∧ key ∉ out ∧
            ∀ before ∈ entries.take j, adaptKey before.1 ≠ .ok key) := by
  -- on the entries, for any map that holds what came before them
  induction entries generalizing i out with
  | nil => cases failed
  | cons entry rest ih =>
    obtain ⟨km, vm⟩ := entry
    simp only [adaptEntries] at failed
    cases keyed : adaptKey km with
    | error own =>
      rw [keyed] at failed
      cases failed
      exact ⟨0, (km, vm), own, rfl, by simp, .inl ⟨keyed, rfl⟩⟩
    | ok key =>
      simp only [keyed] at failed
      by_cases present : key ∈ out
      · rw [if_pos present] at failed
        cases failed
        rw [Error.kind_inEntry] at kind
        exact absurd rfl kind
      rw [if_neg present] at failed
      cases valued : adaptValue vm with
      | error own =>
        rw [valued] at failed
        cases failed
        exact ⟨0, (km, vm), own, rfl, by simp, .inr ⟨key, keyed, valued, rfl, present, by simp⟩⟩
      | ok value =>
        rw [valued] at failed
        obtain ⟨j, culprit, own, place, before, outcome⟩ := ih failed
        have shifted : i + 1 + j = i + (j + 1) := by omega
        rw [shifted] at outcome
        refine ⟨j + 1, culprit, own, place, ?_, ?_⟩
        · rw [List.take_succ_cons, List.forall_mem_cons]
          exact ⟨⟨key, value, keyed, valued⟩, before⟩
        · -- a later key is not in the map, which holds this one
          apply outcome.imp_right
          rintro ⟨other, otherKeyed, itself, path, fresh, apart⟩
          rw [Finmap.mem_insert, not_or] at fresh
          refine ⟨other, otherKeyed, itself, path, fresh.2, ?_⟩
          rw [List.take_succ_cons, List.forall_mem_cons]
          refine ⟨?_, apart⟩
          rw [keyed]
          exact fun same => fresh.1 (Except.ok.inj same).symm

end Loops

/-! The whole grammar of targets. -/

section Culprits

variable {δ : Type} [DecidableEq δ] (readDouble : Bytes → δ)

/-- What the trail leads to fails by itself with the error, and nothing before it fails. -/
structure Culprit (e : Error) (trail : Trail) : Prop where
  actual : getKind trail.message = e.actualType
  itself : adapt readDouble trail.target trail.message = .error e.bare
  earlier : ∀ before ∈ trail.earlier, ∃ value, adapt readDouble before.1 before.2 = .ok value

def Found (target : Target) (msg : Message) (e : Error) : Prop :=
  ∃ trail, follow target e.path msg = some trail ∧ Culprit readDouble e trail

variable {readDouble}

theorem Found.here {target : Target} {msg : Message} {e : Error} (failed : adapt readDouble target msg = .error e)
    (own : e.path = [] ∧ getKind msg = e.actualType) : Found readDouble target msg e := by
  obtain ⟨path, actual⟩ := own
  have bare : e.bare = e := by rw [Error.bare, ← path]
  refine ⟨⟨[], target, msg⟩, ?_, actual, ?_, ?_⟩
  · rw [path, follow]
  · rw [bare]
    exact failed
  · intro before inside
    cases inside

theorem Culprit.after {own e : Error} {trail : Trail} (culprit : Culprit readDouble own trail)
    (same : e.bare = own.bare) {earlier : List (Target × Message)}
    (before : ∀ item ∈ earlier, ∃ value, adapt readDouble item.1 item.2 = .ok value) :
    Culprit readDouble e (trail.after earlier) where
  actual := culprit.actual.trans (congrArg Error.actualType same).symm
  itself := by
    rw [same]
    exact culprit.itself
  earlier := by
    intro item inside
    rcases List.mem_append.mp inside with inside | inside
    · exact before item inside
    · exact culprit.earlier item inside

section Elements

variable {element : Target} {elems : List Message}

theorem intoElement_found {j : Nat} {elem : Message} {own e : Error} (place : elems[j]? = some elem)
    (found : Found readDouble element elem own)
    (before : ∀ before ∈ elems.take j, ∃ value, adapt readDouble element before = .ok value)
    (same : e.bare = own.bare) :
    ∃ trail, intoElement (follow element own.path) j element elems = some trail ∧ Culprit readDouble e trail := by
  obtain ⟨trail, reached, culprit⟩ := found
  refine ⟨_, by simp only [intoElement, place, Option.bind_eq_bind, Option.bind_some, reached]; rfl, ?_⟩
  apply culprit.after same
  intro item inside
  obtain ⟨passed, place, rfl⟩ := List.mem_map.mp inside
  exact before passed place

/-- The loop of `adapt_sequence` and of `adapt_std_array`. -/
theorem adaptElements_found {e : Error} (failed : adaptElements (adapt readDouble element) 0 elems = .error e)
    (kind : e.kind ≠ .duplicateKey)
    (each : ∀ {msg : Message} {e : Error}, adapt readDouble element msg = .error e → e.kind ≠ .duplicateKey →
      Found readDouble element msg e) :
    ∃ i rest trail, e.path = .index i :: rest ∧ intoElement (follow element rest) i element elems = some trail ∧
      Culprit readDouble e trail := by
  obtain ⟨j, elem, own, place, itself, rfl, before⟩ := adaptElements_error failed
  rw [Nat.zero_add] at kind ⊢
  obtain ⟨trail, reached, culprit⟩ := intoElement_found place (each itself kind) before
    (rfl : (own.prependPath (.index j)).bare = own.bare)
  exact ⟨j, own.path, trail, rfl, reached, culprit⟩

end Elements

section Entries

variable {key value : Target} {entries : List (Message × Message)} {j : Nat} {entry : Message × Message}
  {own e : Error}

theorem flattened_adapts
    (before : ∀ before ∈ entries, ∃ k v, adapt readDouble key before.1 = .ok k ∧
      adapt readDouble value before.2 = .ok v)
    {item : Target × Message} (inside : item ∈ flattened key value entries) :
    ∃ held, adapt readDouble item.1 item.2 = .ok held := by
  obtain ⟨passed, inside, member⟩ := List.mem_flatMap.mp inside
  obtain ⟨k, v, keyed, valued⟩ := before passed inside
  rcases List.mem_pair.mp member with rfl | rfl
  · exact ⟨k, keyed⟩
  · exact ⟨v, valued⟩

theorem intoKey_found (place : entries[j]? = some entry) (found : Found readDouble key entry.1 own)
    (before : ∀ before ∈ entries.take j,
      ∃ k v, adapt readDouble key before.1 = .ok k ∧ adapt readDouble value before.2 = .ok v)
    (same : e.bare = own.bare) :
    ∃ trail, intoKey key value (follow key own.path) j entries = some trail ∧ Culprit readDouble e trail := by
  obtain ⟨trail, reached, culprit⟩ := found
  refine ⟨_, by simp only [intoKey, place, Option.bind_eq_bind, Option.bind_some, reached]; rfl, ?_⟩
  apply culprit.after same
  intro item inside
  exact flattened_adapts before inside

theorem intoValue_found (place : entries[j]? = some entry) (found : Found readDouble value entry.2 own)
    (before : ∀ before ∈ entries.take j,
      ∃ k v, adapt readDouble key before.1 = .ok k ∧ adapt readDouble value before.2 = .ok v)
    {k : key.Value δ} (keyed : adapt readDouble key entry.1 = .ok k) (same : e.bare = own.bare) :
    ∃ trail, intoValue key value (follow value own.path) j entries = some trail ∧ Culprit readDouble e trail := by
  obtain ⟨trail, reached, culprit⟩ := found
  refine ⟨_, by simp only [intoValue, place, Option.bind_eq_bind, Option.bind_some, reached]; rfl, ?_⟩
  apply culprit.after same
  intro item inside
  rcases List.mem_append.mp inside with inside | inside
  · exact flattened_adapts before inside
  · cases List.mem_singleton.mp inside
    exact ⟨k, keyed⟩

/-- The text names the first entry that has it, as no earlier key adapts to it. -/
theorem positionOf_eq {text : Bytes} (place : entries[j]? = some entry) (keyed : adaptString entry.1 = .ok text)
    (apart : ∀ before ∈ entries.take j, adaptString before.1 ≠ .ok text) : positionOf text entries = j := by
  obtain ⟨inside, rfl⟩ := List.getElem?_eq_some_iff.mp place
  rw [positionOf, List.findIdx_eq inside]
  constructor
  · simp [keyed, Except.toOption]
  · intro k earlier
    have member : entries[k] ∈ entries.take j := List.mem_take_iff_getElem.mpr ⟨k, by omega, rfl⟩
    have differs := apart _ member
    cases result : adaptString entries[k].1 with
    | error own => simp [Except.toOption]
    | ok other =>
      rw [result] at differs
      simpa [Except.toOption] using fun same => differs (congrArg _ same)

theorem adaptMap_found {msg : Message} (failed : adapt readDouble (.map key value) msg = .error e)
    (kind : e.kind ≠ .duplicateKey)
    (keys : ∀ {msg : Message} {e : Error}, adapt readDouble key msg = .error e → e.kind ≠ .duplicateKey →
      Found readDouble key msg e)
    (values : ∀ {msg : Message} {e : Error}, adapt readDouble value msg = .error e → e.kind ≠ .duplicateKey →
      Found readDouble value msg e) :
    Found readDouble (.map key value) msg e := by
  cases msg with
  | scalar scalar attrs =>
    apply Found.here failed
    cases failed
    exact ⟨rfl, rfl⟩
  | sequence sort elems attrs =>
    apply Found.here failed
    cases failed
    exact ⟨rfl, rfl⟩
  | map entries attrs =>
    have loop : adaptEntries (keyLabel key) (adapt readDouble key) (adapt readDouble value) 0 ∅ entries = .error e :=
      failed
    obtain ⟨j, entry, own, place, before, outcome⟩ := adaptEntries_error loop kind
    rw [Nat.zero_add] at outcome
    rcases outcome with ⟨itself, rfl⟩ | ⟨k, keyed, itself, rfl, -, apart⟩
    · exact intoKey_found place (keys itself kind) before rfl
    rw [Error.kind_inEntry] at kind
    have found := values itself kind
    have same := own.bare_inEntry (keyLabel key k) j .value
    obtain ⟨trail, reached, culprit⟩ := intoValue_found place found before keyed same
    refine ⟨trail, ?_, culprit⟩
    -- only a key of type std::string is named in the path
    cases key
    case string =>
      have position := positionOf_eq place keyed apart
      simp only [keyLabel, Error.inEntry, Error.prependPath, follow, if_true, entriesOf, position]
      exact reached
    all_goals exact reached

end Entries

theorem adapt_found (target : Target) {msg : Message} {e : Error} (failed : adapt readDouble target msg = .error e)
    (kind : e.kind ≠ .duplicateKey) : Found readDouble target msg e := by
  induction target generalizing msg e with
  | string => exact .here failed (adaptString_error failed)
  | integer type => exact .here failed (adaptInteger_error failed)
  | boolean => exact .here failed (adaptBoolean_error failed)
  | double => exact .here failed (adaptDouble_error failed)
  | optional inner ih =>
    have inside : adapt readDouble inner msg = .error e := by
      cases null : isNull msg with
      | true => simp [adapt, adaptOptional, null] at failed
      | false =>
        simp only [adapt, adaptOptional, null, Bool.false_eq_true, if_false] at failed
        exact error_of_map failed
    obtain ⟨trail, reached, culprit⟩ := ih inside kind
    -- with an empty path the culprit is the message itself, asked for the optional
    cases path : e.path with
    | nil =>
      rw [path, follow] at reached
      cases reached
      exact .here failed ⟨path, culprit.actual⟩
    | cons step rest =>
      refine ⟨trail, ?_, culprit⟩
      rw [path, follow, ← path]
      exact reached
  | sequence element ih =>
    cases msg with
    | scalar scalar attrs =>
      apply Found.here failed
      cases failed
      exact ⟨rfl, rfl⟩
    | map entries attrs =>
      apply Found.here failed
      cases failed
      exact ⟨rfl, rfl⟩
    | sequence sort elems attrs =>
      have loop : adaptElements (adapt readDouble element) 0 elems = .error e := error_of_map failed
      obtain ⟨i, rest, trail, path, reached, culprit⟩ := adaptElements_found loop kind ih
      refine ⟨trail, ?_, culprit⟩
      rw [path]
      exact reached
  | array size element ih =>
    cases msg with
    | scalar scalar attrs =>
      apply Found.here failed
      cases failed
      exact ⟨rfl, rfl⟩
    | map entries attrs =>
      apply Found.here failed
      cases failed
      exact ⟨rfl, rfl⟩
    | sequence sort elems attrs =>
      cases sort
      case array =>
        by_cases same : elems.length = size
        · have loop : adaptElements (adapt readDouble element) 0 elems = .error e := by
            simp only [adapt, adaptStdArray, dif_pos same] at failed
            exact error_of_map failed
          obtain ⟨i, rest, trail, path, reached, culprit⟩ := adaptElements_found loop kind ih
          refine ⟨trail, ?_, culprit⟩
          rw [path]
          exact reached
        · apply Found.here failed
          simp only [adapt, adaptStdArray, dif_neg same] at failed
          cases failed
          exact ⟨rfl, rfl⟩
      all_goals
        apply Found.here failed
        cases failed
        exact ⟨rfl, rfl⟩
  | map key value keys values => exact adaptMap_found failed kind keys values

/-- The path of an error leads to the message that fails by itself with it, unless
the error is a duplicate key, and everything before that message adapts. -/
theorem error_path_culprit (target : Target) {msg : Message} {e : Error}
    (failed : adapt readDouble target msg = .error e)
    (kind : e.kind = .typeMismatch ∨ e.kind = .unexpectedNull ∨ e.kind = .valueOutOfRange ∨ e.kind = .sizeMismatch) :
    ∃ trail, follow target e.path msg = some trail ∧ getKind trail.message = e.actualType ∧
      adapt readDouble trail.target trail.message = .error { e with path := [] } ∧
      ∀ before ∈ trail.earlier, ∃ value, adapt readDouble before.1 before.2 = .ok value := by
  have unique : e.kind ≠ .duplicateKey := by
    intro duplicate
    simp [duplicate] at kind
  obtain ⟨trail, reached, culprit⟩ := adapt_found target failed unique
  exact ⟨trail, reached, culprit.actual, culprit.itself, culprit.earlier⟩

end Culprits

/-- `%2 +a *1 :1 +b *2 :2 +x`. -/
def numbered : Message :=
  .map [(.scalar (.simpleString [97]) none, .sequence .array [.scalar (.integer 1) none] none),
    (.scalar (.simpleString [98]) none,
      .sequence .array [.scalar (.integer 2) none, .scalar (.simpleString [120]) none] none)] none

/-- The last text of `numbered` is not an integer; it is found by the key and the position. -/
theorem error_path_culprit_numbered :
    ∃ trail, follow (.map .string (.optional (.sequence (.integer ⟨true, .bits64⟩)))) [.key [98], .index 1] numbered =
        some trail ∧ getKind trail.message = .simpleString ∧
      adapt (id : Bytes → Bytes) trail.target trail.message = .error (.typeMismatch .simpleString [.integer]) ∧
      ∀ before ∈ trail.earlier, ∃ value, adapt (id : Bytes → Bytes) before.1 before.2 = .ok value := by
  have failed : adapt (id : Bytes → Bytes) (.map .string (.optional (.sequence (.integer ⟨true, .bits64⟩)))) numbered =
      .error { Error.typeMismatch .simpleString [.integer] with path := [.key [98], .index 1] } := rfl
  exact error_path_culprit _ failed (.inl rfl)

end Rediscoro.Adapter
