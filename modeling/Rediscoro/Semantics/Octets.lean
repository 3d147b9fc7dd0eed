import Mathlib.Algebra.Order.Ring.Nat
import Mathlib.Tactic.Common

/-! Octet strings: delimiters of two octets, slices, and decimal numerals.

The numerals are those of `std::to_chars` and `std::from_chars` for integers:
an optional minus sign, at least one digit, no plus sign and no blanks. -/

set_option autoImplicit false

namespace Rediscoro.Semantics

abbrev Bytes := List UInt8

/-! Position of the first occurrence of a two-octet delimiter. -/

def findPair (a b : UInt8) : Bytes → Option Nat
  | x :: y :: rest => if x = a ∧ y = b then some 0 else (findPair a b (y :: rest)).map (· + 1)
  | _ => none

section Delimiter

variable {a b : UInt8}

theorem findPair_bound {text : Bytes} {pos : Nat} (found : findPair a b text = some pos) :
    pos + 2 ≤ text.length := by
  induction text generalizing pos with
  | nil => simp [findPair] at found
  | cons x text ih =>
    cases text with
    | nil => simp [findPair] at found
    | cons y rest =>
      rw [findPair] at found
      split at found
      · cases found; simp
      · obtain ⟨inner, later, rfl⟩ := Option.map_eq_some_iff.mp found
        have := ih later
        simp only [List.length_cons] at this ⊢
        omega

/-- A delimiter already seen stays the first one when more octets arrive. -/
theorem findPair_append {text : Bytes} {pos : Nat} (found : findPair a b text = some pos)
    (more : Bytes) : findPair a b (text ++ more) = some pos := by
  induction text generalizing pos with
  | nil => simp [findPair] at found
  | cons x text ih =>
    cases text with
    | nil => simp [findPair] at found
    | cons y rest =>
      rw [findPair] at found
      rw [List.cons_append, List.cons_append, findPair]
      split at found
      · rename_i here
        rw [if_pos here]
        exact found
      · rename_i elsewhere
        rw [if_neg elsewhere]
        obtain ⟨inner, later, rfl⟩ := Option.map_eq_some_iff.mp found
        rw [← List.cons_append, ih later]
        rfl

/-- The octets before the first delimiter hold none, and the delimiter follows them. -/
theorem findPair_split {text : Bytes} {pos : Nat} (found : findPair a b text = some pos) :
    findPair a b (text.take pos) = none ∧ text = text.take pos ++ a :: b :: text.drop (pos + 2) := by
  induction text generalizing pos with
  | nil => simp [findPair] at found
  | cons x text ih =>
    cases text with
    | nil => simp [findPair] at found
    | cons y rest =>
      rw [findPair] at found
      split at found
      · rename_i here
        cases found
        obtain ⟨rfl, rfl⟩ := here
        simp [findPair]
      · rename_i elsewhere
        obtain ⟨inner, later, rfl⟩ := Option.map_eq_some_iff.mp found
        obtain ⟨free, split⟩ := ih later
        constructor
        · cases inner with
          | zero => simp [findPair]
          | succ inner =>
            rw [List.take_succ_cons] at free ⊢
            rw [List.take_succ_cons, findPair, if_neg elsewhere, free]
            rfl
        · rw [List.take_succ_cons, List.cons_append, List.drop_succ_cons]
          exact congrArg (List.cons x) split

/-- Conversely the delimiter after delimiter-free octets is the first one. -/
theorem findPair_after {text : Bytes} (differ : a ≠ b) (free : findPair a b text = none) (rest : Bytes) :
    findPair a b (text ++ a :: b :: rest) = some text.length := by
  induction text with
  | nil => simp [findPair]
  | cons x text ih =>
    cases text with
    | nil =>
      have elsewhere : ¬ (x = a ∧ a = b) := fun both => differ both.2
      simp [findPair, elsewhere]
    | cons y tail =>
      rw [findPair] at free
      split at free
      · cases free
      · rename_i elsewhere
        have inner := ih (Option.map_eq_none_iff.mp free)
        rw [List.cons_append] at inner
        rw [List.cons_append, List.cons_append, findPair, if_neg elsewhere, inner]
        rfl

theorem findPair_none_of_not_mem {text : Bytes} (absent : a ∉ text) : findPair a b text = none := by
  induction text with
  | nil => rfl
  | cons x text ih =>
    cases text with
    | nil => rfl
    | cons y rest =>
      have elsewhere : ¬ (x = a ∧ y = b) := fun both => absent (by simp [both.1])
      rw [findPair, if_neg elsewhere, ih (fun member => absent (List.mem_cons_of_mem x member))]
      rfl

end Delimiter

/-! Decimal numerals. -/

def digitByte (digit : Nat) : UInt8 := UInt8.ofNat (48 + digit)

def isDigit (octet : UInt8) : Bool := 48 ≤ octet.toNat && octet.toNat ≤ 57

/-- The value of a digit string, most significant digit first. -/
def numeralValue (text : Bytes) : Nat :=
  text.foldl (fun value octet => value * 10 + (octet.toNat - 48)) 0

def decimalWithin : Nat → Nat → Bytes
  | 0, n => [digitByte n]
  | fuel + 1, n => if n < 10 then [digitByte n] else decimalWithin fuel (n / 10) ++ [digitByte (n % 10)]

def decimal (n : Nat) : Bytes := decimalWithin n n

def readNat (text : Bytes) : Option Nat :=
  if text ≠ [] ∧ text.all isDigit = true then some (numeralValue text) else none

def readInt : Bytes → Option Int
  | [] => none
  | octet :: digits =>
      if octet = 45 then (readNat digits).map (fun n : Nat => -Int.ofNat n)
      else (readNat (octet :: digits)).map Int.ofNat

def writeInt (i : Int) : Bytes :=
  if i < 0 then 45 :: decimal i.natAbs else decimal i.natAbs

theorem toNat_digitByte {digit : Nat} (small : digit < 10) : (digitByte digit).toNat = 48 + digit := by
  simp only [digitByte, UInt8.toNat_ofNat']
  omega

theorem isDigit_digitByte {digit : Nat} (small : digit < 10) : isDigit (digitByte digit) = true := by
  simp only [isDigit, toNat_digitByte small, Bool.and_eq_true, decide_eq_true_eq]
  omega

theorem decimalWithin_digits (fuel n : Nat) (enough : n ≤ fuel) :
    (decimalWithin fuel n).all isDigit = true := by
  induction fuel generalizing n with
  | zero => simp [decimalWithin, isDigit_digitByte (show n < 10 by omega)]
  | succ fuel ih =>
    rw [decimalWithin]
    split
    · rename_i small
      simp [isDigit_digitByte small]
    · have rest := ih (n / 10) (by omega)
      simp [rest, isDigit_digitByte (Nat.mod_lt n (by decide : 10 > 0))]

theorem numeralValue_snoc (text : Bytes) (octet : UInt8) :
    numeralValue (text ++ [octet]) = numeralValue text * 10 + (octet.toNat - 48) := by
  simp [numeralValue, List.foldl_append]

theorem decimalWithin_value (fuel n : Nat) (enough : n ≤ fuel) :
    numeralValue (decimalWithin fuel n) = n := by
  induction fuel generalizing n with
  | zero =>
    have single := toNat_digitByte (show n < 10 by omega)
    simp only [decimalWithin, numeralValue, List.foldl_cons, List.foldl_nil, single]
    omega
  | succ fuel ih =>
    rw [decimalWithin]
    split
    · rename_i small
      simp only [numeralValue, List.foldl_cons, List.foldl_nil, toNat_digitByte small]
      omega
    · have last := toNat_digitByte (Nat.mod_lt n (by decide : 10 > 0))
      rw [numeralValue_snoc, ih (n / 10) (by omega), last]
      omega

theorem decimalWithin_ne_nil (fuel n : Nat) : decimalWithin fuel n ≠ [] := by
  cases fuel with
  | zero => simp [decimalWithin]
  | succ fuel =>
    rw [decimalWithin]
    split <;> simp

theorem readNat_decimal (n : Nat) : readNat (decimal n) = some n := by
  have digits := decimalWithin_digits n n (Nat.le_refl n)
  have value := decimalWithin_value n n (Nat.le_refl n)
  rw [readNat, decimal, if_pos ⟨decimalWithin_ne_nil n n, digits⟩, value]

/-- Digits are never a minus sign, so an unsigned numeral is read as unsigned. -/
theorem readInt_decimal (n : Nat) : readInt (decimal n) = some (n : Int) := by
  have digits := decimalWithin_digits n n (Nat.le_refl n)
  have whole := readNat_decimal n
  unfold decimal at whole ⊢
  cases text : decimalWithin n n with
  | nil => exact absurd text (decimalWithin_ne_nil n n)
  | cons octet rest =>
    rw [text] at digits whole
    have unsigned : octet ≠ 45 := by
      rintro rfl
      simp [isDigit] at digits
    rw [readInt, if_neg unsigned, whole]
    rfl

theorem readInt_writeInt (i : Int) : readInt (writeInt i) = some i := by
  rw [writeInt]
  split
  · rename_i negative
    rw [readInt, if_pos rfl, readNat_decimal, Option.map_some, Int.ofNat_eq_natCast]
    exact congrArg some (by omega)
  · rename_i nonnegative
    rw [readInt_decimal]
    exact congrArg some (by omega)

theorem readNat_digits {text : Bytes} {n : Nat} (read : readNat text = some n) :
    text.all isDigit = true := by
  rw [readNat] at read
  split at read
  · rename_i digits
    exact digits.2
  · cases read

/-- A numeral holds no octet other than the sign and the digits. -/
theorem readInt_octets {text : Bytes} {i : Int} (read : readInt text = some i) :
    ∀ octet ∈ text, octet = 45 ∨ isDigit octet = true := by
  cases text with
  | nil => simp
  | cons first digits =>
    rw [readInt] at read
    split at read
    · rename_i minus
      obtain ⟨n, digits, -⟩ := Option.map_eq_some_iff.mp read
      intro octet member
      rcases List.mem_cons.mp member with same | member
      · exact Or.inl (same.trans minus)
      · exact Or.inr (List.all_eq_true.mp (readNat_digits digits) octet member)
    · obtain ⟨n, digits, -⟩ := Option.map_eq_some_iff.mp read
      intro octet member
      exact Or.inr (List.all_eq_true.mp (readNat_digits digits) octet member)

end Rediscoro.Semantics
