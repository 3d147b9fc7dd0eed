import Rediscoro.Resp3.Grammar

/-! Tokens are the headers and leaves of the grammar.

Every well-formed header or leaf in front of the unread octets is the next
token, and every token stands for exactly one of them.
-/

set_option autoImplicit false

namespace Rediscoro.Resp3

open Rediscoro.Semantics

/-- The raw node of a leaf, its text counted from the leaf's first octet. -/
def Leaf.node : Leaf → RawNode Span
  | .line kind text =>
      { type := kind, text := ⟨1, text.length⟩
        i64 := if kind = .integer then (parseI64 text).getD 0 else 0
        f64 := if kind = .doubleNumber then text else [] }
  | .null => { type := .null, text := .empty }
  | .boolean value => { type := .boolean, text := .empty, boolean := value }
  | .bulk kind numeral payload =>
      { type := kind, text := ⟨1 + numeral.length + 2, payload.length⟩, i64 := payload.length }
  | .typedNull kind _ => { type := kind, text := .empty, i64 := -1 }

theorem header_length (kind : Kind) (numeral : Bytes) : (header kind numeral).length = 1 + numeral.length + 2 := by
  simp only [header, crlf, List.length_cons, List.length_append, List.length_nil]
  omega

theorem header_append (kind : Kind) (numeral rest : Bytes) :
    header kind numeral ++ rest = kindToPrefix kind :: (numeral ++ cr :: lf :: rest) := by
  simp [header, crlf]

section Forward

variable [FloatChars] {limits : Limits}

theorem nextToken_header (kind : Kind) (numeral rest : Bytes) :
    nextToken limits (header kind numeral ++ rest) = elementToken limits kind (header kind numeral ++ rest) := by
  simp only [nextToken, header_append, List.head?_cons, prefixToKind_kindToPrefix]

omit [FloatChars] in
theorem withHeader_numeral {numeral : Bytes} {value : Int} (length : Numeral limits numeral value) (kind : Kind)
    (rest : Bytes) (next : LengthHeader → Token) :
    withHeader limits (header kind numeral ++ rest) next = next ⟨value, 1 + numeral.length + 2⟩ := by
  simp only [withHeader, header_append, parseLengthAfterType_numeral _ length.read length.short]

theorem nextToken_container {kind : Kind} {numeral : Bytes} {n : Nat} (aggregate : kind.isAggregate = true)
    (length : Numeral limits numeral n) (admissible : Admissible limits kind n) (rest : Bytes) :
    nextToken limits (header kind numeral ++ rest) = .container kind n (header kind numeral).length := by
  have checked : startContainer limits kind ⟨n, 1 + numeral.length + 2⟩ =
      .container kind n (header kind numeral).length := by
    have within := admissible.within
    have representable := admissible.representable
    simp only [startContainer, header_length]
    rw [if_neg (by omega), if_neg (by omega), if_neg (by omega), if_neg (by simp [representable])]
    rfl
  rw [nextToken_header]
  cases kind with
  | array | set | push | map => exact (withHeader_numeral length _ rest _).trans checked
  | _ => cases aggregate

theorem nextToken_attributes {numeral : Bytes} {n : Nat} (length : Numeral limits numeral n)
    (admissible : Admissible limits .attribute n) (rest : Bytes) :
    nextToken limits (header .attribute numeral ++ rest) = .attributes n (header .attribute numeral).length := by
  have within := admissible.within
  have representable := admissible.representable
  rw [nextToken_header]
  refine (withHeader_numeral length _ rest _).trans ?_
  simp only [startAttribute, header_length]
  rw [if_neg (by omega), if_neg (by omega)]
  split
  · rename_i zero
    rw [Int.natCast_eq_zero.mp zero]
  · rfl

theorem lineToken_line {kind : Kind} {text : Bytes} (formed : (Leaf.line kind text).WellFormed limits) (rest : Bytes) :
    lineToken limits kind (header kind text ++ rest) = .leaf (Leaf.line kind text).node (header kind text).length := by
  cases formed with
  | line lineKind free short integer double =>
    have found : findCrlf (text ++ cr :: lf :: rest) = some text.length := findPair_after (by decide) free rest
    simp only [lineToken, header_append, List.drop_succ_cons, List.drop_zero, found,
      if_neg (Nat.not_lt.mpr short), List.take_left, header_length]
    cases kind with
    | simpleString | simpleError | bigNumber => rfl
    | integer =>
      obtain ⟨value, read⟩ := Option.isSome_iff_exists.mp (integer rfl)
      simp [read, Leaf.node]
    | doubleNumber => simp [double rfl, Leaf.node]
    | _ => cases lineKind

theorem bulkToken_bulk {kind : Kind} {numeral payload : Bytes}
    (formed : (Leaf.bulk kind numeral payload).WellFormed limits) (rest : Bytes)
    (small : (Leaf.bulk kind numeral payload).encode.length ≤ Buffer.sizeMax) :
    bulkToken limits kind ((Leaf.bulk kind numeral payload).encode ++ rest) =
      .leaf (Leaf.bulk kind numeral payload).node (Leaf.bulk kind numeral payload).encode.length := by
  cases formed with
  | bulk bulkKind length within verbatim =>
    have size : (Leaf.bulk kind numeral payload).encode.length = 1 + numeral.length + 2 + payload.length + 2 := by
      simp only [Leaf.encode, List.length_append, header_length, crlf, List.length_cons, List.length_nil]
    rw [size] at small ⊢
    have shape : (Leaf.bulk kind numeral payload).encode ++ rest =
        header kind numeral ++ (payload ++ (crlf ++ rest)) := by
      simp only [Leaf.encode, List.append_assoc]
    rw [shape, bulkToken, withHeader_numeral length]
    have behind : (header kind numeral ++ (payload ++ (crlf ++ rest))).drop (1 + numeral.length + 2) =
        payload ++ (crlf ++ rest) := by
      rw [← header_length kind numeral, List.drop_left]
    have trailer : ((header kind numeral ++ (payload ++ (crlf ++ rest))).drop
        (1 + numeral.length + 2 + payload.length)).take 2 = crlf := by
      rw [← List.drop_drop, behind, List.drop_left]
      rfl
    have enough : ¬ (header kind numeral ++ (payload ++ (crlf ++ rest))).length <
        1 + numeral.length + 2 + payload.length + 2 := by
      simp only [List.length_append, header_length, crlf, List.length_cons, List.length_nil]
      omega
    have limit : exceedsI64Limit payload.length limits.maxRespBulkBytes = false := by
      simp [exceedsI64Limit, within]
    simp only [Int.toNat_natCast, limit, behind, trailer, List.take_left]
    rw [if_neg (by omega), if_neg (by simp), if_neg (by omega), if_neg (by omega), if_neg enough,
      if_neg (by simp), if_neg]
    · rfl
    · rintro ⟨same, invalid⟩
      exact invalid (verbatim same)

theorem nextToken_leaf {leaf : Leaf} (formed : leaf.WellFormed limits) (rest : Bytes)
    (small : leaf.encode.length ≤ Buffer.sizeMax) :
    nextToken limits (leaf.encode ++ rest) = .leaf leaf.node leaf.encode.length := by
  cases formed with
  | line lineKind free short integer double =>
    rename_i kind text
    have token := lineToken_line (.line lineKind free short integer double) rest
    rw [Leaf.encode, nextToken_header]
    cases kind with
    | simpleString | simpleError | bigNumber | integer | doubleNumber => exact token
    | _ => cases lineKind
  | null => rfl
  | boolean value => cases value <;> rfl
  | bulk bulkKind length within verbatim =>
    rename_i kind numeral payload
    have token := bulkToken_bulk (.bulk bulkKind length within verbatim) rest small
    have front : nextToken limits ((Leaf.bulk kind numeral payload).encode ++ rest) =
        elementToken limits kind ((Leaf.bulk kind numeral payload).encode ++ rest) := by
      simp only [Leaf.encode, List.append_assoc, nextToken_header]
    rw [front]
    cases kind with
    | bulkString | bulkError | verbatimString => exact token
    | _ => cases bulkKind
  | typedNull nullable length =>
    rename_i kind numeral
    have bulk (next : LengthHeader → Token) := withHeader_numeral length kind rest next
    rw [Leaf.encode, nextToken_header]
    cases kind with
    | bulkString | bulkError | verbatimString =>
      refine (bulk _).trans ?_
      rw [header_length]
      rfl
    | array | set | push | map =>
      refine (bulk _).trans ?_
      rw [header_length]
      simp only [startContainer]
      rw [if_neg (by decide), if_neg (by omega), if_pos trivial]
      rfl
    | _ => rcases nullable with no | no <;> cases no

end Forward

section Backward

variable [FloatChars] {limits : Limits} {data : Bytes}

/-- What a token says about the octets in front. -/
def Token.Spells (limits : Limits) (data : Bytes) : Token → Prop
  | .more | .bad .. => True
  | .attributes n used => ∃ numeral, Numeral limits numeral n ∧ Admissible limits .attribute n ∧
      header .attribute numeral ++ data.drop used = data ∧ used = (header .attribute numeral).length
  | .container kind n used => ∃ numeral, kind.isAggregate = true ∧ Numeral limits numeral n ∧
      Admissible limits kind n ∧ header kind numeral ++ data.drop used = data ∧ used = (header kind numeral).length
  | .leaf node used => ∃ leaf : Leaf, leaf.WellFormed limits ∧ leaf.encode ++ data.drop used = data ∧
      used = leaf.encode.length ∧ node = leaf.node

theorem withHeader_spells {kind : Kind} {next : LengthHeader → Token}
    (front : data.head? = some (kindToPrefix kind))
    (spelled : ∀ numeral value rest, Numeral limits numeral value → data = header kind numeral ++ rest →
      (next ⟨value, (header kind numeral).length⟩).Spells limits data) :
    (withHeader limits data next).Spells limits data := by
  unfold withHeader
  split
  · trivial
  · trivial
  · rename_i found read
    obtain ⟨octet, numeral, rest, rfl, short, value, taken⟩ := parseLengthAfterType_some read
    obtain rfl : octet = kindToPrefix kind := Option.some.inj front
    have spelled := spelled numeral found.length rest ⟨value, short⟩ (header_append kind numeral rest).symm
    rw [header_length, ← taken] at spelled
    exact spelled

section Lengths

variable {kind : Kind} {numeral rest : Bytes} {value : Int} (length : Numeral limits numeral value)
  (shape : data = header kind numeral ++ rest)
include length shape

theorem startContainer_spells (aggregate : kind.isAggregate = true) :
    (startContainer limits kind ⟨value, (header kind numeral).length⟩).Spells limits data := by
  have whole : header kind numeral ++ data.drop (header kind numeral).length = data := by
    rw [shape, List.drop_left]
  unfold startContainer
  dsimp only
  split
  · trivial
  · split
    · trivial
    · split
      · rename_i null
        subst null
        exact ⟨.typedNull kind numeral, .typedNull (.inr aggregate) length, whole, rfl, rfl⟩
      · split
        · trivial
        · rename_i representable
          obtain ⟨n, rfl⟩ := Int.eq_ofNat_of_zero_le (show 0 ≤ value by omega)
          exact ⟨numeral, aggregate, length, ⟨by omega, by simpa using representable⟩, whole, rfl⟩

theorem startAttribute_spells (same : kind = .attribute) :
    (startAttribute limits ⟨value, (header kind numeral).length⟩).Spells limits data := by
  subst same
  have whole : header .attribute numeral ++ data.drop (header .attribute numeral).length = data := by
    rw [shape, List.drop_left]
  unfold startAttribute
  dsimp only
  split
  · trivial
  · split
    · trivial
    · obtain ⟨n, rfl⟩ := Int.eq_ofNat_of_zero_le (show 0 ≤ value by omega)
      split
      · rename_i zero
        obtain rfl : n = 0 := Int.natCast_eq_zero.mp zero
        exact ⟨numeral, length, ⟨Nat.zero_le _, rfl⟩, whole, rfl⟩
      · split
        · trivial
        · rename_i representable
          exact ⟨numeral, length, ⟨by omega, by simpa using representable⟩, whole, rfl⟩

end Lengths

theorem bulkToken_spells {kind : Kind} (front : data.head? = some (kindToPrefix kind)) (bulkKind : kind.isBulk = true) :
    (bulkToken limits kind data).Spells limits data := by
  refine withHeader_spells front ?_
  intro numeral value rest length shape
  have behind : data.drop (header kind numeral).length = rest := by rw [shape, List.drop_left]
  dsimp only
  split
  · trivial
  · split
    · trivial
    · rename_i limit
      split
      · rename_i null
        subst null
        refine ⟨.typedNull kind numeral, .typedNull (.inl bulkKind) length, ?_, rfl, rfl⟩
        rw [behind, shape]
        rfl
      · obtain ⟨n, rfl⟩ := Int.eq_ofNat_of_zero_le (show 0 ≤ value by omega)
        simp only [Int.toNat_natCast]
        split
        · trivial
        · split
          · trivial
          · rename_i enough
            split
            · trivial
            · rename_i trailer
              split
              · trivial
              · rename_i verbatim
                have size : (rest.take n).length = n := by
                  rw [shape, List.length_append] at enough
                  rw [List.length_take]
                  omega
                have encoded : (Leaf.bulk kind numeral (rest.take n)).encode.length =
                    (header kind numeral).length + n + 2 := by
                  simp only [Leaf.encode, List.length_append, size, crlf, List.length_cons, List.length_nil]
                rw [behind] at verbatim
                refine ⟨.bulk kind numeral (rest.take n), ?_, ?_, encoded.symm, ?_⟩
                · refine .bulk bulkKind (size.symm ▸ length) ?_ ?_
                  · rw [size]
                    simpa [exceedsI64Limit] using limit
                  · intro same
                    exact Decidable.byContradiction fun invalid => verbatim ⟨same, invalid⟩
                · -- The trailer was checked, so the octets behind the payload start with it.
                  have cut : crlf ++ rest.drop (n + 2) = rest.drop n := by
                    rw [← List.drop_drop, behind] at trailer
                    rw [← Classical.not_not.mp trailer, ← List.drop_drop, List.take_append_drop]
                  rw [Nat.add_assoc, ← List.drop_drop, behind, Leaf.encode, List.append_assoc, List.append_assoc,
                    cut, List.take_append_drop, shape]
                · simp only [Leaf.node, size, header_length]

theorem lineToken_spells {kind : Kind} (front : data.head? = some (kindToPrefix kind)) (lineKind : kind.isLine = true) :
    (lineToken limits kind data).Spells limits data := by
  cases data with
  | nil => cases front
  | cons octet line =>
    obtain rfl : octet = kindToPrefix kind := Option.some.inj front
    simp only [lineToken, List.drop_succ_cons, List.drop_zero]
    split
    · split <;> trivial
    · rename_i pos found
      have bound := findPair_bound found
      obtain ⟨free, split⟩ := findPair_split found
      have size : (line.take pos).length = pos := by rw [List.length_take]; omega
      split
      · trivial
      · rename_i short
        have whole : header kind (line.take pos) ++ (kindToPrefix kind :: line).drop (1 + pos + 2) =
            kindToPrefix kind :: line := by
          rw [header_append, show 1 + pos + 2 = pos + 2 + 1 by omega, List.drop_succ_cons, ← split]
        have used : 1 + pos + 2 = (header kind (line.take pos)).length := by rw [header_length, size]
        have spelled {node : RawNode Span} (integer : kind = .integer → (parseI64 (line.take pos)).isSome = true)
            (double : kind = .doubleNumber → parseDouble (line.take pos) = true)
            (same : node = (Leaf.line kind (line.take pos)).node) :
            (Token.leaf node (1 + pos + 2)).Spells limits (kindToPrefix kind :: line) :=
          ⟨.line kind (line.take pos), .line lineKind free (by omega) integer double, whole, used, same⟩
        cases kind with
        | simpleString | simpleError | bigNumber =>
          exact spelled (by simp) (by simp) (by simp only [Leaf.node, size]; rfl)
        | integer =>
          dsimp only
          split
          · trivial
          · rename_i value read
            exact spelled (fun _ => by rw [read]; rfl) (by simp) (by simp only [Leaf.node, size, read]; rfl)
        | doubleNumber =>
          dsimp only
          split
          · rename_i accepted
            exact spelled (by simp) (fun _ => accepted) (by simp only [Leaf.node, size]; rfl)
          · trivial
        | _ => cases lineKind

theorem nullToken_spells (front : data.head? = some (kindToPrefix .null)) :
    (nullToken data).Spells limits data := by
  unfold nullToken
  split
  · rename_i octet second third rest
    obtain rfl : octet = kindToPrefix .null := Option.some.inj front
    split
    · trivial
    · rename_i ends
      obtain ⟨rfl, rfl⟩ : second = cr ∧ third = lf := by simpa using ends
      exact ⟨.null, .null, rfl, rfl, rfl⟩
  · trivial

theorem booleanToken_spells (front : data.head? = some (kindToPrefix .boolean)) :
    (booleanToken data).Spells limits data := by
  unfold booleanToken
  split
  · rename_i octet value third fourth rest
    obtain rfl : octet = kindToPrefix .boolean := Option.some.inj front
    split
    · trivial
    · rename_i ends
      obtain ⟨rfl, rfl⟩ : third = cr ∧ fourth = lf := by simpa using ends
      split
      · rename_i yes
        subst yes
        exact ⟨.boolean true, .boolean true, rfl, rfl, rfl⟩
      · split
        · rename_i no
          subst no
          exact ⟨.boolean false, .boolean false, rfl, rfl, rfl⟩
        · trivial
  · trivial

/-- Every token stands for a header or a leaf of the grammar and covers exactly its octets. -/
theorem nextToken_spells (limits : Limits) (data : Bytes) : (nextToken limits data).Spells limits data := by
  unfold nextToken
  split
  · trivial
  · rename_i octet front
    split
    · trivial
    · rename_i kind known
      rw [prefixToKind_some known] at front
      cases kind with
      | simpleString | simpleError | integer | doubleNumber | bigNumber =>
        simp only [elementToken]
        exact lineToken_spells front rfl
      | bulkString | bulkError | verbatimString => exact bulkToken_spells front rfl
      | array | set | push | map =>
        exact withHeader_spells front fun _ _ _ length shape => startContainer_spells length shape rfl
      | null => exact nullToken_spells front
      | boolean => exact booleanToken_spells front
      | _ => exact withHeader_spells front fun _ _ _ length shape => startAttribute_spells length shape rfl

/-- A header or leaf is read the same way with more octets behind it. -/
theorem nextToken_append_spelled (more : Bytes) (short : data.length ≤ Buffer.sizeMax)
    (decided : nextToken limits data ≠ .more) (fine : ∀ error used, nextToken limits data ≠ .bad error used) :
    nextToken limits (data ++ more) = nextToken limits data := by
  have spelled := nextToken_spells limits data
  -- The front that a token stands for is the front of the longer input too.
  have longer {front : Bytes} {used : Nat} (taken : front ++ data.drop used = data) :
      data ++ more = front ++ (data.drop used ++ more) := by rw [← List.append_assoc, taken]
  generalize nextToken limits data = token at spelled decided fine ⊢
  cases token with
  | more => exact absurd rfl decided
  | bad error used => exact absurd rfl (fine error used)
  | attributes n used =>
    obtain ⟨numeral, length, admissible, taken, same⟩ := spelled
    rw [longer taken, nextToken_attributes length admissible, same]
  | container kind n used =>
    obtain ⟨numeral, aggregate, length, admissible, taken, same⟩ := spelled
    rw [longer taken, nextToken_container aggregate length admissible, same]
  | leaf node used =>
    obtain ⟨leaf, formed, taken, rfl, rfl⟩ := spelled
    have small : leaf.encode.length ≤ Buffer.sizeMax := by
      rw [← taken, List.length_append] at short
      exact Nat.le_trans (Nat.le_add_right ..) short
    rw [longer taken, nextToken_leaf formed _ small]

end Backward

end Rediscoro.Resp3
