import Mathlib.Data.List.Basic

/-! Histories that grow at their end.

A chronicle is a history each of whose entries was allowed by the entries before
it. What follows the last entry of some kind is what has happened since.
-/

set_option autoImplicit false

namespace Rediscoro.Semantics

variable {α : Type}

/-- Every entry was allowed by what came before it. -/
def Chronicle (allowed : List α → α → Prop) (history : List α) : Prop :=
  ∀ before entry after, history = before ++ entry :: after → allowed before entry

theorem chronicle_nil (allowed : List α → α → Prop) : Chronicle allowed [] := by
  intro before entry after split
  simp at split

theorem chronicle_concat {allowed : List α → α → Prop} {history : List α} {entry : α} :
    Chronicle allowed (history ++ [entry]) ↔ Chronicle allowed history ∧ allowed history entry := by
  constructor
  · intro chronicle
    refine ⟨fun before earlier after split => ?_, chronicle history entry [] rfl⟩
    exact chronicle before earlier (after ++ [entry]) (by simp [split])
  · rintro ⟨chronicle, last⟩ before other after split
    rcases List.eq_nil_or_concat after with rfl | ⟨rest, final, rfl⟩
    · obtain ⟨rfl, same⟩ := List.append_inj' split rfl
      cases same
      exact last
    · have same : history ++ [entry] = (before ++ other :: rest) ++ [final] := by simp [split]
      exact chronicle before other rest (List.append_inj' same rfl).1

/-- What has happened since the last marked entry, if there was one. -/
def Since (mark : α → Prop) (history between : List α) : Prop :=
  ∃ earlier entry, history = earlier ++ entry :: between ∧ mark entry ∧ ∀ other ∈ between, ¬mark other

section Since

variable {mark : α → Prop} {history between : List α} {entry : α}

theorem since_nil : ¬Since mark [] between := by
  rintro ⟨earlier, first, split, -⟩
  simp at split

theorem since_concat_mark (marked : mark entry) : Since mark (history ++ [entry]) between ↔ between = [] := by
  constructor
  · rintro ⟨earlier, first, split, -, unmarked⟩
    rcases List.eq_nil_or_concat between with rfl | ⟨rest, final, rfl⟩
    · rfl
    · have same : history ++ [entry] = (earlier ++ first :: rest) ++ [final] := by simp [split]
      cases (List.append_inj' same rfl).2
      exact absurd marked (unmarked entry (by simp))
  · rintro rfl
    exact ⟨history, entry, rfl, marked, by simp⟩

theorem since_concat (unmarked : ¬mark entry) :
    Since mark (history ++ [entry]) between ↔ ∃ shorter, between = shorter ++ [entry] ∧ Since mark history shorter := by
  constructor
  · rintro ⟨earlier, first, split, marked, others⟩
    rcases List.eq_nil_or_concat between with rfl | ⟨rest, final, rfl⟩
    · cases (List.append_inj' split rfl).2
      exact absurd marked unmarked
    · have same : history ++ [entry] = (earlier ++ first :: rest) ++ [final] := by simp [split]
      obtain ⟨rfl, last⟩ := List.append_inj' same rfl
      cases last
      exact ⟨rest, by simp, earlier, first, rfl, marked, fun other member => others other (by simp [member])⟩
  · rintro ⟨shorter, rfl, earlier, first, rfl, marked, others⟩
    refine ⟨earlier, first, by simp, marked, fun other member => ?_⟩
    rcases List.mem_append.mp member with earlier | last
    · exact others other earlier
    · rw [List.mem_singleton.mp last]
      exact unmarked

end Since

end Rediscoro.Semantics
