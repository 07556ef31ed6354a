import Mathlib.Data.List.Basic
import Mathlib.Tactic.Common
import Ads.Foundation.Runs

/-!
# Openings and closings

A sequence in which keys are opened and closed. A key is pending after it when it was opened and not
closed since (`Pending`); a sequence is closed when no key is pending, and matched when every
closing is of a pending key. A matched sequence that is cut where nothing is pending leaves a
matched rest (`Matched.of_append`), so that no key is opened on one side of the cut and closed on
the other.
-/

set_option autoImplicit false
set_option relaxedAutoImplicit false

namespace Ads.Foundation.Brackets

open Runs (snoc_eq_append_cons)

variable {κ : Type}

/-- A key is opened or closed. -/
inductive Bracket (κ : Type) where
  | opening (key : κ)
  | closing (key : κ)
  deriving DecidableEq

/-- The key was opened and not closed since. -/
def Pending (brackets : List (Bracket κ)) (key : κ) : Prop :=
  ∃ before after, brackets = before ++ .opening key :: after ∧ .closing key ∉ after

/-- Everything that was opened was closed afterwards. -/
def Closed (brackets : List (Bracket κ)) : Prop :=
  ∀ key, ¬ Pending brackets key

/-- Everything that is closed was opened before and not closed since. -/
def Matched (brackets : List (Bracket κ)) : Prop :=
  ∀ before key after, brackets = before ++ .closing key :: after → Pending before key

variable {brackets first second : List (Bracket κ)} {key other : κ} {bracket : Bracket κ}

theorem not_pending_nil : ¬ Pending ([] : List (Bracket κ)) key := by
  rintro ⟨before, after, hsplit, -⟩
  exact List.append_ne_nil_of_right_ne_nil before (List.cons_ne_nil _ after) hsplit.symm

theorem closed_nil : Closed ([] : List (Bracket κ)) :=
  fun _ ↦ not_pending_nil

theorem matched_nil : Matched ([] : List (Bracket κ)) := by
  intro before key after hsplit
  exact absurd hsplit.symm (List.append_ne_nil_of_right_ne_nil before (List.cons_ne_nil _ after))

/-- What is pending after one more bracket. -/
theorem pending_snoc : Pending (brackets ++ [bracket]) key ↔
    bracket = .opening key ∨ (bracket ≠ .closing key ∧ Pending brackets key) := by
  constructor
  · rintro ⟨before, after, hsplit, hopen⟩
    rcases snoc_eq_append_cons hsplit with ⟨-, hbracket, -⟩ | ⟨rest, rfl, hrest⟩
    · exact Or.inl hbracket.symm
    · rw [List.mem_append, not_or] at hopen
      exact Or.inr ⟨fun heq ↦ hopen.2 (by simp [heq]), before, rest, hrest, hopen.1⟩
  · rintro (rfl | ⟨hbracket, before, after, rfl, hopen⟩)
    · exact ⟨brackets, [], rfl, List.not_mem_nil⟩
    · refine ⟨before, after ++ [bracket], by simp, ?_⟩
      rw [List.mem_append, not_or, List.mem_singleton]
      exact ⟨hopen, hbracket.symm⟩

/-- A matched sequence goes on with an opening, or closes what is pending. -/
theorem Matched.snoc (hmatched : Matched brackets)
    (hbracket : ∀ key, bracket = .closing key → Pending brackets key) :
    Matched (brackets ++ [bracket]) := by
  intro before key after hsplit
  rcases snoc_eq_append_cons hsplit with ⟨rfl, hclosing, -⟩ | ⟨rest, -, hrest⟩
  · exact hbracket key hclosing.symm
  · exact hmatched before key rest hrest

/-- The start of a matched sequence is matched. -/
theorem Matched.of_append_left (hmatched : Matched (first ++ second)) : Matched first := by
  rintro before key after rfl
  exact hmatched before key (after ++ second) (by simp)

/-- What is pending after two parts was opened in the second or is pending after the first. -/
theorem Pending.of_append (hpending : Pending (first ++ second) key) :
    Pending first key ∨ Pending second key := by
  obtain ⟨before, after, hsplit, hopen⟩ := hpending
  rcases List.append_eq_append_iff.mp hsplit with ⟨rest, rfl, hsecond⟩ | ⟨rest, rfl, hrest⟩
  · exact Or.inr ⟨rest, after, hsecond, hopen⟩
  · cases rest with
    | nil => exact Or.inr ⟨[], after, hrest.symm, hopen⟩
    | cons bracket rest =>
      obtain ⟨rfl, rfl⟩ := List.cons.inj hrest
      exact Or.inl ⟨before, rest, rfl, fun h ↦ hopen (List.mem_append_left _ h)⟩

/-- Cut where nothing is pending, the rest of a matched sequence is matched. -/
theorem Matched.of_append (hmatched : Matched (first ++ second)) (hclosed : Closed first) :
    Matched second := by
  rintro before key after rfl
  have hpending := hmatched (first ++ before) key after (by simp)
  exact hpending.of_append.resolve_left (hclosed key)

end Ads.Foundation.Brackets
