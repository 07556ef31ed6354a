import Mathlib.Data.Finset.Card
import Ads.Foundation.Runs

/-!
# Leases

Items of some kinds are acquired and released, and a counter for each kind follows. In an orderly
trace no item is acquired twice and only what is held is released, so that every item is released
exactly once when it is acquired and no longer held, and never before (`count_released`).
-/

set_option autoImplicit false
set_option relaxedAutoImplicit false

namespace Ads.Foundation.Leases

open Runs

variable {κ ι : Type} [DecidableEq κ] [DecidableEq ι]

/-- An item is acquired or released. -/
inductive Lease (κ ι : Type)
  | acquired (kind : κ) (item : ι)
  | released (kind : κ) (item : ι)
deriving DecidableEq

/-- The items that are held after one more lease. -/
def holdNext (kind : κ) (held : Finset ι) : Lease κ ι → Finset ι
  | .acquired other item => if other = kind then insert item held else held
  | .released other item => if other = kind then held.erase item else held

/-- The items of a kind that are held after some leases. -/
def held (kind : κ) (trace : List (Lease κ ι)) : Finset ι :=
  trace.foldl (holdNext kind) ∅

/-- The item is acquired in the trace. -/
def IsAcquired (trace : List (Lease κ ι)) (item : ι) : Prop :=
  ∃ kind, .acquired kind item ∈ trace

/-- No item is acquired again, and only what is held is released. -/
def IsOrderly (before : List (Lease κ ι)) : Lease κ ι → Prop
  | .acquired _ item => ¬ IsAcquired before item
  | .released kind item => item ∈ held kind before

variable {kind other : κ} {item found : ι} {trace : List (Lease κ ι)} {lease : Lease κ ι}

@[simp] theorem held_nil : held kind ([] : List (Lease κ ι)) = ∅ :=
  rfl

theorem held_snoc : held kind (trace ++ [lease]) = holdNext kind (held kind trace) lease := by
  simp [held]

@[simp] theorem held_acquired :
    held kind (trace ++ [.acquired kind item]) = insert item (held kind trace) := by
  simp [held_snoc, holdNext]

@[simp] theorem held_released :
    held kind (trace ++ [.released kind item]) = (held kind trace).erase item := by
  simp [held_snoc, holdNext]

theorem held_acquired_of_ne (hother : other ≠ kind) :
    held kind (trace ++ [.acquired other item]) = held kind trace := by
  simp [held_snoc, holdNext, hother]

theorem held_released_of_ne (hother : other ≠ kind) :
    held kind (trace ++ [.released other item]) = held kind trace := by
  simp [held_snoc, holdNext, hother]

/-- One more acquired item. -/
theorem mem_held_acquired : item ∈ held kind (trace ++ [.acquired other found]) ↔
    (other = kind ∧ found = item) ∨ item ∈ held kind trace := by
  by_cases hother : other = kind
  · subst hother
    simp [eq_comm]
  · simp [held_acquired_of_ne hother, hother]

/-- One more released item. -/
theorem mem_held_released : item ∈ held kind (trace ++ [.released other found]) ↔
    ¬ (other = kind ∧ found = item) ∧ item ∈ held kind trace := by
  by_cases hother : other = kind
  · subst hother
    simp [eq_comm]
  · simp [held_released_of_ne hother, hother]

/-- What is held was acquired. -/
theorem acquired_of_mem_held (hitem : item ∈ held kind trace) : .acquired kind item ∈ trace := by
  induction trace using List.reverseRecOn with
  | nil => simp at hitem
  | append_singleton trace lease ih =>
    rw [List.mem_append, List.mem_singleton]
    cases lease with
    | acquired other found =>
      rcases mem_held_acquired.mp hitem with ⟨rfl, rfl⟩ | hheld
      · exact Or.inr rfl
      · exact Or.inl (ih hheld)
    | released other found => exact Or.inl (ih (mem_held_released.mp hitem).2)

/-- In an orderly trace an item is released once if it is acquired and no longer held, and never
otherwise. -/
theorem count_released (horderly : Along IsOrderly trace) : trace.count (.released kind item) =
    if .acquired kind item ∈ trace ∧ item ∉ held kind trace then 1 else 0 := by
  induction trace using List.reverseRecOn with
  | nil => simp
  | append_singleton trace lease ih =>
    have hcount := ih horderly.of_append
    have hlease : IsOrderly trace lease := horderly trace lease [] (by simp)
    cases lease with
    | acquired other found =>
      rw [List.count_append, List.count_singleton, if_neg (by simp), Nat.add_zero, hcount]
      by_cases hsame : other = kind ∧ found = item
      · obtain ⟨rfl, rfl⟩ := hsame
        have hnew : .acquired other found ∉ trace := fun hmem ↦ hlease ⟨other, hmem⟩
        simp [hnew]
      · have hmem : Lease.acquired kind item ∈ trace ++ [.acquired other found] ↔
            .acquired kind item ∈ trace := by
          simp only [List.mem_append, List.mem_singleton, Lease.acquired.injEq, or_iff_left_iff_imp]
          exact fun heq ↦ absurd ⟨heq.1.symm, heq.2.symm⟩ hsame
        simp only [hmem, mem_held_acquired, hsame, false_or]
    | released other found =>
      rw [List.count_append, List.count_singleton, hcount]
      by_cases hsame : other = kind ∧ found = item
      · obtain ⟨rfl, rfl⟩ := hsame
        have hheld : found ∈ held other trace := hlease
        simp [hheld, acquired_of_mem_held hheld]
      · have hne : ¬ (Lease.released other found == Lease.released kind item) = true := by
          simpa using fun hkind ↦ fun hitem ↦ hsame ⟨hkind, hitem⟩
        simp only [hne, mem_held_released, hsame, List.mem_append, List.mem_singleton, reduceCtorEq,
          or_false, not_false_iff, true_and, if_false, Nat.add_zero]

/-- The counter after one more acquired item. -/
theorem card_held_acquired (hnew : ¬ IsAcquired trace item) :
    (held kind (trace ++ [.acquired kind item])).card = (held kind trace).card + 1 := by
  rw [held_acquired, Finset.card_insert_of_notMem fun hheld ↦
    hnew ⟨kind, acquired_of_mem_held hheld⟩]

/-- The counter after one more released item. -/
theorem card_held_released (hheld : item ∈ held kind trace) :
    (held kind (trace ++ [.released kind item])).card + 1 = (held kind trace).card := by
  rw [held_released, Finset.card_erase_add_one hheld]

end Ads.Foundation.Leases
