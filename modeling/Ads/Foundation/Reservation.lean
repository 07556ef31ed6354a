import Mathlib.Logic.Basic
import Mathlib.Data.Option.Basic

/-!
# Reservations

A resource that one writer may create once: nothing is issued, then a write is in flight, then it is
settled. Beside the stage stands the identity under which the resource was observed, once it is
known. A slot advances by at most one stage, and its identity is written once.

A slot is captured by who tears the resource down while the original writer may still report. Such a
slot follows the capture when it has only gone from in flight to settled and knows no identity that
the capture lacks (`Slot.Follows`); it is resolved when nothing can appear any more
(`Slot.Resolved`). The capture brought up to date with the slot (`Slot.sealed`) is the slot itself
exactly when no identity is missing that a settled capture knew (`eq_sealed_iff`).
-/

set_option autoImplicit false
set_option relaxedAutoImplicit false

namespace Ads.Foundation

/-- The stages of a write. -/
inductive Dispatch where
  | unissued
  | inflight
  | settled
  deriving DecidableEq

/-- At most one stage further. -/
inductive Dispatch.Next : Dispatch → Dispatch → Prop where
  | stay (stage : Dispatch) : Next stage stage
  | issue : Next .unissued .inflight
  | settle : Next .inflight .settled

/-- What was issued stays issued. -/
theorem Dispatch.Next.issued {before after : Dispatch} (hnext : before.Next after)
    (hissued : before ≠ .unissued) : after ≠ .unissued := by
  cases hnext with
  | stay => exact hissued
  | issue => exact absurd rfl hissued
  | settle => exact Dispatch.noConfusion

/-- What is settled stays settled. -/
theorem Dispatch.Next.settled {before after : Dispatch} (hnext : before.Next after)
    (hsettled : before = .settled) : after = .settled := by
  cases hnext with
  | stay => exact hsettled
  | issue => exact Dispatch.noConfusion hsettled
  | settle => rfl

/-- A value that is there stays there. -/
def WriteOnce {ν : Type} (before after : Option ν) : Prop :=
  ∀ value, before = some value → after = some value

namespace WriteOnce

variable {ν : Type} {before between after : Option ν}

@[refl, simp] theorem refl (value : Option ν) : WriteOnce value value :=
  fun _ hvalue ↦ hvalue

theorem trans (hfirst : WriteOnce before between) (hsecond : WriteOnce between after) :
    WriteOnce before after :=
  fun value hvalue ↦ hsecond value (hfirst value hvalue)

/-- Anything may be written where nothing is. -/
@[simp] theorem of_none : WriteOnce none after :=
  fun _ hvalue ↦ nomatch hvalue

theorem eq_of_some {value : ν} (hwrite : WriteOnce before after) (hbefore : before = some value) :
    after = before :=
  (hwrite value hbefore).trans hbefore.symm

/-- What is written and not empty is what it was. -/
theorem eq_of_ne_none (hwrite : WriteOnce before after) (hbefore : before ≠ none) :
    after = before := by
  obtain ⟨value, hvalue⟩ := Option.ne_none_iff_exists'.mp hbefore
  exact hwrite.eq_of_some hvalue

/-- A value written over one that does not differ from it. -/
theorem of_guard {value : ν} (hguard : ¬ (before ≠ none ∧ before ≠ some value)) :
    WriteOnce before (some value) := by
  intro old hold
  by_contra hne
  exact hguard ⟨by rw [hold]; exact Option.some_ne_none old, fun heq ↦ hne (heq ▸ hold)⟩

end WriteOnce

/-- The stage of a write, and the identity of what it made. -/
structure Slot (ν : Type) where
  dispatch : Dispatch
  uid : Option ν
  deriving DecidableEq

namespace Slot

variable {ν : Type} {before between after captured live : Slot ν}

/-- One stage further at most, and the identity is written once. -/
structure Advances (before after : Slot ν) : Prop where
  dispatch : before.dispatch.Next after.dispatch
  uid : WriteOnce before.uid after.uid

@[refl, simp] theorem Advances.refl (slot : Slot ν) : slot.Advances slot :=
  ⟨.stay _, .refl _⟩

/-- A settled slot with its identity is final. -/
theorem Advances.eq_of_settled (hadvances : before.Advances after)
    (hsettled : before.dispatch = .settled) (huid : before.uid ≠ none) : after = before := by
  obtain ⟨stage, uid⟩ := before
  obtain ⟨stage', uid'⟩ := after
  have hstage : stage' = .settled := hadvances.dispatch.settled hsettled
  have hid : uid' = uid := hadvances.uid.eq_of_ne_none huid
  rw [hstage, hid, ← show stage = .settled from hsettled]

/-- A later reading of a captured slot: in flight may have become settled, and the identity, if it
is known, was captured. -/
structure Follows (captured live : Slot ν) : Prop where
  dispatch : live.dispatch = captured.dispatch ∨
    (captured.dispatch = .inflight ∧ live.dispatch = .settled)
  uid : WriteOnce live.uid captured.uid

/-- Nothing can appear any more: nothing was issued or seen, or the write is settled and what it
made was captured. -/
def Resolved (captured live : Slot ν) : Prop :=
  (live.dispatch = .unissued ∧ captured.uid = none) ∨
    (live.dispatch = .settled ∧ captured.uid ≠ none)

/-- The capture brought up to date where its write has settled since. -/
def sealed (captured live : Slot ν) : Slot ν :=
  if captured.dispatch = .inflight ∧ live.dispatch = .settled then ⟨.settled, live.uid⟩
  else captured

/-- The capture brought up to date is the slot, exactly when the slot knows what a settled capture
knew. -/
theorem eq_sealed_iff (hfollows : captured.Follows live) (hresolved : captured.Resolved live) :
    live = captured.sealed live ↔ (captured.dispatch = .settled → live.uid = captured.uid) := by
  obtain ⟨stage, uid⟩ := captured
  obtain ⟨stage', uid'⟩ := live
  obtain ⟨hstage, huid⟩ := hfollows
  simp only at hstage huid
  rcases hstage with rfl | ⟨rfl, rfl⟩
  · cases stage' with
    | unissued =>
      obtain ⟨-, hnone⟩ | ⟨hsettled, -⟩ := hresolved
      · have hlive : uid' = none := by
          by_contra hsome
          exact hsome (huid.eq_of_ne_none hsome ▸ hnone)
        have huids : uid' = uid := hlive.trans hnone.symm
        simp [sealed, huids]
      · exact Dispatch.noConfusion hsettled
    | inflight =>
      obtain ⟨hstage, -⟩ | ⟨hstage, -⟩ := hresolved
      · exact Dispatch.noConfusion hstage
      · exact Dispatch.noConfusion hstage
    | settled => simp [sealed]
  · simp [sealed]

/-- A resolved slot is not in flight. -/
theorem Resolved.not_inflight (hresolved : captured.Resolved live) : live.dispatch ≠ .inflight := by
  rcases hresolved with ⟨hstage, -⟩ | ⟨hstage, -⟩
  · rw [hstage]
    exact Dispatch.noConfusion
  · rw [hstage]
    exact Dispatch.noConfusion

end Slot

end Ads.Foundation
