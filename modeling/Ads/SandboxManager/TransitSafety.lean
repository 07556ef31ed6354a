import Mathlib.Tactic
import Ads.Foundation.Runs
import Ads.SandboxManager.Transit

/-!
# Requests are forwarded at most once

`transit_at_most_once` says of every run of the service that a request that is held has at most one
outcome, that it is forwarded only after `admit` returned its session as ready, that nothing is sent
for it after an abort or a reset that is for it, and that `_pending` and `_requests` keep it until
then and forget it when its task is done. `_pending` tells all of it: a request that it holds is not
done and was not asked back, and what is sent for a request is sent while `_pending` holds it, in
the step that ends its task.
-/

set_option autoImplicit false
set_option relaxedAutoImplicit false

namespace Ads.SandboxManager.Transit

open Foundation Foundation.Runs Python
open SandboxIpc (Inbound Request Result errorResult)

variable {state : TransitState} {trace : List TransitEffect} {id : ℕ} {task : RequestTask}
  {stage : Stage}

/-! ### What the effects say -/

/-- The effect is an outcome of the request. -/
def isOutcome (id : ℕ) : TransitEffect → Bool
  | .forwarded other _ _ => other == id
  | .failed other _ => other == id
  | .held _ _ | .asked _ | .admitted _ _ | .ended _ => false

/-- The abort or reset is for the request. -/
def VerifiedExec.IsFor (asked : VerifiedExec) (held : HeldRequest) : Prop :=
  asked.message.control = held.request.control ∧ asked.subject = held.subject

/-- An abort or a reset for the request is accepted. -/
def Withdraws (held : HeldRequest) (effect : TransitEffect) : Prop :=
  ∃ asked, effect = .asked asked ∧ asked.IsFor held

/-- The request is held, nothing was sent for it, and nobody asked it back. -/
def IsOpen (trace : List TransitEffect) (id : ℕ) (request : Request) : Prop :=
  (∀ effect ∈ trace, isOutcome id effect = false) ∧
    ∃ held, held.request = request ∧ Since (Withdraws held) trace (.held id held)

/-- `admit` returned the row for the request, and its session is ready. -/
def Admits (trace : List TransitEffect) (id : ℕ) (request : Request) (row : SandboxSession) :
    Prop :=
  .admitted id row ∈ trace ∧ row.status = .ready ∧ row.sessionId = request.sessionId

/-- The effect may follow those before it. -/
def IsLawful (before : List TransitEffect) : TransitEffect → Prop
  | .held id _ => ∀ other, .held id other ∉ before
  | .forwarded id sandboxId request =>
    IsOpen before id request ∧ ∃ row, Admits before id request row ∧ row.sandboxId = sandboxId
  | .failed id failure => ∃ request, IsOpen before id request ∧
    failure = errorResult request.executionId "sandbox preparation unavailable".toList
  | .asked _ | .admitted _ _ | .ended _ => True

/-- The task of the request is done, or another request of the execution is held. -/
def Supersedes (id : ℕ) (held : HeldRequest) (effect : TransitEffect) : Prop :=
  effect = .ended id ∨ ∃ other newer, effect = .held other newer ∧
    newer.request.executionId = held.request.executionId

/-- What holds after a run. -/
structure Transits (state : TransitState) (trace : List TransitEffect) : Prop where
  /-- What is sent for a request is sent while it is open, and forwarded after it is admitted. -/
  lawful : Along IsLawful trace
  /-- Each request has at most one outcome. -/
  once : ∀ id, trace.countP (isOutcome id) ≤ 1
  /-- Only an abort or a reset that is for a request drops it before its task is done. -/
  kept : ∀ id held,
    Since (fun effect ↦ effect = .ended id ∨ Withdraws held effect) trace (.held id held) →
      state.pending held.request.executionId = some id
  /-- The newest request of an execution has its task in `_requests` until it is done. -/
  newest : ∀ id held, Since (Supersedes id held) trace (.held id held) →
    state.requests held.request.executionId = some id
  /-- A task that is done leaves no trace. -/
  ended : ∀ id, .ended id ∈ trace → ∀ executionId,
    state.pending executionId ≠ some id ∧ state.requests executionId ≠ some id

/-! ### What the maps say of the effects -/

/-- The request of a task. -/
def TransitState.incoming (state : TransitState) (id : ℕ) : Option HeldRequest :=
  (state.tasks id).map RequestTask.incoming

/-- The task of a request is done. -/
def TransitState.IsEnded (state : TransitState) (id : ℕ) : Prop :=
  ∃ held, state.tasks id = some ⟨held, .ended⟩

/-- The maps fit to the effects so far. -/
structure Mapped (state : TransitState) (trace : List TransitEffect) : Prop where
  fresh : ∀ id, state.next ≤ id → state.tasks id = none
  held : ∀ id held, .held id held ∈ trace ↔ state.incoming id = some held
  ended : ∀ id, .ended id ∈ trace ↔ state.IsEnded id
  pending : ∀ executionId id, state.pending executionId = some id →
    ¬ state.IsEnded id ∧ ∃ held, state.incoming id = some held ∧
      held.request.executionId = executionId ∧ Since (Withdraws held) trace (.held id held)
  requests : ∀ executionId id, state.requests executionId = some id →
    ¬ state.IsEnded id ∧ ∃ held, state.incoming id = some held ∧
      held.request.executionId = executionId
  kept : ∀ id held,
    Since (fun effect ↦ effect = .ended id ∨ Withdraws held effect) trace (.held id held) →
      state.pending held.request.executionId = some id
  newest : ∀ id held, Since (Supersedes id held) trace (.held id held) →
    state.requests held.request.executionId = some id

/-- What a task that stands there was admitted with. -/
def Stage.Fits (trace : List TransitEffect) (id : ℕ) (request : Request) : Stage → Prop
  | .admitted (some row) => Admits trace id request row
  | .minting sandboxId => ∃ row, Admits trace id request row ∧ row.sandboxId = sandboxId
  | _ => True

/-- The state fits to the effects so far. -/
structure Coherent (state : TransitState) (trace : List TransitEffect) : Prop extends
    Mapped state trace where
  lawful : Along IsLawful trace
  outcome : ∀ id, ∀ effect ∈ trace, isOutcome id effect = true → .ended id ∈ trace
  stages : ∀ id task, state.tasks id = some task →
    task.stage.Fits trace id task.incoming.request

theorem Admits.append {request : Request} {row : SandboxSession} {later : List TransitEffect}
    (hadmits : Admits trace id request row) : Admits (trace ++ later) id request row :=
  ⟨List.mem_append_left _ hadmits.1, hadmits.2⟩

/-- What a task was admitted with stays. -/
theorem Stage.Fits.append {request : Request} {later : List TransitEffect}
    (hfits : stage.Fits trace id request) : stage.Fits (trace ++ later) id request := by
  cases stage with
  | admitted row =>
    cases row with
    | none => trivial
    | some row => exact Admits.append hfits
  | minting sandboxId =>
    obtain ⟨row, hadmits, hsandbox⟩ := hfits
    exact ⟨row, hadmits.append, hsandbox⟩
  | _ => trivial

/-! ### A task goes on -/

/-- A task that is not done. -/
structure IsActive (state : TransitState) (id : ℕ) (task : RequestTask) : Prop where
  found : state.tasks id = some task
  unended : task.stage ≠ .ended

theorem IsActive.incoming (hactive : IsActive state id task) :
    state.incoming id = some task.incoming := by
  simp [TransitState.incoming, hactive.found]

theorem IsActive.not_isEnded (hactive : IsActive state id task) : ¬ state.IsEnded id := by
  rintro ⟨held, hended⟩
  rw [hactive.found, Option.some.injEq] at hended
  exact hactive.unended (by rw [hended])

/-- A task has the same request at every stage. -/
theorem incoming_goto (hactive : IsActive state id task) :
    (state.goto id task stage).incoming = state.incoming := by
  funext other
  by_cases hother : other = id
  · subst hother
    simp [TransitState.goto, TransitState.incoming, hactive.found]
  · simp [TransitState.goto, TransitState.incoming, hother]

theorem isEnded_goto_of_ne {other : ℕ} (hother : other ≠ id) :
    (state.goto id task stage).IsEnded other ↔ state.IsEnded other := by
  simp [TransitState.goto, TransitState.IsEnded, hother]

theorem isEnded_goto_self : (state.goto id task stage).IsEnded id ↔ stage = .ended := by
  simp only [TransitState.goto, TransitState.IsEnded, Function.update_self, Option.some.injEq,
    RequestTask.mk.injEq]
  exact ⟨fun h ↦ h.choose_spec.2, fun h ↦ ⟨_, rfl, h⟩⟩

/-- A task that goes on is not done. -/
theorem isEnded_goto (hactive : IsActive state id task) (hstage : stage ≠ .ended) (other : ℕ) :
    (state.goto id task stage).IsEnded other ↔ state.IsEnded other := by
  by_cases hother : other = id
  · subst hother
    exact iff_of_false (fun h ↦ hstage (isEnded_goto_self.mp h)) hactive.not_isEnded
  · exact isEnded_goto_of_ne hother

/-- A change of state that the maps do not see. -/
theorem Mapped.of_same {after : TransitState} (hmapped : Mapped state trace)
    (hnext : after.next = state.next) (hincoming : after.incoming = state.incoming)
    (hended : ∀ other, after.IsEnded other ↔ state.IsEnded other)
    (hpending : after.pending = state.pending) (hrequests : after.requests = state.requests) :
    Mapped after trace := by
  constructor
  case fresh =>
    intro other hother
    have hnone : state.incoming other = none := by
      simp [TransitState.incoming, hmapped.fresh other (hnext ▸ hother)]
    rw [← hincoming] at hnone
    simpa [TransitState.incoming] using hnone
  case held =>
    rw [hincoming]
    exact hmapped.held
  case ended => exact fun other ↦ (hmapped.ended other).trans (hended other).symm
  case pending =>
    simp only [hpending, hended, hincoming]
    exact hmapped.pending
  case requests =>
    simp only [hrequests, hended, hincoming]
    exact hmapped.requests
  case kept =>
    rw [hpending]
    exact hmapped.kept
  case newest =>
    rw [hrequests]
    exact hmapped.newest

/-- An effect that the maps do not see. -/
theorem Mapped.append (hmapped : Mapped state trace) {effect : TransitEffect}
    (hheld : ∀ other held, effect ≠ .held other held) (hended : ∀ other, effect ≠ .ended other)
    (hasked : ∀ asked, effect ≠ .asked asked) : Mapped state (trace ++ [effect]) := by
  have hwithdraws : ∀ held, ¬ Withdraws held effect := by
    rintro held ⟨asked, rfl, -⟩
    exact hasked asked rfl
  constructor
  case fresh => exact hmapped.fresh
  case held =>
    intro other held
    rw [List.mem_append, List.mem_singleton, or_iff_left (hheld other held).symm]
    exact hmapped.held other held
  case ended =>
    intro other
    rw [List.mem_append, List.mem_singleton, or_iff_left (hended other).symm]
    exact hmapped.ended other
  case pending =>
    intro executionId other hpending
    obtain ⟨hunended, held, hincoming, hexecution, hsince⟩ :=
      hmapped.pending executionId other hpending
    exact ⟨hunended, held, hincoming, hexecution, since_snoc.mpr (Or.inr ⟨hwithdraws held, hsince⟩)⟩
  case requests => exact hmapped.requests
  case kept =>
    intro other held hsince
    rcases since_snoc.mp hsince with rfl | ⟨-, hbefore⟩
    · exact absurd rfl (hheld other held)
    · exact hmapped.kept other held hbefore
  case newest =>
    intro other held hsince
    rcases since_snoc.mp hsince with rfl | ⟨-, hbefore⟩
    · exact absurd rfl (hheld other held)
    · exact hmapped.newest other held hbefore

/-! ### A task is done -/

/-- A map forgets a value that stands under one key only. -/
theorem forget_eq_some {map : Uuid → Option ℕ} {key : Uuid}
    (hkey : ∀ executionId, map executionId = some id → executionId = key) {executionId : Uuid}
    {other : ℕ} :
    (if map key = some id then Function.update map key none else map) executionId = some other ↔
      map executionId = some other ∧ other ≠ id := by
  split_ifs with hfound
  · by_cases hexecution : executionId = key
    · subst hexecution
      rw [Function.update_self, hfound]
      simp [eq_comm]
    · rw [Function.update_of_ne hexecution]
      exact ⟨fun h ↦ ⟨h, fun hid ↦ hexecution (hkey _ (hid ▸ h))⟩, fun h ↦ h.1⟩
  · refine ⟨fun h ↦ ⟨h, ?_⟩, fun h ↦ h.1⟩
    rintro rfl
    obtain rfl := hkey executionId h
    exact hfound h

theorem Mapped.pending_finish (hmapped : Mapped state trace) (hactive : IsActive state id task)
    {executionId : Uuid} {other : ℕ} :
    (state.finish id task).1.pending executionId = some other ↔
      state.pending executionId = some other ∧ other ≠ id := by
  refine forget_eq_some fun executionId hpending ↦ ?_
  obtain ⟨-, held, hincoming, hexecution, -⟩ := hmapped.pending executionId id hpending
  rw [hactive.incoming, Option.some.injEq] at hincoming
  rw [← hexecution, ← hincoming]

theorem Mapped.requests_finish (hmapped : Mapped state trace) (hactive : IsActive state id task)
    {executionId : Uuid} {other : ℕ} :
    (state.finish id task).1.requests executionId = some other ↔
      state.requests executionId = some other ∧ other ≠ id := by
  refine forget_eq_some fun executionId hrequests ↦ ?_
  obtain ⟨-, held, hincoming, hexecution⟩ := hmapped.requests executionId id hrequests
  rw [hactive.incoming, Option.some.injEq] at hincoming
  rw [← hexecution, ← hincoming]

theorem tasks_goto : (state.goto id task stage).tasks =
    Function.update state.tasks id (some { task with stage := stage }) :=
  rfl

theorem tasks_finish :
    (state.finish id task).1.tasks =
      Function.update state.tasks id (some { task with stage := .ended }) :=
  rfl

theorem Mapped.finish (hmapped : Mapped state trace) (hactive : IsActive state id task) :
    Mapped (state.finish id task).1 (trace ++ [.ended id]) := by
  have hincoming : (state.finish id task).1.incoming = state.incoming := incoming_goto hactive
  have hself : (state.finish id task).1.IsEnded id := isEnded_goto_self.mpr rfl
  have hothers : ∀ other, other ≠ id →
      ((state.finish id task).1.IsEnded other ↔ state.IsEnded other) :=
    fun other hother ↦ isEnded_goto_of_ne hother
  have hwithdraws : ∀ held, ¬ Withdraws held (.ended id) := by
    rintro held ⟨asked, hasked, -⟩
    cases hasked
  constructor
  case fresh =>
    intro other hother
    have hne : other ≠ id := by
      rintro rfl
      have hnone := hmapped.fresh other hother
      rw [hactive.found] at hnone
      cases hnone
    rw [tasks_finish, Function.update_of_ne hne]
    exact hmapped.fresh other hother
  case held =>
    intro other held
    rw [List.mem_append, List.mem_singleton, or_iff_left (by simp), hincoming]
    exact hmapped.held other held
  case ended =>
    intro other
    rw [List.mem_append, List.mem_singleton]
    by_cases hother : other = id
    · subst hother
      exact iff_of_true (Or.inr rfl) hself
    · rw [hothers other hother, ← hmapped.ended, or_iff_left (by simpa using hother)]
  case pending =>
    intro executionId other hpending
    obtain ⟨hbefore, hother⟩ := (hmapped.pending_finish hactive).mp hpending
    obtain ⟨hunended, held, hheld, hexecution, hsince⟩ := hmapped.pending executionId other hbefore
    rw [hothers other hother, hincoming]
    exact ⟨hunended, held, hheld, hexecution, since_snoc.mpr (Or.inr ⟨hwithdraws held, hsince⟩)⟩
  case requests =>
    intro executionId other hrequests
    obtain ⟨hbefore, hother⟩ := (hmapped.requests_finish hactive).mp hrequests
    rw [hothers other hother, hincoming]
    exact hmapped.requests executionId other hbefore
  case kept =>
    intro other held hsince
    rcases since_snoc.mp hsince with hheld | ⟨hends, hbefore⟩
    · cases hheld
    · refine (hmapped.pending_finish hactive).mpr ⟨hmapped.kept other held hbefore, ?_⟩
      rintro rfl
      exact hends (Or.inl rfl)
  case newest =>
    intro other held hsince
    rcases since_snoc.mp hsince with hheld | ⟨hends, hbefore⟩
    · cases hheld
    · refine (hmapped.requests_finish hactive).mpr ⟨hmapped.newest other held hbefore, ?_⟩
      rintro rfl
      exact hends (Or.inl rfl)

/-! ### Messages -/

/-- A request that is accepted is held under its execution. -/
theorem Mapped.hold (hmapped : Mapped state trace) (held : HeldRequest)
    (hfree : state.pending held.request.executionId = none) :
    Mapped
      { state with
        next := state.next + 1
        tasks := Function.update state.tasks state.next (some ⟨held, .created⟩)
        pending := Function.update state.pending held.request.executionId (some state.next)
        requests := Function.update state.requests held.request.executionId (some state.next) }
      (trace ++ [.held state.next held]) := by
  generalize hafter : TransitState.mk _ _ _ _ _ = after
  have hnew : state.tasks state.next = none := hmapped.fresh _ le_rfl
  have hself : after.incoming state.next = some held := by
    simp [← hafter, TransitState.incoming]
  have hothers : ∀ other, other ≠ state.next → after.incoming other = state.incoming other := by
    intro other hother
    simp [← hafter, TransitState.incoming, hother]
  have hended : ∀ other, after.IsEnded other ↔ state.IsEnded other := by
    intro other
    by_cases hother : other = state.next
    · subst hother
      simp [← hafter, TransitState.IsEnded, hnew]
    · simp [← hafter, TransitState.IsEnded, hother]
  have hknown : ∀ other known, state.incoming other = some known → other ≠ state.next := by
    rintro _ known hincoming rfl
    simp [TransitState.incoming, hnew] at hincoming
  have hwithdraws : ∀ known, ¬ Withdraws known (.held state.next held) := by
    rintro known ⟨asked, hasked, -⟩
    cases hasked
  have hpending : ∀ executionId other, after.pending executionId = some other ↔
      (executionId = held.request.executionId ∧ other = state.next) ∨
        state.pending executionId = some other := by
    intro executionId other
    by_cases hexecution : executionId = held.request.executionId
    · subst hexecution
      simp [← hafter, hfree, eq_comm]
    · simp [← hafter, hexecution]
  have hrequests : ∀ executionId other, after.requests executionId = some other ↔
      (executionId = held.request.executionId ∧ other = state.next) ∨
        (executionId ≠ held.request.executionId ∧ state.requests executionId = some other) := by
    intro executionId other
    by_cases hexecution : executionId = held.request.executionId
    · subst hexecution
      simp [← hafter, eq_comm]
    · simp [← hafter, hexecution]
  have hunended : ¬ after.IsEnded state.next := by
    rw [hended]
    simp [TransitState.IsEnded, hnew]
  constructor
  case fresh =>
    intro other hother
    have hlt : state.next < other := by simpa [← hafter] using hother
    rw [← hafter]
    simpa [hlt.ne'] using hmapped.fresh other hlt.le
  case held =>
    intro other known
    rw [List.mem_append, List.mem_singleton, hmapped.held]
    by_cases hother : other = state.next
    · subst hother
      rw [hself]
      constructor
      · rintro (hincoming | heq)
        · exact absurd rfl (hknown _ _ hincoming)
        · simpa [eq_comm] using heq
      · intro heq
        exact Or.inr (by rw [Option.some.inj heq])
    · rw [hothers other hother, or_iff_left (by simp [hother])]
  case ended =>
    intro other
    rw [List.mem_append, List.mem_singleton, or_iff_left (by simp), hended]
    exact hmapped.ended other
  case pending =>
    intro executionId other hfound
    rcases (hpending executionId other).mp hfound with ⟨rfl, rfl⟩ | hold
    · exact ⟨hunended, held, hself, rfl, since_snoc.mpr (Or.inl rfl)⟩
    · obtain ⟨hopen, known, hincoming, hexecution, hsince⟩ := hmapped.pending executionId other hold
      rw [hended, hothers other (hknown other known hincoming)]
      exact ⟨hopen, known, hincoming, hexecution,
        since_snoc.mpr (Or.inr ⟨hwithdraws known, hsince⟩)⟩
  case requests =>
    intro executionId other hfound
    rcases (hrequests executionId other).mp hfound with ⟨rfl, rfl⟩ | ⟨-, hold⟩
    · exact ⟨hunended, held, hself, rfl⟩
    · obtain ⟨hopen, known, hincoming, hexecution⟩ := hmapped.requests executionId other hold
      rw [hended, hothers other (hknown other known hincoming)]
      exact ⟨hopen, known, hincoming, hexecution⟩
  case kept =>
    intro other known hsince
    rw [hpending]
    rcases since_snoc.mp hsince with heq | ⟨-, hbefore⟩
    · obtain ⟨rfl, rfl⟩ := TransitEffect.held.inj heq
      exact Or.inl ⟨rfl, rfl⟩
    · exact Or.inr (hmapped.kept other known hbefore)
  case newest =>
    intro other known hsince
    rw [hrequests]
    rcases since_snoc.mp hsince with heq | ⟨hends, hbefore⟩
    · obtain ⟨rfl, rfl⟩ := TransitEffect.held.inj heq
      exact Or.inl ⟨rfl, rfl⟩
    · refine Or.inr ⟨fun hexecution ↦ hends ?_, hmapped.newest other known hbefore⟩
      exact Or.inr ⟨state.next, held, rfl, hexecution.symm⟩

/-- An abort or a reset that is accepted drops the requests that it is for. -/
theorem Mapped.ask (hmapped : Mapped state trace) (asked : VerifiedExec) {after : TransitState}
    (hnext : after.next = state.next) (htasks : after.tasks = state.tasks)
    (hrequests : after.requests = state.requests)
    (hpending : ∀ executionId other held, state.incoming other = some held →
      (after.pending executionId = some other ↔
        state.pending executionId = some other ∧ ¬ asked.IsFor held))
    (hsub : ∀ executionId other, after.pending executionId = some other →
      state.pending executionId = some other) :
    Mapped after (trace ++ [.asked asked]) := by
  have hincoming : after.incoming = state.incoming := by
    unfold TransitState.incoming
    rw [htasks]
  have hended : ∀ other, after.IsEnded other ↔ state.IsEnded other := by
    unfold TransitState.IsEnded
    simp [htasks]
  have hwithdraws : ∀ held, Withdraws held (.asked asked) ↔ asked.IsFor held := by
    intro held
    simp [Withdraws]
  constructor
  case fresh =>
    rw [hnext, htasks]
    exact hmapped.fresh
  case held =>
    intro other held
    rw [List.mem_append, List.mem_singleton, or_iff_left (by simp), hincoming]
    exact hmapped.held other held
  case ended =>
    intro other
    rw [List.mem_append, List.mem_singleton, or_iff_left (by simp), hended]
    exact hmapped.ended other
  case pending =>
    intro executionId other hfound
    obtain ⟨hopen, held, hheld, hexecution, hsince⟩ :=
      hmapped.pending executionId other (hsub executionId other hfound)
    have hkept := ((hpending executionId other held hheld).mp hfound).2
    rw [hended, hincoming]
    refine ⟨hopen, held, hheld, hexecution, since_snoc.mpr (Or.inr ⟨?_, hsince⟩)⟩
    rwa [hwithdraws]
  case requests =>
    rw [hrequests, hincoming]
    simp only [hended]
    exact hmapped.requests
  case kept =>
    intro other held hsince
    rcases since_snoc.mp hsince with heq | ⟨hends, hbefore⟩
    · cases heq
    · have hheld := (hmapped.held other held).mp hbefore.mem
      rw [hpending _ _ _ hheld, ← hwithdraws]
      exact ⟨hmapped.kept other held hbefore, fun h ↦ hends (Or.inr h)⟩
  case newest =>
    intro other held hsince
    rw [hrequests]
    rcases since_snoc.mp hsince with heq | ⟨-, hbefore⟩
    · cases heq
    · exact hmapped.newest other held hbefore

/-! ### Steps of a task -/

/-- A task goes on with what it was admitted with. -/
theorem Coherent.goto (hcoherent : Coherent state trace) (hactive : IsActive state id task)
    (stage : Stage) (hstage : stage ≠ .ended) (hfits : stage.Fits trace id task.incoming.request) :
    Coherent (state.goto id task stage) trace where
  toMapped := hcoherent.toMapped.of_same rfl (incoming_goto hactive) (isEnded_goto hactive hstage)
    rfl rfl
  lawful := hcoherent.lawful
  outcome := hcoherent.outcome
  stages := by
    intro other found hfound
    rw [tasks_goto] at hfound
    by_cases hother : other = id
    · subst hother
      rw [Function.update_self, Option.some.injEq] at hfound
      subst hfound
      exact hfits
    · rw [Function.update_of_ne hother] at hfound
      exact hcoherent.stages other found hfound

/-- A task ends, after what it sent for its request. -/
theorem Coherent.conclude (hmapped : Mapped state trace) (hactive : IsActive state id task)
    (hlawful : Along IsLawful trace)
    (houtcome : ∀ other, ∀ effect ∈ trace, isOutcome other effect = true →
      .ended other ∈ trace ∨ other = id)
    (hstages : ∀ other found, state.tasks other = some found →
      found.stage.Fits trace other found.incoming.request) :
    Coherent (state.finish id task).1 (trace ++ (state.finish id task).2) where
  toMapped := hmapped.finish hactive
  lawful := hlawful.snoc trivial
  outcome := by
    intro other effect heffect hsent
    rcases List.mem_append.mp heffect with hbefore | hended
    · rcases houtcome other effect hbefore hsent with hended | rfl
      · exact List.mem_append_left _ hended
      · exact List.mem_append_right _ (List.mem_singleton_self _)
    · obtain rfl := List.mem_singleton.mp hended
      cases hsent
  stages := by
    intro other found hfound
    rw [tasks_finish] at hfound
    by_cases hother : other = id
    · subst hother
      rw [Function.update_self, Option.some.injEq] at hfound
      subst hfound
      trivial
    · rw [Function.update_of_ne hother] at hfound
      exact (hstages other found hfound).append

theorem Coherent.finish (hcoherent : Coherent state trace) (hactive : IsActive state id task) :
    Coherent (state.finish id task).1 (trace ++ (state.finish id task).2) :=
  Coherent.conclude hcoherent.toMapped hactive hcoherent.lawful
    (fun other effect heffect hsent ↦ Or.inl (hcoherent.outcome other effect heffect hsent))
    hcoherent.stages

/-- A request that `_pending` holds is open. -/
theorem Coherent.isOpen (hcoherent : Coherent state trace) (hactive : IsActive state id task)
    (hholds : state.Holds id task) : IsOpen trace id task.incoming.request := by
  obtain ⟨hunended, held, hincoming, -, hsince⟩ := hcoherent.pending _ id hholds
  rw [hactive.incoming, Option.some.injEq] at hincoming
  subst hincoming
  refine ⟨fun effect heffect ↦ ?_, task.incoming, rfl, hsince⟩
  by_contra hsent
  rw [Bool.not_eq_false] at hsent
  exact hunended ((hcoherent.ended id).mp (hcoherent.outcome id effect heffect hsent))

theorem eq_of_isOutcome {other : ℕ} {effect : TransitEffect} (hid : isOutcome id effect = true)
    (hother : isOutcome other effect = true) : other = id := by
  cases effect with
  | forwarded sender sandboxId request =>
    exact (beq_iff_eq.mp hother).symm.trans (beq_iff_eq.mp hid)
  | failed sender failure => exact (beq_iff_eq.mp hother).symm.trans (beq_iff_eq.mp hid)
  | _ => cases hid

/-- A task sends what is lawful and ends. -/
theorem Coherent.send (hcoherent : Coherent state trace) (hactive : IsActive state id task)
    {effect : TransitEffect} (hsent : isOutcome id effect = true)
    (hlawful : IsLawful trace effect) :
    Coherent (state.finish id task).1 (trace ++ effect :: (state.finish id task).2) := by
  rw [← List.singleton_append, ← List.append_assoc]
  refine Coherent.conclude (hcoherent.toMapped.append ?_ ?_ ?_) hactive
    (hcoherent.lawful.snoc hlawful) ?_ fun other found hfound ↦
      (hcoherent.stages other found hfound).append
  · rintro other held rfl
    cases hsent
  · rintro other rfl
    cases hsent
  · rintro asked rfl
    cases hsent
  · intro other earlier hearlier houtcome
    rcases List.mem_append.mp hearlier with hbefore | hnew
    · exact Or.inl (List.mem_append_left _ (hcoherent.outcome other earlier hbefore houtcome))
    · rw [List.mem_singleton.mp hnew] at houtcome
      exact Or.inr (eq_of_isOutcome hsent houtcome)

/-- Going on while `_pending` holds the request, and else being done. -/
theorem Coherent.goto_or_finish (hcoherent : Coherent state trace)
    (hactive : IsActive state id task) (stage : Stage) (hstage : stage ≠ .ended)
    (hfits : stage.Fits trace id task.incoming.request) {after : Moved}
    (hafter : after =
      if state.Holds id task then (state.goto id task stage, []) else state.finish id task) :
    Coherent after.1 (trace ++ after.2) := by
  rw [hafter]
  split_ifs
  · rw [List.append_nil]
    exact hcoherent.goto hactive stage hstage hfits
  · exact hcoherent.finish hactive

theorem Coherent.raised (hcoherent : Coherent state trace) (hactive : IsActive state id task) :
    Coherent (state.raised id task).1 (trace ++ (state.raised id task).2) :=
  hcoherent.goto_or_finish hactive .failing (fun h ↦ by cases h) trivial rfl

theorem Coherent.loopHead (hcoherent : Coherent state trace) (hactive : IsActive state id task) :
    Coherent (state.loopHead id task).1 (trace ++ (state.loopHead id task).2) :=
  hcoherent.goto_or_finish hactive .reading (fun h ↦ by cases h) trivial rfl

theorem Coherent.rowRead (hcoherent : Coherent state trace) (hactive : IsActive state id task)
    (now : Time) (row : Option SandboxSession) :
    Coherent (state.rowRead id task now row).1 (trace ++ (state.rowRead id task now row).2) := by
  have hprovision := hcoherent.goto_or_finish hactive .provisioning (fun h ↦ by cases h) trivial
    rfl
  have hsleeping := hcoherent.goto hactive .sleeping (fun h ↦ by cases h) trivial
  unfold TransitState.rowRead
  cases row with
  | none => exact hprovision
  | some row =>
    dsimp only
    cases row.status with
    | service =>
      dsimp only
      cases row.serviceDeadline with
      | none => exact hcoherent.raised hactive
      | some deadline =>
        dsimp only
        split_ifs
        · simpa using hcoherent.goto hactive .expiring (fun h ↦ by cases h) trivial
        · simpa using hsleeping
    | ready => simpa using hcoherent.goto hactive .admitting (fun h ↦ by cases h) trivial
    | stopped => exact hprovision
    | pending | creating | shuttingDown | failed | recovering => simpa using hsleeping

theorem Coherent.rowAdmitted (hcoherent : Coherent state trace) (hactive : IsActive state id task)
    {row : Option SandboxSession} (hstage : task.stage = .admitted row) :
    Coherent (state.rowAdmitted id task row).1 (trace ++ (state.rowAdmitted id task row).2) := by
  cases row with
  | none => exact hcoherent.loopHead hactive
  | some row =>
    have hadmits := hcoherent.stages id task hactive.found
    rw [hstage] at hadmits
    exact hcoherent.goto_or_finish hactive (.minting row.sandboxId) (fun h ↦ by cases h)
      ⟨row, hadmits, rfl⟩ rfl

/-- What `admit` returns is the row of the session, which is ready. -/
theorem admit_ready {db : Database} {sessionId : Uuid} {now : Time} {row : SandboxSession}
    (hadmitted : (admitSession db sessionId now).1 = some row) :
    row.status = .ready ∧ row.sessionId = sessionId := by
  unfold admitSession at hadmitted
  cases hfind : db.sessions.find sessionId with
  | none => simp [hfind] at hadmitted
  | some found =>
    cases hpvc : db.pvcOf found with
    | none => simp [hfind, hpvc] at hadmitted
    | some pvc =>
      simp only [hfind, hpvc] at hadmitted
      split_ifs at hadmitted with hready
      · obtain rfl := Option.some.inj hadmitted
        exact ⟨hready.1, (Table.find_eq_some_iff.mp hfind).2⟩

/-- The database has no part in the other facts. -/
theorem Coherent.change (hcoherent : Coherent state trace) (db : Database) :
    Coherent { state with db := db } trace where
  toMapped := hcoherent.toMapped.of_same rfl rfl (fun _ ↦ Iff.rfl) rfl rfl
  lawful := hcoherent.lawful
  outcome := hcoherent.outcome
  stages := hcoherent.stages

/-- A row that `admit` returns is told. -/
theorem Coherent.admitted (hcoherent : Coherent state trace) (id : ℕ)
    (row : Option SandboxSession) :
    Coherent state (trace ++ row.toList.map (TransitEffect.admitted id)) := by
  cases row with
  | none => simpa using hcoherent
  | some row =>
    refine ⟨hcoherent.toMapped.append (fun _ _ h ↦ by cases h) (fun _ h ↦ by cases h)
      (fun _ h ↦ by cases h), hcoherent.lawful.snoc trivial, ?_,
      fun other found hfound ↦ (hcoherent.stages other found hfound).append⟩
    intro other effect heffect hsent
    rcases List.mem_append.mp heffect with hbefore | hnew
    · exact List.mem_append_left _ (hcoherent.outcome other effect hbefore hsent)
    · obtain rfl := List.mem_singleton.mp hnew
      cases hsent

theorem Coherent.commit (hcoherent : Coherent state trace) (hfound : state.tasks id = some task)
    (now : Time) :
    Coherent (state.commit id task now).1 (trace ++ (state.commit id task now).2) := by
  unfold TransitState.commit
  split
  case h_1 hstage =>
    have hactive : IsActive state id task := ⟨hfound, by simp [hstage]⟩
    simpa using hcoherent.goto hactive (.read _) (fun h ↦ by cases h) trivial
  case h_2 hstage =>
    have hactive : IsActive state id task := ⟨hfound, by simp [hstage]⟩
    have htold := hcoherent.admitted id (admitSession state.db task.incoming.request.sessionId now).1
    refine (htold.goto hactive (.admitted _) (fun h ↦ by cases h) ?_).change _
    cases hadmitted : (admitSession state.db task.incoming.request.sessionId now).1 with
    | none => trivial
    | some row => exact ⟨by simp, admit_ready hadmitted⟩
  case h_3 => simpa using hcoherent

theorem Coherent.resume (hcoherent : Coherent state trace) (hfound : state.tasks id = some task)
    (now : Time) :
    Coherent (state.resume id task now).1 (trace ++ (state.resume id task now).2) := by
  have hactive : task.stage ≠ .ended → IsActive state id task := fun hstage ↦ ⟨hfound, hstage⟩
  unfold TransitState.resume
  split
  case h_1 row hstage => exact hcoherent.rowRead (hactive (by simp [hstage])) now row
  case h_2 hstage => exact hcoherent.raised (hactive (by simp [hstage]))
  case h_3 hstage => exact hcoherent.loopHead (hactive (by simp [hstage]))
  case h_4 hstage => exact hcoherent.loopHead (hactive (by simp [hstage]))
  case h_5 row hstage => exact hcoherent.rowAdmitted (hactive (by simp [hstage])) hstage
  case h_6 => simpa using hcoherent

theorem Coherent.minted (hcoherent : Coherent state trace) (hfound : state.tasks id = some task)
    (hasToken isSent : Bool) :
    Coherent (state.minted id task hasToken isSent).1
      (trace ++ (state.minted id task hasToken isSent).2) := by
  have hactive : task.stage ≠ .ended → IsActive state id task := fun hstage ↦ ⟨hfound, hstage⟩
  unfold TransitState.minted
  split
  case h_1 sandboxId hstage =>
    have hactive := hactive (by simp [hstage])
    have hadmits := hcoherent.stages id task hfound
    rw [hstage] at hadmits
    split_ifs with htoken hholds
    · exact hcoherent.raised hactive
    · exact hcoherent.send hactive (beq_self_eq_true id)
        ⟨hcoherent.isOpen hactive hholds, hadmits⟩
    · exact hcoherent.raised hactive
    · exact hcoherent.finish hactive
  case h_2 hstage =>
    have hactive := hactive (by simp [hstage])
    split_ifs with hsends
    · exact hcoherent.send hactive (beq_self_eq_true id)
        ⟨_, hcoherent.isOpen hactive hsends.2.1, rfl⟩
    · exact hcoherent.finish hactive
  case h_3 => simpa using hcoherent

theorem Coherent.raise (hcoherent : Coherent state trace) (hfound : state.tasks id = some task) :
    Coherent (state.raise id task).1 (trace ++ (state.raise id task).2) := by
  unfold TransitState.raise
  split
  case h_1 => simpa using hcoherent
  case h_2 => simpa using hcoherent
  case h_3 hstage => exact hcoherent.finish ⟨hfound, by simp [hstage]⟩
  case h_4 _ hended _ => exact hcoherent.raised ⟨hfound, hended⟩

theorem Coherent.cancel (hcoherent : Coherent state trace) (hfound : state.tasks id = some task) :
    Coherent (state.cancel id task).1 (trace ++ (state.cancel id task).2) := by
  unfold TransitState.cancel
  split
  case h_1 hstage => exact hcoherent.finish ⟨hfound, by simp [hstage]⟩
  case h_2 => simpa using hcoherent

theorem Coherent.start (hcoherent : Coherent state trace) (hfound : state.tasks id = some task) :
    Coherent (state.start id task).1 (trace ++ (state.start id task).2) := by
  unfold TransitState.start
  split
  case h_1 hstage => exact hcoherent.loopHead ⟨hfound, by simp [hstage]⟩
  case h_2 => simpa using hcoherent

/-- A step of a task keeps the state fit to the effects if it does so for the task there is. -/
theorem Coherent.onTask (hcoherent : Coherent state trace) (id : ℕ) {action : RequestTask → Moved}
    (haction : ∀ task, state.tasks id = some task →
      Coherent (action task).1 (trace ++ (action task).2)) :
    Coherent (state.onTask id action).1 (trace ++ (state.onTask id action).2) := by
  unfold TransitState.onTask
  split
  case h_1 task hfound => exact haction task hfound
  case h_2 => simpa using hcoherent

/-! ### Runs -/

/-- A message that is no outcome keeps what was sent and what was admitted. -/
theorem Coherent.of_mapped (hcoherent : Coherent state trace) {after : TransitState}
    {effect : TransitEffect} (hmapped : Mapped after (trace ++ [effect]))
    (hlawful : IsLawful trace effect) (hsilent : ∀ other, isOutcome other effect = false)
    (hstages : ∀ other found, after.tasks other = some found →
      state.tasks other = some found ∨ found.stage = .created) :
    Coherent after (trace ++ [effect]) where
  toMapped := hmapped
  lawful := hcoherent.lawful.snoc hlawful
  outcome := by
    intro other earlier hearlier hsent
    rcases List.mem_append.mp hearlier with hbefore | hnew
    · exact List.mem_append_left _ (hcoherent.outcome other earlier hbefore hsent)
    · rw [List.mem_singleton.mp hnew, hsilent other] at hsent
      cases hsent
  stages := by
    intro other found hfound
    rcases hstages other found hfound with hbefore | hcreated
    · exact (hcoherent.stages other found hbefore).append
    · rw [hcreated]
      trivial

/-- An abort or a reset drops the request of its execution if it is for it. -/
theorem Coherent.drop (hcoherent : Coherent state trace) (asked : VerifiedExec) {held : HeldRequest}
    {dropped : ℕ} (hpending : state.pending asked.message.control.executionId = some dropped)
    (hheld : state.incoming dropped = some held) (hfor : asked.IsFor held) :
    Coherent
      { state with
        pending := Function.update state.pending asked.message.control.executionId none }
      (trace ++ [.asked asked]) := by
  refine hcoherent.of_mapped (hcoherent.toMapped.ask asked rfl rfl rfl ?_ ?_) trivial
    (fun _ ↦ rfl) fun other found hfound ↦ Or.inl hfound
  · intro executionId other known hknown
    by_cases hexecution : executionId = asked.message.control.executionId
    · subst hexecution
      simp only [Function.update_self, hpending, Option.some.injEq, reduceCtorEq, false_iff,
        not_and, not_not]
      rintro rfl
      rw [hheld, Option.some.injEq] at hknown
      exact hknown ▸ hfor
    · simp only [Function.update_of_ne hexecution, iff_self_and]
      intro hfound hasked
      obtain ⟨-, found, hincoming, hfoundExecution, -⟩ := hcoherent.pending executionId other hfound
      rw [hknown, Option.some.injEq] at hincoming
      rw [← hfoundExecution, ← hincoming] at hexecution
      exact hexecution (congrArg SandboxIpc.Control.executionId hasked.1).symm
  · intro executionId other hfound
    by_cases hexecution : executionId = asked.message.control.executionId
    · simp [hexecution] at hfound
    · simpa [hexecution] using hfound

/-- An abort or a reset that is for no request of its execution drops nothing. -/
theorem Coherent.ignore (hcoherent : Coherent state trace) (asked : VerifiedExec)
    (hother : ∀ dropped held, state.pending asked.message.control.executionId = some dropped →
      state.incoming dropped = some held → ¬ asked.IsFor held) :
    Coherent state (trace ++ [.asked asked]) := by
  refine hcoherent.of_mapped (hcoherent.toMapped.ask asked rfl rfl rfl ?_ fun _ _ hfound ↦ hfound)
    trivial (fun _ ↦ rfl) fun other found hfound ↦ Or.inl hfound
  intro executionId other held hheld
  refine ⟨fun hfound ↦ ⟨hfound, fun hasked ↦ ?_⟩, fun h ↦ h.1⟩
  obtain ⟨-, found, hincoming, hexecution, -⟩ := hcoherent.pending executionId other hfound
  rw [hheld, Option.some.injEq] at hincoming
  rw [← hexecution, ← hincoming] at hfound
  refine hother other held ?_ hheld hasked
  rwa [congrArg SandboxIpc.Control.executionId hasked.1]

/-- An abort or a reset with the tuple of the message. -/
theorem Coherent.control (hcoherent : Coherent state trace) (asked : VerifiedExec) {after : Moved}
    (hafter : after =
      match (state.pending asked.message.control.executionId).bind state.tasks with
      | some ⟨held, _⟩ =>
        if held.request.sessionId = asked.message.control.sessionId ∧
            held.request.messageId = asked.message.control.messageId ∧
              held.subject = asked.subject then
          ({ state with
              pending := Function.update state.pending asked.message.control.executionId none },
            [.asked asked])
        else (state, [.asked asked])
      | none => (state, [.asked asked])) :
    Coherent after.1 (trace ++ after.2) := by
  subst hafter
  cases hpending : state.pending asked.message.control.executionId with
  | none =>
    refine hcoherent.ignore asked fun dropped held hfound _ ↦ ?_
    rw [hpending] at hfound
    cases hfound
  | some dropped =>
    obtain ⟨-, held, hheld, hexecution, -⟩ := hcoherent.pending _ dropped hpending
    obtain ⟨⟨known, stage⟩, hfound, rfl⟩ := Option.map_eq_some_iff.mp hheld
    simp only [Option.bind_some, hfound]
    split_ifs with hfor
    · refine hcoherent.drop asked hpending hheld ⟨?_, hfor.2.2.symm⟩
      have hcontrol : known.request.control = asked.message.control := by
        unfold SandboxIpc.Request.control
        rw [hfor.1, hfor.2.1, hexecution]
      exact hcontrol.symm
    · refine hcoherent.ignore asked fun other found hother hincoming hasked ↦ hfor ?_
      rw [hpending, Option.some.injEq] at hother
      subst hother
      rw [hheld, Option.some.injEq] at hincoming
      subst hincoming
      exact ⟨(congrArg SandboxIpc.Control.sessionId hasked.1).symm,
        (congrArg SandboxIpc.Control.messageId hasked.1).symm, hasked.2.symm⟩

theorem Coherent.accept (hcoherent : Coherent state trace) (incoming : VerifiedExec) :
    Coherent (state.accept incoming).1 (trace ++ (state.accept incoming).2) := by
  obtain ⟨sessionId, message, subject, token⟩ := incoming
  unfold TransitState.accept
  split_ifs
  · simpa using hcoherent
  · cases message with
    | request request =>
      dsimp only
      cases hpending : state.pending request.executionId with
      | some other => simpa using hcoherent
      | none =>
        dsimp only
        refine hcoherent.of_mapped (hcoherent.toMapped.hold ⟨request, subject, token⟩ hpending) ?_
          (fun _ ↦ rfl) ?_
        · intro other hheld
          have hincoming := (hcoherent.held state.next other).mp hheld
          rw [TransitState.incoming, hcoherent.fresh state.next le_rfl] at hincoming
          cases hincoming
        · intro other found hfound
          by_cases hother : other = state.next
          · subst hother
            dsimp only at hfound
            rw [Function.update_self, Option.some.injEq] at hfound
            exact Or.inr (by rw [← hfound])
          · dsimp only at hfound
            rw [Function.update_of_ne hother] at hfound
            exact Or.inl hfound
    | abort control => exact hcoherent.control ⟨sessionId, .abort control, subject, token⟩ rfl
    | ackReset control => exact hcoherent.control ⟨sessionId, .ackReset control, subject, token⟩ rfl
    | ackReply control => simpa using hcoherent

/-- Every step keeps the state fit to the effects. -/
theorem Coherent.step (hcoherent : Coherent state trace) (input : TransitInput) :
    Coherent (step state input).1 (trace ++ (step state input).2) := by
  cases input with
  | change db => simpa [Transit.step] using hcoherent.change db
  | accept incoming => exact hcoherent.accept incoming
  | start id => exact hcoherent.onTask id fun _ hfound ↦ hcoherent.start hfound
  | commit id now => exact hcoherent.onTask id fun _ hfound ↦ hcoherent.commit hfound now
  | resume id now => exact hcoherent.onTask id fun _ hfound ↦ hcoherent.resume hfound now
  | minted id hasToken isSent =>
    exact hcoherent.onTask id fun _ hfound ↦ hcoherent.minted hfound hasToken isSent
  | raise id => exact hcoherent.onTask id fun _ hfound ↦ hcoherent.raise hfound
  | cancel id => exact hcoherent.onTask id fun _ hfound ↦ hcoherent.cancel hfound

theorem Coherent.initial (db : Database) : Coherent (TransitState.initial db) [] := by
  have hnone : ∀ {ends : TransitEffect → Prop} {first : TransitEffect}, ¬ Since ends [] first :=
    fun hsince ↦ List.not_mem_nil hsince.mem
  constructor
  case lawful => exact Along.nil
  case outcome => simp
  case stages => simp [TransitState.initial]
  constructor
  case kept => exact fun id held hsince ↦ absurd hsince hnone
  case newest => exact fun id held hsince ↦ absurd hsince hnone
  all_goals simp [TransitState.initial, TransitState.incoming, TransitState.IsEnded]

/-- An outcome that only follows other requests' outcomes is the only one. -/
theorem countP_isOutcome_le (hlawful : Along IsLawful trace) (id : ℕ) :
    trace.countP (isOutcome id) ≤ 1 := by
  induction trace using List.reverseRecOn with
  | nil => simp
  | append_singleton trace effect ih =>
    have hbefore := ih hlawful.of_append
    have heffect : IsLawful trace effect := hlawful trace effect [] (by simp)
    cases hsent : isOutcome id effect with
    | false => simpa [List.countP_append, hsent] using hbefore
    | true =>
      have hnone : trace.countP (isOutcome id) = 0 := by
        refine List.countP_eq_zero.mpr fun earlier hearlier ↦ ?_
        cases effect with
        | forwarded sender sandboxId request =>
          obtain rfl : sender = id := beq_iff_eq.mp hsent
          simp [heffect.1.1 earlier hearlier]
        | failed sender failure =>
          obtain rfl : sender = id := beq_iff_eq.mp hsent
          obtain ⟨request, hopen, -⟩ := heffect
          simp [hopen.1 earlier hearlier]
        | _ => cases hsent
      simp [List.countP_append, hnone, hsent]

/-- For every run of the service, with messages, changes of the sessions, tokens, timeouts and
workers in any order: what is sent for a request is its only outcome, is sent while nobody asked it
back, and if it is forwarded, after `admit` returned its session as ready. A request is pending
until its task is done or it is asked back, its task is kept until it is done or a newer one takes
its place, and a task that is done leaves no trace. -/
theorem transit_at_most_once (db : Database) (inputs : List TransitInput) :
    Transits (runFrom step (TransitState.initial db) inputs).1
      (runFrom step (TransitState.initial db) inputs).2 := by
  have hcoherent := run_induction (fun _ state trace ↦ Coherent state trace)
    (Coherent.initial db) (fun _ input _ _ hbefore ↦ hbefore.step input) inputs
  refine ⟨hcoherent.lawful, countP_isOutcome_le hcoherent.lawful, hcoherent.kept, hcoherent.newest,
    fun id hended executionId ↦ ?_⟩
  have hisEnded := (hcoherent.ended id).mp hended
  exact ⟨fun hpending ↦ (hcoherent.pending executionId id hpending).1 hisEnded,
    fun hrequests ↦ (hcoherent.requests executionId id hrequests).1 hisEnded⟩

end Ads.SandboxManager.Transit
