import Ads.SandboxMcp.Service

/-!
# The handshake of an execution

Acknowledgements, results, expiries and cancellations race over the row of an execution.
`handshake_safe` says what holds for every execution in every order of their steps.

Every step is one of a few `Move`s of the row and of the aborts that are still to be published
(`step_moves`); the invariant `Kept` is kept by each of them, as long as no identifier is drawn twice.
-/

set_option autoImplicit false
set_option relaxedAutoImplicit false

namespace Ads.SandboxMcp

open Foundation Foundation.Runs Python
open SandboxIpc (Control Inbound Request Result errorResult)

/-! ### What is sent for an execution -/

/-- How many messages of each kind were sent for an execution, and how many results accepted. -/
@[ext]
structure Tally where
  replies : ℕ
  resets : ℕ
  aborts : ℕ
  accepts : ℕ
  deriving DecidableEq

instance : Zero Tally :=
  ⟨⟨0, 0, 0, 0⟩⟩

instance : Add Tally :=
  ⟨fun first second ↦ ⟨first.replies + second.replies, first.resets + second.resets,
    first.aborts + second.aborts, first.accepts + second.accepts⟩⟩

/-- What one effect adds to the tally of an execution. -/
def Effect.tally (executionId : Uuid) : Effect → Tally
  | .publish (.ackReply control) _ =>
    if control.executionId = executionId then ⟨1, 0, 0, 0⟩ else 0
  | .publish (.ackReset control) _ =>
    if control.executionId = executionId then ⟨0, 1, 0, 0⟩ else 0
  | .publish (.abort control) _ => if control.executionId = executionId then ⟨0, 0, 1, 0⟩ else 0
  | .publish (.request _) _ => 0
  | .accept result => if result.executionId = executionId then ⟨0, 0, 0, 1⟩ else 0

/-- The tally of an execution. -/
def tally (executionId : Uuid) : List Effect → Tally
  | [] => 0
  | effect :: rest => effect.tally executionId + tally executionId rest

/-- The row of an execution. -/
def Service.row (service : Service) (executionId : Uuid) : Option InFlight :=
  service.rows.find executionId

/-- The step between two states changes the deadline of an execution. -/
def extended (executionId : Uuid) (before after : Service) : Bool :=
  match before.row executionId, after.row executionId with
  | some old, some new => old.deadline ≠ new.deadline
  | _, _ => false

/-- How many steps change the deadline of an execution. -/
def extensions (settings : Settings) (executionId : Uuid) (events : List Event) : ℕ :=
  (List.range events.length).countP fun count ↦
    extended executionId (run settings (events.take count)).1
      (run settings (events.take (count + 1))).1

/-- The laws of the handshake for one execution in one run. -/
structure SafeHandshake (settings : Settings) (events : List Event) (executionId : Uuid) : Prop where
  replies_le_one : (tally executionId (run settings events).2).replies ≤ 1
  aborts_le_one : (tally executionId (run settings events).2).aborts ≤ 1
  /-- No reply to an acknowledgement follows a committed timeout or a reset. -/
  reply_live : ∀ front event back, events = front ++ event :: back →
    (tally executionId (step settings (run settings front).1 event).2).replies ≠ 0 →
      (∀ earlier, earlier <+: front → ∀ row, (run settings earlier).1.row executionId = some row →
        row.timedOut = false) ∧ (tally executionId (run settings front).2).resets = 0
  /-- An abort follows a reply. -/
  abort_replied : ∀ front event back, events = front ++ event :: back →
    (tally executionId (step settings (run settings front).1 event).2).aborts ≠ 0 →
      (tally executionId (run settings front).2).replies ≠ 0
  extensions_le_one : extensions settings executionId events ≤ 1
  /-- An accepted result excludes an abort and a reset. -/
  accepted_alone : (tally executionId (run settings events).2).accepts ≠ 0 →
    (tally executionId (run settings events).2).aborts = 0 ∧
      (tally executionId (run settings events).2).resets = 0

section Tallies

variable {executionId : Uuid}

@[simp] theorem Tally.replies_zero : (0 : Tally).replies = 0 := rfl
@[simp] theorem Tally.resets_zero : (0 : Tally).resets = 0 := rfl
@[simp] theorem Tally.aborts_zero : (0 : Tally).aborts = 0 := rfl
@[simp] theorem Tally.accepts_zero : (0 : Tally).accepts = 0 := rfl

variable {first second : Tally}

@[simp] theorem Tally.replies_add : (first + second).replies = first.replies + second.replies := rfl
@[simp] theorem Tally.resets_add : (first + second).resets = first.resets + second.resets := rfl
@[simp] theorem Tally.aborts_add : (first + second).aborts = first.aborts + second.aborts := rfl
@[simp] theorem Tally.accepts_add : (first + second).accepts = first.accepts + second.accepts := rfl

@[simp] theorem tally_nil : tally executionId [] = 0 := rfl

@[simp] theorem tally_singleton (effect : Effect) :
    tally executionId [effect] = effect.tally executionId := by
  ext <;> simp [tally]

theorem tally_append (first second : List Effect) :
    tally executionId (first ++ second) = tally executionId first + tally executionId second := by
  induction first with
  | nil => ext <;> simp
  | cons effect rest ih =>
    rw [List.cons_append, tally, ih, tally]
    ext <;> simp [Nat.add_assoc]

end Tallies

/-- How many aborts of an execution are to be published. -/
def Service.pending (service : Service) (executionId : Uuid) : ℕ :=
  service.aborting.countP fun entry ↦ entry.2.executionId = executionId

/-! ### Moves -/

/-- What a step does to the row of an execution and to its aborts. -/
inductive Move (executionId : Uuid) (before after : Service) (event : Event) :
    List Effect → Prop where
  /-- Nothing that matters for the execution changes. -/
  | quiet {effects : List Effect} (row : after.row executionId = before.row executionId)
      (pending : after.pending executionId = before.pending executionId)
      (silent : tally executionId effects = 0) : Move executionId before after event effects
  /-- The row is inserted. -/
  | inserts {new : InFlight} (drawn : event.drawn = some executionId)
      (free : before.row executionId = none) (row : after.row executionId = some new)
      (live : new.timedOut = false) (waiting : new.ackReplied = false)
      (pending : after.pending executionId = before.pending executionId) :
      Move executionId before after event []
  /-- The acknowledgement is replied to. -/
  | replies {effects : List Effect} {old new : InFlight} (held : before.row executionId = some old)
      (live : old.timedOut = false) (waiting : old.ackReplied = false)
      (row : after.row executionId = some new) (lives : new.timedOut = false)
      (replied : new.ackReplied = true)
      (pending : after.pending executionId = before.pending executionId)
      (sent : tally executionId effects = ⟨1, 0, 0, 0⟩) : Move executionId before after event effects
  /-- The acknowledgement comes too late. -/
  | resets {effects : List Effect} {old : InFlight} (held : before.row executionId = some old)
      (late : old.timedOut = true ∨ old.ackReplied = false) (row : after.row executionId = none)
      (pending : after.pending executionId = before.pending executionId)
      (sent : tally executionId effects = ⟨0, 1, 0, 0⟩) : Move executionId before after event effects
  /-- The result is accepted. -/
  | accepts {effects : List Effect} {old : InFlight} (held : before.row executionId = some old)
      (live : old.timedOut = false) (row : after.row executionId = none)
      (pending : after.pending executionId = before.pending executionId)
      (sent : tally executionId effects = ⟨0, 0, 0, 1⟩) : Move executionId before after event effects
  /-- The row times out, which an abort follows if it was live and replied to. -/
  | expires {old new : InFlight} (held : before.row executionId = some old)
      (row : after.row executionId = some new) (late : new.timedOut = true)
      (deadline : new.deadline = old.deadline)
      (pending : after.pending executionId = before.pending executionId +
        if old.ackReplied = true ∧ old.timedOut = false then 1 else 0) :
      Move executionId before after event []
  /-- An abort is published. -/
  | aborts {effects : List Effect} (row : after.row executionId = before.row executionId)
      (pending : before.pending executionId = after.pending executionId + 1)
      (sent : tally executionId effects = ⟨0, 0, 1, 0⟩) : Move executionId before after event effects
  /-- The row is collected. -/
  | collects (row : after.row executionId = none)
      (pending : after.pending executionId = before.pending executionId) :
      Move executionId before after event []

section Moves

variable {settings : Settings} {service : Service} {event : Event} {executionId : Uuid}

/-- Nothing changes. -/
theorem Move.refl : Move executionId service service event [] :=
  .quiet rfl rfl rfl

/-- Only waiters change. -/
theorem updateWaiter_moves {pod : Pod} {other : Uuid} {change : Change Waiter.key} :
    Move executionId service (service.updateWaiter pod other change) event [] :=
  .quiet rfl rfl rfl

theorem row_updateRow {changed : Uuid} {change : Change InFlight.executionId} :
    (service.updateRow changed change).row executionId =
      (service.row executionId).map fun row ↦
        if row.executionId = changed then change.apply row else row :=
  Table.find_modify

theorem row_remove {removed : Uuid} :
    (service.remove removed).row executionId =
      (service.row executionId).filter fun row ↦ row.executionId ≠ removed :=
  Table.find_filter

theorem executionId_of_row {row : InFlight} (hrow : service.row executionId = some row) :
    row.executionId = executionId :=
  (Table.find_eq_some_iff.mp hrow).2

/-- The rows of other executions stay. -/
theorem row_remove_of_ne {removed : Uuid} (hne : removed ≠ executionId) :
    (service.remove removed).row executionId = service.row executionId := by
  rw [row_remove]
  cases hrow : service.row executionId with
  | none => rfl
  | some row =>
    rw [Option.filter_some, if_pos]
    exact decide_eq_true fun hsame ↦ hne (hsame.symm.trans (executionId_of_row hrow))

theorem row_remove_self : (service.remove executionId).row executionId = none := by
  rw [row_remove]
  cases hrow : service.row executionId with
  | none => rfl
  | some row =>
    rw [Option.filter_some, if_neg]
    simp [executionId_of_row hrow]

theorem row_updateRow_of_ne {changed : Uuid} {change : Change InFlight.executionId}
    (hne : changed ≠ executionId) :
    (service.updateRow changed change).row executionId = service.row executionId := by
  rw [row_updateRow]
  cases hrow : service.row executionId with
  | none => rfl
  | some row =>
    rw [Option.map_some, if_neg fun hsame ↦ hne (hsame.symm.trans (executionId_of_row hrow))]

theorem row_updateRow_self {change : Change InFlight.executionId} {row : InFlight}
    (hrow : service.row executionId = some row) :
    (service.updateRow executionId change).row executionId = some (change.apply row) := by
  rw [row_updateRow, hrow, Option.map_some, if_pos (executionId_of_row hrow)]

theorem execute_moves {pod : Pod} {call : Request} {now : ℤ} :
    Move executionId service (service.execute settings pod call now) (.execute pod call now) [] := by
  unfold Service.execute
  cases hinsert : service.rows.insert _ with
  | none => exact .refl
  | some rows =>
    have hfind : ∀ wanted, rows.find wanted = _ := fun wanted ↦ Table.find_insert hinsert
    specialize hfind executionId
    have hfree := (Table.mem_insert hinsert).2
    have hmoves : ∀ after : Service, after.rows = rows → after.aborting = service.aborting →
        Move executionId service after (.execute pod call now) [] := by
      intro after hrows haborting
      have hpending : after.pending executionId = service.pending executionId := by
        unfold Service.pending
        rw [haborting]
      have hrow : after.row executionId = _ := (congrArg (Table.find · executionId) hrows).trans hfind
      by_cases hsame : executionId = call.executionId
      · rw [if_pos hsame] at hrow
        refine .inserts (congrArg some hsame.symm) ?_ hrow rfl rfl hpending
        exact Table.find_eq_none_iff.mpr fun row hmem hkey ↦ hfree row hmem (hkey.trans hsame)
      · rw [if_neg hsame] at hrow
        exact .quiet hrow hpending rfl
    dsimp only
    cases service.waiters.insert _ with
    | none => exact hmoves _ rfl rfl
    | some waiters => exact hmoves _ rfl rfl

theorem acknowledge_moves {tuple : Control} {now later : ℤ} {committed : Bool} :
    Move executionId service (service.acknowledge settings tuple now later committed).1 event
      (service.acknowledge settings tuple now later committed).2 := by
  unfold Service.acknowledge
  cases hfind : service.rows.find tuple.executionId with
  | none => exact .refl
  | some row =>
    have hid : row.executionId = tuple.executionId := executionId_of_row hfind
    dsimp only
    split_ifs with hforeign hduplicate hfailed hlate
    · exact .refl
    · exact .refl
    · exact .refl
    · by_cases hsame : row.executionId = executionId
      · rw [hid.symm, hsame] at hfind
        refine @Move.resets executionId service _ _ _ row hfind ?_ (hsame ▸ row_remove_self) rfl ?_
        · by_contra hlive
          rw [not_or, Bool.not_eq_true, Bool.not_eq_false] at hlive
          exact hduplicate ⟨hlive.2, hlive.1⟩
        · simp [Effect.tally, InFlight.control, hsame]
      · exact .quiet (row_remove_of_ne hsame) rfl (by simp [Effect.tally, InFlight.control, hsame])
    · rw [not_or, Bool.not_eq_true] at hlate
      by_cases hsame : row.executionId = executionId
      · have hwaiting : row.ackReplied = false := by
          by_contra hreplied
          exact hduplicate ⟨Bool.eq_true_of_not_eq_false hreplied, hlate.2⟩
        rw [hid.symm, hsame] at hfind
        refine @Move.replies executionId service _ _ _ row
          { row with deadline := later + settings.timeout, ackReplied := true }
          hfind hlate.2 hwaiting ?_ ?_ rfl rfl ?_
        · exact (congrArg (fun changed ↦ (service.updateRow changed _).row executionId) hsame).trans
            (row_updateRow_self hfind)
        · exact hlate.2
        · simp [Effect.tally, InFlight.control, hsame]
      · exact .quiet (row_updateRow_of_ne hsame) rfl
          (by simp [Effect.tally, InFlight.control, hsame])

theorem accept_moves {pod : Pod} {result : Result} {now : ℤ} {committed : Bool} :
    Move executionId service (service.accept pod result now committed).1 event
      (service.accept pod result now committed).2 := by
  unfold Service.accept
  split_ifs with hwaits
  · exact .refl
  dsimp only
  cases hfind : service.rows.find result.executionId with
  | none => exact .quiet rfl rfl rfl
  | some row =>
    have hid : row.executionId = result.executionId := executionId_of_row hfind
    dsimp only
    split_ifs with hdead
    · exact .quiet rfl rfl rfl
    · rw [not_or, not_or, Bool.not_eq_true] at hdead
      by_cases hsame : row.executionId = executionId
      · rw [hid.symm, hsame] at hfind
        refine .accepts hfind hdead.1 ?_ rfl ?_
        · rw [hsame]
          exact row_remove_self
        · simp [Effect.tally, hid ▸ hsame]
      · exact .quiet (row_remove_of_ne hsame) rfl (by simp [Effect.tally, hid ▸ hsame])

theorem expireLocked_moves {pod : Pod} {other : Uuid} {force : Bool} {now : ℤ} :
    Move executionId service (service.expireLocked pod other force now) event [] := by
  unfold Service.expireLocked
  cases hfind : service.rows.find other with
  | none => exact .refl
  | some row =>
    have hid : row.executionId = other := executionId_of_row hfind
    have hmoves : ∀ after : Service,
        after.rows = (service.updateRow other
          ⟨fun row ↦ { row with timedOut := true }, fun _ ↦ rfl⟩).rows →
        after.pending executionId = service.pending executionId +
          (if executionId = other ∧ row.ackReplied = true ∧ row.timedOut = false then 1 else 0) →
        Move executionId service after event [] := by
      intro after hrows hpending
      have hrow : after.row executionId = _ := congrArg (Table.find · executionId) hrows
      by_cases hsame : executionId = other
      · subst hsame
        refine .expires hfind (hrow.trans (row_updateRow_self hfind)) rfl rfl ?_
        simpa using hpending
      · refine .quiet (hrow.trans (row_updateRow_of_ne fun heq ↦ hsame heq.symm)) ?_ rfl
        simpa [hsame] using hpending
    dsimp only
    split_ifs with hearly hreplied
    · exact .refl
    · have hone : ∀ held : Service, held.aborting = service.aborting →
          ({ held with aborting := held.aborting ++ [(pod, row.control)] } : Service).pending
            executionId = service.pending executionId +
              (if executionId = other ∧ row.ackReplied = true ∧ row.timedOut = false then 1
                else 0) := by
        intro held haborting
        unfold Service.pending
        rw [haborting, List.countP_append, List.countP_singleton]
        simp [InFlight.control, hid, hreplied, eq_comm]
      cases service.waiter pod other with
      | none => exact hmoves _ rfl (hone _ rfl)
      | some waiter => exact hmoves _ rfl (hone _ rfl)
    · exact hmoves _ rfl (by simp [hreplied, Service.pending, Service.updateRow])

theorem expire_moves {pod : Pod} {other : Uuid} {force : Bool} {now : ℤ} {committed : Bool} :
    Move executionId service (service.expire pod other force now committed) event [] := by
  unfold Service.expire
  split_ifs
  · exact .refl
  · cases service.waiter pod other with
    | none => exact expireLocked_moves
    | some waiter =>
      dsimp only
      split_ifs
      · exact .refl
      · exact expireLocked_moves

theorem abort_moves {pod : Pod} {tuple : Control} {published : Bool} :
    Move executionId service (service.abort pod tuple published).1 event
      (service.abort pod tuple published).2 := by
  unfold Service.abort
  split_ifs with hpending
  · have hcount : service.pending executionId =
        ({ service with aborting := service.aborting.erase (pod, tuple) } : Service).pending
          executionId + if tuple.executionId = executionId then 1 else 0 := by
      unfold Service.pending
      rw [(List.perm_cons_erase hpending).countP_eq, List.countP_cons]
      simp
    by_cases hsame : tuple.executionId = executionId
    · rw [if_pos hsame] at hcount
      exact .aborts rfl hcount (by simp [Effect.tally, hsame])
    · rw [if_neg hsame] at hcount
      exact .quiet rfl hcount.symm (by simp [Effect.tally, hsame])
  · exact .refl

theorem collect_moves {before : ℤ} :
    Move executionId service (service.collect before) event [] := by
  have hrow : (service.collect before).row executionId =
      (service.row executionId).filter fun row ↦ before ≤ row.createdAt := Table.find_filter
  cases hheld : service.row executionId with
  | none => exact .quiet (by rw [hrow, hheld]; rfl) rfl rfl
  | some row =>
    rw [hheld, Option.filter_some] at hrow
    split_ifs at hrow
    · exact .quiet (hrow.trans hheld.symm) rfl rfl
    · exact .collects hrow rfl

/-- Every step is one of the moves. -/
theorem step_moves : Move executionId service (step settings service event).1 event
    (step settings service event).2 := by
  cases event with
  | execute pod call now => exact execute_moves
  | request pod other published =>
    unfold step Service.request
    dsimp only
    cases service.waiter pod other with
    | none => exact .refl
    | some waiter =>
      dsimp only
      split_ifs
      · exact .refl
      · exact .quiet rfl rfl (tally_singleton _)
  | giveUp pod other text => exact updateWaiter_moves
  | finish pod other => exact updateWaiter_moves
  | acknowledge tuple now later committed => exact acknowledge_moves
  | receive pod result =>
    unfold step Service.receive
    dsimp only
    cases service.waiter pod result.executionId with
    | none => exact .refl
    | some waiter =>
      dsimp only
      split_ifs
      · exact .refl
      · exact .quiet rfl rfl rfl
  | accept pod result now committed => exact accept_moves
  | expire pod other force now committed => exact expire_moves
  | abort pod tuple published => exact abort_moves
  | collect before => exact collect_moves

end Moves

/-! ### The invariant -/

/-- What is known of an execution after some steps. -/
structure Kept (executionId : Uuid) (events : List Event) (service : Service) (sent : Tally)
    (extensions : ℕ) : Prop where
  replies_le : sent.replies ≤ 1
  aborts_le : sent.aborts + service.pending executionId ≤ sent.replies
  extensions_le : extensions ≤ sent.replies
  undrawn : executionId ∉ events.filterMap Event.drawn →
    service.row executionId = none ∧ sent.replies = 0 ∧ sent.resets = 0 ∧ sent.accepts = 0
  live : ∀ row, service.row executionId = some row → row.timedOut = false →
    sent.aborts + service.pending executionId = 0 ∧ sent.replies = row.ackReplied.toNat
  present : ∀ row, service.row executionId = some row → sent.resets = 0 ∧ sent.accepts = 0
  accepted : sent.accepts ≠ 0 → sent.aborts + service.pending executionId = 0 ∧ sent.resets = 0

section Invariant

variable {settings : Settings} {executionId : Uuid} {events : List Event} {event : Event}
  {before after : Service} {effects : List Effect} {sent : Tally} {count : ℕ}

/-- A step that is not a reply does not change the deadline. -/
theorem Move.extended_le (hmove : Move executionId before after event effects) :
    (if extended executionId before after then 1 else 0) ≤ (tally executionId effects).replies := by
  unfold extended
  cases hmove with
  | quiet row _ silent =>
    rw [row, silent]
    cases before.row executionId <;> simp
  | inserts _ free => simp [free]
  | replies _ _ _ _ _ _ _ sent =>
    rw [sent]
    split_ifs <;> simp
  | resets held _ row => simp [held, row]
  | accepts held _ row => simp [held, row]
  | expires held row _ deadline => simp [held, row, deadline]
  | aborts row _ sent =>
    rw [row, sent]
    cases before.row executionId <;> simp
  | collects row =>
    rw [row]
    cases before.row executionId <;> simp

/-- Every move keeps the invariant, unless it draws the identifier again. -/
theorem Kept.move (hkept : Kept executionId events before sent count)
    (hmove : Move executionId before after event effects)
    (hfresh : ((events ++ [event]).filterMap Event.drawn).Nodup) :
    Kept executionId (events ++ [event]) after (sent + tally executionId effects)
      (count + if extended executionId before after then 1 else 0) := by
  have hundrawn : executionId ∉ (events ++ [event]).filterMap Event.drawn →
      executionId ∉ events.filterMap Event.drawn := by
    rw [List.filterMap_append, List.mem_append, not_or]
    exact And.left
  have hdrawn : ∀ row, before.row executionId = some row →
      executionId ∈ events.filterMap Event.drawn := by
    intro row hrow
    by_contra hnot
    rw [(hkept.undrawn hnot).1] at hrow
    cases hrow
  have hextensions : count + (if extended executionId before after then 1 else 0) ≤
      (sent + tally executionId effects).replies :=
    Nat.add_le_add hkept.extensions_le hmove.extended_le
  have haborts := hkept.aborts_le
  cases hmove with
  | quiet row pending silent =>
    rw [silent] at hextensions ⊢
    refine ⟨hkept.replies_le, ?_, hextensions, fun hnot ↦ ?_, ?_, ?_, ?_⟩
    · rw [pending]
      exact hkept.aborts_le
    · rw [row]
      exact hkept.undrawn (hundrawn hnot)
    · rw [row, pending]
      exact hkept.live
    · rw [row]
      exact hkept.present
    · rw [pending]
      exact hkept.accepted
  | inserts drawn free row live waiting pending =>
    have hnew : executionId ∉ events.filterMap Event.drawn := by
      rw [List.filterMap_append, List.nodup_append] at hfresh
      intro hold
      exact hfresh.2.2 _ hold executionId (by simp [drawn]) rfl
    obtain ⟨-, hreplies, hresets, haccepts⟩ := hkept.undrawn hnew
    have hnone : sent.aborts + before.pending executionId = 0 := by omega
    refine ⟨hkept.replies_le, ?_, hextensions, fun hnot ↦ ?_, fun other hother _ ↦ ⟨?_, ?_⟩,
      fun _ _ ↦ ⟨hresets, haccepts⟩, fun hsome ↦ absurd haccepts hsome⟩
    · rw [pending]
      exact hkept.aborts_le
    · exact absurd (by simp [drawn]) hnot
    · rw [pending]
      exact hnone
    · obtain rfl := Option.some.inj (row.symm.trans hother)
      rw [waiting]
      exact hreplies
  | replies held live waiting row lives replied pending hsent =>
    rw [hsent] at hextensions ⊢
    obtain ⟨hnone, hunsent⟩ := hkept.live _ held live
    obtain ⟨hresets, haccepts⟩ := hkept.present _ held
    have hreplies : sent.replies = 0 := by rw [hunsent, waiting, Bool.toNat_false]
    refine ⟨?_, ?_, hextensions, fun hnot ↦ absurd (hdrawn _ held) (hundrawn hnot),
      fun other hother _ ↦ ⟨?_, ?_⟩, fun _ _ ↦ ⟨hresets, haccepts⟩,
      fun hsome ↦ absurd haccepts hsome⟩
    · simp [hreplies]
    · rw [pending]
      simp only [Tally.aborts_add, Tally.replies_add]
      omega
    · rw [pending]
      exact hnone
    · obtain rfl := Option.some.inj (row.symm.trans hother)
      rw [replied, Tally.replies_add, hreplies]
      rfl
  | resets held late row pending hsent =>
    rw [hsent] at hextensions ⊢
    obtain ⟨-, haccepts⟩ := hkept.present _ held
    refine ⟨hkept.replies_le, ?_, hextensions, fun hnot ↦ absurd (hdrawn _ held) (hundrawn hnot),
      fun other hother ↦ ?_, fun other hother ↦ ?_, fun hsome ↦ absurd haccepts hsome⟩
    · rw [pending]
      exact hkept.aborts_le
    · rw [row] at hother
      cases hother
    · rw [row] at hother
      cases hother
  | accepts held live row pending hsent =>
    rw [hsent] at hextensions ⊢
    obtain ⟨hnone, -⟩ := hkept.live _ held live
    obtain ⟨hresets, -⟩ := hkept.present _ held
    refine ⟨hkept.replies_le, ?_, hextensions, fun hnot ↦ absurd (hdrawn _ held) (hundrawn hnot),
      fun other hother ↦ ?_, fun other hother ↦ ?_, fun _ ↦ ⟨?_, hresets⟩⟩
    · rw [pending]
      exact hkept.aborts_le
    · rw [row] at hother
      cases hother
    · rw [row] at hother
      cases hother
    · rw [pending]
      exact hnone
  | expires held row late deadline pending =>
    obtain ⟨hresets, haccepts⟩ := hkept.present _ held
    refine ⟨hkept.replies_le, ?_, hextensions, fun hnot ↦ absurd (hdrawn _ held) (hundrawn hnot),
      fun other hother hlive ↦ ?_, fun _ _ ↦ ⟨hresets, haccepts⟩,
      fun hsome ↦ absurd haccepts hsome⟩
    · rw [pending, ← Nat.add_assoc]
      split_ifs with hlive
      · obtain ⟨hnone, hreplies⟩ := hkept.live _ held hlive.2
        rw [hlive.1, Bool.toNat_true] at hreplies
        exact (congrArg (· + 1) hnone).trans_le hreplies.ge
      · exact hkept.aborts_le
    · obtain rfl := Option.some.inj (row.symm.trans hother)
      rw [late] at hlive
      cases hlive
  | aborts row pending hsent =>
    rw [hsent] at hextensions ⊢
    have hsome : sent.aborts + before.pending executionId ≠ 0 := by omega
    refine ⟨hkept.replies_le, ?_, hextensions, fun hnot ↦ ?_, fun other hother hlive ↦ ?_, ?_,
      fun haccepts ↦ absurd (hkept.accepted haccepts).1 hsome⟩
    · simp only [Tally.aborts_add, Tally.replies_add]
      omega
    · rw [row]
      exact hkept.undrawn (hundrawn hnot)
    · rw [row] at hother
      exact absurd (hkept.live other hother hlive).1 hsome
    · rw [row]
      exact hkept.present
  | collects row pending =>
    refine ⟨hkept.replies_le, ?_, hextensions, fun hnot ↦ ?_, fun other hother ↦ ?_,
      fun other hother ↦ ?_, ?_⟩
    · rw [pending]
      exact hkept.aborts_le
    · obtain ⟨-, hrest⟩ := hkept.undrawn (hundrawn hnot)
      exact ⟨row, hrest⟩
    · rw [row] at hother
      cases hother
    · rw [row] at hother
      cases hother
    · rw [pending]
      exact hkept.accepted

/-- The deadline changes of a run with one more step. -/
theorem extensions_snoc :
    extensions settings executionId (events ++ [event]) =
      extensions settings executionId events +
        if extended executionId (run settings events).1
          (step settings (run settings events).1 event).1 then 1 else 0 := by
  unfold extensions
  rw [List.length_append, List.length_singleton, List.range_succ, List.countP_append,
    List.countP_singleton]
  congr 1
  · refine List.countP_congr fun earlier hearlier ↦ ?_
    rw [List.mem_range] at hearlier
    rw [List.take_append_of_le_length hearlier.le, List.take_append_of_le_length hearlier]
  · rw [List.take_left, ← List.length_singleton (a := event), ← List.length_append, List.take_length]
    unfold run
    rw [runFrom_snoc]

/-- The invariant holds after every run. -/
theorem run_kept (hfresh : (events.filterMap Event.drawn).Nodup) :
    Kept executionId events (run settings events).1 (tally executionId (run settings events).2)
      (extensions settings executionId events) := by
  induction events using List.reverseRecOn with
  | nil =>
    exact ⟨Nat.zero_le 1, le_rfl, le_rfl, fun _ ↦ ⟨rfl, rfl, rfl, rfl⟩, fun _ hrow ↦ (nomatch hrow),
      fun _ hrow ↦ (nomatch hrow), fun hsome ↦ absurd rfl hsome⟩
  | append_singleton events event ih =>
    have hearlier : (events.filterMap Event.drawn).Nodup := by
      rw [List.filterMap_append] at hfresh
      exact hfresh.of_append_left
    have hmoved := (ih hearlier).move (@step_moves settings _ event executionId) hfresh
    rw [extensions_snoc]
    unfold run at hmoved ⊢
    rw [runFrom_snoc, tally_append]
    exact hmoved

/-- A row that timed out does not become live again. -/
theorem Move.ended (hmove : Move executionId before after event effects)
    (hdrawn : event.drawn ≠ some executionId)
    (hended : ∀ row, before.row executionId = some row → row.timedOut = true) :
    ∀ row, after.row executionId = some row → row.timedOut = true := by
  intro new hnew
  cases hmove with
  | quiet row => exact hended new (row.symm.trans hnew)
  | inserts drawn => exact absurd drawn hdrawn
  | replies held live =>
    rw [hended _ held] at live
    cases live
  | resets _ _ row =>
    rw [row] at hnew
    cases hnew
  | accepts _ _ row =>
    rw [row] at hnew
    cases hnew
  | expires _ row late =>
    obtain rfl := Option.some.inj (row.symm.trans hnew)
    exact late
  | aborts row => exact hended new (row.symm.trans hnew)
  | collects row =>
    rw [row] at hnew
    cases hnew

/-- A step that replies finds a live row. -/
theorem Move.replied_live (hmove : Move executionId before after event effects)
    (hreplied : (tally executionId effects).replies ≠ 0) :
    ∃ row, before.row executionId = some row ∧ row.timedOut = false := by
  cases hmove with
  | replies held live => exact ⟨_, held, live⟩
  | quiet _ _ silent => exact absurd (congrArg Tally.replies silent) hreplied
  | inserts | expires | collects => exact absurd rfl hreplied
  | resets _ _ _ _ sent => exact absurd (congrArg Tally.replies sent) hreplied
  | accepts _ _ _ _ sent => exact absurd (congrArg Tally.replies sent) hreplied
  | aborts _ _ sent => exact absurd (congrArg Tally.replies sent) hreplied

/-- A step that publishes an abort finds one to be published. -/
theorem Move.aborted_pending (hmove : Move executionId before after event effects)
    (haborted : (tally executionId effects).aborts ≠ 0) : before.pending executionId ≠ 0 := by
  cases hmove with
  | aborts _ pending => omega
  | quiet _ _ silent => exact absurd (congrArg Tally.aborts silent) haborted
  | inserts | expires | collects => exact absurd rfl haborted
  | resets _ _ _ _ sent => exact absurd (congrArg Tally.aborts sent) haborted
  | accepts _ _ _ _ sent => exact absurd (congrArg Tally.aborts sent) haborted
  | replies _ _ _ _ _ _ _ sent => exact absurd (congrArg Tally.aborts sent) haborted

/-- While a live row is there, no earlier state held it timed out. -/
theorem earlier_live {front earlier : List Event} (hearlier : earlier <+: front)
    (hfresh : (front.filterMap Event.drawn).Nodup) {old row : InFlight}
    (hold : (run settings earlier).1.row executionId = some old)
    (hrow : (run settings front).1.row executionId = some row) (hlive : row.timedOut = false) :
    old.timedOut = false := by
  obtain ⟨rest, rfl⟩ := hearlier
  rw [List.filterMap_append, List.nodup_append] at hfresh
  have hdrawn : executionId ∈ earlier.filterMap Event.drawn := by
    by_contra hnot
    rw [(run_kept hfresh.1).undrawn hnot |>.1] at hold
    cases hold
  by_contra htimedOut
  have hended : ∀ row, (run settings (earlier ++ rest)).1.row executionId = some row →
      row.timedOut = true := by
    unfold run
    rw [runFrom_append]
    refine run_persists (fun service : Service ↦ ∀ row, service.row executionId = some row →
      row.timedOut = true) ?_ rest fun before event hevent hbefore ↦ ?_
    · intro row hrow
      obtain rfl := Option.some.inj (hold.symm.trans hrow)
      exact Bool.eq_true_of_not_eq_false htimedOut
    · refine step_moves.ended (fun hagain ↦ ?_) hbefore
      exact hfresh.2.2 executionId hdrawn executionId (List.mem_filterMap.mpr ⟨event, hevent, hagain⟩)
        rfl
  rw [hended row hrow] at hlive
  cases hlive

end Invariant

/-! ### The main result -/

/-- Whatever acknowledgements, results, expiries and cancellations come on which pods and in which
order, the handshake of every execution obeys its laws. -/
theorem handshake_safe (settings : Settings) (events : List Event)
    (hfresh : (events.filterMap Event.drawn).Nodup) (executionId : Uuid) :
    SafeHandshake settings events executionId := by
  have hkept := @run_kept settings executionId events hfresh
  have hfront : ∀ front event back, events = front ++ event :: back →
      (front.filterMap Event.drawn).Nodup := by
    rintro front event back rfl
    rw [List.filterMap_append] at hfresh
    exact hfresh.of_append_left
  refine ⟨hkept.replies_le, ?_, ?_, ?_, hkept.extensions_le.trans hkept.replies_le, ?_⟩
  · exact (Nat.le_add_right _ _).trans (hkept.aborts_le.trans hkept.replies_le)
  · intro front event back hevents hreplied
    obtain ⟨row, hrow, hlive⟩ := step_moves.replied_live hreplied
    have hbefore := hfront front event back hevents
    exact ⟨fun earlier hearlier old hold ↦ earlier_live hearlier hbefore hold hrow hlive,
      ((run_kept hbefore).present row hrow).1⟩
  · intro front event back hevents haborted
    have hpending := step_moves.aborted_pending haborted
    have haborts :=
      (@run_kept settings executionId front (hfront front event back hevents)).aborts_le
    omega
  · intro haccepted
    obtain ⟨hnone, hresets⟩ := hkept.accepted haccepted
    exact ⟨(Nat.add_eq_zero_iff.mp hnone).1, hresets⟩

/-- A call whose acknowledgement is replied to, which times out and is aborted, and which is
acknowledged again. -/
def timedOutCall : List Event :=
  [.execute 0 ⟨7, 1, 2, .shell, []⟩ 0, .request 0 7 true, .acknowledge ⟨7, 1, 2⟩ 1 1 true,
    .expire 0 7 false 20 true, .abort 0 ⟨7, 1, 2⟩ true, .acknowledge ⟨7, 1, 2⟩ 21 21 true]

/-- The laws hold for a call that is replied to, aborted and reset. -/
theorem handshake_safe_example :
    tally 7 (run ⟨10⟩ timedOutCall).2 = ⟨1, 1, 1, 0⟩ ∧ SafeHandshake ⟨10⟩ timedOutCall 7 :=
  ⟨by decide +kernel, handshake_safe ⟨10⟩ timedOutCall (by decide +kernel) 7⟩

end Ads.SandboxMcp
