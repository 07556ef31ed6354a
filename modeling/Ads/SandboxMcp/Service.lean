import Ads.Foundation.Runs
import Ads.Foundation.Table
import Ads.SandboxIpc.Service

/-!
# The execution service of the sandbox tools

`ExecService` runs on several pods over one table. The row of an execution holds its deadline and
how far its handshake came; the pod that took the call holds a waiter for its result.

A row transaction and what it publishes succeed or fail together, so that each is one step; what is
published after a commit is a step of its own. A step carries what it meets: the readings of its
clock, which need not agree between pods, and whether its transaction or its message went through.
Tokens and logs have no part in the state.
-/

set_option autoImplicit false
set_option relaxedAutoImplicit false

namespace Ads.SandboxMcp

open Foundation Python
open SandboxIpc (Control Inbound Request Result errorResult)

/-- `InFlight`: correlation and handshake state of an execution. -/
structure InFlight where
  executionId : Uuid
  sessionId : Uuid
  messageId : Uuid
  createdAt : ℤ
  deadline : ℤ
  timedOut : Bool
  ackReplied : Bool
  deriving DecidableEq

/-- The tuple of a row. -/
def InFlight.control (row : InFlight) : Control :=
  ⟨row.executionId, row.sessionId, row.messageId⟩

/-- A replica of the service. -/
abbrev Pod := ℕ

/-- `Waiter`, with the call that waits. It is registered until the call returns. -/
structure Waiter where
  pod : Pod
  request : Request
  requested : Bool
  registered : Bool
  locked : Bool
  result : Option Result
  deriving DecidableEq

/-- The pod of a waiter and its execution. -/
def Waiter.key (waiter : Waiter) : Pod × Uuid :=
  (waiter.pod, waiter.request.executionId)

/-- The settings that the service reads. -/
structure Settings where
  timeout : ℤ

/-- The table, the waiters of all pods, the results that wait for the lock of their waiter, and the
aborts of committed tombstones that are not published yet. -/
structure Service where
  rows : Table InFlight.executionId
  waiters : Table Waiter.key
  accepting : List (Pod × Result)
  aborting : List (Pod × Control)

/-- The service before its first call. -/
def Service.initial : Service :=
  ⟨.empty, .empty, [], []⟩

/-- What a step does outside the table. -/
inductive Effect where
  | publish (message : Inbound) (published : Bool)
  | accept (result : Result)
  deriving DecidableEq

namespace Service

variable (service : Service)

/-! ### Rows and waiters -/

/-- A change of the row of an execution. -/
def updateRow (executionId : Uuid) (change : Change InFlight.executionId) : Service :=
  { service with rows := service.rows.modify executionId change }

/-- `InFlightRepository.remove`. -/
def remove (executionId : Uuid) : Service :=
  { service with rows := service.rows.filter fun row ↦ row.executionId ≠ executionId }

/-- A change of a waiter. -/
def updateWaiter (pod : Pod) (executionId : Uuid) (change : Change Waiter.key) : Service :=
  { service with waiters := service.waiters.modify (pod, executionId) change }

/-- `_waiters.get`. -/
def waiter (pod : Pod) (executionId : Uuid) : Option Waiter :=
  (service.waiters.find (pod, executionId)).filter Waiter.registered

/-- `waiter.result.set_result`, unless it is done. -/
def complete (pod : Pod) (result : Result) : Service :=
  service.updateWaiter pod result.executionId
    ⟨fun waiter ↦ { waiter with result := waiter.result <|> some result }, fun _ ↦ rfl⟩

/-- Acquire or release the lock of a waiter. -/
def setLocked (pod : Pod) (executionId : Uuid) (locked : Bool) : Service :=
  service.updateWaiter pod executionId ⟨fun waiter ↦ { waiter with locked := locked }, fun _ ↦ rfl⟩

/-! ### The call -/

/-- `execute` until its row is committed. -/
def execute (settings : Settings) (pod : Pod) (request : Request) (now : ℤ) : Service :=
  match service.rows.insert
      { executionId := request.executionId
        sessionId := request.sessionId
        messageId := request.messageId
        createdAt := now
        deadline := now + settings.timeout
        timedOut := false
        ackReplied := false } with
  | none => service
  | some rows =>
    match service.waiters.insert ⟨pod, request, false, true, false, none⟩ with
    | none => { service with rows := rows }
    | some waiters => { service with rows := rows, waiters := waiters }

/-- `execute` publishes its request. -/
def request (pod : Pod) (executionId : Uuid) (published : Bool) : Service × List Effect :=
  match service.waiter pod executionId with
  | none => (service, [])
  | some waiter =>
    if waiter.requested then (service, [])
    else
      (service.updateWaiter pod executionId
          ⟨fun waiter ↦ { waiter with requested := true }, fun _ ↦ rfl⟩,
        [.publish (.request waiter.request) published])

/-- The watchdog completes the waiter with a failure. -/
def giveUp (pod : Pod) (executionId : Uuid) (text : Text) : Service :=
  service.complete pod (errorResult executionId text)

/-- `execute` returns. -/
def finish (pod : Pod) (executionId : Uuid) : Service :=
  service.updateWaiter pod executionId
    ⟨fun waiter ↦ { waiter with registered := false }, fun _ ↦ rfl⟩

/-! ### Replies -/

/-- `_acknowledge`. Its clock is read before the reset and again for the new deadline. -/
def acknowledge (settings : Settings) (tuple : Control) (now later : ℤ) (committed : Bool) :
    Service × List Effect :=
  match service.rows.find tuple.executionId with
  | none => (service, [])
  | some row =>
    if row.sessionId ≠ tuple.sessionId ∨ row.messageId ≠ tuple.messageId then (service, [])
    else if row.ackReplied = true ∧ row.timedOut = false then (service, [])
    else if committed = false then (service, [])
    else if row.deadline ≤ now ∨ row.timedOut = true then
      (service.remove row.executionId, [.publish (.ackReset row.control) true])
    else
      (service.updateRow row.executionId
          ⟨fun row ↦ { row with deadline := later + settings.timeout, ackReplied := true },
            fun _ ↦ rfl⟩,
        [.publish (.ackReply row.control) true])

/-- `accept_reply` with a result, until it waits for the lock of the waiter. -/
def receive (pod : Pod) (result : Result) : Service :=
  match service.waiter pod result.executionId with
  | none => service
  | some waiter =>
    if waiter.result.isSome then service
    else { service with accepting := service.accepting ++ [(pod, result)] }

/-- The waiter of a pod for an execution is locked, registered or not. -/
def isLocked (pod : Pod) (executionId : Uuid) : Bool :=
  (service.waiters.find (pod, executionId)).any Waiter.locked

/-- `accept_reply` under the lock of the waiter. -/
def accept (pod : Pod) (result : Result) (now : ℤ) (committed : Bool) : Service × List Effect :=
  if (pod, result) ∉ service.accepting ∨ service.isLocked pod result.executionId = true then
    (service, [])
  else
    let taken := { service with accepting := service.accepting.erase (pod, result) }
    match service.rows.find result.executionId with
    | none => (taken, [])
    | some row =>
      if row.timedOut = true ∨ row.deadline ≤ now ∨ committed = false then (taken, [])
      else ((taken.remove row.executionId).complete pod result, [.accept result])

/-! ### Expiry -/

/-- `_expire_locked` until its commit. The abort is published next, under the lock of the waiter if
there is one. -/
def expireLocked (pod : Pod) (executionId : Uuid) (force : Bool) (now : ℤ) : Service :=
  match service.rows.find executionId with
  | none => service
  | some row =>
    if force = false ∧ row.timedOut = false ∧ now < row.deadline then service
    else
      let tombstone := service.updateRow executionId
        ⟨fun row ↦ { row with timedOut := true }, fun _ ↦ rfl⟩
      if row.ackReplied = true ∧ row.timedOut = false then
        let held := match service.waiter pod executionId with
          | none => tombstone
          | some _ => tombstone.setLocked pod executionId true
        { held with aborting := held.aborting ++ [(pod, row.control)] }
      else tombstone

/-- `_expire`: the watchdog's check, or with force the end of a cancelled call. -/
def expire (pod : Pod) (executionId : Uuid) (force : Bool) (now : ℤ) (committed : Bool) : Service :=
  if committed = false then service
  else
    match service.waiter pod executionId with
    | none => service.expireLocked pod executionId force now
    | some waiter =>
      if waiter.locked ∨ waiter.result.isSome then service
      else service.expireLocked pod executionId force now

/-- The rest of `_expire_locked`. -/
def abort (pod : Pod) (tuple : Control) (published : Bool) : Service × List Effect :=
  if (pod, tuple) ∉ service.aborting then (service, [])
  else
    ({ service with aborting := service.aborting.erase (pod, tuple) }.setLocked pod
        tuple.executionId false,
      [.publish (.abort tuple) published])

/-- `InFlightRepository.collect`. -/
def collect (before : ℤ) : Service :=
  { service with rows := service.rows.filter fun row ↦ before ≤ row.createdAt }

end Service

/-! ### Runs -/

/-- The steps of the service. -/
inductive Event where
  | execute (pod : Pod) (request : Request) (now : ℤ)
  | request (pod : Pod) (executionId : Uuid) (published : Bool)
  | giveUp (pod : Pod) (executionId : Uuid) (text : Text)
  | finish (pod : Pod) (executionId : Uuid)
  | acknowledge (tuple : Control) (now later : ℤ) (committed : Bool)
  | receive (pod : Pod) (result : Result)
  | accept (pod : Pod) (result : Result) (now : ℤ) (committed : Bool)
  | expire (pod : Pod) (executionId : Uuid) (force : Bool) (now : ℤ) (committed : Bool)
  | abort (pod : Pod) (tuple : Control) (published : Bool)
  | collect (before : ℤ)

/-- The identifier that a step draws from `uuid4`. -/
def Event.drawn : Event → Option Uuid
  | .execute _ call _ => some call.executionId
  | _ => none

/-- One step, with its effects. -/
def step (settings : Settings) (service : Service) : Event → Service × List Effect
  | .execute pod request now => (service.execute settings pod request now, [])
  | .request pod executionId published => service.request pod executionId published
  | .giveUp pod executionId text => (service.giveUp pod executionId text, [])
  | .finish pod executionId => (service.finish pod executionId, [])
  | .acknowledge tuple now later committed => service.acknowledge settings tuple now later committed
  | .receive pod result => (service.receive pod result, [])
  | .accept pod result now committed => service.accept pod result now committed
  | .expire pod executionId force now committed =>
    (service.expire pod executionId force now committed, [])
  | .abort pod tuple published => service.abort pod tuple published
  | .collect before => (service.collect before, [])

/-- The state and the effects after some steps from the start. -/
def run (settings : Settings) (events : List Event) : Service × List Effect :=
  Runs.runFrom (step settings) Service.initial events

end Ads.SandboxMcp
