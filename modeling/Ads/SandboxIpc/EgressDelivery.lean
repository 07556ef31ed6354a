import Ads.SandboxEgress.PolicyStore

/-!
# Delivery of egress policies

The model of `RevisionFloor` and `EgressDelivery` of `ads_sandbox_ipc.egress`, with the policy store
they deliver to. `EgressDelivery` runs in one process whose tasks change at the points where they
wait: for the lock, for a ping, or for the answer to a push. `step` is what one such stretch of one
task does; an input says which task goes on and with what outcome. A push that was sent may reach the
egress process at any later time, any number of times or never, and either process may restart
between any two steps. Only the revision in the file outlives the delivery process.
-/

set_option autoImplicit false
set_option relaxedAutoImplicit false

namespace Ads.SandboxIpc.Egress

open Python SandboxEgress SandboxEgress.Configuration

/-! ### The floor -/

/-- What becomes of the write of a new floor. -/
inductive Persistence
  /-- The file is replaced and the directory synchronised. -/
  | written
  /-- The write fails before the file is replaced. -/
  | failedBefore
  /-- The write fails after the file is replaced. -/
  | failedAfter
deriving DecidableEq

/-- `RevisionFloor`: the revision in memory and the one in the file. -/
structure RevisionFloor where
  /-- `revision`. -/
  revision : ℕ
  /-- The record in the file. -/
  file : Option ℕ
deriving DecidableEq

/-- `RevisionFloor.__init__`. -/
def RevisionFloor.load (file : Option ℕ) : RevisionFloor :=
  ⟨file.getD 0, file⟩

/-- `RevisionFloor.advance`: the floor after it and whether it raises. -/
def RevisionFloor.advance (floor : RevisionFloor) (revision : ℕ) (outcome : Persistence) :
    RevisionFloor × Bool :=
  if revision ≤ floor.revision then (floor, false)
  else
    match outcome with
    | .written => (⟨revision, some revision⟩, false)
    | .failedBefore => (floor, true)
    | .failedAfter => (⟨floor.revision, some revision⟩, true)

/-! ### The state -/

/-- `EgressDelivery`, without its tasks. -/
structure EgressDelivery where
  /-- `floor`. -/
  floor : RevisionFloor
  /-- `instance`. -/
  instanceId : Option Uuid := none
  /-- `installed`. -/
  installed : Option EgressApplied := none
  /-- `snapshot`. -/
  snapshot : Option ProjectEgressSnapshot := none
  /-- `failed`. -/
  failed : Bool := false
  /-- `stopped`. -/
  stopped : Bool := false
  /-- `ever_installed`. -/
  everInstalled : Bool := false
  /-- `_health_sequence`. -/
  healthSequence : ℕ := 0
  /-- `_observed_sequence`. -/
  observedSequence : ℕ := 0
deriving DecidableEq

/-- The task that runs `_apply`. -/
inductive Origin
  /-- `receive`. -/
  | receive
  /-- `_background_apply`, with the instance it observed before. -/
  | background (observed : Option Uuid)
deriving DecidableEq

/-- What `_apply` waits for. -/
inductive Stage
  /-- The answer to its ping. -/
  | ping
  /-- The answer to a push, from the instance it expects. -/
  | push (call : ℕ) (expected : Uuid)
deriving DecidableEq

/-- The task that holds the lock, in `_apply`. -/
structure Applying where
  /-- The task. -/
  origin : Origin
  /-- The snapshot that is applied. -/
  snapshot : ProjectEgressSnapshot
  /-- The number of the attempt, from zero. -/
  attempt : ℕ
  /-- What it waits for. -/
  stage : Stage
deriving DecidableEq

/-- A task that waits for the lock. -/
inductive Waiter
  /-- `receive`. -/
  | receive (snapshot : ProjectEgressSnapshot)
  /-- `_background_apply`. -/
  | background
deriving DecidableEq

/-- `EgressPing`. -/
structure EgressPing where
  /-- The process that answers. -/
  instanceId : Uuid
  /-- `healthy`. -/
  healthy : Bool
deriving DecidableEq

/-- Both processes, the file and what is in flight between them. -/
structure System where
  /-- The delivery process and the file. -/
  delivery : EgressDelivery
  /-- The task that holds the lock. -/
  lock : Option Applying := none
  /-- The tasks that wait for the lock. -/
  waiting : List Waiter := []
  /-- The sequence numbers of the health checks that wait. -/
  checks : List ℕ := []
  /-- The store of the egress process. -/
  store : Configuration.PolicyStore
  /-- The instances of the egress that have run. -/
  booted : List Uuid
  /-- The pushes that were sent, by the number of their call. -/
  pushes : List (ℕ × ProjectEgressSnapshot) := []
  /-- The answers of the egress to the calls. -/
  answers : List (ℕ × Except InstallFailure EgressApplied) := []
  /-- The number of the next call. -/
  calls : ℕ := 0

/-- A delivery process that starts, and an egress process that starts. -/
def System.start (file : Option ℕ) (instanceId : Uuid) : System where
  delivery := { floor := RevisionFloor.load file }
  store := { instanceId }
  booted := [instanceId]

/-- What is seen of a step. -/
inductive Event
  /-- The delivery process passes a snapshot to the transport, over a floor. -/
  | applied (floor revision : ℕ)
  /-- The egress process installs a snapshot that was passed, over a floor. -/
  | installed (floor revision : ℕ)
deriving DecidableEq

/-! ### `_apply` -/

/-- The task that holds the lock is done. -/
def System.release (system : System) : System :=
  { system with lock := none }

/-- `await self.transport.apply(...)` for an attempt that expects an instance. -/
def System.push (system : System) (origin : Origin) (snapshot : ProjectEgressSnapshot)
    (attempt : ℕ) (expected : Uuid) : System × List Event :=
  ({ system with
      lock := some ⟨origin, snapshot, attempt, .push system.calls expected⟩
      pushes := system.pushes ++ [(system.calls, snapshot)]
      calls := system.calls + 1 },
    [.applied system.delivery.floor.revision snapshot.revision])

/-- An attempt of `_apply` up to where it waits. -/
def System.enter (system : System) (origin : Origin) (snapshot : ProjectEgressSnapshot)
    (attempt : ℕ) : System × List Event :=
  match system.delivery.instanceId with
  | none => ({ system with lock := some ⟨origin, snapshot, attempt, .ping⟩ }, [])
  | some expected => system.push origin snapshot attempt expected

/-- The condition of the loop of `_background_apply`, and its next round. -/
def System.background (system : System) : System × List Event :=
  match system.delivery.snapshot with
  | none => (system.release, [])
  | some snapshot =>
    if system.delivery.stopped ∨ system.delivery.failed ∨ system.delivery.installed ≠ none then
      (system.release, [])
    else system.enter (.background system.delivery.instanceId) snapshot 0

/-- `_apply` returns to its task. -/
def System.leave (system : System) (origin : Origin) : System × List Event :=
  match origin with
  | .receive => (system.release, [])
  | .background observed =>
    if system.delivery.instanceId = observed then (system.release, []) else system.background

/-- An attempt of `_apply` raises: there are two, and then delivery has failed. -/
def System.retry (system : System) (applying : Applying) : System × List Event :=
  if applying.attempt = 0 then
    if system.delivery.stopped ∨ system.delivery.failed then system.leave applying.origin
    else system.enter applying.origin applying.snapshot 1
  else
    { system with delivery := { system.delivery with failed := true } }.leave applying.origin

/-- `_apply` goes on with the answer to its ping. -/
def System.pinged (system : System) (applying : Applying) (ping : EgressPing) :
    System × List Event :=
  if ping.healthy then
    { system with delivery := { system.delivery with instanceId := some ping.instanceId } }.push
      applying.origin applying.snapshot applying.attempt ping.instanceId
  else system.retry applying

/-- `_apply` goes on with the answer to its push. -/
def System.answered (system : System) (applying : Applying) (expected : Uuid)
    (answer : Except InstallFailure EgressApplied) : System × List Event :=
  match answer with
  | .ok receipt =>
    if system.delivery.stopped ∨ receipt.instanceId ≠ expected ∨
        system.delivery.instanceId ≠ some expected then
      system.leave applying.origin
    else if receipt.revision ≠ applying.snapshot.revision then system.retry applying
    else
      { system with
        delivery := { system.delivery with installed := some receipt, everInstalled := true } }.leave
        applying.origin
  | .error (.staleConfiguration received current) =>
    if received = applying.snapshot.revision ∧ current > applying.snapshot.revision then
      system.leave applying.origin
    else system.retry applying
  | .error _ => system.retry applying

/-! ### The tasks -/

variable (project : Uuid) (recodeSnapshot : Recoding ProjectEgressSnapshot)
  (recode : Recoding ProjectEgressSettings)

/-- `receive` with the lock, up to where it waits. -/
def System.receive (system : System) (snapshot : ProjectEgressSnapshot) (outcome : Persistence) :
    System × List Event :=
  if system.delivery.stopped ∨ system.delivery.failed ∨
      snapshot.revision < system.delivery.floor.revision then
    (system, [])
  else
    match canonicalSettings recode snapshot.settings with
    | .error _ => (system, [])
    | .ok settings =>
      let canonical : ProjectEgressSnapshot := ⟨snapshot.revision, settings⟩
      let (floor, raised) := system.delivery.floor.advance canonical.revision outcome
      if raised then
        ({ system with delivery := { system.delivery with floor, failed := true } }, [])
      else
        { system with
          delivery := { system.delivery with floor, snapshot := some canonical } }.enter
          .receive canonical 0

/-- `_reapply` is a task that is not done. -/
def System.reapplying (system : System) : Bool :=
  system.waiting.contains .background ||
    system.lock.any fun applying ↦
      match applying.origin with
      | .receive => false
      | .background _ => true

/-- `healthy` goes on with the answers to its ping and from the relays. -/
def System.checked (system : System) (sequence : ℕ) (ping : EgressPing) (relays : Bool) : System :=
  if ¬ ping.healthy ∨ ¬ relays ∨ sequence < system.delivery.observedSequence then system
  else
    let delivery := { system.delivery with observedSequence := sequence }
    if delivery.instanceId = some ping.instanceId then { system with delivery }
    else
      { system with
        delivery := { delivery with instanceId := some ping.instanceId, installed := none }
        waiting :=
          if delivery.snapshot ≠ none ∧ ¬ system.reapplying then system.waiting ++ [.background]
          else system.waiting }

/-- What happens next. -/
inductive Input
  /-- A snapshot is delivered to `receive`. -/
  | receive (projectId : Uuid) (snapshot : ProjectEgressSnapshot)
  /-- A waiting task takes the lock; the write of the floor has an outcome. -/
  | acquire (waiter : ℕ) (outcome : Persistence)
  /-- A waiting task is cancelled. -/
  | cancelWaiter (waiter : ℕ)
  /-- The ping of `_apply` is answered. -/
  | pinged (ping : EgressPing)
  /-- The push of `_apply` is answered. -/
  | answered (answer : ℕ)
  /-- What `_apply` waits for raises or times out. -/
  | raised
  /-- The task that holds the lock is cancelled. -/
  | cancel
  /-- `healthy` is called. -/
  | check
  /-- A health check has its answers. -/
  | checked (check : ℕ) (ping : EgressPing) (relays : Bool)
  /-- A health check raises, times out or is cancelled. -/
  | checkRaised (check : ℕ)
  /-- `close`. -/
  | close
  /-- The delivery process restarts. -/
  | restart
  /-- A push reaches the egress process. -/
  | land (push : ℕ)
  /-- `PolicyStore.close`. -/
  | closeStore
  /-- The egress process restarts as a new instance. -/
  | restartEgress (instanceId : Uuid)

/-- One stretch of one task, or one event outside the delivery process. Where the input is not
possible nothing happens. -/
def step (system : System) : Input → System × List Event
  | .receive projectId snapshot =>
    if system.delivery.stopped ∨ system.delivery.failed ∨ projectId ≠ project then (system, [])
    else ({ system with waiting := system.waiting ++ [.receive snapshot] }, [])
  | .acquire waiter outcome =>
    match system.lock, system.waiting[waiter]? with
    | none, some (.receive snapshot) =>
      { system with waiting := system.waiting.eraseIdx waiter }.receive recode snapshot outcome
    | none, some .background =>
      { system with waiting := system.waiting.eraseIdx waiter }.background
    | _, _ => (system, [])
  | .cancelWaiter waiter => ({ system with waiting := system.waiting.eraseIdx waiter }, [])
  | .pinged ping =>
    match system.lock with
    | some applying =>
      if applying.stage = .ping ∧ ping.instanceId ∈ system.booted then
        system.pinged applying ping
      else (system, [])
    | none => (system, [])
  | .answered answer =>
    match system.lock, system.answers[answer]? with
    | some applying, some (number, result) =>
      match applying.stage with
      | .push call expected =>
        if number = call then system.answered applying expected result else (system, [])
      | .ping => (system, [])
    | _, _ => (system, [])
  | .raised =>
    match system.lock with
    | some applying => system.retry applying
    | none => (system, [])
  | .cancel => (system.release, [])
  | .check =>
    if system.delivery.stopped ∨ system.delivery.failed then (system, [])
    else
      let sequence := system.delivery.healthSequence + 1
      ({ system with
          delivery := { system.delivery with healthSequence := sequence }
          checks := system.checks ++ [sequence] }, [])
  | .checked check ping relays =>
    match system.checks[check]? with
    | some sequence =>
      if ping.instanceId ∈ system.booted then
        ({ system with checks := system.checks.eraseIdx check }.checked sequence ping relays, [])
      else (system, [])
    | none => (system, [])
  | .checkRaised check => ({ system with checks := system.checks.eraseIdx check }, [])
  | .close => ({ system with delivery := { system.delivery with stopped := true } }, [])
  | .restart =>
    ({ system with
        delivery := { floor := RevisionFloor.load system.delivery.floor.file }
        lock := none
        waiting := []
        checks := [] }, [])
  | .land push =>
    match system.pushes[push]? with
    | some (number, snapshot) =>
      match Configuration.PolicyStore.install recodeSnapshot recode snapshot system.store with
      | .ok (receipt, store) =>
        ({ system with store, answers := system.answers ++ [(number, .ok receipt)] },
          [.installed system.delivery.floor.revision snapshot.revision])
      | .error failure =>
        ({ system with answers := system.answers ++ [(number, .error failure)] }, [])
    | none => (system, [])
  | .closeStore => ({ system with store := { system.store with accepting := false } }, [])
  | .restartEgress instanceId =>
    if instanceId ∈ system.booted then (system, [])
    else
      ({ system with
          store := { instanceId }
          booted := system.booted ++ [instanceId] }, [])

end Ads.SandboxIpc.Egress
