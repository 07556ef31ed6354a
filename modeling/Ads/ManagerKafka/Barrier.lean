import Ads.Foundation.Runs
import Ads.Python.Values
import Mathlib.Data.Finset.Insert
import Mathlib.Data.List.Sort
import Mathlib.Logic.Function.Basic

/-!
# The barrier of the managers

Before a sandbox gets its guest, `KafkaTopics.prepare` makes its topics, waits until the replica is
subscribed to the response topic, and asks the other replicas to be: `ManagerBarrier.wait` sends a
request with a snapshot of the group, every member answers once it is subscribed, and the call goes
on when all have answered or the time is up.

The broker delivers what was handed to a producer to each replica any number of times or never, and
in any order. A replica takes one step at a time, from one `await` to the next. A call may be
cancelled, and an awaited call may fail or time out, wherever it waits.
-/

set_option autoImplicit false
set_option relaxedAutoImplicit false

namespace Ads.ManagerKafka.Barrier

open Foundation.Runs Python

/-! ### Messages -/

/-- `BarrierRequest`. -/
structure BarrierRequest where
  barrierId : Uuid
  sandboxId : Uuid
  initiator : Uuid
  members : List Uuid
deriving DecidableEq

/-- `BarrierAck`. -/
structure BarrierAck where
  barrierId : Uuid
  sandboxId : Uuid
  initiator : Uuid
  member : Uuid
deriving DecidableEq

/-- `BarrierMessage`. -/
inductive BarrierMessage
  | request (request : BarrierRequest)
  | ack (ack : BarrierAck)
deriving DecidableEq

/-! ### The state of a replica -/

/-- `Round`, with the flag of its event. -/
structure Round where
  request : BarrierRequest
  received : Finset Uuid
  changed : Bool

/-- Where a call of `prepare` waits. -/
inductive Phase
  /-- In `create_topics`. -/
  | topics
  /-- In `subscribed`. -/
  | subscription
  /-- In `members`. -/
  | membership (barrierId : Uuid)
  /-- In `broadcast`. -/
  | broadcast (request : BarrierRequest)
  /-- In `round_.changed.wait`. -/
  | answers (request : BarrierRequest)

/-- A call of `prepare`. -/
structure Call where
  sandboxId : Uuid
  phase : Phase

/-- Where a task of `_ack` is. -/
inductive AckPhase
  /-- In `subscribed`. -/
  | subscription
  /-- In `broadcast`. -/
  | broadcast
  /-- Before its callback runs. -/
  | done
deriving DecidableEq

/-- A task of `_ack`. -/
structure Participant where
  request : BarrierRequest
  phase : AckPhase

/-- A replica: the topics of its `SubscriptionReady`, by the sandboxes they answer for, and its
`ManagerBarrier` with the calls of `prepare`. -/
structure Manager where
  topics : Finset Uuid
  calls : ℕ → Option Call
  rounds : Uuid → Option Round
  participants : Uuid → Option Participant

/-- A replica that starts. -/
def Manager.fresh : Manager where
  topics := ∅
  calls := fun _ ↦ none
  rounds := fun _ ↦ none
  participants := fun _ ↦ none

/-- The replicas, what was handed to their producers, and the identifiers drawn so far. -/
structure World where
  managers : Uuid → Manager
  sent : List BarrierMessage
  drawn : List Uuid

/-- No replica has done anything. -/
def World.start : World where
  managers := fun _ ↦ .fresh
  sent := []
  drawn := []

/-- What can be observed of a run. -/
inductive Event
  /-- The shared consumer of a replica has an assignment, with these topics. -/
  | assigned (replica : Uuid) (topics : Finset Uuid)
  /-- The assignment is revoked. -/
  | revoked (replica : Uuid)
  /-- `subscribed` returns in a call of `prepare`. -/
  | prepares (replica : Uuid) (call : ℕ) (sandboxId : Uuid)
  /-- A request is about to be sent. -/
  | requested (request : BarrierRequest)
  /-- `subscribed` returns in the task of `_ack`. -/
  | ready (member : Uuid) (request : BarrierRequest)
  /-- The initiator accepts the answer of a member. -/
  | heard (barrierId member : Uuid)
  /-- A call of `wait` ends with every answer. -/
  | agreed (request : BarrierRequest)
  /-- A call of `wait` ends with the warning. -/
  | incomplete (barrierId : Uuid) (missing : List Uuid)
  /-- `prepare` returns. -/
  | prepared (replica : Uuid) (call : ℕ) (sandboxId : Uuid)
deriving DecidableEq

/-- A step. -/
inductive Input
  /-- `on_partitions_assigned`. -/
  | assign (topics : Finset Uuid)
  /-- `on_partitions_revoked`. -/
  | revoke
  /-- `prepare` is called. -/
  | prepare (call : ℕ) (sandboxId : Uuid)
  /-- `create_topics` returns. -/
  | created (call : ℕ)
  /-- `subscribed` returns in `prepare`, and `wait` draws an identifier. -/
  | subscribed (call : ℕ) (barrierId : Uuid)
  /-- `members` returns. -/
  | members (call : ℕ) (found : List Uuid)
  /-- The request is handed to the producer. -/
  | hand (call : ℕ)
  /-- `broadcast` returns in `wait`. -/
  | broadcasted (call : ℕ)
  /-- `round_.changed.wait` returns. -/
  | wake (call : ℕ)
  /-- What the call awaits raises or times out. -/
  | fail (call : ℕ)
  /-- The call is cancelled. -/
  | cancel (call : ℕ)
  /-- A message is accepted. -/
  | accept (message : BarrierMessage)
  /-- `subscribed` returns in `_ack`. -/
  | joined (barrierId : Uuid)
  /-- The answer is handed to the producer. -/
  | answer (barrierId : Uuid)
  /-- The task of `_ack` ends: `broadcast` has returned, or something has failed. -/
  | ended (barrierId : Uuid) (failed : Bool)
  /-- The callback of the task runs. -/
  | forget (barrierId : Uuid)
  /-- `stop`. -/
  | stop

/-! ### Steps of a replica -/

section Steps

variable (manager : Manager)

/-- A call goes on to wait elsewhere. -/
def Manager.goes (call : ℕ) (sandboxId : Uuid) (phase : Phase) : Manager :=
  { manager with calls := Function.update manager.calls call (some ⟨sandboxId, phase⟩) }

/-- The `finally` of `wait`, and the call is over. -/
def Manager.leaves (call : ℕ) (barrierId : Uuid) : Manager :=
  { manager with
    calls := Function.update manager.calls call none
    rounds := Function.update manager.rounds barrierId none }

/-- A participant goes on. -/
def Manager.participates (barrierId : Uuid) (participant : Option Participant) : Manager :=
  { manager with participants := Function.update manager.participants barrierId participant }

/-- `sorted` of a set of identifiers. -/
def sortedIds (found : List Uuid) : List Uuid :=
  found.dedup.insertionSort fun first second ↦ first.toNat ≤ second.toNat

/-- `members - round_.received`. -/
def Manager.missing (request : BarrierRequest) : List Uuid :=
  request.members.filter fun member ↦
    (manager.rounds request.barrierId).all fun round ↦ member ∉ round.received

/-- The loop of `wait`: it ends when every member has answered, and else clears the event. -/
def Manager.awaits (replica : Uuid) (call : ℕ) (sandboxId : Uuid) (request : BarrierRequest) :
    Manager × List Event :=
  match manager.rounds request.barrierId with
  | none => (manager, [])
  | some round =>
    if request.members.all (· ∈ round.received) then
      (manager.leaves call request.barrierId,
        [.agreed request, .prepared replica call sandboxId])
    else
      ({ manager.goes call sandboxId (.answers request) with
          rounds := Function.update manager.rounds request.barrierId
            (some { round with changed := false }) }, [])

/-- `wait` once the members are known. -/
def Manager.opens (replica : Uuid) (call : ℕ) (sandboxId barrierId : Uuid) (found : List Uuid) :
    Manager × List Event :=
  if replica ∉ found then
    (manager.leaves call barrierId,
      [.incomplete barrierId (sortedIds found), .prepared replica call sandboxId])
  else
    let request : BarrierRequest := ⟨barrierId, sandboxId, replica, sortedIds found⟩
    ({ manager.goes call sandboxId (.broadcast request) with
        rounds := Function.update manager.rounds barrierId
          (some { request, received := {replica}, changed := false }) },
      [.requested request])

/-- What the call awaits raises: `prepare` raises too before the barrier, `wait` does not. -/
def Manager.fails (replica : Uuid) (call : ℕ) (waiting : Call) : Manager × List Event :=
  match waiting.phase with
  | .topics | .subscription =>
    ({ manager with calls := Function.update manager.calls call none }, [])
  | .membership barrierId =>
    (manager.leaves call barrierId,
      [.incomplete barrierId [], .prepared replica call waiting.sandboxId])
  | .broadcast request | .answers request =>
    (manager.leaves call request.barrierId,
      [.incomplete request.barrierId (manager.missing request),
        .prepared replica call waiting.sandboxId])

/-- A cancelled call. -/
def Manager.cancels (call : ℕ) (waiting : Call) : Manager :=
  match waiting.phase with
  | .topics | .subscription =>
    { manager with calls := Function.update manager.calls call none }
  | .membership barrierId => manager.leaves call barrierId
  | .broadcast request | .answers request => manager.leaves call request.barrierId

/-- `accept` of an answer. -/
def Manager.acceptAck (ack : BarrierAck) : Manager × List Event :=
  match manager.rounds ack.barrierId with
  | none => (manager, [])
  | some round =>
    if ack.sandboxId = round.request.sandboxId ∧ ack.initiator = round.request.initiator ∧
        ack.member ∈ round.request.members then
      ({ manager with
          rounds := Function.update manager.rounds ack.barrierId
            (some { round with received := insert ack.member round.received, changed := true }) },
        [.heard ack.barrierId ack.member])
    else (manager, [])

/-- `accept` of a request. -/
def Manager.acceptRequest (replica : Uuid) (request : BarrierRequest) : Manager :=
  if replica ∉ request.members ∨ request.initiator = replica ∨
      request.initiator ∉ request.members ∨ (manager.participants request.barrierId).isSome then
    manager
  else manager.participates request.barrierId (some ⟨request, .subscription⟩)

/-- `stop`: every task is cancelled. -/
def Manager.stops : Manager :=
  { manager with participants := fun _ ↦ none }

end Steps

/-! ### Steps of the world -/

/-- The answer of a member to a request. -/
def BarrierRequest.answer (request : BarrierRequest) (member : Uuid) : BarrierAck :=
  ⟨request.barrierId, request.sandboxId, request.initiator, member⟩

/-- A replica has changed. -/
def World.put (world : World) (replica : Uuid) (manager : Manager) : World :=
  { world with managers := Function.update world.managers replica manager }

@[simp] theorem World.put_self (world : World) (replica : Uuid) (manager : Manager) :
    (world.put replica manager).managers replica = manager :=
  Function.update_self ..

theorem World.put_of_ne (world : World) {replica other : Uuid} (manager : Manager)
    (hne : other ≠ replica) : (world.put replica manager).managers other = world.managers other :=
  Function.update_of_ne hne ..

/-- A message is handed to a producer. -/
def World.send (world : World) (message : BarrierMessage) : World :=
  { world with sent := world.sent ++ [message] }

/-- The step of a replica in one of its calls. -/
def World.proceed (world : World) (replica : Uuid) (call : ℕ) (waiting : Call) :
    Input → World × List Event
  | .created _ =>
    match waiting.phase with
    | .topics =>
      (world.put replica ((world.managers replica).goes call waiting.sandboxId .subscription), [])
    | _ => (world, [])
  | .subscribed _ barrierId =>
    match waiting.phase with
    | .subscription =>
      if waiting.sandboxId ∉ (world.managers replica).topics ∨ barrierId ∈ world.drawn then
        (world, [])
      else
        ({ world.put replica
              ((world.managers replica).goes call waiting.sandboxId (.membership barrierId)) with
            drawn := barrierId :: world.drawn },
          [.prepares replica call waiting.sandboxId])
    | _ => (world, [])
  | .members _ found =>
    match waiting.phase with
    | .membership barrierId =>
      let (manager, events) :=
        (world.managers replica).opens replica call waiting.sandboxId barrierId found
      (world.put replica manager, events)
    | _ => (world, [])
  | .hand _ =>
    match waiting.phase with
    | .broadcast request => (world.send (.request request), [])
    | _ => (world, [])
  | .broadcasted _ =>
    match waiting.phase with
    | .broadcast request =>
      if .request request ∈ world.sent then
        let (manager, events) :=
          (world.managers replica).awaits replica call waiting.sandboxId request
        (world.put replica manager, events)
      else (world, [])
    | _ => (world, [])
  | .wake _ =>
    match waiting.phase with
    | .answers request =>
      if ((world.managers replica).rounds request.barrierId).any Round.changed then
        let (manager, events) :=
          (world.managers replica).awaits replica call waiting.sandboxId request
        (world.put replica manager, events)
      else (world, [])
    | _ => (world, [])
  | .fail _ =>
    let (manager, events) := (world.managers replica).fails replica call waiting
    (world.put replica manager, events)
  | .cancel _ => (world.put replica ((world.managers replica).cancels call waiting), [])
  | _ => (world, [])

/-- The step of a replica in one of its tasks of `_ack`. -/
def World.participate (world : World) (replica : Uuid) (participant : Participant) :
    Input → World × List Event
  | .joined barrierId =>
    if participant.phase = .subscription ∧
        participant.request.sandboxId ∈ (world.managers replica).topics then
      (world.put replica ((world.managers replica).participates barrierId
          (some { participant with phase := .broadcast })),
        [.ready replica participant.request])
    else (world, [])
  | .answer _ =>
    if participant.phase = .broadcast then
      (world.send (.ack (participant.request.answer replica)), [])
    else (world, [])
  | .ended barrierId failed =>
    if participant.phase ≠ .done ∧ (failed ∨ participant.phase = .broadcast ∧
        .ack (participant.request.answer replica) ∈ world.sent) then
      (world.put replica ((world.managers replica).participates barrierId
        (some { participant with phase := .done })), [])
    else (world, [])
  | .forget barrierId =>
    if participant.phase = .done then
      (world.put replica ((world.managers replica).participates barrierId none), [])
    else (world, [])
  | _ => (world, [])

/-- The step of a replica in a call, if it has the call. -/
def World.callStep (world : World) (replica : Uuid) (call : ℕ) (input : Input) :
    World × List Event :=
  match (world.managers replica).calls call with
  | some waiting => world.proceed replica call waiting input
  | none => (world, [])

/-- The step of a replica in a task of `_ack`, if it has the task. -/
def World.taskStep (world : World) (replica barrierId : Uuid) (input : Input) :
    World × List Event :=
  match (world.managers replica).participants barrierId with
  | some participant => world.participate replica participant input
  | none => (world, [])

/-- One step of a replica. What cannot happen leaves everything as it is. -/
def step (world : World) : Uuid × Input → World × List Event
  | (replica, input) =>
    let manager := world.managers replica
    match input with
    | .assign topics => (world.put replica { manager with topics }, [.assigned replica topics])
    | .revoke => (world.put replica { manager with topics := ∅ }, [.revoked replica])
    | .prepare call sandboxId =>
      if (manager.calls call).isSome then (world, [])
      else (world.put replica (manager.goes call sandboxId .topics), [])
    | .created call | .subscribed call _ | .members call _ | .hand call | .broadcasted call
    | .wake call | .fail call | .cancel call => world.callStep replica call input
    | .accept message =>
      if message ∈ world.sent then
        match message with
        | .ack ack =>
          let (next, events) := manager.acceptAck ack
          (world.put replica next, events)
        | .request request => (world.put replica (manager.acceptRequest replica request), [])
      else (world, [])
    | .joined barrierId | .answer barrierId | .ended barrierId _ | .forget barrierId =>
      world.taskStep replica barrierId input
    | .stop => (world.put replica manager.stops, [])

end Ads.ManagerKafka.Barrier
