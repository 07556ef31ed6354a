import Ads.Foundation.Runs

/-!
# Durable admission of lifecycle signals

`DurableAdmission` takes the signals of the maintenance topics from one consumer. A batch of a
partition gets a task of its own that admits its records one after the other, commits after each of
them and keeps the partition paused until it ends. Epochs fence the tasks of an assignment from the
next one.

What runs between two suspensions of a coroutine is one step. The consumer and the broker are the
environment: `getmany` returns the next records of partitions that are not paused, a new assignment
starts at the committed offset with the partition not paused, and other members of the group may
commit in between. `Lawful` says what a run may show.
-/

set_option autoImplicit false
set_option relaxedAutoImplicit false

namespace Ads.ManagerKafka.Admission

open Foundation.Runs

variable {P : Type}

/-! ### The machine -/

/-- Where a task of `_batch` waits. -/
inductive Point
  /-- The task has not started. -/
  | created
  /-- In `admit_lifecycle`. -/
  | admitting
  /-- In `consumer.commit`. -/
  | committing
  /-- In the pause after a failure, with the value of `admitted`. -/
  | sleeping (admitted : Bool)
deriving DecidableEq

/-- The variable `admitted` of `partition`. -/
def Point.admitted : Point → Bool
  | .created | .admitting => false
  | .committing => true
  | .sleeping admitted => admitted

/-- A task of `_batch`. -/
structure BatchTask (P : Type) where
  /-- The partition. -/
  partition : P
  /-- The offsets of the records that are left, the current one first. -/
  records : List ℕ
  /-- The epoch the batch was taken in. -/
  epoch : ℕ
  /-- Where the task waits. -/
  point : Point
  /-- The task was told to cancel. -/
  cancelled : Bool
deriving DecidableEq

/-- The consumer with the broker behind it, and the fields of `DurableAdmission`. -/
structure State (P : Type) where
  /-- The offset that `getmany` returns next. -/
  position : P → ℕ
  /-- The paused partitions. -/
  paused : P → Bool
  /-- The committed offsets of the group. -/
  committed : P → ℕ
  /-- `epochs`. -/
  epochs : P → Option ℕ
  /-- `generation`. -/
  generation : ℕ
  /-- `tasks`, by the number of the task. -/
  tasks : P → Option ℕ
  /-- `running`, by the number of the task. -/
  running : ℕ → Option (BatchTask P)
  /-- How many tasks were created. -/
  created : ℕ

/-- What can be observed of a run. Every event belongs to an assignment, that is, to a partition
and an epoch. -/
inductive Event (P : Type)
  /-- A record is handed to a task. -/
  | delivered (partition : P) (epoch offset : ℕ)
  /-- `admit_lifecycle` is called. -/
  | admission (partition : P) (epoch offset : ℕ)
  /-- `admit_lifecycle` has returned: the record is admitted or classified as rejected. -/
  | admitted (partition : P) (epoch offset : ℕ)
  /-- `commit` is called. -/
  | commit (partition : P) (epoch next : ℕ)
  /-- `commit` has returned. -/
  | committed (partition : P) (epoch next : ℕ)
  /-- The revocation is handled. -/
  | revoked (partition : P) (epoch : ℕ)
deriving DecidableEq

/-- How the wait of a task ends. -/
inductive Wake
  /-- The task starts, or its pause is over. -/
  | resumed
  /-- The call returns. -/
  | returned
  /-- The call raises; a commit may have been applied all the same. -/
  | failed (applied : Bool)
  /-- The cancellation is delivered. -/
  | cancelled
deriving DecidableEq

/-- One step of the environment or of the event loop. -/
inductive Input (P : Type)
  /-- `on_partitions_assigned`. -/
  | assigned (partitions : List P)
  /-- `on_partitions_revoked`. -/
  | revoked (partitions : List P)
  /-- `getmany` returns that many records of each partition. -/
  | fetched (batches : List (P × ℕ))
  /-- A task is woken. -/
  | woken (id : ℕ) (wake : Wake)
  /-- The group's offset changes by another member, or by a commit that was given up. -/
  | elsewhere (partition : P) (offset : ℕ)

variable [DecidableEq P]

/-- The end of `_batch`: where the epoch is still that of the task, the partition is resumed. -/
def State.finish (state : State P) (id : ℕ) (task : BatchTask P) : State P :=
  let ended := { state with running := Function.update state.running id none }
  if state.epochs task.partition = some task.epoch then
    { ended with
      tasks := Function.update state.tasks task.partition none
      paused := Function.update state.paused task.partition false }
  else ended

/-- The task waits at another point. -/
def State.wait (state : State P) (id : ℕ) (task : BatchTask P) (records : List ℕ) (point : Point) :
    State P :=
  { state with running := Function.update state.running id (some { task with records, point }) }

/-- The loops of `partition` up to the next wait, with the records that are left. -/
def State.goOn (state : State P) (id : ℕ) (task : BatchTask P) (records : List ℕ)
    (admitted : Bool) : State P × List (Event P) :=
  match records with
  | [] => (state.finish id task, [])
  | offset :: _ =>
    if state.epochs task.partition ≠ some task.epoch then (state.finish id task, [])
    else if admitted then
      (state.wait id task records .committing, [.commit task.partition task.epoch (offset + 1)])
    else (state.wait id task records .admitting, [.admission task.partition task.epoch offset])

/-- A task goes on after its wait. -/
def State.wake (state : State P) (id : ℕ) (task : BatchTask P) (wake : Wake) :
    State P × List (Event P) :=
  match task.point, task.records, wake with
  | .created, records, .resumed => state.goOn id task records false
  | .sleeping admitted, records, .resumed => state.goOn id task records admitted
  | .admitting, offset :: rest, .returned =>
    let (next, events) := state.goOn id task (offset :: rest) true
    (next, .admitted task.partition task.epoch offset :: events)
  | .admitting, records, .failed _ => (state.wait id task records (.sleeping false), [])
  | .committing, offset :: rest, .returned =>
    let broker := { state with
      committed := Function.update state.committed task.partition (offset + 1) }
    let (next, events) := broker.goOn id task rest false
    (next, .committed task.partition task.epoch (offset + 1) :: events)
  | .committing, offset :: rest, .failed applied =>
    let broker :=
      if applied then { state with
        committed := Function.update state.committed task.partition (offset + 1) }
      else state
    (broker.wait id task (offset :: rest) (.sleeping true), [])
  | point, _, .cancelled =>
    if ¬ task.cancelled then (state, [])
    -- A coroutine that never started has no `finally` to run.
    else if point = .created then
      ({ state with running := Function.update state.running id none }, [])
    else (state.finish id task, [])
  | _, _, _ => (state, [])

/-- `on_partitions_assigned` for one partition, with the generation it raised before. -/
def State.assign (state : State P) (partition : P) : State P :=
  { state with
    position := Function.update state.position partition (state.committed partition)
    paused := Function.update state.paused partition false
    epochs := Function.update state.epochs partition (some state.generation) }

/-- A task is told to cancel. -/
def State.cancel (state : State P) (id : ℕ) : State P :=
  { state with
    running := Function.update state.running id
      ((state.running id).map fun task ↦ { task with cancelled := true }) }

/-- `on_partitions_revoked` for one partition. -/
def State.revoke (state : State P) (partition : P) : State P × List (Event P) :=
  let dropped := { state with
    epochs := Function.update state.epochs partition none
    tasks := Function.update state.tasks partition none }
  ((match state.tasks partition with
    | some id => dropped.cancel id
    | none => dropped),
    (state.epochs partition).toList.map (.revoked partition))

/-- One round of the loop of `run` over the batches that `getmany` returned. -/
def State.take (state : State P) (batch : P × ℕ) : State P × List (Event P) :=
  let (partition, count) := batch
  if state.paused partition then (state, [])
  else
    let records := List.range' (state.position partition) count
    let fetched := { state with
      position := Function.update state.position partition (state.position partition + count) }
    match state.epochs partition with
    | none => (fetched, [])
    | some epoch =>
      if records = [] then (fetched, [])
      else
        ({ fetched with
            paused := Function.update state.paused partition true
            tasks := Function.update state.tasks partition (some state.created)
            running := Function.update state.running state.created
              (some ⟨partition, records, epoch, .created, false⟩)
            created := state.created + 1 },
          records.map (.delivered partition epoch))


/-- One step. -/
def step (state : State P) : Input P → State P × List (Event P)
  | .assigned partitions =>
    (partitions.foldl State.assign { state with generation := state.generation + 1 }, [])
  | .revoked partitions => runFrom State.revoke state partitions
  | .fetched batches => runFrom State.take state batches
  | .woken id wake =>
    match state.running id with
    | some task => state.wake id task wake
    | none => (state, [])
  | .elsewhere partition offset =>
    ({ state with committed := Function.update state.committed partition offset }, [])

/-- A fresh `DurableAdmission` on a consumer without partitions. -/
def start (position committed : P → ℕ) : State P where
  position
  paused := fun _ ↦ false
  committed
  epochs := fun _ ↦ none
  generation := 0
  tasks := fun _ ↦ none
  running := fun _ ↦ none
  created := 0

/-! ### What a run may show -/

/-- The assignment an event belongs to. -/
def Event.assignment : Event P → P × ℕ
  | .delivered partition epoch _ | .admission partition epoch _ | .admitted partition epoch _
  | .commit partition epoch _ | .committed partition epoch _ | .revoked partition epoch =>
    (partition, epoch)

/-- The record is admitted and its commit has returned. -/
def Settled (trace : List (Event P)) (partition : P) (epoch offset : ℕ) : Prop :=
  .admitted partition epoch offset ∈ trace ∧ .committed partition epoch (offset + 1) ∈ trace

/-- It is the turn of a record: what was delivered before it in its assignment is settled, and
neither the record nor a later one was admitted. -/
def Turn (trace : List (Event P)) (partition : P) (epoch offset : ℕ) : Prop :=
  (∀ earlier < offset, .delivered partition epoch earlier ∈ trace →
    Settled trace partition epoch earlier) ∧
  ∀ other, .admitted partition epoch other ∈ trace → other < offset

/-- What an event may follow. -/
def Event.Allowed (before : List (Event P)) : Event P → Prop
  | .admission partition epoch offset | .admitted partition epoch offset =>
    Turn before partition epoch offset
  | .commit partition epoch next =>
    .revoked partition epoch ∉ before ∧ ∃ offset, next = offset + 1 ∧
      ∀ earlier ≤ offset, .delivered partition epoch earlier ∈ before →
        .admitted partition epoch earlier ∈ before
  | .committed partition epoch next => .commit partition epoch next ∈ before
  | .delivered _ _ _ | .revoked _ _ => True

/-- Every event of a trace may follow the ones before it. -/
def Lawful (trace : List (Event P)) : Prop :=
  ∀ before event after, trace = before ++ event :: after → event.Allowed before

omit [DecidableEq P] in
/-- One more event. -/
theorem Lawful.snoc {trace : List (Event P)} {event : Event P} (htrace : Lawful trace)
    (hevent : event.Allowed trace) : Lawful (trace ++ [event]) := by
  intro before other after hsplit
  rcases List.eq_nil_or_concat after with rfl | ⟨rest, last, rfl⟩
  · obtain ⟨rfl, hlast⟩ := List.append_inj' hsplit rfl
    obtain rfl : event = other := by simpa using hlast
    exact hevent
  · rw [List.concat_eq_append, ← List.cons_append, ← List.append_assoc] at hsplit
    exact htrace before other rest (List.append_inj' hsplit rfl).1

omit [DecidableEq P] in
/-- Deliveries and revocations may follow everything. -/
theorem Lawful.append {trace events : List (Event P)} (htrace : Lawful trace)
    (hevents : ∀ event ∈ events, ∀ before, event.Allowed before) : Lawful (trace ++ events) := by
  induction events generalizing trace with
  | nil => rwa [List.append_nil]
  | cons event rest ih =>
    rw [List.append_cons]
    exact ih (htrace.snoc (hevents event List.mem_cons_self trace))
      fun other hother ↦ hevents other (List.mem_cons_of_mem _ hother)

end Ads.ManagerKafka.Admission
