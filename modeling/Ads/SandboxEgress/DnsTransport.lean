import Mathlib.Data.Finset.Card
import Mathlib.Data.Finset.Lattice.Basic
import Mathlib.Logic.Function.Basic
import Ads.Foundation.Leases

/-!
# The DNS transport

The admission of queries by `DNSTransport` and the tasks that serve them. What runs between two
awaits is one step: a datagram or a frame that arrives, a connection that is accepted, starts, ends
its loop or has gathered its queries, a query task that enters or leaves the executing slots or is
done, a callback of a task that is done, and the two ends of `close`. A cancellation is no step of
its own: it only makes a task be done, or a connection leave its loop, at a time at which it may do
so anyway. A step that cannot be taken changes nothing.
-/

set_option autoImplicit false
set_option relaxedAutoImplicit false

namespace Ads.SandboxEgress.DnsTransport

open Foundation.Leases

/-- `DNSLimits`, as far as queries are counted. -/
structure DnsLimits where
  accepted : ℕ
  executing : ℕ
  connections : ℕ
  outstanding : ℕ
  executing_le : 1 ≤ executing ∧ executing ≤ accepted ∧ accepted ≤ 1024
  connections_le : 1 ≤ connections ∧ connections ≤ 128
  outstanding_le : 1 ≤ outstanding ∧ outstanding ≤ 128

/-- What the counters of the transport count. -/
inductive Counted
  | query
  | connection
deriving DecidableEq

/-- A query that a connection waits for. -/
structure PendingQuery where
  id : ℕ
  task : ℕ
deriving DecidableEq

/-- What a task runs. -/
inductive Work
  /-- `_udp_query`. -/
  | datagram
  /-- `process` of a connection, for the query with this identifier. -/
  | process (connection id : ℕ)
  /-- `_tcp_connection`, before it has started. -/
  | starting
  /-- `_tcp_connection` in its loop. -/
  | reading
  /-- `_tcp_connection` that gathers the queries that were pending when it left its loop. -/
  | draining (queries : List PendingQuery)
  /-- `_tcp_connection` with nothing left to count. -/
  | leaving
deriving DecidableEq

/-- The state of the transport and of the event loop. A task is known by the number of tasks before
it, and a connection by its task. -/
structure DnsState where
  /-- The number of tasks so far. -/
  next : ℕ
  /-- `_closed`. -/
  closed : Bool
  /-- `_accepted`. -/
  accepted : ℤ
  /-- `_connections`. -/
  connections : ℤ
  /-- `_tasks`, where what a task counts for stands for the callback that gives it back. -/
  tasks : ℕ → Option Counted
  /-- `pending` of each connection. -/
  pending : ℕ → List PendingQuery
  /-- The connections that have `failed`. -/
  failed : ℕ → Bool
  /-- What the tasks run. -/
  work : ℕ → Option Work
  /-- The tasks that are done. -/
  done : ℕ → Bool
  /-- The tasks whose callback is due. -/
  due : ℕ → Bool
  /-- The tasks that hold one of `_slots`. -/
  executing : Finset ℕ
  /-- What each running `close` gathers. -/
  closings : List (List ℕ)

/-- A transport before its first query. -/
def DnsState.initial : DnsState where
  next := 0
  closed := false
  accepted := 0
  connections := 0
  tasks _ := none
  pending _ := []
  failed _ := false
  work _ := none
  done _ := false
  due _ := false
  executing := ∅
  closings := []

/-- An admission or a connection begins to count, or is given back. -/
abbrev DnsEffect :=
  Lease Counted ℕ

/-- What happens next. -/
inductive DnsInput
  /-- A datagram arrives, with a query that is supported or not. -/
  | datagram (isSupported : Bool)
  /-- A client connects. -/
  | connect
  /-- The task of a connection starts. -/
  | start (connection : ℕ)
  /-- A frame arrives on a connection, with the identifier of its query if it is supported. -/
  | frame (connection : ℕ) (id : Option ℕ)
  /-- A connection ends its loop: the client disconnects, a deadline passes, or it is cancelled. -/
  | leave (connection : ℕ)
  /-- A query task gets a slot. -/
  | enter (task : ℕ)
  /-- A query task gives its slot back. -/
  | exit (task : ℕ)
  /-- A task is done, with an answer, with a failure that resets its connection, or cancelled. -/
  | finish (task : ℕ) (hasFailed : Bool)
  /-- The callback of a task that is done is called. -/
  | callback (task : ℕ)
  /-- All queries that a connection gathers are done. -/
  | drained (connection : ℕ)
  /-- `close` is called. -/
  | close
  /-- All tasks that a call of `close` gathers are done. -/
  | closed (gathered : List ℕ)

/-- The state and the effects of a part of a step. -/
abbrev Moved :=
  DnsState × List DnsEffect

/-- `create_task`. -/
def DnsState.create (state : DnsState) (work : Work) : DnsState :=
  { state with next := state.next + 1, work := Function.update state.work state.next (some work) }

/-- `_admit` is refused. -/
def DnsState.IsRefused (limits : DnsLimits) (state : DnsState) : Prop :=
  state.closed = true ∨ (limits.accepted : ℤ) ≤ state.accepted

instance (limits : DnsLimits) (state : DnsState) : Decidable (state.IsRefused limits) :=
  inferInstanceAs (Decidable (_ ∨ _))

/-- `datagram_received`. -/
def datagramReceived (limits : DnsLimits) (state : DnsState) (isSupported : Bool) : Moved :=
  if isSupported = false ∨ state.IsRefused limits then (state, [])
  else
    let task := state.next
    let state := { state with accepted := state.accepted + 1 }
    let state := state.create .datagram
    ({ state with tasks := Function.update state.tasks task (some .query) },
      [.acquired .query task])

/-- `tcp`. -/
def tcp (limits : DnsLimits) (state : DnsState) : Moved :=
  if state.closed = true ∨ (limits.connections : ℤ) ≤ state.connections then (state, [])
  else
    let task := state.next
    let state := { state with connections := state.connections + 1 }
    let state := state.create .starting
    ({ state with tasks := Function.update state.tasks task (some .connection) },
      [.acquired .connection task])

/-- A connection stands at another point of its task. -/
def DnsState.move (state : DnsState) (connection : ℕ) (work : Work) : DnsState :=
  { state with work := Function.update state.work connection (some work) }

/-- The end of the loop of `_tcp_connection`, up to its `gather`. -/
def leaveLoop (state : DnsState) (connection : ℕ) : DnsState :=
  state.move connection (.draining (state.pending connection))

/-- The head of the loop of `_tcp_connection`. -/
def loopHead (state : DnsState) (connection : ℕ) : DnsState :=
  if state.failed connection = false ∧ state.closed = false then
    state.move connection .reading
  else leaveLoop state connection

/-- A frame in the loop of `_tcp_connection`. -/
def frameReceived (limits : DnsLimits) (state : DnsState) (connection : ℕ) : Option ℕ → Moved
  | none => (leaveLoop state connection, [])
  | some id =>
    if (state.pending connection).any (·.id == id) ∨
        limits.outstanding ≤ (state.pending connection).length ∨ state.IsRefused limits then
      (leaveLoop state connection, [])
    else
      let task := state.next
      let state := { state with accepted := state.accepted + 1 }
      let state := state.create (.process connection id)
      let state := { state with
        pending := Function.update state.pending connection
          (state.pending connection ++ [⟨id, task⟩]) }
      (loopHead state connection, [.acquired .query task])

/-- `_completed`, which gives back what the task counts for, once. -/
def completed (state : DnsState) (task : ℕ) : Moved :=
  match state.tasks task with
  | none => (state, [])
  | some counted =>
    let state := { state with tasks := Function.update state.tasks task none }
    match counted with
    | .query => ({ state with accepted := state.accepted - 1 }, [.released .query task])
    | .connection =>
      ({ state with connections := state.connections - 1 }, [.released .connection task])

/-- `complete` of a connection, which gives back a query that is still pending. -/
def complete (state : DnsState) (connection : ℕ) (query : PendingQuery) : Moved :=
  if (state.pending connection).find? (·.id == query.id) = some query then
    ({ state with
        accepted := state.accepted - 1
        pending := Function.update state.pending connection
          ((state.pending connection).filter (·.id != query.id)) },
      [.released .query query.task])
  else (state, [])

/-- The same for some items, one after the other. -/
def each {α : Type} (action : DnsState → α → Moved) : DnsState → List α → Moved
  | state, [] => (state, [])
  | state, item :: items =>
    let (next, effects) := action state item
    let (last, later) := each action next items
    (last, effects ++ later)

/-- A task is done: it holds no slot, and its callback is due. -/
def DnsState.finished (state : DnsState) (task : ℕ) : DnsState :=
  { state with
    done := Function.update state.done task true
    due := Function.update state.due task true
    executing := state.executing.erase task }

/-- A task that runs what may be done now: a query, or a connection that has not started, gathers or
has nothing left to count. -/
def finishTask (state : DnsState) (task : ℕ) (hasFailed : Bool) : DnsState :=
  if state.done task = true then state
  else
    match state.work task with
    | some (.process connection _) =>
      let state := state.finished task
      if hasFailed then
        { state with failed := Function.update state.failed connection true }
      else state
    | some .datagram | some .starting | some (.draining _) | some .leaving => state.finished task
    | some .reading | none => state

/-- The callback of a task that is done. -/
def callbackOf (state : DnsState) (task : ℕ) : Moved :=
  if state.due task = true then
    let state := { state with due := Function.update state.due task false }
    match state.work task with
    | some (.process connection id) => complete state connection ⟨id, task⟩
    | _ => completed state task
  else (state, [])

/-- A task that runs a query. -/
def Work.isQuery : Work → Bool
  | .datagram | .process _ _ => true
  | _ => false

/-- One step. -/
def step (limits : DnsLimits) (state : DnsState) : DnsInput → Moved
  | .datagram isSupported => datagramReceived limits state isSupported
  | .connect => tcp limits state
  | .start connection =>
    if state.work connection = some .starting ∧ state.done connection = false then
      (loopHead state connection, [])
    else (state, [])
  | .frame connection id =>
    if state.work connection = some .reading then frameReceived limits state connection id
    else (state, [])
  | .leave connection =>
    if state.work connection = some .reading then (leaveLoop state connection, []) else (state, [])
  | .enter task =>
    if (state.work task).any Work.isQuery ∧ state.done task = false ∧
        state.executing.card < limits.executing then
      ({ state with executing := insert task state.executing }, [])
    else (state, [])
  | .exit task => ({ state with executing := state.executing.erase task }, [])
  | .finish task hasFailed => (finishTask state task hasFailed, [])
  | .callback task => callbackOf state task
  | .drained connection =>
    match state.work connection with
    | some (.draining queries) =>
      if state.done connection = false ∧ ∀ query ∈ queries, state.done query.task = true then
        each (complete · connection) (state.move connection .leaving) queries
      else (state, [])
    | _ => (state, [])
  | .close =>
    ({ state with
        closed := true
        closings := ((List.range state.next).filter fun task ↦ (state.tasks task).isSome) ::
          state.closings }, [])
  | .closed gathered =>
    if gathered ∈ state.closings ∧ ∀ task ∈ gathered, state.done task = true then
      each completed { state with closings := state.closings.erase gathered } gathered
    else (state, [])

end Ads.SandboxEgress.DnsTransport
