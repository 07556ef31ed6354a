import Ads.SandboxIpc.Service
import Ads.SandboxManager.Sessions

/-!
# Requests in transit

`TransitService` on one manager holds the requests that it is to forward. What runs between two
awaits is one step: a message that is accepted, a request task that starts or goes on with what it
waited for, the transaction of a row that commits, and a change of the sessions by others. A request
is known by the number of requests before it, which stands for its `VerifiedExec` and its task.

A timeout may end any wait of a task, so that clocks only tell whether a service is over. A worker
that provisions a session has any outcome for each task that waits for it. What `accept` forwards of
an abort or a reset reads no map, and `stop` ends the service; they are left out.
-/

set_option autoImplicit false
set_option relaxedAutoImplicit false

namespace Ads.SandboxManager.Transit

open Python
open SandboxIpc (Inbound Request Result errorResult)

/-- `VerifiedExec`. -/
structure VerifiedExec where
  sessionId : Uuid
  message : Inbound
  subject : Text
  token : Text

/-- A `VerifiedExec` with a request for its session. -/
structure HeldRequest where
  request : Request
  subject : Text
  token : Text

/-- What `_request` waits for. -/
inductive Stage
  /-- Its task, to start. -/
  | created
  /-- `_row`, before its transaction. -/
  | reading
  /-- `_row`, after its transaction. -/
  | read (row : Option SandboxSession)
  /-- `service_expired`. -/
  | expiring
  /-- `sleep`. -/
  | sleeping
  /-- `admit`, before its transaction. -/
  | admitting
  /-- `admit`, after its transaction. -/
  | admitted (row : Option SandboxSession)
  /-- The token of the request. -/
  | minting (sandboxId : Uuid)
  /-- The worker of the session. -/
  | provisioning
  /-- The token of the failure. -/
  | failing
  /-- Nothing: its task is done. -/
  | ended

/-- A task that runs `_request`. -/
structure RequestTask where
  incoming : HeldRequest
  stage : Stage

/-- The execution of a request task. -/
abbrev RequestTask.executionId (task : RequestTask) : Uuid :=
  task.incoming.request.executionId

/-- The service, with the sessions and the tasks so far. -/
structure TransitState where
  db : Database
  /-- The number of requests so far. -/
  next : ℕ
  tasks : ℕ → Option RequestTask
  /-- `_pending`. -/
  pending : Uuid → Option ℕ
  /-- `_requests`. -/
  requests : Uuid → Option ℕ

/-- The service before its first message. -/
def TransitState.initial (db : Database) : TransitState :=
  ⟨db, 0, fun _ ↦ none, fun _ ↦ none, fun _ ↦ none⟩

/-- What a step does. -/
inductive TransitEffect
  /-- A request is held. -/
  | held (id : ℕ) (incoming : HeldRequest)
  /-- An abort or a reset is accepted. -/
  | asked (incoming : VerifiedExec)
  /-- `admit` commits for a request, and returns the row. -/
  | admitted (id : ℕ) (row : SandboxSession)
  /-- A request is sent to a sandbox. -/
  | forwarded (id : ℕ) (sandboxId : Uuid) (request : Request)
  /-- A failure is sent for a request. -/
  | failed (id : ℕ) (failure : Result)
  /-- The task of a request is done. -/
  | ended (id : ℕ)

/-- What happens next. -/
inductive TransitInput
  /-- Others change the sessions. -/
  | change (db : Database)
  /-- A message is accepted. -/
  | accept (incoming : VerifiedExec)
  /-- A task starts. -/
  | start (id : ℕ)
  /-- The transaction that a task waits for commits. -/
  | commit (id : ℕ) (now : Time)
  /-- What a task waits for is there. -/
  | resume (id : ℕ) (now : Time)
  /-- A token is minted, or refused, and the broker takes the message, or refuses it. -/
  | minted (id : ℕ) (hasToken isSent : Bool)
  /-- What a task waits for fails, or a timeout ends the wait. -/
  | raise (id : ℕ)
  /-- The worker that a task waits for is cancelled. -/
  | cancel (id : ℕ)

/-- The state and the effects of a part of a step. -/
abbrev Moved :=
  TransitState × List TransitEffect

namespace TransitState

variable (state : TransitState)

/-- `_pending` holds the request of a task. -/
def Holds (id : ℕ) (task : RequestTask) : Prop :=
  state.pending task.executionId = some id

instance (id : ℕ) (task : RequestTask) : Decidable (state.Holds id task) :=
  inferInstanceAs (Decidable (_ = _))

/-- A task waits for something else. -/
def goto (id : ℕ) (task : RequestTask) (stage : Stage) : TransitState :=
  { state with tasks := Function.update state.tasks id (some { task with stage := stage }) }

/-- The `finally` of `_request`. -/
def finish (id : ℕ) (task : RequestTask) : Moved :=
  let pending :=
    if state.Holds id task then Function.update state.pending task.executionId none
    else state.pending
  let requests :=
    if state.requests task.executionId = some id then
      Function.update state.requests task.executionId none
    else state.requests
  ({ state.goto id task .ended with pending := pending, requests := requests }, [.ended id])

/-- The `except` of `_request`. -/
def raised (id : ℕ) (task : RequestTask) : Moved :=
  if state.Holds id task then (state.goto id task .failing, []) else state.finish id task

/-- The head of the loop of `_request`. -/
def loopHead (id : ℕ) (task : RequestTask) : Moved :=
  if state.Holds id task then (state.goto id task .reading, []) else state.finish id task

/-- The loop of `_request`, once it has its row. -/
def rowRead (id : ℕ) (task : RequestTask) (now : Time) (row : Option SandboxSession) : Moved :=
  let provision : Moved :=
    if state.Holds id task then (state.goto id task .provisioning, []) else state.finish id task
  match row with
  | none => provision
  | some row =>
    match row.status with
    | .service =>
      match row.serviceDeadline with
      | none => state.raised id task
      | some deadline =>
        if deadline - now ≤ 0 then (state.goto id task .expiring, [])
        else (state.goto id task .sleeping, [])
    | .ready => (state.goto id task .admitting, [])
    | .stopped => provision
    | .pending | .creating | .shuttingDown | .failed | .recovering =>
      (state.goto id task .sleeping, [])

/-- The loop of `_request`, once it has what `admit` returned. -/
def rowAdmitted (id : ℕ) (task : RequestTask) : Option SandboxSession → Moved
  | none => state.loopHead id task
  | some row =>
    if state.Holds id task then (state.goto id task (.minting row.sandboxId), [])
    else state.finish id task

/-- `accept`. -/
def accept (incoming : VerifiedExec) : Moved :=
  if incoming.sessionId ≠ incoming.message.control.sessionId then (state, [])
  else
    match incoming.message with
    | .request request =>
      match state.pending request.executionId with
      | some _ => (state, [])
      | none =>
        let id := state.next
        let held : HeldRequest := ⟨request, incoming.subject, incoming.token⟩
        ({ state with
            next := id + 1
            tasks := Function.update state.tasks id (some ⟨held, .created⟩)
            pending := Function.update state.pending request.executionId (some id)
            requests := Function.update state.requests request.executionId (some id) },
          [.held id held])
    | .abort control | .ackReset control =>
      match (state.pending control.executionId).bind state.tasks with
      | some ⟨held, _⟩ =>
        if held.request.sessionId = control.sessionId ∧ held.request.messageId = control.messageId ∧
            held.subject = incoming.subject then
          ({ state with pending := Function.update state.pending control.executionId none },
            [.asked incoming])
        else (state, [.asked incoming])
      | none => (state, [.asked incoming])
    | .ackReply _ => (state, [])

/-- A transaction commits. -/
def commit (id : ℕ) (task : RequestTask) (now : Time) : Moved :=
  match task.stage with
  | .reading =>
    (state.goto id task (.read (state.db.sessions.find task.incoming.request.sessionId)), [])
  | .admitting =>
    let (row, db) := admitSession state.db task.incoming.request.sessionId now
    ({ state.goto id task (.admitted row) with db := db },
      row.toList.map (TransitEffect.admitted id))
  | _ => (state, [])

/-- A task goes on. -/
def resume (id : ℕ) (task : RequestTask) (now : Time) : Moved :=
  match task.stage with
  | .read row => state.rowRead id task now row
  | .expiring => state.raised id task
  | .sleeping | .provisioning => state.loopHead id task
  | .admitted row => state.rowAdmitted id task row
  | _ => (state, [])

/-- The failure that `_request` sends. -/
def failure (task : RequestTask) : Result :=
  errorResult task.executionId "sandbox preparation unavailable".toList

/-- A task that sends has the answer to its wish for a token. -/
def minted (id : ℕ) (task : RequestTask) (hasToken isSent : Bool) : Moved :=
  match task.stage with
  | .minting sandboxId =>
    if hasToken = false then state.raised id task
    else if ¬ state.Holds id task then state.finish id task
    else if isSent then
      let (after, effects) := state.finish id task
      (after, .forwarded id sandboxId task.incoming.request :: effects)
    else state.raised id task
  | .failing =>
    if hasToken = true ∧ state.Holds id task ∧ isSent = true then
      let (after, effects) := state.finish id task
      (after, .failed id (failure task) :: effects)
    else state.finish id task
  | _ => (state, [])

/-- The wait of a task fails. -/
def raise (id : ℕ) (task : RequestTask) : Moved :=
  match task.stage with
  | .created | .ended => (state, [])
  | .failing => state.finish id task
  | _ => state.raised id task

/-- The worker that a task waits for is cancelled. -/
def cancel (id : ℕ) (task : RequestTask) : Moved :=
  match task.stage with
  | .provisioning => state.finish id task
  | _ => (state, [])

/-- A task starts. -/
def start (id : ℕ) (task : RequestTask) : Moved :=
  match task.stage with
  | .created => state.loopHead id task
  | _ => (state, [])

/-- A step of a task, if there is such a task. -/
def onTask (id : ℕ) (action : RequestTask → Moved) : Moved :=
  match state.tasks id with
  | some task => action task
  | none => (state, [])

end TransitState

/-- One step. -/
def step (state : TransitState) : TransitInput → Moved
  | .change db => ({ state with db := db }, [])
  | .accept incoming => state.accept incoming
  | .start id => state.onTask id (state.start id)
  | .commit id now => state.onTask id (state.commit id · now)
  | .resume id now => state.onTask id (state.resume id · now)
  | .minted id hasToken isSent => state.onTask id (state.minted id · hasToken isSent)
  | .raise id => state.onTask id (state.raise id)
  | .cancel id => state.onTask id (state.cancel id)

end Ads.SandboxManager.Transit
