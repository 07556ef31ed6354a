import Ads.Python.Values

/-!
# The IPC service of a sandbox

`IpcService` keeps one current unit and one terminal slot. A request makes a waiting unit, the reply
to its acknowledgement lets it execute, and what ended last stays in the terminal slot.

The lock of the service makes each of its sections one step; what an `await` outside the lock
separates is separate steps. A step carries what it meets: the time, whether its messages could be
published, and what the guest returned. Its effects are the messages that it tried to publish and
the calls of `guest.execute`. Pings and the readiness of the guest have no part in the state.
-/

set_option autoImplicit false
set_option relaxedAutoImplicit false

namespace Ads.SandboxIpc

open Python

/-! ### Messages -/

/-- `SandboxExecKind`. -/
inductive ExecKind where
  | shell
  | python
  deriving DecidableEq

/-- `SandboxRequest`. -/
structure Request where
  executionId : Uuid
  sessionId : Uuid
  messageId : Uuid
  kind : ExecKind
  payload : Text
  deriving DecidableEq

/-- The tuple that every control carries. -/
structure Control where
  executionId : Uuid
  sessionId : Uuid
  messageId : Uuid
  deriving DecidableEq

/-- `SandboxExecInbound`. -/
inductive Inbound where
  | request (request : Request)
  | ackReply (control : Control)
  | ackReset (control : Control)
  | abort (control : Control)
  deriving DecidableEq

/-- The tuple of a request. -/
def Request.control (request : Request) : Control :=
  ⟨request.executionId, request.sessionId, request.messageId⟩

/-- The tuple of a message. -/
def Inbound.control : Inbound → Control
  | .request sent => sent.control
  | .ackReply tuple => tuple
  | .ackReset tuple => tuple
  | .abort tuple => tuple

/-- What `guest.execute` returns for a request. -/
structure Output where
  exitCode : ℤ
  stdout : Text
  stderr : Text
  truncated : Bool
  durationMs : ℤ
  isError : Bool
  text : Text
  deriving DecidableEq

/-- `SandboxResult`. -/
structure Result extends Output where
  executionId : Uuid
  deriving DecidableEq

/-- The result of a request that did not run. -/
def errorResult (executionId : Uuid) (text : Text) : Result where
  executionId := executionId
  exitCode := -1
  stdout := []
  stderr := []
  truncated := false
  durationMs := 0
  isError := true
  text := text

/-- The messages that the service publishes. -/
inductive Outbound where
  | acknowledge (control : Control)
  | result (result : Result)
  | ready
  | shutdownAck (transition : Option ℤ)
  deriving DecidableEq

/-- `VerifiedMessage`. Its expiry is only logged. -/
structure VerifiedMessage where
  message : Inbound
  subject : Text
  token : Text

/-- The settings that the service reads. -/
structure Settings where
  ackSeconds : ℚ
  inputBytes : ℕ

/-! ### The state -/

/-- `Unit`: a request that waits for the reply to its acknowledgement, or executes. -/
structure CurrentUnit where
  request : Request
  subject : Text
  token : Text
  deadline : ℚ
  abort : Bool
  executing : Bool

/-- The state of `IpcService`, with the tasks that execute units and the calls of `shutdown` that
wait. -/
structure Service where
  starting : Bool
  kafkaReady : Bool
  failed : Bool
  stopping : Bool
  current : Option CurrentUnit
  lastId : Option Uuid
  lastSessionId : Option Uuid
  lastMessageId : Option Uuid
  lastSubject : Option Text
  lastResult : Option Result
  lastToken : Option Text
  resultDelivered : Bool
  scheduled : List CurrentUnit
  running : List CurrentUnit
  closing : List (Text × Option ℤ)
  draining : ℕ
  shutdowns : List (Text × Option ℤ)

/-- `IpcService.__init__` and `start`. -/
def Service.initial : Service where
  starting := true
  kafkaReady := false
  failed := false
  stopping := false
  current := none
  lastId := none
  lastSessionId := none
  lastMessageId := none
  lastSubject := none
  lastResult := none
  lastToken := none
  resultDelivered := true
  scheduled := []
  running := []
  closing := []
  draining := 0
  shutdowns := []

/-- What a step does outside the service. -/
inductive Effect where
  | publish (message : Outbound) (token : Option Text) (published : Bool)
  | execute (request : Request)
  deriving DecidableEq

namespace Service

variable (service : Service)

/-- `_remember`. -/
def remember (unit : CurrentUnit) (result : Option Result) : Service :=
  { service with
    lastId := some unit.request.executionId
    lastSessionId := some unit.request.sessionId
    lastMessageId := some unit.request.messageId
    lastSubject := some unit.subject
    lastResult := result
    lastToken := if result.isSome then some unit.token else none
    resultDelivered := result.isNone }

/-- `_drop_waiter`. -/
def dropWaiter (unit : CurrentUnit) : Service :=
  { service.remember unit none with current := none }

/-! ### Messages of the handshake -/

/-- A message of the tuple in the terminal slot that its result answers. -/
def isReplay (delivery : VerifiedMessage) : Bool :=
  match delivery.message with
  | .request _ | .ackReply _ =>
    service.lastSubject = some delivery.subject ∧
      service.lastSessionId = some delivery.message.control.sessionId ∧
      service.lastMessageId = some delivery.message.control.messageId
  | _ => false

/-- A message for the execution in the terminal slot. -/
def replay (delivery : VerifiedMessage) (published : Bool) : Service × List Effect :=
  match service.lastResult with
  | none => (service, [])
  | some result =>
    if service.isReplay delivery then
      ({ service with resultDelivered := service.resultDelivered || published },
        [.publish (.result result) service.lastToken published])
    else (service, [])

/-- A request while no unit is current. -/
def acceptUnit (settings : Settings) (request : Request) (delivery : VerifiedMessage) (now : ℚ)
    (published : Bool) : Service × List Effect :=
  let unit : CurrentUnit :=
    { request := request
      subject := delivery.subject
      token := delivery.token
      deadline := now + settings.ackSeconds
      abort := false
      executing := false }
  if settings.inputBytes < (encodeUtf8 request.payload).length then
    let result := errorResult request.executionId "input limit exceeded".toList
    ({ service.remember unit (some result) with resultDelivered := published },
      [.publish (.result result) (some delivery.token) published])
  else if published then
    ({ service with current := some unit },
      [.publish (.acknowledge request.control) (some delivery.token) published])
  else
    ({ service.remember unit none with current := none },
      [.publish (.acknowledge request.control) (some delivery.token) published])

/-- A request. -/
def acceptRequest (settings : Settings) (request : Request) (delivery : VerifiedMessage) (now : ℚ)
    (published : Bool) : Service × List Effect :=
  match service.current with
  | none => service.acceptUnit settings request delivery now published
  | some unit =>
    if request = unit.request ∧ unit.executing = false ∧ delivery.subject = unit.subject then
      (service, [.publish (.acknowledge request.control) (some delivery.token) published])
    else (service, [])

/-- The reply to the acknowledgement of the current unit. -/
def acceptReply (unit : CurrentUnit) (delivery : VerifiedMessage) (now : ℚ) : Service :=
  if unit.executing then service
  else if unit.deadline ≤ now then service.dropWaiter unit
  else
    let executing := { unit with token := delivery.token, executing := true }
    { service with current := some executing, scheduled := service.scheduled ++ [executing] }

/-- A control that names the current unit. -/
def acceptControl (unit : CurrentUnit) (delivery : VerifiedMessage) (now : ℚ) : Service :=
  match delivery.message with
  | .abort _ =>
    if unit.executing then { service with current := some { unit with abort := true } }
    else service.dropWaiter unit
  | .ackReset _ => if unit.executing then service else service.dropWaiter unit
  | .ackReply _ => service.acceptReply unit delivery now
  | .request _ => service

/-- `accept`. Once the service is ready, only stopping makes it not ready, so that the check before
the lock and the one under it are one. -/
def accept (settings : Settings) (delivery : VerifiedMessage) (now : ℚ) (published : Bool) :
    Service × List Effect :=
  if service.kafkaReady = false ∨ service.stopping = true ∨ service.failed = true then (service, [])
  else if service.lastId = some delivery.message.control.executionId then
    service.replay delivery published
  else
    match delivery.message with
    | .request request => service.acceptRequest settings request delivery now published
    | _ =>
      match service.current with
      | none => (service, [])
      | some unit =>
        if delivery.message.control = unit.request.control ∧ delivery.subject = unit.subject then
          (service.acceptControl unit delivery now, [])
        else (service, [])

/-! ### Tasks -/

/-- The end of `_startup`. -/
def startup (published : Bool) : Service × List Effect :=
  if service.starting = false then (service, [])
  else if published then
    ({ service with starting := false, kafkaReady := !service.stopping },
      [.publish .ready none published])
  else
    ({ service with starting := false, failed := !service.stopping },
      [.publish .ready none published])

/-- `_ack_timeout` of the current unit. -/
def ackTimeout (now : ℚ) : Service :=
  match service.current with
  | none => service
  | some unit =>
    if unit.executing = false ∧ unit.deadline ≤ now then service.dropWaiter unit else service

/-- `_execute` starts and calls `guest.execute`. -/
def executeUnit : Service × List Effect :=
  match service.scheduled with
  | [] => (service, [])
  | unit :: rest =>
    ({ service with scheduled := rest, running := service.running ++ [unit] },
      [.execute unit.request])

/-- `_finish_shutdown`: so many acknowledgements are published before one fails. -/
def finishShutdown (acks : ℕ) : Service × List Effect :=
  let publish := fun (published : Bool) (shutdown : Text × Option ℤ) ↦
    Effect.publish (.shutdownAck shutdown.2) (some shutdown.1) published
  ({ service with shutdowns := service.shutdowns.drop acks },
    (service.shutdowns.take acks).map (publish true) ++
      ((service.shutdowns.drop acks).head?.map (publish false)).toList)

/-- The rest of `_execute`, once `guest.execute` returned or raised. -/
def executed (output : Option Output) (published : Bool) (acks : ℕ) : Service × List Effect :=
  match service.running with
  | [] => (service, [])
  | unit :: rest =>
    let result : Result :=
      match output with
      | none => errorResult unit.request.executionId "guest execution failed".toList
      | some output => { output with executionId := unit.request.executionId }
    let remembered :=
      { service.remember unit (some result) with current := none, running := rest }
    let sent := Effect.publish (.result result) (some unit.token) published
    if published then
      let (finished, effects) := { remembered with resultDelivered := true }.finishShutdown acks
      (finished, sent :: effects)
    else (remembered, [sent])

/-! ### Shutdown -/

/-- `shutdown` latches before it awaits. -/
def shutdown (token : Text) (transition : Option ℤ) : Service :=
  { service with
    stopping := true
    kafkaReady := false
    closing := service.closing ++ [(token, transition)] }

/-- `shutdown` after the delivery of configurations is closed. -/
def closed : Service :=
  match service.closing with
  | [] => service
  | call :: rest =>
    { service with
      closing := rest
      starting := false
      shutdowns := service.shutdowns ++ [call]
      draining := service.draining + 1 }

/-- The waiting unit is dropped. -/
def dropWaiting : Service :=
  match service.current with
  | none => service
  | some unit => if unit.executing then service else service.dropWaiter unit

/-- A result that could not be published is published before the shutdown is acknowledged. -/
def retryResult (published : Bool) (acks : ℕ) : Service × List Effect :=
  match service.lastResult with
  | none => service.finishShutdown acks
  | some result =>
    if service.resultDelivered then service.finishShutdown acks
    else
      let sent := Effect.publish (.result result) service.lastToken published
      if published then
        let (finished, effects) := { service with resultDelivered := true }.finishShutdown acks
        (finished, sent :: effects)
      else (service, [sent])

/-- The part of `shutdown` under the lock. -/
def drain (published : Bool) (acks : ℕ) : Service × List Effect :=
  if service.draining = 0 then (service, [])
  else
    let dropped := { service with draining := service.draining - 1 }.dropWaiting
    if dropped.current.isSome then (dropped, []) else dropped.retryResult published acks

/-- `stop` until it waits for the tasks. -/
def stop : Service :=
  { service with
    stopping := true
    kafkaReady := false
    starting := false
    current := service.current.map fun unit ↦
      if unit.executing then { unit with abort := true } else unit }

/-- `stop` once its tasks ended. -/
def stopped : Service :=
  if service.stopping = true ∧ service.scheduled = [] ∧ service.running = [] then
    { service with current := none, lastToken := none, shutdowns := [] }
  else service

end Service

/-! ### Runs -/

/-- The steps of the service. -/
inductive Event where
  | startup (published : Bool)
  | accept (delivery : VerifiedMessage) (now : ℚ) (published : Bool)
  | ackTimeout (now : ℚ)
  | executeUnit
  | executed (output : Option Output) (published : Bool) (acks : ℕ)
  | shutdown (token : Text) (transition : Option ℤ)
  | closed
  | drain (published : Bool) (acks : ℕ)
  | stop
  | stopped

/-- One step, with its effects. -/
def step (settings : Settings) (service : Service) : Event → Service × List Effect
  | .startup published => service.startup published
  | .accept delivery now published => service.accept settings delivery now published
  | .ackTimeout now => (service.ackTimeout now, [])
  | .executeUnit => service.executeUnit
  | .executed output published acks => service.executed output published acks
  | .shutdown token transition => (service.shutdown token transition, [])
  | .closed => (service.closed, [])
  | .drain published acks => service.drain published acks
  | .stop => (service.stop, [])
  | .stopped => (service.stopped, [])

/-- The state and the effects after some steps from a state. -/
def runFrom (settings : Settings) (service : Service) : List Event → Service × List Effect
  | [] => (service, [])
  | event :: rest =>
    let (next, effects) := step settings service event
    let (final, later) := runFrom settings next rest
    (final, effects ++ later)

/-- The state and the effects after some steps from the start. -/
def run (settings : Settings) (events : List Event) : Service × List Effect :=
  runFrom settings .initial events

end Ads.SandboxIpc
