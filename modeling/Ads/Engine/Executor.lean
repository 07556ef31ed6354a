import Ads.Engine.Chat

/-!
# The executor

`ExecutorChatStreamer` of the engine. A run of a request goes through rounds of a boundary, where the
context may be compacted, a step of the model with the calls that it makes, and a boundary again,
until a step of the model makes no call. After a compaction or a recall failed in a run that has
started, the run is in completion-only mode: the next step of the model has no tools, and it is the
last.

The meter, the compactor, the model, the recall of memories and the sandbox are the
`ExecutorEnvironment`: arbitrary actions on an arbitrary state of the world, that stays when an
exception is raised. The consumer of the parts may close the run at each of them. The variables of
the run are an `Execution`, with the deeds that only statements about it mention; a run is bounded
by a number of rounds, after which `loop` returns that it is not done.
-/

set_option autoImplicit false
set_option relaxedAutoImplicit false

namespace Ads.Engine.Executor

open Context Context.Recall Foundation.Interrupted Foundation.Interrupted.Program Python

/-! ### Texts -/

/-- `COMPLETE_ONLY_PROMPT`. -/
def completeOnlyPrompt : Text :=
  "\nContext compaction or recall failed. Complete the answer now using available evidence. ".toList ++
  "No further tools are available or permitted, including memory_recall. ".toList ++
  "State any limitations; do not claim unperformed work or invent tool results.".toList

/-- `EMPTY_COMPLETION`. -/
def emptyCompletion : Text :=
  "I cannot continue tool-based work in this turn because context compaction or recall ".toList ++
  "could not complete. No further tools were executed after that failure.".toList

/-! ### Parts -/

/-- `ContextPressure`. -/
structure ContextPressure where
  totalContext : ℤ
  usedContext : ℤ

/-- The `type` of a `CompactionStatus`. -/
inductive CompactionStatus where
  | compactingContext
  | compactedContext

/-- `StreamDelta`. -/
inductive StreamDelta where
  | reasoning (text : Text) (pressure : Option ContextPressure)
  | message (text : Text) (pressure : Option ContextPressure)
  | toolCall (call : ToolCall) (pressure : Option ContextPressure)
  | toolResult (result : ToolResult) (pressure : Option ContextPressure)
  | compaction (status : CompactionStatus) (pressure : Option ContextPressure)
  | tombstone (memory : Tombstone) (pressure : Option ContextPressure)

/-- `CompactionBoundary`. -/
inductive CompactionBoundary where
  | admission
  | continuation
  | finish

/-- A call as the provider of the model has it. -/
structure NativeCall where
  id : Option Text
  name : Text
  args : List (Text × Json)
  extra : List (Text × Json) := []

/-- `tool_call_from_native`. -/
def toolCallFromNative (native : NativeCall) : ToolCall where
  id := native.id.getD []
  name := native.name
  arguments := native.args
  metadata := native.extra

/-- The tools that are bound to the model: those of the sandbox, and `memory_recall`. -/
inductive BoundTool where
  | sandbox
  | memoryRecall

/-- What the model is asked. -/
structure ModelRequest where
  messages : List ProviderMessage
  tools : Option (List BoundTool)

/-- A text that the model streams, as reasoning or as a message. -/
inductive Spoken where
  | reasoning (text : Text)
  | message (text : Text)

/-- The chunks of a stream with the texts of each, the calls of the merged response, and whether the
stream then fails. -/
structure Streamed where
  chunks : List (List Spoken)
  toolCalls : List NativeCall := []
  hasInvalidToolCalls : Bool := false
  failure : Option Failure := none

/-- The merged response. -/
structure Response where
  toolCalls : List NativeCall
  hasInvalidToolCalls : Bool

/-- What the sandbox returns of a call. -/
structure ToolOutcome where
  content : Text
  isError : Bool

/-- The code around the executor. -/
structure ExecutorEnvironment (World : Type) where
  opens : StateM World (Except Failure Unit)
  closes : StateM World (Except Failure Unit)
  count : List HistoryTurn → StateM World (Except Failure ℤ)
  compact : List HistoryTurn → CompactionBoundary → StateM World (Except Failure Tombstone)
  stream : ModelRequest → StateM World Streamed
  recallAnswer : List HistoryTurn → ToolCall → StateM World (Except Failure (Option Text))
  currentCredentials : StateM World (Except Failure Unit)
  callTool : NativeCall → StateM World (Except Failure ToolOutcome)
  accepts : StreamDelta → StateM World Bool
  loads : Text → Option Json
  encoder : JsonEncoder

/-- The settings of the engine, and the model of the request. -/
structure ExecutorSettings where
  maxContextTokens : ℤ
  contextTrigger : ℤ
  maxToolCalls : ℤ

/-- `EngineRequest`. -/
structure EngineRequest where
  history : List HistoryTurn
  userInput : Text
  instructions : Text

/-! ### Executions -/

/-- An exception. -/
inductive Raised where
  /-- `ExecutionFailed`. -/
  | executionFailed (reason : String)
  /-- `CompactionFailed`. -/
  | compactionFailed (reason : String)
  /-- Any other one. -/
  | failed (failure : Failure)

/-- Why a run stops. -/
inductive Halted where
  /-- An exception is raised. -/
  | raised (exception : Raised)
  /-- The consumer closes the run. -/
  | closed

/-- What is done in a run. -/
inductive Deed where
  /-- A part is yielded. -/
  | published (delta : StreamDelta)
  /-- The model has answered a step, in completion-only mode or not, with these calls. -/
  | responded (completeOnly : Bool) (calls : List NativeCall)
  /-- The run is in completion-only mode from now on. -/
  | completeOnly
  /-- A tool of the sandbox is invoked. -/
  | tool (call : NativeCall)
  /-- A memory is recalled. -/
  | recalled (call : ToolCall)

/-- `SandboxTools`. Its `_busy` is false between calls, and the executor waits for each. -/
structure SandboxTools where
  remaining : ℤ
  pending : List NativeCall := []
  seen : List Text := []

/-- The variables of a run. -/
structure Execution (World : Type) where
  world : World
  tools : SandboxTools
  text : Text := []
  emitted : Bool := false
  dispatched : Bool := false
  meterUnavailable : Bool := false
  admissionFailure : Option String := none
  deeds : List Deed := []

/-- `ExecutionState`. -/
structure ExecutionState where
  active : List HistoryTurn
  done : Bool := false
  started : Bool := false
  completeOnly : Bool := false

section Scripts

variable {World : Type}

/-- A part of a run. -/
abbrev Script (World α : Type) : Type :=
  Program (Execution World) Halted α

/-- An action on the world. -/
def await {α : Type} (action : StateM World α) : Script World α := fun execution ↦
  let (value, world) := action execution.world
  (.ok value, { execution with world })

/-- A change of the variables. -/
def assign (change : Execution World → Execution World) : Script World Unit := fun execution ↦
  (.ok (), change execution)

/-- Something is done. -/
def note (deed : Deed) : Script World Unit :=
  assign fun execution ↦ { execution with deeds := execution.deeds ++ [deed] }

/-- An exception is raised. -/
def raise {α : Type} (exception : Raised) : Script World α :=
  throw (.raised exception)

/-- An action on the world that may raise. -/
def attempt {α : Type} (action : StateM World (Except Failure α)) : Script World α := do
  match ← await action with
  | .ok value => return value
  | .error failure => raise (.failed failure)

/-- `except Exception`. -/
def rescue {α : Type} (body : Script World α) (handler : Raised → Script World α) :
    Script World α :=
  tryCatch body fun halted ↦
    match halted with
    | .raised exception => handler exception
    | .closed => throw .closed

end Scripts

section Executor

variable {World : Type} (environment : ExecutorEnvironment World) (settings : ExecutorSettings)
  (request : EngineRequest)

/-! ### Parts and pressure -/

/-- A part is yielded to the consumer. -/
def publish (delta : StreamDelta) : Script World Unit := do
  note (.published delta)
  if ← await (environment.accepts delta) then return () else throw .closed

/-- `writer(delta)` behind `emitted = True`. -/
def emit (delta : StreamDelta) : Script World Unit := do
  assign fun execution ↦ { execution with emitted := true }
  publish environment delta

/-- `EngineContext.measure`. -/
def measureContext (active : List HistoryTurn) : Script World ContextPressure := do
  let used ← attempt (environment.count active)
  if settings.maxContextTokens ≤ 0 ∨ used < 0 then raise (.failed .other)
  else return { totalContext := settings.maxContextTokens, usedContext := used }

/-- `measure`. -/
def measure (active : List HistoryTurn) (completeOnly : Bool) :
    Script World (Option ContextPressure) := do
  if (← get).meterUnavailable then return none
  else
    rescue (do return some (← measureContext environment settings active)) fun exception ↦ do
      if completeOnly then
        assign fun execution ↦ { execution with meterUnavailable := true }
        return none
      else raise exception

/-! ### Boundaries -/

/-- `failure_reason` of any exception. -/
def reasonOf : Raised → String
  | .executionFailed _ => "internal_error"
  | .compactionFailed reason => failureReason (.context reason)
  | .failed failure => failureReason failure

/-- The compaction in `EngineContext.boundary`. -/
def compact (active : List HistoryTurn) (phase : CompactionBoundary) :
    Script World (Tombstone × ContextPressure) :=
  rescue
    (do
      let memory ← attempt (environment.compact active phase)
      return (memory, ← measureContext environment settings (activeContext memory)))
    fun exception ↦ raise (.compactionFailed (reasonOf exception))

/-- `EngineContext.boundary`, with the parts emitted. -/
def contextBoundary (active : List HistoryTurn) (phase : CompactionBoundary) :
    Script World (List HistoryTurn) := do
  let pressure ← measureContext environment settings active
  if pressure.usedContext * 100 < pressure.totalContext * settings.contextTrigger then return active
  else
    emit environment (.compaction .compactingContext (some pressure))
    let (memory, pressure) ← compact environment settings active phase
    emit environment (.compaction .compactedContext (some pressure))
    emit environment (.tombstone memory (some pressure))
    return activeContext memory

/-- The phase of a boundary. -/
def phaseOf (state : ExecutionState) : CompactionBoundary :=
  if state.started = false then .admission else if state.done then .finish else .continuation

/-- What `boundary` does about an exception. -/
def boundaryFailed (state : ExecutionState) : Raised → Script World ExecutionState
  | .compactionFailed reason => do
    if state.started = false then
      assign fun execution ↦ { execution with admissionFailure := some reason }
      raise (.compactionFailed reason)
    else
      note .completeOnly
      return { state with completeOnly := true }
  | exception => raise exception

/-- `boundary`. -/
def boundary (state : ExecutionState) : Script World ExecutionState := do
  if state.completeOnly then return state
  else
    rescue
      (do
        let active ← contextBoundary environment settings state.active (phaseOf state)
        return { state with active })
      (boundaryFailed state)

/-! ### Steps of the model -/

/-- The turn of a text of the assistant, if there is one. -/
def saidTurns (text : Text) : List HistoryTurn :=
  if text = [] then [] else [.message (.assistant text)]

/-- The instructions of a step. -/
def instructionsOf (memoryVisible completeOnly : Bool) (pressure : Option ContextPressure) : Text :=
  request.instructions ++
    (if memoryVisible = true ∧ completeOnly = false then
      "\nVisible memory can be queried with memory_recall.".toList
    else []) ++
    (match pressure with
    | some pressure =>
      "\nADS context budget (estimated model-visible messages; ".toList ++
      "excludes system instructions, tool schemas and provider ".toList ++
      "overhead): total_context_tokens=".toList ++ integerText (some pressure.totalContext) ++
      "; ".toList ++ "remaining_context_tokens=".toList ++
      integerText (some (max 0 (pressure.totalContext - pressure.usedContext))) ++ ".".toList
    | none =>
      "\nADS context budget: ".toList ++ "total_context_tokens=".toList ++
      integerText (some settings.maxContextTokens) ++ "; ".toList ++
      "remaining_context_tokens=unknown (meter unavailable).".toList) ++
    if completeOnly then completeOnlyPrompt else []

/-- A text of a chunk. -/
def speak (active : List HistoryTurn) (completeOnly : Bool) (spoken : Spoken) :
    Script World Unit := do
  match spoken with
  | .reasoning text =>
    let pressure ← measure environment settings (active ++ saidTurns (← get).text) completeOnly
    emit environment (.reasoning text pressure)
  | .message text =>
    assign fun execution ↦ { execution with text := execution.text ++ text }
    let pressure ← measure environment settings (active ++ saidTurns (← get).text) completeOnly
    emit environment (.message text pressure)

/-- An attempt to stream a response. -/
def streamOnce (asked : ModelRequest) (active : List HistoryTurn) (completeOnly : Bool) :
    Script World (Option Response) := do
  let streamed ← await (environment.stream asked)
  streamed.chunks.flatten.forM (speak environment settings active completeOnly)
  match streamed.failure with
  | some failure => raise (.failed failure)
  | none =>
    return if streamed.chunks = [] then none
      else some ⟨streamed.toolCalls, streamed.hasInvalidToolCalls⟩

/-- The attempts, with so many left after this one. The text of an attempt that failed stays. -/
def streamAttempts (asked : ModelRequest) (active : List HistoryTurn) (completeOnly : Bool) :
    ℕ → Script World (Option Response)
  | 0 => streamOnce environment settings asked active completeOnly
  | left + 1 =>
    rescue (streamOnce environment settings asked active completeOnly) fun exception ↦ do
      let execution ← get
      if execution.emitted ∨ execution.dispatched then raise exception
      else streamAttempts asked active completeOnly left

/-- The step in completion-only mode. The calls of the response are ignored. -/
def complete (state : ExecutionState) : Script World ExecutionState := do
  if (← get).text = [] then
    assign fun execution ↦ { execution with text := emptyCompletion }
    let pressure ← measure environment settings
      (state.active ++ [.message (.assistant emptyCompletion)]) true
    publish environment (.message emptyCompletion pressure)
    assign fun execution ↦ { execution with emitted := true }
  let text := (← get).text
  return { state with
    active := state.active ++ [.message (.assistant text)]
    started := true
    done := true }

/-! ### Recalls -/

/-- The identifiers of local calls are not empty and new. -/
def checkLocalIds : List Text → List ToolCall → Script World Unit
  | _, [] => return ()
  | seen, call :: calls =>
    if call.id = [] ∨ call.id ∈ seen then
      raise (.executionFailed "invalid local recall call id")
    else checkLocalIds (call.id :: seen) calls

/-- The local calls are published, each behind the turns before it. -/
def publishLocal : List ToolCall → List HistoryTurn → Script World (List HistoryTurn)
  | [], active => return active
  | call :: calls, active => do
    let active := active ++ [.message (.toolCall call)]
    let pressure ← measureContext environment settings active
    emit environment (.toolCall call (some pressure))
    publishLocal calls active

/-- `recall_top_level`, of which the environment finds the memory and the answer. -/
def recallTopLevel (active : List HistoryTurn) (call : ToolCall) : Script World ToolResult := do
  if call.name ≠ memoryRecall then raise (.failed (.context "unknown_recall_tool"))
  else
    match ← attempt (environment.recallAnswer active call) with
    | some answer => return answerResult call (.string answer) none
    | none => return errorResult call "recall_answer_limit_exceeded"

/-- The result of a local call, and whether the run is in completion-only mode after it. -/
def recallOne (active : List HistoryTurn) (completeOnly : Bool) (call : ToolCall) :
    Script World (ToolResult × Bool) := do
  if completeOnly then return (errorResult call "recall_failed", true)
  else
    note (.recalled call)
    let result ← rescue (recallTopLevel environment active call) fun exception ↦
      return errorResult call (reasonOf exception)
    if result.status = .error then
      note .completeOnly
      return (result, true)
    else return (result, false)

/-- The local calls are served in order. -/
def serveLocal : List ToolCall → List HistoryTurn → Bool → Script World (List HistoryTurn × Bool)
  | [], active, completeOnly => return (active, completeOnly)
  | call :: calls, active, completeOnly => do
    let (result, completeOnly) ← recallOne environment active completeOnly call
    let active := active ++ [.message (.toolResult result)]
    let pressure ← measure environment settings active completeOnly
    publish environment (.toolResult result pressure)
    serveLocal calls active completeOnly

/-- A batch of local calls. -/
def recallBatch (memoryVisible : Bool) (response : Response) (active : List HistoryTurn) :
    Script World (List HistoryTurn × Bool) := do
  if memoryVisible = false ∨ response.toolCalls.any (fun native ↦ native.name ≠ memoryRecall) then
    raise (.executionFailed "invalid local recall batch")
  else
    let calls := response.toolCalls.map toolCallFromNative
    checkLocalIds (callIds active) calls
    let active ← publishLocal environment settings calls active
    serveLocal environment settings calls active false

/-! ### Tools -/

/-- The argument that a tool of the sandbox takes. -/
def argumentOf (name : Text) : Option Text :=
  if name = "exec_shell".toList then some "command".toList
  else if name = "exec_python".toList then some "code".toList
  else none

/-- The arguments of a call are those of a tool of the sandbox. -/
def isSandboxCall (native : NativeCall) : Bool :=
  match argumentOf native.name, native.args with
  | some wanted, [(key, .string text)] => decide (key = wanted ∧ text ≠ [])
  | _, _ => false

/-- The calls are those of the sandbox, each with an identifier of its own. -/
def isAdmissible : List Text → List NativeCall → Bool
  | _, [] => true
  | seen, native :: natives =>
    isSandboxCall native && decide (native.id.getD [] ≠ [] ∧ native.id.getD [] ∉ seen) &&
      isAdmissible (native.id.getD [] :: seen) natives

/-- `admit`. -/
def admitCalls (response : Response) : Script World Unit := do
  let tools := (← get).tools
  if tools.pending.isEmpty = false then raise (.executionFailed "invalid executor invocation")
  else if response.hasInvalidToolCalls ∨ tools.remaining < response.toolCalls.length then
    raise (.executionFailed "invalid tool calls or tool budget exceeded")
  else if isAdmissible tools.seen response.toolCalls = false then
    raise (.executionFailed "invalid native sandbox call")
  else
    assign fun execution ↦
      { execution with tools :=
        { execution.tools with
          pending := response.toolCalls
          seen := execution.tools.seen ++ response.toolCalls.map fun native ↦ native.id.getD [] } }

/-- `SandboxTools.call`. Calls that were admitted have identifiers of their own, so the first pending
one is the same object exactly when it has the same identifier. -/
def callTool (native : NativeCall) : Script World ToolMessage := do
  let pending := (← get).tools.pending
  if (pending.head?.map fun first ↦ first.id.getD []) ≠ some (native.id.getD []) then
    raise (.executionFailed "sandbox dispatch requires an admitted native executor call")
  else
    attempt environment.currentCredentials
    assign fun execution ↦
      { execution with tools :=
        { execution.tools with
          pending := execution.tools.pending.tail
          remaining := execution.tools.remaining - 1 } }
    note (.tool native)
    let outcome ← attempt (environment.callTool native)
    return {
      content := outcome.content
      toolCallId := native.id.getD []
      name := native.name
      status := if outcome.isError then .error else .success }

/-- `tool_result_from_message`. -/
def toolResultFromMessage (message : ToolMessage) : ToolResult where
  toolCallId := message.toolCallId
  name := message.name
  status := message.status
  content := (environment.loads message.content).getD (.string message.content)
  metadata := message.additionalKwargs ++
    (message.artifact.map fun artifact ↦ ("artifact".toList, artifact)).toList

/-- The calls of the sandbox are published and served one after the other. -/
def serveNative : List NativeCall → List HistoryTurn → Script World (List HistoryTurn)
  | [], active => return active
  | native :: natives, active => do
    let call := toolCallFromNative native
    let pressure ← measureContext environment settings (active ++ [.message (.toolCall call)])
    emit environment (.toolCall call (some pressure))
    assign fun execution ↦ { execution with dispatched := true }
    let message ← callTool environment native
    let result := toolResultFromMessage environment message
    let active := active ++ [.message (.toolCall call), .message (.toolResult result)]
    let pressure ← measureContext environment settings active
    publish environment (.toolResult result (some pressure))
    serveNative natives active

/-- A batch of calls of the sandbox, that may be empty. -/
def sandboxBatch (response : Response) (active : List HistoryTurn) :
    Script World (List HistoryTurn × Bool) := do
  admitCalls response
  let active ← serveNative environment settings response.toolCalls active
  return (active, false)

/-! ### Runs -/

/-- The calls of a response, outside of completion-only mode. -/
def act (memoryVisible : Bool) (response : Response) (state : ExecutionState) :
    Script World ExecutionState := do
  if response.hasInvalidToolCalls then raise (.executionFailed "invalid model response")
  else
    let active := state.active ++ saidTurns (← get).text
    let (active, completeOnly) ←
      if response.toolCalls.any (fun native ↦ native.name = memoryRecall) then
        recallBatch environment settings memoryVisible response active
      else sandboxBatch environment settings response active
    return { state with
      active
      completeOnly
      started := true
      done := response.toolCalls.isEmpty }

/-- `model_step`. -/
def modelStep (state : ExecutionState) : Script World ExecutionState := do
  let memoryVisible := state.active.any HistoryTurn.isTombstone
  let tools :=
    if state.completeOnly then none
    else some (if memoryVisible then [.sandbox, .memoryRecall] else [.sandbox])
  let pressure ← measure environment settings state.active state.completeOnly
  let instructions := instructionsOf settings request memoryVisible state.completeOnly pressure
  let messages := contextMessages environment.encoder state.active instructions
  assign fun execution ↦ { execution with text := [] }
  match ← streamAttempts environment settings { messages, tools } state.active state.completeOnly 2
    with
  | none => raise (.executionFailed "invalid model response")
  | some response =>
    note (.responded state.completeOnly response.toolCalls)
    if state.completeOnly then complete environment settings state
    else act environment settings memoryVisible response state

/-- A run of the graph. -/
def round (state : ExecutionState) : Script World ExecutionState := do
  let state ← boundary environment settings state
  let state ← modelStep environment settings request state
  boundary environment settings state

/-- The loop of `stream`, with at most so many rounds. It returns whether the run is done. -/
def loop : ℕ → ExecutionState → Script World Bool
  | rounds, state => do
    if state.done then return true
    else
      match rounds with
      | 0 => return false
      | rounds + 1 => loop rounds (← round environment settings request state)

/-- The first state of a run. -/
def startState : ExecutionState where
  active := request.history ++ [.message (.user request.userInput)]

/-- The variables at the start of a run. -/
def startExecution (world : World) : Execution World where
  world
  tools := { remaining := settings.maxToolCalls }

/-- What `stream` tries, with at most so many rounds. -/
def streamBody (rounds : ℕ) : Script World Bool := do
  attempt environment.opens
  if ← loop environment settings request rounds (startState request) then
    attempt environment.closes
    return true
  else return false

/-- What `stream` raises instead of any exception. -/
def streamFailed (_ : Raised) : Script World Bool := do
  match (← get).admissionFailure with
  | some reason => raise (.executionFailed ("context compaction failed: " ++ reason))
  | none => raise (.executionFailed "sandbox executor failed")

/-- `stream`, with at most so many rounds. -/
def stream (rounds : ℕ) : Script World Bool :=
  rescue (streamBody environment settings request rounds) streamFailed

/-- A run from its start, with at most so many rounds. -/
def run (rounds : ℕ) (world : World) : Except Halted Bool × Execution World :=
  stream environment settings request rounds (startExecution settings world)

end Executor

end Ads.Engine.Executor
