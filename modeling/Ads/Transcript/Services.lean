import Ads.Transcript.Database

/-!
# The services on the transcript

`SendService.send` starts a run, `EngineOutputService` takes what the engine and the watchdog report
about it. Every operation is one transaction on the tables; what a service does in between on other
systems (tokens, the message bus, notifications) has no part in the tables and is left out.

`Operation` lists the transactions and `step` runs one of them: what it raises leaves the tables as
they were.
-/

set_option autoImplicit false
set_option relaxedAutoImplicit false

namespace Ads.Transcript

open Context Foundation Foundation.StateExcept Python

/-! ### The history for the engine -/

/-- The JSON codec of the turns that are stored as text. -/
structure Codec where
  encodeToolCall : ToolCall → Text
  decodeToolCall : Text → Option ToolCall
  encodeToolResult : ToolResult → Text
  decodeToolResult : Text → Option ToolResult
  encodeTombstone : Tombstone → Text
  decodeTombstone : Text → Option Tombstone

/-- The turn of an entry, if it has one. -/
def turnOf (codec : Codec) (entry : Entry) : Option HistoryTurn :=
  match entry.kind with
  | .message =>
    match entry.role with
    | some .user => some (.message (.user entry.text))
    | some .assistant => some (.message (.assistant entry.text))
    | none => none
  | .toolCall => (codec.decodeToolCall entry.text).map fun call ↦ .message (.toolCall call)
  | .toolResult => (codec.decodeToolResult entry.text).map fun result ↦ .message (.toolResult result)
  | _ => none

/-- `history_from_entries`. -/
def historyFromEntries (codec : Codec) (entries : List Entry) (committedTombstoneId : Option Uuid) :
    Except Raised (List HistoryTurn) :=
  match committedTombstoneId with
  | none => pure (entries.filterMap (turnOf codec))
  | some committed =>
    match entries.dropWhile fun entry ↦ entry.id ≠ committed with
    | [] => throw .runtimeError
    | entry :: rest => do
      failIf (entry.kind ≠ .tombstone) .runtimeError
      match codec.decodeTombstone entry.text with
      | none => throw .decodeError
      | some memory => pure (activeContext memory ++ rest.filterMap (turnOf codec))

/-! ### Promotion of the engine's output -/

/-- The entry that the session points to. -/
def latestEntry (chat : Session) : Transaction (Option Entry) :=
  match chat.latestEntryId with
  | none => pure none
  | some latest => getEntry latest

/-- A part that continues the text of the tail of its own run and kind. -/
def continues (run : Run) (delta : Delta) (tail : Entry) : Bool :=
  (delta.kind = .message ∨ delta.kind = .reasoning) ∧ tail.runId = some run.id ∧
    tail.kind = delta.kind

/-- The role of the entry for a part. -/
def roleOf (delta : Delta) : Option Role :=
  if delta.kind = .message then some .assistant else none

/-- An entry gets more text. -/
def appendText (text : Text) : Change Entry.id :=
  ⟨fun entry ↦ { entry with text := entry.text ++ text }, fun _ ↦ rfl⟩

/-- `_append_delta`. The row of the session is read as it is after the parts before. -/
def appendDelta (run : Run) (delta : Delta) (now : ℤ) : Transaction Unit := do
  match ← getSession run.sessionId with
  | none => pure ()
  | some chat =>
    let tail ← latestEntry chat
    match tail.filter (continues run delta) with
    | some entry =>
      updateEntry entry.id (appendText delta.text)
    | none =>
      let id ← appendEntry chat delta.kind (roleOf delta) delta.text (some run.id) now
      if delta.kind = .tombstone then
        updateRun run.id ⟨fun run ↦ { run with candidateTombstoneId := some id }, fun _ ↦ rfl⟩

/-- The tombstone that the run brought, if any, becomes the committed one of its session. -/
def commitTombstone (run : Run) : Transaction Unit :=
  match run.candidateTombstoneId with
  | none => pure ()
  | some tombstone =>
    updateSession run.sessionId
      ⟨fun chat ↦ { chat with committedTombstoneId := some tombstone }, fun _ ↦ rfl⟩

/-- A run that is finished. -/
def Run.finish (run : Run) : Run :=
  { run with status := .finished, finishAt := none, totalContext := none, usedContext := none }

/-- `_finish_run`. -/
def finishRun (runId : Uuid) : Transaction Unit := do
  match ← getRun runId with
  | none => pure ()
  | some run =>
    commitTombstone run
    updateRun runId ⟨Run.finish, fun _ ↦ rfl⟩

/-- The loop that advances the watermark while the next order is there. Every round takes another
order. -/
def advance (orders : List ℤ) : ℕ → ℤ → ℤ
  | 0, watermark => watermark
  | fuel + 1, watermark =>
    if watermark + 1 ∈ orders then advance orders fuel (watermark + 1) else watermark

/-- The orders after one watermark up to another. -/
def ordersBetween (first last : ℤ) : List ℤ :=
  (List.range (last - first).toNat).map fun index : ℕ ↦ first + 1 + index

/-- A run shows the pressure on the context. -/
def showPressure (total used : Option ℤ) : Change Run.id :=
  ⟨fun run ↦ { run with totalContext := total, usedContext := used }, fun _ ↦ rfl⟩

/-- One round of the loop of `_promote`. -/
def promoteOrder (run : Run) (now : ℤ) (orderNo : ℤ) : Transaction PUnit := do
  match ← getDelta run.id orderNo with
  | none => pure ()
  | some delta =>
    appendDelta run delta now
    if delta.totalContext.isSome = true ∧ delta.usedContext.isSome = true then
      updateRun run.id (showPressure delta.totalContext delta.usedContext)

/-- `_promote`: advance the watermark, then append the parts that became continuous. -/
def promote (run : Run) (now : ℤ) : Transaction Unit := do
  match ← getSession run.sessionId with
  | none => pure ()
  | some _ =>
    let present ← orders run.id
    let watermark := advance present present.length run.watermark
    if watermark = run.watermark then pure ()
    else
      (ordersBetween run.watermark watermark).forM (promoteOrder run now)
      updateRun run.id
        ⟨fun run ↦ { run with watermark := watermark, updatedAt := now }, fun _ ↦ rfl⟩
      if ∃ last ∈ run.lastOrder, last ≤ watermark then finishRun run.id

/-- The session ends again before the user turn of the run. -/
def unlinkChat (chat : Option Session) (previousId : Option Uuid) (now : ℤ) : Transaction Unit :=
  match chat with
  | none => pure ()
  | some chat => do
    updateSession chat.id
      ⟨fun session ↦ { session with latestEntryId := previousId, updatedAt := now }, fun _ ↦ rfl⟩
    setNext previousId none

/-- An entry without links. -/
def unlink : Change Entry.id :=
  ⟨fun entry ↦ { entry with prevId := none, nextId := none }, fun _ ↦ rfl⟩

/-- The user turn of the run loses its links. -/
def unlinkEntry (entry : Option Entry) : Transaction Unit :=
  match entry with
  | none => pure ()
  | some entry => updateEntry entry.id unlink

/-- The user turn of the run is deleted. -/
def deleteUserEntry (entry : Option Entry) : Transaction Unit :=
  match entry with
  | none => pure ()
  | some entry => deleteEntry entry.id

/-- `_break_run`. -/
def breakRun (run : Run) (now : ℤ) : Transaction Unit := do
  if run.status = .finished then pure ()
  else
    let chat ← getSession run.sessionId
    let userEntry ← getEntry run.userEntryId
    unlinkChat chat (userEntry.bind Entry.prevId) now
    unlinkEntry userEntry
    deleteDeltasForRun run.id
    deleteRun run.id
    deleteEntriesForRun run.sessionId run.id
    deleteUserEntry userEntry

/-! ### What the engine reports -/

/-- The report names another message than that of the run. -/
def Run.isOther (run : Run) (messageId : Option Uuid) : Bool :=
  messageId.any fun message ↦ run.messageId ≠ message

/-- `ContextPressure`. -/
structure Pressure where
  totalContext : ℤ
  usedContext : ℤ

namespace EngineOutputService

/-- `acknowledge`, once its caller is authenticated. -/
def acknowledge (sessionId messageId : Uuid) (now : ℤ) : Transaction Unit := do
  match ← inFlightForSession sessionId with
  | none => pure ()
  | some run =>
    if run.status ≠ .pending ∨ run.messageId ≠ messageId then pure ()
    else
      updateRun run.id
        ⟨fun run ↦ { run with status := .running, lastEventAt := now, updatedAt := now },
        fun _ ↦ rfl⟩

/-- The part of a run that `partial_response` stores. -/
def received (runId : Uuid) (order : ℤ) (kind : Kind) (text : Text) (pressure : Option Pressure) :
    Delta where
  runId := runId
  orderNo := order
  kind := kind
  text := text
  totalContext := pressure.map Pressure.totalContext
  usedContext := pressure.map Pressure.usedContext

/-- `partial_response`. -/
def partialResponse (sessionId : Uuid) (order : ℤ) (kind : Kind) (text : Text)
    (pressure : Option Pressure) (messageId : Option Uuid) (now : ℤ) : Transaction Unit := do
  match ← inFlightForSession sessionId with
  | none => pure ()
  | some run =>
    if run.isOther messageId = true then pure ()
    else if order < 0 then pure ()
    else if ∃ last ∈ run.lastOrder, last < order then pure ()
    else
      match ← getDelta run.id order with
      | some _ => pure ()
      | none =>
        insertDelta (received run.id order kind text pressure)
        updateRun run.id ⟨fun run ↦ { run with lastEventAt := now, updatedAt := now }, fun _ ↦ rfl⟩
        promote run now

/-- `ping`. -/
def ping (sessionId : Uuid) (now : ℤ) : Transaction Unit := do
  match ← inFlightForSession sessionId with
  | none => pure ()
  | some run =>
    if run.status = .finishing then pure ()
    else updateRun run.id ⟨fun run ↦ { run with lastEventAt := now, updatedAt := now }, fun _ ↦ rfl⟩

/-- The order that `finish` compares with: the one already stored, or else the announced one. -/
def announced (run : Run) (lastOrder : ℤ) : ℤ :=
  run.lastOrder.getD lastOrder

/-- `finish`. -/
def finish (sessionId : Uuid) (lastOrder : Option ℤ) (messageId : Option Uuid) (now : ℤ) :
    Transaction Unit := do
  match ← inFlightForSession sessionId with
  | none => pure ()
  | some run =>
    if run.isOther messageId = true then pure ()
    else
      updateRun run.id ⟨fun run ↦ { run with lastEventAt := now, updatedAt := now }, fun _ ↦ rfl⟩
      match lastOrder with
      | none => breakRun run now
      | some last =>
        if last < 0 ∨ last < run.watermark then breakRun run now
        else
          updateRun run.id ⟨fun run ↦ { run with lastOrder := some (announced run last) },
            fun _ ↦ rfl⟩
          if announced run last ≤ run.watermark then finishRun run.id
          else if run.status ≠ .finishing then
            updateRun run.id ⟨fun run ↦ { run with status := .finishing, finishAt := some now },
              fun _ ↦ rfl⟩

/-- `error`. -/
def error (sessionId messageId : Uuid) (text : Text) (now : ℤ) : Transaction Unit := do
  match ← inFlightForSession sessionId with
  | none => pure ()
  | some run =>
    if run.status = .finished ∨ run.messageId ≠ messageId then pure ()
    else
      updateRun run.id ⟨fun run ↦ { run with errorText := some text }, fun _ ↦ rfl⟩
      breakRun run now

/-- The last transaction of `abort_and_break`, and `break_run`: the run breaks for a reason. -/
def breakFor (runId : Uuid) (reason : Text) (now : ℤ) : Transaction Unit := do
  match ← getRun runId with
  | none => pure ()
  | some run =>
    updateRun run.id ⟨fun run ↦ { run with errorText := some reason }, fun _ ↦ rfl⟩
    breakRun run now

/-- The last transaction of `abort_and_break`. -/
def abortAndBreak (runId : Uuid) (now : ℤ) : Transaction Unit :=
  breakFor runId "ping death".toList now

/-- `break_run`. -/
def breakRun (runId : Uuid) (reason : Text) (now : ℤ) : Transaction Unit :=
  breakFor runId reason now

end EngineOutputService

/-! ### Starting a run -/

namespace SendService

/-- `_load_owned`. -/
def loadOwned (userId sessionId : Uuid) : Transaction Session := do
  match ← getSession sessionId with
  | none => throw .notFound
  | some row =>
    raiseIf (row.userId ≠ userId) .sessionForbidden
    pure row

/-- The transaction of `send` that appends the user turn and claims the session. The message id of
the run and the history for the engine are what it hands on. -/
def send (codec : Codec) (userId sessionId : Uuid) (userInput : Text) (modelId : Option Uuid)
    (now : ℤ) : Transaction (Uuid × List HistoryTurn) := do
  let _ ← loadOwned userId sessionId
  let text := stripText userInput
  raiseIf (text = []) .composerRejected
  match modelId with
  | none => throw .composerRejected
  | some modelId =>
    let messageId ← uuid4
    let runId ← uuid4
    let row ← loadOwned userId sessionId
    let running ← inFlightForSession row.id
    raiseIf (running ≠ none) .conflict
    let store ← get
    let history ← liftM (historyFromEntries codec (store.walk row) row.committedTombstoneId)
    let userEntryId ← appendEntry row .message (some .user) text none now
    insertRun
      { id := runId
        sessionId := row.id
        messageId := messageId
        userEntryId := userEntryId
        modelId := modelId
        status := .pending
        watermark := -1
        lastOrder := none
        lastEventAt := now
        finishAt := none
        errorText := none
        candidateTombstoneId := none
        totalContext := none
        usedContext := none
        createdAt := now
        updatedAt := now }
    pure (messageId, history)

/-- The last transaction of `send`, after its request is produced. -/
def produced (runId : Uuid) (now : ℤ) : Transaction Unit :=
  updateRun runId ⟨fun run ↦ { run with lastEventAt := now, updatedAt := now }, fun _ ↦ rfl⟩

end SendService

/-- The transaction of `SessionService.create`. -/
def createSession (userId : Uuid) (now : ℤ) : Transaction Unit := do
  let id ← uuid4
  insertSession
    { id := id
      userId := userId
      latestEntryId := none
      committedTombstoneId := none
      updatedAt := now }

/-! ### Runs of the system -/

/-- The transactions of the services. -/
inductive Operation where
  | create (userId : Uuid)
  | send (userId sessionId : Uuid) (userInput : Text) (modelId : Option Uuid)
  | produced (runId : Uuid)
  | acknowledge (sessionId messageId : Uuid)
  | partialResponse (sessionId : Uuid) (order : ℤ) (kind : Kind) (text : Text)
      (pressure : Option Pressure) (messageId : Option Uuid)
  | ping (sessionId : Uuid)
  | finish (sessionId : Uuid) (lastOrder : Option ℤ) (messageId : Option Uuid)
  | error (sessionId messageId : Uuid) (text : Text)
  | abortAndBreak (runId : Uuid)
  | breakRun (runId : Uuid) (reason : Text)

/-- The transaction of an operation. -/
def Operation.transaction (codec : Codec) (now : ℤ) : Operation → Transaction Unit
  | .create userId => createSession userId now
  | .send userId sessionId userInput modelId => do
    let _ ← SendService.send codec userId sessionId userInput modelId now
  | .produced runId => SendService.produced runId now
  | .acknowledge sessionId messageId => EngineOutputService.acknowledge sessionId messageId now
  | .partialResponse sessionId order kind text pressure messageId =>
    EngineOutputService.partialResponse sessionId order kind text pressure messageId now
  | .ping sessionId => EngineOutputService.ping sessionId now
  | .finish sessionId lastOrder messageId =>
    EngineOutputService.finish sessionId lastOrder messageId now
  | .error sessionId messageId text => EngineOutputService.error sessionId messageId text now
  | .abortAndBreak runId => EngineOutputService.abortAndBreak runId now
  | .breakRun runId reason => EngineOutputService.breakRun runId reason now

/-- An operation with its time and the identifiers that it draws. -/
structure Event where
  operation : Operation
  now : ℤ
  supply : ℕ → Uuid

/-- The tables after a transaction: what it raises undoes it. -/
def commit (computation : Transaction Unit) (database : Database) (supply : ℕ → Uuid) : Database :=
  match computation ⟨database, supply⟩ with
  | .ok (_, store) => store.toDatabase
  | .error _ => database

/-- One transaction. -/
def step (codec : Codec) (database : Database) (event : Event) : Database :=
  commit (event.operation.transaction codec event.now) database event.supply

/-- One transaction after the other. -/
def execute (codec : Codec) (database : Database) (events : List Event) : Database :=
  events.foldl (step codec) database

end Ads.Transcript
