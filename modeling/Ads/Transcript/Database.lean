import Ads.Foundation.StateExcept
import Ads.Foundation.Table
import Ads.Context.History

/-!
# The transcript database

The tables of the `ads` service and its repositories. A session points to its latest entry; the
entries of a session are a doubly linked list. A run is one request to the engine, and its buffer
holds the parts of the engine's output until they are continuous.

A transaction reads and changes the tables, draws identifiers from a supply, and may raise; what it
raises undoes it. Foreign keys are left out: breaking one would raise as well.
-/

set_option autoImplicit false
set_option relaxedAutoImplicit false

namespace Ads.Transcript

open Context Foundation Foundation.StateExcept Python

/-- The kinds of entries. -/
inductive Kind where
  | message
  | reasoning
  | toolCall
  | toolResult
  | tombstone
  | compacting
  | compacted
  deriving DecidableEq

/-- The roles of message entries. -/
inductive Role where
  | user
  | assistant
  deriving DecidableEq

/-- The statuses of runs. -/
inductive Status where
  | pending
  | running
  | finishing
  | finished
  deriving DecidableEq

/-- `IN_FLIGHT_STATUSES`. -/
def Status.inFlight : Status → Bool
  | .finished => false
  | _ => true

/-- `ChatSession`: one conversation. -/
structure Session where
  id : Uuid
  userId : Uuid
  latestEntryId : Option Uuid
  committedTombstoneId : Option Uuid
  updatedAt : ℤ
  deriving DecidableEq

/-- `SessionEntry`: a node of the doubly linked list of a session. -/
structure Entry where
  id : Uuid
  sessionId : Uuid
  prevId : Option Uuid
  nextId : Option Uuid
  kind : Kind
  role : Option Role
  text : Text
  runId : Option Uuid
  createdAt : ℤ
  deriving DecidableEq

/-- `SessionRun`: one request to the engine. -/
structure Run where
  id : Uuid
  sessionId : Uuid
  messageId : Uuid
  userEntryId : Uuid
  modelId : Uuid
  status : Status
  watermark : ℤ
  lastOrder : Option ℤ
  lastEventAt : ℤ
  finishAt : Option ℤ
  errorText : Option Text
  candidateTombstoneId : Option Uuid
  totalContext : Option ℤ
  usedContext : Option ℤ
  createdAt : ℤ
  updatedAt : ℤ
  deriving DecidableEq

/-- `SessionRunBuffer`: a part of the engine's output. -/
structure Delta where
  runId : Uuid
  orderNo : ℤ
  kind : Kind
  text : Text
  totalContext : Option ℤ
  usedContext : Option ℤ
  deriving DecidableEq

/-- The primary key of a part. -/
def Delta.key (delta : Delta) : Uuid × ℤ :=
  (delta.runId, delta.orderNo)

/-- The tables. -/
structure Database where
  sessions : Table Session.id
  entries : Table Entry.id
  runs : Table Run.id
  buffer : Table Delta.key

/-- The database before its first session. -/
def Database.empty : Database :=
  ⟨.empty, .empty, .empty, .empty⟩

/-- What a transaction works on: the tables, and the identifiers that `uuid4` will draw. -/
structure Store extends Database where
  supply : ℕ → Uuid

/-- What a transaction raises. -/
inductive Raised where
  | integrityError
  | notFound
  | sessionForbidden
  | composerRejected
  | conflict
  | runtimeError
  | decodeError
  deriving DecidableEq

/-- A unit of work on the tables. -/
abbrev Transaction (α : Type) : Type :=
  StateT Store (Except Raised) α

/-- `uuid.uuid4`. -/
def uuid4 : Transaction Uuid := do
  let store ← get
  set { store with supply := fun index ↦ store.supply (index + 1) }
  pure (store.supply 0)

/-! ### Sessions -/

/-- `SessionRepository.get_any`. -/
def getSession (id : Uuid) : Transaction (Option Session) := do
  let store ← get
  pure (store.sessions.find id)

/-- `SessionRepository.insert`. -/
def insertSession (row : Session) : Transaction Unit := do
  let store ← get
  match store.sessions.insert row with
  | none => throw .integrityError
  | some sessions => set { store with sessions := sessions }

/-- Change a session in place. -/
def updateSession (id : Uuid) (change : Change Session.id) : Transaction Unit :=
  modify fun store ↦ { store with sessions := store.sessions.modify id change }

/-! ### Entries -/

/-- `SessionEntryRepository.get_entry`. -/
def getEntry (id : Uuid) : Transaction (Option Entry) := do
  let store ← get
  pure (store.entries.find id)

/-- `SessionEntryRepository.insert`. -/
def insertEntry (row : Entry) : Transaction Unit := do
  let store ← get
  match store.entries.insert row with
  | none => throw .integrityError
  | some entries => set { store with entries := entries }

/-- Change an entry in place. -/
def updateEntry (id : Uuid) (change : Change Entry.id) : Transaction Unit :=
  modify fun store ↦ { store with entries := store.entries.modify id change }

/-- The entry is not one of a run of a session. -/
def isForeign (sessionId runId : Uuid) (entry : Entry) : Bool :=
  ¬ (entry.sessionId = sessionId ∧ entry.runId = some runId)

/-- `SessionEntryRepository.delete_for_run`. -/
def deleteEntriesForRun (sessionId runId : Uuid) : Transaction Unit :=
  modify fun store ↦ { store with entries := store.entries.filter (isForeign sessionId runId) }

/-- `SessionEntryRepository.delete_entry`. -/
def deleteEntry (id : Uuid) : Transaction Unit :=
  modify fun store ↦ { store with entries := store.entries.filter fun entry ↦ entry.id ≠ id }

/-- `SessionEntryRepository.list_for_session`. -/
def Database.listForSession (database : Database) (sessionId : Uuid) : List Entry :=
  database.entries.rows.filter fun entry ↦ entry.sessionId = sessionId

/-- The loop of `walk`: follow `prev` through rows that were not seen. -/
def walkFrom (rows : List Entry) : ℕ → List Uuid → Option Uuid → List Entry
  | 0, _, _ => []
  | _ + 1, _, none => []
  | fuel + 1, seen, some cursor =>
    match rows.find? fun row ↦ row.id = cursor with
    | none => []
    | some row =>
      if cursor ∈ seen then [] else row :: walkFrom rows fuel (cursor :: seen) row.prevId

/-- `SessionEntryRepository.walk`: the entries from the first to the latest. Every round of the loop
takes a new row. -/
def Database.walk (database : Database) (session : Session) : List Entry :=
  let rows := database.listForSession session.id
  (walkFrom rows rows.length [] session.latestEntryId).reverse

/-! ### Runs -/

/-- `SessionRunRepository.in_flight_for_session`. -/
def inFlightForSession (sessionId : Uuid) : Transaction (Option Run) := do
  let store ← get
  pure (store.runs.rows.find? fun run ↦ run.sessionId = sessionId ∧ run.status.inFlight = true)

/-- `SessionRunRepository.get_run`. -/
def getRun (id : Uuid) : Transaction (Option Run) := do
  let store ← get
  pure (store.runs.find id)

/-- `SessionRunRepository.insert`, with the unique message id and the one run in flight for each
session. -/
def insertRun (row : Run) : Transaction Unit := do
  let store ← get
  raiseIf (∃ run ∈ store.runs.rows, run.messageId = row.messageId ∨
    (run.sessionId = row.sessionId ∧ run.status.inFlight = true ∧ row.status.inFlight = true))
    .integrityError
  match store.runs.insert row with
  | none => throw .integrityError
  | some runs => set { store with runs := runs }

/-- Change a run in place. -/
def updateRun (id : Uuid) (change : Change Run.id) :
    Transaction Unit :=
  modify fun store ↦ { store with runs := store.runs.modify id change }

/-- `SessionRunRepository.delete_run`. -/
def deleteRun (id : Uuid) : Transaction Unit :=
  modify fun store ↦ { store with runs := store.runs.filter fun run ↦ run.id ≠ id }

/-! ### Parts of the output -/

/-- `SessionRunBufferRepository.get_delta`. -/
def getDelta (runId : Uuid) (orderNo : ℤ) : Transaction (Option Delta) := do
  let store ← get
  pure (store.buffer.find (runId, orderNo))

/-- `SessionRunBufferRepository.insert`. -/
def insertDelta (row : Delta) : Transaction Unit := do
  let store ← get
  match store.buffer.insert row with
  | none => throw .integrityError
  | some buffer => set { store with buffer := buffer }

/-- `SessionRunBufferRepository.orders`. -/
def orders (runId : Uuid) : Transaction (List ℤ) := do
  let store ← get
  pure ((store.buffer.rows.filter fun delta ↦ delta.runId = runId).map Delta.orderNo)

/-- `SessionRunBufferRepository.delete_for_run`. -/
def deleteDeltasForRun (runId : Uuid) : Transaction Unit :=
  modify fun store ↦ { store with buffer := store.buffer.filter fun delta ↦ delta.runId ≠ runId }

/-! ### The list of entries -/

/-- An entry points to the entry after it. -/
def pointTo (next : Option Uuid) : Change Entry.id :=
  ⟨fun entry ↦ { entry with nextId := next }, fun _ ↦ rfl⟩

/-- Point an entry, if there is one, to the entry after it. -/
def setNext (id : Option Uuid) (next : Option Uuid) : Transaction Unit :=
  match id with
  | none => pure ()
  | some id => updateEntry id (pointTo next)

/-- The entry that `append_entry` links. -/
def newEntry (chat : Session) (kind : Kind) (role : Option Role) (text : Text)
    (runId : Option Uuid) (now : ℤ) (id : Uuid) : Entry where
  id := id
  sessionId := chat.id
  prevId := chat.latestEntryId
  nextId := none
  kind := kind
  role := role
  text := text
  runId := runId
  createdAt := now

/-- `append_entry`: link a new tail after the latest entry and make it the latest. -/
def appendEntry (chat : Session) (kind : Kind) (role : Option Role) (text : Text)
    (runId : Option Uuid) (now : ℤ) : Transaction Uuid := do
  let id ← uuid4
  insertEntry (newEntry chat kind role text runId now id)
  setNext chat.latestEntryId (some id)
  updateSession chat.id
    ⟨fun session ↦ { session with latestEntryId := some id, updatedAt := now }, fun _ ↦ rfl⟩
  pure id

/-! ### What the operations of the repositories ensure -/

section Ensures

variable {store : Store} {allowed : Raised → Prop} {id : Uuid} {post : Unit → Store → Prop}

@[simp] theorem ensures_uuid4 {post : Uuid → Store → Prop} :
    Ensures uuid4 store post allowed ↔
      post (store.supply 0) { store with supply := fun index ↦ store.supply (index + 1) } :=
  Iff.rfl

@[simp] theorem ensures_getSession {post : Option Session → Store → Prop} :
    Ensures (getSession id) store post allowed ↔ post (store.sessions.find id) store :=
  Iff.rfl

@[simp] theorem ensures_updateSession {change : Change Session.id} :
    Ensures (updateSession id change) store post allowed ↔
      post () { store with sessions := store.sessions.modify id change } :=
  Iff.rfl

@[simp] theorem ensures_getEntry {post : Option Entry → Store → Prop} :
    Ensures (getEntry id) store post allowed ↔ post (store.entries.find id) store :=
  Iff.rfl

@[simp] theorem ensures_updateEntry {change : Change Entry.id} :
    Ensures (updateEntry id change) store post allowed ↔
      post () { store with entries := store.entries.modify id change } :=
  Iff.rfl

@[simp] theorem ensures_getRun {post : Option Run → Store → Prop} :
    Ensures (getRun id) store post allowed ↔ post (store.runs.find id) store :=
  Iff.rfl

@[simp] theorem ensures_updateRun {change : Change Run.id} :
    Ensures (updateRun id change) store post allowed ↔
      post () { store with runs := store.runs.modify id change } :=
  Iff.rfl

@[simp] theorem ensures_getDelta {orderNo : ℤ} {post : Option Delta → Store → Prop} :
    Ensures (getDelta id orderNo) store post allowed ↔
      post (store.buffer.find (id, orderNo)) store :=
  Iff.rfl

/-- An insertion raises where the key is taken. -/
theorem ensures_insertEntry {row : Entry} :
    Ensures (insertEntry row) store post allowed ↔
      match store.entries.insert row with
      | none => allowed .integrityError
      | some entries => post () { store with entries := entries } := by
  simp only [insertEntry, ensures_bind, ensures_get]
  cases store.entries.insert row with
  | none => exact Iff.rfl
  | some entries => exact Iff.rfl

/-- An insertion raises where the key is taken. -/
theorem ensures_insertDelta {row : Delta} :
    Ensures (insertDelta row) store post allowed ↔
      match store.buffer.insert row with
      | none => allowed .integrityError
      | some buffer => post () { store with buffer := buffer } := by
  simp only [insertDelta, ensures_bind, ensures_get]
  cases store.buffer.insert row with
  | none => exact Iff.rfl
  | some buffer => exact Iff.rfl

@[simp] theorem ensures_inFlightForSession {post : Option Run → Store → Prop} :
    Ensures (inFlightForSession id) store post allowed ↔
      post (store.runs.rows.find? fun run ↦ run.sessionId = id ∧ run.status.inFlight = true)
        store :=
  Iff.rfl

/-- An insertion raises where the key is taken. -/
theorem ensures_insertSession {row : Session} :
    Ensures (insertSession row) store post allowed ↔
      match store.sessions.insert row with
      | none => allowed .integrityError
      | some sessions => post () { store with sessions := sessions } := by
  simp only [insertSession, ensures_bind, ensures_get]
  cases store.sessions.insert row with
  | none => exact Iff.rfl
  | some sessions => exact Iff.rfl

/-- An insertion raises where the key is taken, and where one of the unique columns is. -/
theorem ensures_insertRun {row : Run} :
    Ensures (insertRun row) store post allowed ↔
      if ∃ run ∈ store.runs.rows, run.messageId = row.messageId ∨
        (run.sessionId = row.sessionId ∧ run.status.inFlight = true ∧ row.status.inFlight = true) then
        allowed .integrityError
      else
        match store.runs.insert row with
        | none => allowed .integrityError
        | some runs => post () { store with runs := runs } := by
  simp only [insertRun, ensures_bind, ensures_get, ensures_raiseIf]
  cases store.runs.insert row with
  | none => exact Iff.rfl
  | some runs => exact Iff.rfl

end Ensures

end Ads.Transcript
