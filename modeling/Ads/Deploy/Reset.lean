import Mathlib.Data.Char
import Mathlib.Data.List.Lex
import Mathlib.Data.List.Sort
import Ads.Foundation.Disturbed
import Ads.Python.Text

/-!
# The schema reset

The model of `ResetCoordinator`: a run takes the reset of the databases from its checkpoint to the
next ones, while all writers are fenced, and restores the models of the users from the backup that
it has taken before. The databases, the workloads and the protected records outlive the runs, and
each operation on them is done or fails, with its effect or without it. Between the operations pods
go away and the workloads that are not fenced write.

Identifiers and times that a database or the coordinator makes up are numbered. What `msgspec` and
`datetime` accept is that of the validators.
-/

set_option autoImplicit false
set_option relaxedAutoImplicit false

namespace Ads.Deploy.Reset

open Python Foundation Foundation.StateExcept Foundation.Interrupted Foundation.Disturbed

/-! ### Records -/

/-- What an operation raises. -/
inductive ResetRaised where
  /-- `PreservationError`. -/
  | preservation (reason : String)
  /-- Another exception. -/
  | system (name : String)
  /-- The process ends. -/
  | killed
  deriving DecidableEq

/-- The fields of `PAYLOAD`. -/
structure Payload where
  description : Text
  name : Text
  type : Text
  url : Text
  authentication : Text
  options : Text
  deriving DecidableEq

/-- A row of `user_model`. -/
structure ModelRow where
  id : Text
  userId : Text
  payload : Payload
  createdAt : Text
  updatedAt : Text
  deriving DecidableEq

/-- The identity of a row in a backup. -/
def ModelRow.identity (row : ModelRow) : Text × Text × Text × Text :=
  (row.userId, row.payload.type, row.payload.url, row.payload.name)

/-- What the fields of a row are checked with. -/
structure Validators where
  /-- `str(UUID(value)) == value`. -/
  isUuid : Text → Bool
  /-- A time with its zone. -/
  isAware : Text → Bool
  /-- A `ModelWrite` with a token. -/
  isModelWrite : Payload → Bool

/-- The fields of a row are valid. -/
def Validators.isComplete (validators : Validators) (row : ModelRow) : Bool :=
  validators.isUuid row.id && validators.isUuid row.userId && validators.isAware row.createdAt &&
    validators.isAware row.updatedAt && validators.isModelWrite row.payload

/-- `validate_models`. -/
def Validators.validateModels (validators : Validators) (rows : List ModelRow) :
    Except ResetRaised (List ModelRow) := do
  failIf (rows = [] ∨ rows.all validators.isComplete = false ∨ ¬ (rows.map ModelRow.id).Nodup ∨
      ¬ (rows.map ModelRow.identity).Nodup)
    (.preservation "nonempty complete model and owner backup required")
  return rows

/-! ### Workloads -/

/-- `"ads-preferences"`. -/
def preferencesService : Text :=
  "ads-preferences".toList

/-- `CONTROLLERS`. -/
def controllers : List Text :=
  ["ads-sandbox-manager".toList, "ads-sandbox-mcp".toList]

/-- A workload of the configuration. -/
structure Definition where
  service : Text
  kind : Text
  name : Text
  deriving DecidableEq

/-- A workload of a snapshot. -/
structure Item where
  definition : Definition
  uid : Text
  replicas : ℕ
  selector : Text
  deriving DecidableEq

/-- What `Workloads.snapshot` returns. -/
structure WorkloadSnapshot where
  namespaceUid : Text
  items : List Item
  deriving DecidableEq

/-- A workload in the cluster, and whether it has pods. -/
structure Workload where
  definition : Definition
  uid : Text
  selector : Text
  replicas : ℕ
  running : Bool
  deriving DecidableEq

/-- A workload of which nothing runs, and nothing will. -/
def Workload.isQuiet (workload : Workload) : Bool :=
  workload.replicas = 0 && !workload.running

/-- The item of a workload. -/
def Workload.item (workload : Workload) : Item :=
  ⟨workload.definition, workload.uid, workload.replicas, workload.selector⟩

/-- A workload with other replicas. -/
def Workload.scaled (replicas : ℕ) (workload : Workload) : Workload :=
  { workload with replicas, running := workload.running || 0 < replicas }

/-- The pods of a workload without replicas have gone. -/
def Workload.settled (workload : Workload) : Workload :=
  if workload.replicas = 0 then { workload with running := false } else workload

/-! ### Databases -/

/-- `Target`. -/
structure Target where
  service : Text
  database : Text
  owner : Text
  url : Text
  schema : Text
  deriving DecidableEq

/-- A table of an inventory. -/
structure TableEntry where
  name : Text
  owner : Text
  acl : Text
  deriving DecidableEq

/-- A grant of an inventory. -/
structure Grant where
  name : Text
  grantee : Text
  grantor : Text
  privilege : Text
  grantable : Bool
  deriving DecidableEq

/-- The privileges that `initialize` grants. -/
def allowedPrivileges : List Text :=
  ["SELECT".toList, "INSERT".toList, "UPDATE".toList, "DELETE".toList, "TRUNCATE".toList,
    "REFERENCES".toList, "TRIGGER".toList, "MAINTAIN".toList]

/-- What an inventory says of the database and its schema. -/
structure DatabaseIdentity where
  service : Text
  database : Text
  databaseOid : ℕ
  role : Text
  schema : Text
  schemaOid : ℕ
  schemaOwner : Text
  schemaAcl : Text
  deriving DecidableEq

/-- What `inventory` returns. -/
structure Inventory where
  identity : DatabaseIdentity
  grants : List Grant
  tables : List TableEntry
  deriving DecidableEq

/-- A database: its tables and grants, the rows of `user_model` and those of the other tables. -/
structure DatabaseState where
  identity : DatabaseIdentity
  tables : List TableEntry
  grants : List Grant
  models : List ModelRow
  rows : List (Text × List Text)

/-- The inventory of a database. -/
def DatabaseState.inventory (database : DatabaseState) : Inventory :=
  ⟨database.identity, database.grants, database.tables⟩

/-! ### Checkpoints -/

/-- The phase of a reset. -/
inductive ResetPhase where
  | discovered
  | preserved
  | restore
  | restored
  | resuming
  | complete
  deriving DecidableEq, Repr

/-- The checkpoint of a reset. -/
structure Checkpoint where
  cycle : ℕ
  scope : List (Text × Text × Text × Text)
  databaseUrls : List Text
  phase : ResetPhase
  workloads : WorkloadSnapshot
  databases : List Inventory
  reset : List Text
  initialized : List Text
  mapping : List (Text × Text)
  quarantine : Bool

/-- What `evidence` returns. -/
structure Evidence where
  cycle : ℕ
  phase : ResetPhase
  scope : List (Text × Text × Text × Text)
  restoredModels : ℕ
  lifecycleControllersQuarantined : Bool

/-- `evidence`. -/
def Checkpoint.evidence (checkpoint : Checkpoint) : Evidence where
  cycle := checkpoint.cycle
  phase := checkpoint.phase
  scope := checkpoint.scope
  restoredModels := checkpoint.mapping.length
  lifecycleControllersQuarantined := checkpoint.quarantine

/-- What a `DROP TABLE` found: a history variable that no operation reads. -/
structure Drop where
  service : Text
  checkpoint : Option Checkpoint
  models : List ModelRow
  backup : Option (List ModelRow)
  workloads : List Workload

/-- The protected records, the databases and the cluster. -/
structure ResetState where
  checkpoint : Option Checkpoint
  models : Option (List ModelRow)
  associations : Option (List (Text × List (Text × List Text)))
  databases : Text → DatabaseState
  namespaceUid : Text
  workloads : List Workload
  /-- How many cycles have begun. -/
  cycles : ℕ
  /-- How many models the service has created. -/
  minted : ℕ
  drops : List Drop

/-- Something of a service runs. -/
def ResetState.runs (state : ResetState) (service : Text) : Bool :=
  state.workloads.any fun workload ↦ workload.definition.service = service && !workload.isQuiet

/-- The models are being restored. -/
def ResetState.restoring (state : ResetState) : Bool :=
  state.checkpoint.any fun checkpoint ↦
    checkpoint.phase = .restore || checkpoint.phase = .restored

/-- Somebody may write models: a workload that is not fenced, and while they are restored, one
beside the service of the models itself. -/
def ResetState.writable (state : ResetState) : Bool :=
  state.workloads.any fun workload ↦
    !workload.isQuiet &&
      (workload.definition.service ≠ preferencesService || !state.restoring)

/-- The state with another database. -/
def ResetState.put (state : ResetState) (service : Text) (database : DatabaseState) : ResetState :=
  { state with databases := Function.update state.databases service database }

/-- The state with other replicas of a workload. -/
def ResetState.scale (state : ResetState) (definition : Definition) (replicas : ℕ) : ResetState :=
  { state with workloads := state.workloads.map fun workload ↦
      if workload.definition = definition then workload.scaled replicas else workload }

/-- What others do. -/
inductive Disturbance where
  /-- The pods of a workload go away. -/
  | settle (definition : Definition)
  /-- Users write their models. -/
  | write (models : List ModelRow)
  /-- A service writes its other tables. -/
  | use (service : Text) (rows : List (Text × List Text))

/-- What others do changes the state. -/
def ResetState.change (state : ResetState) : Disturbance → ResetState
  | .settle definition =>
    { state with workloads := state.workloads.map fun workload ↦
        if workload.definition = definition then workload.settled else workload }
  | .write models =>
    let database := state.databases preferencesService
    if state.writable ∧ database.tables ≠ [] then
      state.put preferencesService { database with models }
    else state
  | .use service rows =>
    if state.runs service then state.put service { state.databases service with rows } else state

/-- A program of the coordinator. -/
abbrev ResetM :=
  Program (Amid ResetState Disturbance ResetRaised) ResetRaised

/-- One operation. -/
def perform {α : Type} (effect : StateT ResetState (Except ResetRaised) α) : ResetM α :=
  operate ResetState.change effect

/-- Something is refused. -/
def refuseIf (condition : Prop) [Decidable condition] (reason : String) : ResetM Unit :=
  Program.evaluate (failIf condition (.preservation reason))

/-- An exception with the reason that is shown instead of it. -/
def renamed (reason : String) : ResetRaised → ResetRaised
  | .killed => .killed
  | _ => .preservation reason

/-- `ResetCoordinator`, with what its constructors have checked. -/
structure ResetCoordinator where
  targets : List Target
  definitions : List Definition
  validators : Validators
  /-- The tables that a service creates. -/
  schema : Text → List TableEntry
  /-- The identifiers and times of the models that are created. -/
  minted : ℕ → Text × Text
  /-- How many times it looks before a deadline. -/
  patience : ℕ
  services_nodup : (targets.map Target.service).Nodup
  preferences_mem : preferencesService ∈ targets.map Target.service
  covered : ∀ target ∈ targets, target.service ∈ definitions.map Definition.service
  definitions_nodup : (definitions.map fun definition ↦ (definition.kind, definition.name)).Nodup
  writers : ∀ service ∈ "ads".toList :: "ads-engine".toList :: preferencesService :: controllers,
    service ∈ definitions.map Definition.service

namespace ResetCoordinator

variable (coordinator : ResetCoordinator)

/-! ### The protected store -/

/-- `store.read("checkpoint")`, none without a file. -/
def readCheckpoint : ResetM (Option Checkpoint) :=
  perform do
    let state ← get
    return state.checkpoint

/-- `_save`. -/
def save (checkpoint : Checkpoint) : ResetM Unit :=
  perform do
    let state ← get
    set { state with checkpoint := some checkpoint }

/-- `store.read("models")`. -/
def readModels : ResetM (List ModelRow) :=
  perform do
    let state ← get
    match state.models with
    | none => throw (.system "FileNotFoundError")
    | some rows => return rows

/-- `store.write("models")`. -/
def writeModels (rows : List ModelRow) : ResetM Unit :=
  perform do
    let state ← get
    set { state with models := some rows }

/-- `store.read("associations")`. -/
def readAssociations : ResetM Unit :=
  perform do
    let state ← get
    raiseIf (state.associations = none) (.system "FileNotFoundError")

/-- `store.write("associations")`. -/
def writeAssociations (associations : List (Text × List (Text × List Text))) : ResetM Unit :=
  perform do
    let state ← get
    set { state with associations := some associations }

/-! ### Workloads -/

/-- `_object`. -/
def findWorkload (workloads : List Workload) (definition : Definition)
    (failure : ResetRaised) : Except ResetRaised Workload :=
  match workloads.find? fun workload : Workload ↦ workload.definition = definition with
  | none => throw failure
  | some workload => return workload

/-- The items of `snapshot`. -/
def snapshotItems (workloads : List Workload) : List Definition → Except ResetRaised (List Item)
  | [] => return []
  | definition :: rest => do
    let found ← findWorkload workloads definition
      (.preservation "workload scope discovery failed")
    let others ← snapshotItems workloads rest
    return found.item :: others

/-- `snapshot`. -/
def snapshot : ResetM WorkloadSnapshot :=
  perform do
    let state ← get
    let items ← (snapshotItems state.workloads coordinator.definitions :
      Except ResetRaised (List Item))
    return ⟨state.namespaceUid, items⟩

/-- `_identity`. -/
def checkIdentity (captured : WorkloadSnapshot) (state : ResetState) (reason : String) :
    Except ResetRaised Unit :=
  failIf (captured.namespaceUid ≠ state.namespaceUid ∨
    captured.items.map Item.definition ≠ coordinator.definitions) (.preservation reason)

/-- `set_replicas`. -/
def setReplicas (captured : WorkloadSnapshot) (item : Item) (replicas : ℕ) : ResetM Unit :=
  perform do
    let reason := "exact workload scaling failed; do not reset"
    let state ← get
    coordinator.checkIdentity captured state reason
    let found ← (findWorkload state.workloads item.definition (.preservation reason) :
      Except ResetRaised Workload)
    raiseIf (found.uid ≠ item.uid) (.preservation reason)
    set (state.scale item.definition replicas)

/-- A workload is the captured one, and nothing of it runs. -/
def isFenced (workloads : List Workload) (item : Item) : Except ResetRaised Bool := do
  let found ← findWorkload workloads item.definition
    (.preservation "workload quiescence verification failed")
  return found.uid = item.uid && found.isQuiet && found.selector = item.selector

/-- The loop of `fenced`. -/
def areFenced (workloads : List Workload) (exceptServices : List Text) :
    List Item → Except ResetRaised Bool
  | [] => return true
  | item :: rest =>
    if item.definition.service ∈ exceptServices then areFenced workloads exceptServices rest
    else do
      let quiet ← isFenced workloads item
      if quiet then areFenced workloads exceptServices rest else return false

/-- `fenced`. -/
def fenced (captured : WorkloadSnapshot) (exceptServices : List Text) : ResetM Bool :=
  perform do
    let state ← get
    coordinator.checkIdentity captured state "workload quiescence verification failed"
    areFenced state.workloads exceptServices captured.items

/-- The loop at the end of `pause`, that looks so many times before its deadline. -/
def awaitFenced (captured : WorkloadSnapshot) : ℕ → ResetM Unit
  | 0 => throw (.preservation "writers did not quiesce; reset remains blocked")
  | patience + 1 => do
    let quiet ← coordinator.fenced captured []
    if quiet then return () else awaitFenced captured patience

/-- `pause`. -/
def pause (captured : WorkloadSnapshot) : ResetM Unit := do
  captured.items.forM fun item ↦ coordinator.setReplicas captured item 0
  coordinator.awaitFenced captured coordinator.patience

/-- The workload of an item is there and ready. -/
def isReady (item : Item) : ResetM Bool :=
  perform do
    let state ← get
    let found ← (findWorkload state.workloads item.definition (.system "NotFound") :
      Except ResetRaised Workload)
    raiseIf (found.uid ≠ item.uid)
      (.preservation "preferences workload replaced during restoration")
    return found.running

/-- The loop at the end of `start_preferences`. -/
def awaitReady (item : Item) : ℕ → ResetM Unit
  | 0 => throw (.preservation "preferences restoration API did not become ready")
  | patience + 1 => do
    let ready ← isReady item
    if ready then return () else awaitReady item patience

/-- `start_preferences`. -/
def startPreferences (captured : WorkloadSnapshot) : ResetM Unit :=
  match captured.items.filter fun item ↦ item.definition.service = preferencesService with
  | [item] => do
    coordinator.setReplicas captured item (max 1 item.replicas)
    awaitReady item coordinator.patience
  | _ => throw (.preservation "exact preferences restoration workload required")

/-- `resume`, with the quarantine. -/
def resume (captured : WorkloadSnapshot) : ResetM Unit :=
  captured.items.forM fun item ↦
    if item.definition.service ∈ controllers then pure ()
    else coordinator.setReplicas captured item item.replicas

/-! ### Databases -/

/-- `inventory`. -/
def inventory (service : Text) : ResetM Inventory :=
  perform do
    let state ← get
    return (state.databases service).inventory

/-- `models`. -/
def liveModels : ResetM (List ModelRow) :=
  perform do
    let state ← get
    let database := state.databases preferencesService
    raiseIf (database.tables = []) (.preservation "full model backup read failed")
    return database.models.mergeSort fun first second ↦ first.id ≤ second.id

/-- `associations`. -/
def associations (service : Text) : ResetM (Text × List (Text × List Text)) :=
  perform do
    let state ← get
    return (service, (state.databases service).rows)

/-- `reset`. -/
def resetDatabase (service : Text) (captured : Inventory) : ResetM Unit :=
  perform do
    let reason := "scoped reset refused or rolled back; keep writers fenced"
    let state ← get
    let database := state.databases service
    raiseIf (database.identity ≠ captured.identity) (.preservation reason)
    raiseIf (database.tables ≠ [] ∧ (database.tables ≠ captured.tables ∨
      database.grants ≠ captured.grants)) (.preservation reason)
    if database.tables = [] then return ()
    else
      let dropped := state.put service
        { database with tables := [], grants := [], models := [], rows := [] }
      let drop : Drop := {
        service
        checkpoint := state.checkpoint
        models := if service = preferencesService then database.models else []
        backup := state.models
        workloads := state.workloads }
      set { dropped with drops := state.drops ++ [drop] }

/-- `prepare_schema`. -/
def prepareSchema (service : Text) : ResetM Unit :=
  perform do
    let state ← get
    let database := state.databases service
    if database.tables = [] then
      set (state.put service { database with tables := coordinator.schema service })
    else return ()

/-- The grants of `initialize`. -/
def restoreGrants (service : Text) (captured : Inventory) : ResetM Unit :=
  perform do
    let reason := "normal fresh-schema initialization failed; keep writers fenced"
    let state ← get
    let database := state.databases service
    raiseIf (∃ grant ∈ captured.grants, grant.name ∉ database.tables.map TableEntry.name ∨
      grant.privilege ∉ allowedPrivileges) (.preservation reason)
    raiseIf (¬ database.grants ⊆ captured.grants) (.preservation reason)
    raiseIf (database.identity.databaseOid ≠ captured.identity.databaseOid ∨
      database.identity.role ≠ captured.identity.role ∨
      database.identity.schemaOid ≠ captured.identity.schemaOid ∨
      database.identity.schemaOwner ≠ captured.identity.schemaOwner ∨
      database.identity.schemaAcl ≠ captured.identity.schemaAcl) (.preservation reason)
    set (state.put service { database with grants := captured.grants })

/-- `initialize`. -/
def initializeDatabase (service : Text) (captured : Inventory) : ResetM Unit := do
  coordinator.prepareSchema service
  restoreGrants service captured

/-! ### The preferences API -/

/-- The API answers when its service runs. -/
def checkRuns (state : ResetState) : Except ResetRaised Unit :=
  failIf (state.runs preferencesService = false ∨ (state.databases preferencesService).tables = [])
    (.preservation "fresh owner-correct preferences request failed")

/-- The identifiers of the models of an owner. -/
def ownerIds (owner : Text) : ResetM (List Text) :=
  perform do
    let state ← get
    checkRuns state
    return ((state.databases preferencesService).models.filter fun row ↦ row.userId = owner).map
      ModelRow.id

/-- `model`. -/
def model (owner id : Text) : ResetM ModelRow :=
  perform do
    let state ← get
    checkRuns state
    match (state.databases preferencesService).models.find? fun row ↦
        row.userId = owner && row.id = id with
    | none => throw (.preservation "fresh owner-correct preferences request failed")
    | some row => return row

/-- Each of some models. -/
def modelsOf (owner : Text) : List Text → ResetM (List ModelRow)
  | [] => return []
  | id :: rest => do
    let row ← model owner id
    let others ← modelsOf owner rest
    return row :: others

/-- `models`. -/
def ownerModels (owner : Text) : ResetM (List ModelRow) := do
  let ids ← ownerIds owner
  modelsOf owner ids

/-- `create`. The primary key keeps an identifier from being used twice. -/
def create (owner : Text) (payload : Payload) : ResetM ModelRow :=
  perform do
    let state ← get
    checkRuns state
    let database := state.databases preferencesService
    let drawn := coordinator.minted state.minted
    raiseIf (drawn.1 ∈ database.models.map ModelRow.id)
      (.preservation "fresh owner-correct preferences request failed")
    let row : ModelRow := ⟨drawn.1, owner, payload, drawn.2, drawn.2⟩
    let created := state.put preferencesService { database with models := database.models ++ [row] }
    set { created with minted := state.minted + 1 }
    return row

/-- `invoke`. -/
def invoke (owner id : Text) : ResetM Unit := do
  let _ ← model owner id
  perform (return ())

/-! ### Preservation -/

/-- `refresh_backup`. -/
def refreshBackup (rows : List ModelRow) : ResetM (List ModelRow) :=
  if rows = [] then
    Program.withError (renamed "empty source has no verified recovery backup") do
      let stored ← readModels
      Program.evaluate (coordinator.validators.validateModels stored)
  else do
    let checked ← Program.evaluate (coordinator.validators.validateModels rows)
    writeModels checked
    let stored ← readModels
    Program.evaluate (coordinator.validators.validateModels stored)

/-- A model of the API is that of a row. -/
def isMatch (row found : ModelRow) : Bool :=
  found.id = row.id || (found.payload.name = row.payload.name &&
    found.payload.type = row.payload.type && found.payload.url = row.payload.url)

/-- The match of a row, or a new model. -/
def choose (row : ModelRow) : List ModelRow → ResetM ModelRow
  | [] => coordinator.create row.userId row.payload
  | first :: _ => return first

/-- A row in `restore_models`. -/
def restoreRow (row : ModelRow) : ResetM (Text × Text) := do
  let existing ← ownerModels row.userId
  let found := existing.filter (isMatch row)
  refuseIf (1 < found.length ∨ ∃ first ∈ found.head?, first.payload ≠ row.payload)
    "existing owner model conflicts with protected backup"
  let chosen ← coordinator.choose row found
  let actual ← model row.userId chosen.id
  refuseIf (actual.payload ≠ row.payload) "restored model verification failed"
  return (row.id, actual.id)

/-- The rows in `restore_models`. -/
def restoreRows : List ModelRow → ResetM (List (Text × Text))
  | [] => return []
  | row :: rest => do
    let restored ← coordinator.restoreRow row
    let others ← restoreRows rest
    return restored :: others

/-- The loop over `invoke` in `restore_models`. -/
def invokeAll (backup : List ModelRow) (mapping : List (Text × Text)) (invokes : Bool) :
    ResetM Unit :=
  if invokes then
    backup.forM fun row ↦ invoke row.userId ((mapping.lookup row.id).getD [])
  else return ()

/-- `restore_models`. -/
def restoreModels (rows : List ModelRow) (invokes : Bool) : ResetM (List (Text × Text)) := do
  let backup ← Program.evaluate (coordinator.validators.validateModels rows)
  Program.withError (renamed "owner-correct model restoration or validation failed") do
    let mapping ← coordinator.restoreRows backup
    invokeAll backup mapping invokes
    return mapping

/-- A model of an owner differs from that of the backup. -/
def differs (existing : List ModelRow) (row : ModelRow) : Bool :=
  (existing.find? fun found : ModelRow ↦ found.id = row.id).any fun found ↦
    found.payload ≠ row.payload

/-- The models of an owner are those of the backup. -/
def verifyOwner (backup : List ModelRow) (owner : Text) : ResetM Unit := do
  let existing ← ownerModels owner
  refuseIf ((backup.filter fun row ↦ row.userId = owner).any (differs existing) = true)
    "pre-reset owner model differs from full backup"

/-! ### Runs -/

/-- `_scope`. -/
def scope : List (Text × Text × Text × Text) :=
  coordinator.targets.map fun target ↦
    (target.service, target.database, target.owner, target.schema)

/-- The inventories of the targets. -/
def inventories : List Target → ResetM (List Inventory)
  | [] => return []
  | target :: rest => do
    let captured ← inventory target.service
    let others ← inventories rest
    return captured :: others

/-- The associations of the controllers among the targets. -/
def allAssociations : List Target → ResetM (List (Text × List (Text × List Text)))
  | [] => return []
  | target :: rest =>
    if target.service ∈ controllers then do
      let own ← associations target.service
      let others ← allAssociations rest
      return own :: others
    else allAssociations rest

/-- The number of a new cycle, as `uuid4`. -/
def newCycleNumber : ResetM ℕ :=
  perform do
    let state ← get
    set { state with cycles := state.cycles + 1 }
    return state.cycles

/-- The beginning of `run`: the checkpoint that is there, or that of a new cycle. -/
def begin (newCycle : Bool) : ResetM Checkpoint := do
  let found ← readCheckpoint
  refuseIf (∃ checkpoint ∈ found, checkpoint.scope ≠ coordinator.scope ∨
      checkpoint.databaseUrls ≠ coordinator.targets.map Target.url)
    "reset target scope differs from external checkpoint"
  refuseIf (newCycle = true ∧ ∃ checkpoint ∈ found, checkpoint.phase ≠ .complete)
    "unfinished reset must resume, not start another cycle"
  match found, newCycle with
  | some checkpoint, false => return checkpoint
  | _, _ => do
    let cycle ← newCycleNumber
    let workloads ← coordinator.snapshot
    let databases ← inventories coordinator.targets
    let checkpoint : Checkpoint := {
      cycle
      scope := coordinator.scope
      databaseUrls := coordinator.targets.map Target.url
      phase := .discovered
      workloads
      databases
      reset := []
      initialized := []
      mapping := []
      quarantine := true }
    save checkpoint
    return checkpoint

/-- The phase `discovered`. -/
def preserve (checkpoint : Checkpoint) : ResetM Checkpoint := do
  coordinator.pause checkpoint.workloads
  let rows ← liveModels
  let backup ← coordinator.refreshBackup rows
  coordinator.startPreferences checkpoint.workloads
  (backup.map ModelRow.userId).dedup.forM (verifyOwner backup)
  coordinator.pause checkpoint.workloads
  let current ← liveModels
  refuseIf (current ≠ [] ∧ current ≠ backup) "model configuration changed during preservation"
  let associations ← allAssociations coordinator.targets
  writeAssociations associations
  let preserved := { checkpoint with phase := .preserved }
  save preserved
  return preserved

/-- A database is dropped, if it was not before. -/
def dropTarget (checkpoint : Checkpoint) (service : Text) (captured : Inventory) :
    ResetM Checkpoint :=
  if service ∈ checkpoint.reset then pure checkpoint
  else do
    resetDatabase service captured
    let next := { checkpoint with reset := checkpoint.reset ++ [service] }
    save next
    return next

/-- A database is initialized, if it was not before. -/
def initializeTarget (checkpoint : Checkpoint) (service : Text) (captured : Inventory) :
    ResetM Checkpoint :=
  if service ∈ checkpoint.initialized then pure checkpoint
  else do
    coordinator.initializeDatabase service captured
    let next := { checkpoint with initialized := checkpoint.initialized ++ [service] }
    save next
    return next

/-- A database in the phase `preserved`. -/
def resetTarget (checkpoint : Checkpoint) (target : Target) (captured : Inventory) :
    ResetM Checkpoint := do
  let quiet ← coordinator.fenced checkpoint.workloads []
  refuseIf (quiet = false) "writers escaped their reset fence"
  let dropped ← dropTarget checkpoint target.service captured
  coordinator.initializeTarget dropped target.service captured

/-- The databases in the phase `preserved`. -/
def resetTargets (checkpoint : Checkpoint) : List Target → List Inventory → ResetM Checkpoint
  | [], [] => return checkpoint
  | target :: targets, captured :: inventories => do
    let next ← coordinator.resetTarget checkpoint target captured
    resetTargets next targets inventories
  | _, _ => throw (.system "ValueError")

/-- The phase `preserved`. -/
def resetAll (checkpoint : Checkpoint) : ResetM Checkpoint := do
  let dropped ← coordinator.resetTargets checkpoint coordinator.targets checkpoint.databases
  let next := { dropped with phase := .restore }
  save next
  return next

/-- The phase `restore`. -/
def restore (checkpoint : Checkpoint) : ResetM Checkpoint := do
  let quiet ← coordinator.fenced checkpoint.workloads [preferencesService]
  refuseIf (quiet = false) "dependent writers escaped restoration fence"
  coordinator.startPreferences checkpoint.workloads
  let stored ← readModels
  let backup ← Program.evaluate (coordinator.validators.validateModels stored)
  let mapping ← coordinator.restoreModels backup true
  let again ← coordinator.restoreModels backup false
  refuseIf (again ≠ mapping) "restoration identity changed between verification passes"
  let next := { checkpoint with mapping, phase := .restored }
  save next
  return next

/-- The phase `restored`. -/
def beginResuming (checkpoint : Checkpoint) : ResetM Checkpoint := do
  let quiet ← coordinator.fenced checkpoint.workloads [preferencesService]
  refuseIf (quiet = false) "dependent writers escaped restoration fence"
  let next := { checkpoint with phase := .resuming }
  save next
  return next

/-- The phase `resuming`. -/
def finish (checkpoint : Checkpoint) : ResetM Checkpoint := do
  coordinator.resume checkpoint.workloads
  let quiet ← coordinator.fenced checkpoint.workloads
    ((checkpoint.workloads.items.map fun item ↦ item.definition.service).filter (· ∉ controllers))
  refuseIf (quiet = false) "historical lifecycle controllers escaped quarantine"
  let next := { checkpoint with phase := .complete }
  save next
  return next

/-- A phase that is gone through when the checkpoint is in it. -/
def during (phase : ResetPhase) (action : Checkpoint → ResetM Checkpoint)
    (checkpoint : Checkpoint) : ResetM Checkpoint :=
  if checkpoint.phase = phase then action checkpoint else pure checkpoint

/-- `run`, under its lock. -/
def run (newCycle : Bool) : ResetM Evidence := do
  let begun ← coordinator.begin newCycle
  if begun.phase = .complete then return begun.evidence
  else
    let preserved ← during .discovered coordinator.preserve begun
    let stored ← readModels
    let _ ← Program.evaluate (coordinator.validators.validateModels stored)
    readAssociations
    let dropped ← during .preserved coordinator.resetAll preserved
    let restored ← during .restore coordinator.restore dropped
    let resuming ← during .restored coordinator.beginResuming restored
    let finished ← during .resuming coordinator.finish resuming
    return finished.evidence

end ResetCoordinator

/-- What happens. -/
inductive ResetInput where
  /-- Others do something between the runs. -/
  | disturb (disturbance : Disturbance)
  /-- A run of the coordinator, with what happens around its operations. -/
  | run (newCycle : Bool) (future : ℕ → Moment Disturbance ResetRaised)

/-- One step. -/
def ResetCoordinator.step (coordinator : ResetCoordinator) (state : ResetState) :
    ResetInput → ResetState
  | .disturb disturbance => state.change disturbance
  | .run newCycle future => (coordinator.run newCycle ⟨state, future⟩).2.state

/-- The state after some inputs. -/
def ResetCoordinator.after (coordinator : ResetCoordinator) (state : ResetState)
    (inputs : List ResetInput) : ResetState :=
  inputs.foldl coordinator.step state

end Ads.Deploy.Reset
