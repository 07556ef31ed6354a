import Ads.SandboxManager.PairStore

/-!
# Sessions

`SessionRepository`: a session is inserted as pending, claimed by a provisioner together with its
disk, filled in while it is being created, and marked ready once every resource of its pair is
settled and bound (`pairedReady`). A session without a pair is built in the older way, with
Deployments; wherever a pair or an egress state is left of it, that way is closed
(`requireUnpaired`).
-/

set_option autoImplicit false
set_option relaxedAutoImplicit false

namespace Ads.SandboxManager

open Foundation Foundation.StateExcept Python

/-- `_require_unpaired`. -/
def requireUnpaired (db : Database) (sessionId sandboxId : Uuid) : Attempt Unit := do
  failIf (∃ row ∈ db.sessions.rows, row.ipcPodUid ≠ none ∧
      (row.sessionId = sessionId ∨ row.sandboxId = sandboxId))
    (.runtimeError "paired IPC Pod binding blocks legacy session admission")
  failIf (∃ intent ∈ db.intents.rows, intent.sessionId = sessionId ∨ intent.sandboxId = sandboxId)
    (.runtimeError "retained pair ownership blocks legacy session admission")
  failIf (∃ state ∈ db.states.rows, state.sessionId = sessionId ∨ state.sandboxId = sandboxId)
    (.runtimeError "retained egress state blocks legacy session admission")

/-! ### Readiness -/

/-- An entry whose write is settled and bound, and that the session records. -/
def Slot.boundTo (slot : Slot Uid) (recorded : Option Uid) : Bool :=
  slot.dispatch = .settled && slot.uid.isSome && recorded = slot.uid

/-- The volume of a role is ready. -/
def readyVolume (db : Database) (row : SandboxSession) (owner : Uuid) (intent : PairIntent)
    (role : VolumeRole) : Attempt Bool := do
  let entry ← require (intent.volumeResources role) (.runtimeError "corrupt paired clone payload")
  let _ ← currentVolume db row owner intent.generation role entry.payload
  return Slot.boundTo (intent.slot (.volume role)) (row.boundVolume role)

/-- The IPC resource of a role is ready. -/
def readyIpc (db : Database) (row : SandboxSession) (intent : PairIntent) (role : IpcRole) :
    Attempt Bool := do
  let entry ← require (intent.ipcResources role) (.runtimeError "corrupt paired IPC payload")
  ipcDependencies db intent row role entry.payload
  return Slot.boundTo (intent.slot (.ipc role)) (row.boundIpc role)

/-- The checks of `paired_ready` that may raise. -/
def readyPair (db : Database) (row : SandboxSession) (owner generation : Uuid) :
    Attempt Bool := do
  let intent ← owned db row owner generation [.creating]
  let workspace ← readyVolume db row owner intent .workspace
  let guest ← readyVolume db row owner intent (.clone .guest)
  let egress ← readyVolume db row owner intent (.clone .egress)
  let key ← readyVolume db row owner intent (.clone .key)
  let ipcVolume ← readyIpc db row intent .volume
  let ipcPod ← readyIpc db row intent .pod
  return intent.topicsDispatch = .settled && workspace && guest && egress && key && ipcVolume &&
    ipcPod

/-- `paired_ready`: nothing of a session that never had a pair. -/
def pairedReady (db : Database) (row : SandboxSession) : Option Bool :=
  match db.intents.rows.find? fun intent ↦ intent.retiredAt = none ∧
      (intent.sessionId = row.sessionId ∨ intent.sandboxId = row.sandboxId) with
  | none =>
    if (∃ state ∈ db.states.rows, state.sessionId = row.sessionId ∨
          state.sandboxId = row.sandboxId) ∨
        ∃ intent ∈ db.intents.rows, intent.sessionId = row.sessionId ∨
          intent.sandboxId = row.sandboxId then
      some false
    else
      none
  | some intent =>
    match row.claimedBy with
    | none => some false
    | some owner =>
      if row.status ≠ .creating ∨ row.guestDeploymentUid ≠ none ∨ row.ipcDeploymentUid ≠ none then
        some false
      else
        match readyPair db row owner intent.generation with
        | .ok ready => some ready
        | .error _ => some false

/-- The CA clones of a session are complete, if it has any. -/
def SandboxSession.CaComplete (row : SandboxSession) : Prop :=
  row.caAttempt ≠ none → row.caSources ≠ none ∧ ∀ consumer, row.caClone consumer ≠ none

instance (row : SandboxSession) : Decidable row.CaComplete :=
  inferInstanceAs (Decidable (_ → _))

/-- The columns that the update of `mark_ready` requires. -/
def SandboxSession.Creatable (row : SandboxSession) (pairReady : Option Bool) : Prop :=
  row.status = .creating ∧ row.pvcUid ≠ none ∧ row.ipcPvcUid ≠ none ∧
    (pairReady = some true ∨ row.guestDeploymentUid ≠ none) ∧
    if pairReady = some true then row.ipcPodUid ≠ none else row.ipcDeploymentUid ≠ none

instance (row : SandboxSession) (pairReady : Option Bool) : Decidable (row.Creatable pairReady) :=
  inferInstanceAs (Decidable (_ ∧ _))

/-- `by_sandbox`. -/
def Database.bySandbox (db : Database) (sandboxId : Uuid) : Option SandboxSession :=
  db.sessions.rows.find? fun row ↦ row.sandboxId = sandboxId

/-- What `mark_ready` checks before its update. -/
def Database.readyToMark (db : Database) (sandboxId : Uuid) (expected : Time) :
    Option (SandboxSession × SessionPVC) := do
  let row ← db.bySandbox sandboxId
  let pvc ← db.pvcOf row
  let pairReady := pairedReady db row
  if row.statusChangedAt = expected ∧ pairReady ≠ some false ∧
      (pairReady = none → row.ipcPodUid = none) ∧ row.CaComplete ∧ pvc.state = .attaching ∧
      row.Creatable pairReady then
    some (row, pvc)
  else
    none

/-- `mark_ready`. -/
def markReady (db : Database) (sandboxId : Uuid) (now expected : Time) : Bool × Database :=
  match db.readyToMark sandboxId expected with
  | none => (false, db)
  | some (row, pvc) =>
    (true, (db.putSession { row with
        status := .ready
        statusChangedAt := advance row.statusChangedAt now
        lastExecutionAt := now }).putPvc { pvc with
        state := .attached
        lastStateChange := advance pvc.lastStateChange now
        lastExecution := now })

/-! ### Executions -/

/-- `stamp_result`. -/
def stampResult (db : Database) (sandboxId : Uuid) (now : Time) : Database :=
  match db.bySandbox sandboxId with
  | none => db
  | some row =>
    (db.putSession { row with lastExecutionAt := max row.lastExecutionAt now }).putPvc?
      ((db.pvcOf row).map fun pvc ↦ { pvc with lastExecution := max pvc.lastExecution now })

/-- `admit`. -/
def admitSession (db : Database) (sessionId : Uuid) (now : Time) : Option SandboxSession × Database :=
  match db.sessions.find sessionId with
  | none => (none, db)
  | some row =>
    match db.pvcOf row with
    | none => (none, db)
    | some pvc =>
      if row.status = .ready ∧ pvc.state = .attached then
        let admitted := { row with lastExecutionAt := max row.lastExecutionAt now }
        (some admitted, (db.putSession admitted).putPvc
          { pvc with lastExecution := max pvc.lastExecution now })
      else
        (none, db)

/-! ### Admission -/

/-- `insert_pending`: nothing for a session that is there. -/
def insertPending (db : Database) (sessionId sandboxId : Uuid) (version : Text) (now : Time)
    (projectId : Uuid) : Attempt (Bool × Database) :=
  if db.sessions.find sessionId ≠ none then
    return (false, db)
  else do
    failIf (db.bySandbox sandboxId ≠ none) .integrityError
    let sessions ← require (db.sessions.insert
      { sessionId := sessionId
        sandboxId := sandboxId
        projectId := projectId
        status := .pending
        goldenVersion := version
        pvcUid := none
        pvcId := none
        serviceDeadline := none
        guestDeploymentUid := none
        ipcDeploymentUid := none
        ipcPodUid := none
        ipcPvcUid := none
        caAttempt := none
        caSources := none
        caClones := none
        claimedBy := none
        statusChangedAt := now
        lastExecutionAt := now }) .integrityError
    let db := { db with sessions := sessions }
    requireUnpaired db sessionId sandboxId
    return (true, db)

/-- The identities of the egress states of a session are those of its generations. -/
def Database.StatesTracked (db : Database) (sessionId : Uuid) : Prop :=
  (∀ state ∈ db.states.rows, state.sessionId = sessionId →
    ∃ intent ∈ db.intents.rows, intent.sessionId = sessionId ∧
      intent.egressStateId = some state.stateId) ∧
  ∀ intent ∈ db.intents.rows, intent.sessionId = sessionId →
    intent.egressStateId = none ∨ ∃ state ∈ db.states.rows, state.sessionId = sessionId ∧
      intent.egressStateId = some state.stateId

instance (db : Database) (sessionId : Uuid) : Decidable (db.StatesTracked sessionId) :=
  inferInstanceAs (Decidable (_ ∧ _))

/-- `require_destroyed_history`. -/
def requireDestroyedHistory (db : Database) (row : SandboxSession) : Attempt Unit := do
  (db.intents.rows.filter fun intent ↦ intent.sessionId = row.sessionId).forM fun intent ↦ do
    failIf (intent.retiredAt = none ∨ intent.sandboxId = row.sandboxId)
      (.claimLost "fresh admission precedes original generation retirement")
    let _ ← verifyRetirement db intent.generation
  failIf (¬ db.StatesTracked row.sessionId)
    (.claimLost "fresh admission has untracked persistent ownership")
  failIf (row.ipcPodUid ≠ none ∨ row.pvcId ≠ none ∨
      ∃ pvc ∈ db.pvcs.rows, pvc.sessionId = row.sessionId)
    (.claimLost "fresh admission has unfinished session bindings")

/-- The admission that `claim` requires: of what a pair retained, of a session whose pairs are
destroyed, or of one that never had a pair. -/
def requireAdmission (db : Database) (current : SandboxSession) (paired : Bool) :
    Attempt Unit := do
  if paired = true ∧ current.status = .stopped then
    if current.pvcId ≠ none then
      let _ ← available db current
    else
      requireDestroyedHistory db current
  else
    requireUnpaired db current.sessionId current.sandboxId

/-- The claimed session. -/
def SandboxSession.claimed (row : SandboxSession) (owner : Uuid) (now : Time) : SandboxSession :=
  { row with
    status := .creating
    claimedBy := some owner
    statusChangedAt := advance row.statusChangedAt now
    guestDeploymentUid := none
    ipcDeploymentUid := none
    ipcPvcUid := none
    caAttempt := none
    caSources := none
    caClones := none }

/-- `claim`. A session without a disk gets a new one. -/
def claim (db : Database) (row : SandboxSession) (owner pvcId : Uuid) (now : Time)
    (paired : Bool) : Attempt (Option SandboxSession × Database) :=
  match db.sessions.find row.sessionId with
  | none => return (none, db)
  | some current =>
    if (current.status ≠ .pending ∧ current.status ≠ .stopped) ∨
        (current.sandboxId, current.status, current.statusChangedAt, current.pvcId) ≠
          (row.sandboxId, row.status, row.statusChangedAt, row.pvcId) then
      return (none, db)
    else do
      requireAdmission db current paired
      match current.pvcId, db.pvcOf current with
      | some _, none => return (none, db)
      | _, some pvc =>
        if pvc.state ≠ .detached then
          return (none, db)
        else
          let claimed := current.claimed owner now
          return (some claimed, (db.putPvc { pvc with
            state := .attaching
            lastStateChange := advance pvc.lastStateChange now }).putSession claimed)
      | none, none => do
        let db ← db.insertPvc
          { pvcId := pvcId
            sessionId := current.sessionId
            sandboxId := current.sandboxId
            uid := none
            releaseEvidence := none
            state := .attaching
            lastExecution := now
            lastStateChange := now }
        let claimed := { current.claimed owner now with
          pvcId := some pvcId
          pvcUid := none }
        return (some claimed, db.putSession claimed)

/-! ### Provisioning -/

/-- What the provisioner records of a session. -/
inductive RecordedValues where
  | failed (changed : Time)
  | disk (pvcUid : Uid) (goldenVersion : Text)
  | ipcPvc (uid : Uid)
  | guestDeployment (uid : Uid)
  | ipcDeployment (uid : Uid)
  | caIntent (attempt : Uuid) (sources : CaSources)
  | caClones (clones : CaConsumer → Option Uid)
  deriving DecidableEq

/-- The columns with the recorded values. -/
def RecordedValues.apply (row : SandboxSession) : RecordedValues → SandboxSession
  | .failed changed => { row with
      status := .failed
      statusChangedAt := advance row.statusChangedAt changed }
  | .disk pvcUid goldenVersion => { row with
      pvcUid := some pvcUid
      goldenVersion := goldenVersion }
  | .ipcPvc uid => { row with ipcPvcUid := some uid }
  | .guestDeployment uid => { row with guestDeploymentUid := some uid }
  | .ipcDeployment uid => { row with ipcDeploymentUid := some uid }
  | .caIntent attempt sources => { row with
      caAttempt := some attempt
      caSources := some sources
      caClones := some fun _ ↦ none }
  | .caClones clones => { row with caClones := some clones }

/-- The disk with the recorded values. -/
def RecordedValues.applyPvc (pvc : SessionPVC) : RecordedValues → SessionPVC
  | .failed changed => { pvc with
      state := .failed
      lastStateChange := advance pvc.lastStateChange changed }
  | .disk pvcUid _ => { pvc with uid := some pvcUid }
  | _ => pvc

/-- `SessionRepository.owned`. -/
def Database.ownedBy (db : Database) (row : SandboxSession) (owner : Uuid) :
    Option SandboxSession :=
  (db.sessions.find row.sessionId).filter fun current ↦
    current.sandboxId = row.sandboxId ∧ current.claimedBy = some owner ∧
      current.status = .creating ∧ current.statusChangedAt = row.statusChangedAt

/-- `record`. -/
def record (db : Database) (row : SandboxSession) (owner : Uuid) (values : RecordedValues) :
    Option SandboxSession × Database :=
  match db.ownedBy row owner with
  | none => (none, db)
  | some current =>
    (some (values.apply current), (db.putPvc? ((db.pvcOf row).map values.applyPvc)).putSession
      (values.apply current))

end Ads.SandboxManager
