import Ads.SandboxManager.Cleanup

/-!
# The lifecycle of a session

The transitions that a cleanup begins with: an inactive session is shut down (`idle`), a detached
disk is reaped (`reap`), a stopped session is serviced (`service`), and a stalled one is recovered
under a new sandbox (`recover`). Each puts the session and its disk into a state of its own and
stores the cleanup with a snapshot of the pair. `complete` ends a cleanup that has no pair.

A reaped disk of a retired generation is disposed of with the whole generation: the receipt
(`beginDisposal`) excludes a transfer, and the cleanup carries the objects of a generation of the
sandbox (`retiredTargets`).
-/

set_option autoImplicit false
set_option relaxedAutoImplicit false

namespace Ads.SandboxManager

open Foundation Foundation.StateExcept Python

/-! ### Targets -/

/-- `target`. -/
def target (kind : ObjectKind) (name : ObjectName) (uid : Option Uid) (retain : Bool) : Target :=
  ⟨kind, name, uid, retain, none, false⟩

/-- A target that release evidence is spread over. -/
def Target.withRelease (object : Target) (release : Option Release) : Target :=
  { object with release := release }

/-- `sandbox_targets`. -/
def sandboxTargets (row : SandboxSession) (retain : Bool) : List Target :=
  [if row.ipcPodUid ≠ none then target .pod (.ipc row.sandboxId) row.ipcPodUid false
    else target .deployment (.ipc row.sandboxId) row.ipcDeploymentUid false,
    target .deployment (.session row.sandboxId) row.guestDeploymentUid false,
    target .persistentVolumeClaim (.ipc row.sandboxId) row.ipcPvcUid false] ++
  (if row.caAttempt ≠ none then CaConsumer.all.map fun consumer ↦
      target .persistentVolumeClaim (.caConsumer consumer row.sandboxId) (row.caClone consumer) false
    else []) ++
  row.pvcId.toList.map fun pvcId ↦
    target .persistentVolumeClaim (.session pvcId) row.pvcUid retain

namespace PairLedger

variable (ledger : PairLedger)

/-- The IPC Pod of a generation. -/
def ipcPodTarget : Target :=
  target .pod (.ipc ledger.sandboxId) (ledger.slot (.ipc .pod)).uid false

/-- The Pods of a generation that were observed. -/
def computeTargets : List Target :=
  ComputeRole.all.flatMap fun role ↦ (ledger.computeUids role).toList.map fun uid ↦
    target .pod (.pair role ledger.sandboxId) (some uid) false

/-- The controls of a generation that were observed. -/
def controlTargets : List Target :=
  ControlKey.all.flatMap fun key ↦ (ledger.controlUids key).toList.map fun uid ↦
    target key.object.1 (.pair key.object.2 ledger.sandboxId) (some uid) false

/-- The IPC volume of a generation, with its evidence. -/
def ipcVolumeTarget : Target :=
  (target .persistentVolumeClaim (.ipc ledger.sandboxId) (ledger.slot (.ipc .volume)).uid
    false).withRelease ((ledger.ipcResources .volume).bind (·.release))

/-- The CA clones of a generation that were observed, with their evidence. -/
def cloneTargets : List Target :=
  CaConsumer.all.flatMap fun consumer ↦
    (ledger.volumeResources (.clone consumer)).toList.flatMap fun entry ↦
      entry.uid.toList.map fun uid ↦
        (target .persistentVolumeClaim (.caConsumer consumer ledger.sandboxId) (some uid)
          false).withRelease entry.release

/-- The relay inputs of a generation that were observed. -/
def relayInputTargets : List Target :=
  RelayRole.all.flatMap fun role ↦ (ledger.slot (.relayInput role)).uid.toList.map fun uid ↦
    target .secret (.relayInput role ledger.sandboxId ledger.generation) (some uid) false

/-- The relay keys of a generation, if they were observed. -/
def custodyTargets : List Target :=
  (ledger.slot .custody).uid.toList.map fun uid ↦
    target .secret (.relayKeys ledger.sandboxId ledger.generation) (some uid) false

end PairLedger

/-- A resource of the egress state, the volume with its evidence. -/
def EgressState.target (state : EgressState) : StateRole → Target
  | .key => SandboxManager.target .secret (.egressState .key state.stateId) (state.uid .key) false
  | .volume => (SandboxManager.target .persistentVolumeClaim (.egressState .volume state.stateId)
      (state.uid .volume) false).withRelease state.volumeRelease

/-- `retired_targets`. -/
def retiredTargets (db : Database) (intent : PairIntent) (keep : List Target) : List Target :=
  [intent.ipcPodTarget] ++ intent.computeTargets ++ intent.controlTargets ++
    [intent.ipcVolumeTarget] ++ intent.cloneTargets ++ intent.relayInputTargets ++
    (if intent.egressStateId = none then []
      else (intent.egressStateId.bind db.states.find).toList.flatMap (fun state ↦
        [state.target .key, state.target .volume]) ++ intent.custodyTargets) ++
    keep

/-! ### Cleanup rows -/

/-- The cleanup that a transition stores. -/
def newWork (workId : Uuid) (row : SandboxSession) (pvc : Option SessionPVC) (kind : WorkKind)
    (deadline : Time) (targets : List Target) (snapshot : Option PairSnapshot) : CleanupWork :=
  { workId := workId
    sessionId := some row.sessionId
    sandboxId := row.sandboxId
    pvcId := pvc.map SessionPVC.pvcId
    kind := kind
    stateChanged := row.statusChangedAt
    pvcChanged := pvc.map SessionPVC.lastStateChange
    deadline := deadline
    acknowledged := false
    targets := targets
    pairSnapshot := snapshot }

/-- The IPC object of a target list, as the Pod of the pair. -/
def Target.asPairPod (object : Target) (sandboxId : Uuid) (uid : Option Uid) : Target :=
  if object.name = .ipc sandboxId ∧ (object.kind = .deployment ∨ object.kind = .pod) then
    { object with kind := .pod, uid := uid }
  else
    object

/-- `LifecycleRepository.work`. -/
def makeWork (db : Database) (workId : Uuid) (row : SandboxSession) (pvc : Option SessionPVC)
    (kind : WorkKind) (now timeout : Time) (targets : List Target) :
    Attempt (CleanupWork × Database) := do
  let snapshot ← pairSnapshot db row.sessionId row.sandboxId none
  failIf (row.ipcPodUid ≠ none ∧ snapshot = none)
    (.runtimeError "paired IPC Pod has no retained generation ownership")
  let podUid := snapshot.bind fun captured ↦ (captured.slot (.ipc .pod)).uid
  failIf (snapshot ≠ none ∧ row.ipcPodUid ≠ none ∧ row.ipcPodUid ≠ podUid)
    (.runtimeError "paired IPC Pod session identity changed")
  let targets := if snapshot = none then targets
    else targets.map (·.asPairPod row.sandboxId podUid)
  let work := newWork workId row pvc kind (now + timeout) targets snapshot
  let db ← db.insertWork work
  return (work, db)

/-! ### Idle and service -/

/-- `idle`. -/
def idle (db : Database) (sessionId sandboxId workId : Uuid) (now inactivity timeout : Time) :
    Attempt (Option CleanupWork × Database) :=
  match db.locked sessionId sandboxId with
  | some (row, some pvc) =>
    if row.status = .ready ∧ row.lastExecutionAt ≤ now - inactivity ∧ pvc.state = .attached ∧
        pvc.lastExecution ≤ now - inactivity then do
      let row := { row with
        status := .shuttingDown
        statusChangedAt := advance row.statusChangedAt now }
      let pvc := { pvc with
        state := .detaching
        lastStateChange := advance pvc.lastStateChange now }
      let (work, db) ← makeWork ((db.putSession row).putPvc pvc) workId row pvc .idle now timeout
        (sandboxTargets row true)
      return (some work, db)
    else
      return (none, db)
  | _ => return (none, db)

/-- `service`. -/
def service (db : Database) (sessionId sandboxId workId : Uuid) (now timeout : Time)
    (targets : List Target) : Attempt (Option CleanupWork × Database) :=
  match db.locked sessionId sandboxId with
  | some (row, pvc) =>
    if row.status = .stopped ∧ pvc.all (·.state = .detached) = true ∧
        (db.latestIntent sandboxId).all (·.retiredAt = none) = true then do
      let row := { row with
        status := .service
        statusChangedAt := advance row.statusChangedAt now
        serviceDeadline := some (now + timeout) }
      let (work, db) ← makeWork (db.putSession row) workId row pvc .service now timeout targets
      return (some work, db)
    else
      return (none, db)
  | none => return (none, db)

/-! ### Disposal -/

/-- `PairDisposalRepository._retained_workspace`. -/
def retainedWorkspace (db : Database) (generation : Uuid) :
    Attempt (PairIntent × IssuedVolume VolumePayload) := do
  let intent ← require (db.intents.find generation)
    (.claimLost "retained lifetime is not idle-retained original storage")
  failIf (intent.retiredAt = none ∨ intent.creationFenced = false ∨
      ∃ other ∈ db.intents.rows, other.retainedFrom = some generation)
    (.claimLost "retained lifetime is not idle-retained original storage")
  let workspace ← require (intent.volumeResources .workspace)
    (.claimLost "retained lifetime never held its workspace storage")
  return (intent, workspace)

/-- `orphan_scope`. -/
def orphanScope (db : Database) (intent : PairIntent) : Attempt Unit :=
  failIf (¬ Unowned db intent.sessionId intent.sandboxId)
    (.claimLost "retained orphan has a live ownership claim")

/-- `PairDisposalRepository.begin`. -/
def beginDisposal (db : Database) (work : CleanupWork) (generation : Uuid) (now : Time) :
    Attempt Database := do
  let (intent, workspace) ← retainedWorkspace db generation
  failIf ((work.kind ≠ .reap ∧ work.kind ≠ .orphan) ∨ owns db work = false ∨
      work.sandboxId ≠ intent.sandboxId) (.claimLost "retained expiry claim changed")
  if work.kind = .orphan then do
    failIf (work.sessionId ≠ none ∨ work.pvcId ≠ none)
      (.claimLost "retained orphan work has a session binding")
    orphanScope db intent
  else do
    let pvc ← require (work.pvcId.bind db.pvcs.find)
      (.claimLost "retained expiry workspace changed")
    failIf (work.sessionId ≠ some intent.sessionId ∨ pvc.pvcId ≠ workspace.payload.pvcId ∨
        pvc.uid ≠ workspace.uid) (.claimLost "retained expiry workspace changed")
  db.insertDisposal
    { generation := intent.generation
      workId := work.workId
      sessionId := intent.sessionId
      sandboxId := intent.sandboxId
      projectId := intent.projectId
      pvcId := workspace.payload.pvcId
      pvcUid := workspace.uid
      createdAt := now
      completedAt := none }

/-! ### Reap -/

/-- A disk that may be reaped. -/
def Reapable (row : SandboxSession) (pvc : SessionPVC) (pvcId : Uuid)
    (now inactivity detached : Time) : Prop :=
  row.status = .stopped ∧ pvc.pvcId = pvcId ∧ pvc.state = .detached ∧
    pvc.lastExecution ≤ now - inactivity ∧ row.lastExecutionAt ≤ now - inactivity ∧
    pvc.lastStateChange ≤ now - detached

instance (row : SandboxSession) (pvc : SessionPVC) (pvcId : Uuid)
    (now inactivity detached : Time) : Decidable (Reapable row pvc pvcId now inactivity detached) :=
  inferInstanceAs (Decidable (_ ∧ _))

/-- The first generation of a sandbox in the order of the table. -/
def Database.history (db : Database) (sandboxId : Uuid) : Option PairIntent :=
  db.intents.rows.find? fun intent ↦ intent.sandboxId = sandboxId

/-- The cleanup of a reap, with the inventory of a retired generation. -/
def withHistory (db : Database) (work : CleanupWork) (history : Option PairIntent) :
    Attempt CleanupWork :=
  match work.pairSnapshot, history with
  | none, some intent =>
    if intent.retiredAt ≠ none then do
      let snapshot ← pairSnapshot db intent.sessionId intent.sandboxId (some intent.generation)
      return { work with
        pairSnapshot := snapshot
        targets := retiredTargets db intent work.targets }
    else
      return work
  | _, _ => return work

/-- `reap`. -/
def reap (db : Database) (sessionId sandboxId pvcId workId : Uuid)
    (now inactivity detached timeout : Time) : Attempt (Option CleanupWork × Database) :=
  match db.locked sessionId sandboxId with
  | some (row, some pvc) =>
    if Reapable row pvc pvcId now inactivity detached then do
      let history := db.history sandboxId
      let saved ← if history ≠ none then (some ·.1) <$> available db row else pure none
      let destroyed := { pvc with
        state := .destroying
        lastStateChange := advance pvc.lastStateChange now }
      let (work, db) ← makeWork (db.putPvc destroyed) workId row destroyed .reap now timeout
        [(target .persistentVolumeClaim (.session pvcId) pvc.uid false).withRelease
          (pvc.releaseEvidence.bind Target.release)]
      let work ← withHistory db work history
      let db := db.putWork work
      match saved with
      | some saved => do
        let db ← beginDisposal db work saved.generation now
        return (some work, db)
      | none => return (some work, db)
    else
      return (none, db)
  | _ => return (none, db)

/-! ### Completion of a cleanup without a pair -/

/-- The columns that a stopped session clears. -/
def SandboxSession.stopped (row : SandboxSession) (now : Time) : SandboxSession :=
  { row with
    status := .stopped
    statusChangedAt := advance row.statusChangedAt now
    serviceDeadline := none
    guestDeploymentUid := none
    ipcDeploymentUid := none
    ipcPvcUid := none
    caAttempt := none
    caSources := none
    caClones := none }

/-- The disk that an idle session leaves behind. -/
def SessionPVC.detached (pvc : SessionPVC) (now : Time) (evidence : Target) : SessionPVC :=
  { pvc with
    state := .detached
    lastStateChange := advance pvc.lastStateChange now
    releaseEvidence := some evidence }

/-- `complete`, where a session has the cleanup. -/
def completeSession (db : Database) (work : CleanupWork) (row : SandboxSession)
    (pvc : Option SessionPVC) (now : Time) : Attempt Database :=
  match work.kind, pvc with
  | .reap, none => throw .assertionError
  | .reap, some pvc =>
    return (db.putSession { row with pvcId := none, pvcUid := none }).deletePvc pvc.pvcId
  | .idle, none => throw .assertionError
  | .idle, some pvc => do
    let retained ← require (work.targets.find? Target.retain) .assertionError
    return (db.putSession (row.stopped now)).putPvc (pvc.detached now retained)
  | _, _ => return db.putSession (row.stopped now)

/-- `complete`. -/
def complete (db : Database) (work : CleanupWork) (now : Time) : Attempt (Bool × Database) :=
  if owns db work = false ∨
      (db.works.find work.workId).all (·.pairSnapshot ≠ none) = true then
    return (false, db)
  else
    match work.sessionId with
    | none => return (true, db.deleteWork work.workId)
    | some sessionId => do
      let (row, pvc) ← require (db.locked sessionId work.sandboxId) .assertionError
      if row.ipcPodUid ≠ none then
        return (false, db)
      else do
        let db ← completeSession db work row pvc now
        return (true, db.deleteWork work.workId)

/-! ### Recovery -/

/-- A session that may be recovered: no disposal is open, its disk is not retained, and an earlier
recovery has timed out. -/
def Recoverable (db : Database) (row : SandboxSession) (pvc : Option SessionPVC)
    (now timeout : Time) : Prop :=
  (∀ disposal ∈ db.disposals.rows, disposal.sessionId = row.sessionId →
    disposal.completedAt ≠ none) ∧
  row.status ≠ .shuttingDown ∧
  (row.status = .stopped → pvc.any (·.state = .destroying) = true) ∧
  (∀ work ∈ db.works.rows, work.sessionId = some row.sessionId →
    ∀ object ∈ work.targets, object.retain = false) ∧
  (row.status = .recovering → row.statusChangedAt ≤ now - timeout)

instance (db : Database) (row : SandboxSession) (pvc : Option SessionPVC) (now timeout : Time) :
    Decidable (Recoverable db row pvc now timeout) :=
  inferInstanceAs (Decidable (_ ∧ _))

/-- The disk of a recovery with the evidence that was stored on it. -/
def Target.withEvidence (object : Target) (pvc : Option SessionPVC) : Target :=
  match pvc with
  | none => object
  | some pvc => match pvc.releaseEvidence with
    | none => object
    | some evidence =>
      if object.name = .session pvc.pvcId then
        { object with release := evidence.release, cleaned := evidence.cleaned }
      else
        object

/-- An earlier cleanup of the session, which the recovery takes over with its evidence. -/
def carryOver (db : Database) (sessionId : Uuid) (work : CleanupWork) : Attempt CleanupWork :=
  match work.pairSnapshot with
  | some _ => return { work with kind := .recovery }
  | none => do
    let snapshot ← pairSnapshot db sessionId work.sandboxId none
    return { work with kind := .recovery, pairSnapshot := snapshot }

/-- The session under a new sandbox. -/
def SandboxSession.recovering (row : SandboxSession) (sandboxId : Uuid) (now : Time) :
    SandboxSession :=
  { row with
    sandboxId := sandboxId
    status := .recovering
    statusChangedAt := advance row.statusChangedAt now
    serviceDeadline := none
    claimedBy := none
    pvcId := none
    pvcUid := none
    guestDeploymentUid := none
    ipcDeploymentUid := none
    ipcPvcUid := none
    ipcPodUid := none
    caAttempt := none
    caSources := none
    caClones := none }

/-- `recover`. -/
def recover (db : Database) (sessionId sandboxId workId newSandboxId : Uuid)
    (now timeout : Time) : Attempt (Bool × Database) :=
  match db.locked sessionId sandboxId with
  | some (row, pvc) =>
    if Recoverable db row pvc now timeout then do
      let previous := db.works.rows.filter fun work ↦ work.sessionId = some sessionId
      let (old, db) ← makeWork db workId row pvc .recovery now timeout (sandboxTargets row false)
      let db := db.putWork { old with targets := old.targets.map (·.withEvidence pvc) }
      let carried ← previous.mapM (carryOver db sessionId)
      let db := carried.foldl Database.putWork db
      return (true, (db.putSession (row.recovering newSandboxId now)).putPvc? (pvc.map fun pvc ↦
        { pvc with
          state := .failed
          lastStateChange := advance pvc.lastStateChange now }))
    else
      return (false, db)
  | none => return (false, db)

end Ads.SandboxManager
