import Ads.Foundation.Runs
import Ads.SandboxManager.Retirement

/-!
# The manager

The replicas of the manager work on one database, and each of their transactions is one step. A step
carries what its caller knows: session rows and cleanups that were read from a committed state, an
observation of the cluster, the reading of a clock, and the identifiers that `uuid4` draws. A
transaction that raises leaves the database as it was. Cleanup rows and session rows may be lost.

A step may be taken when its identifiers are new, what it was given was read, and, for the Pods of a
generation that inherited its disk, when the transfer was validated before, as `PairCreation.build`
does.
-/

set_option autoImplicit false
set_option relaxedAutoImplicit false

namespace Ads.SandboxManager

open Foundation Foundation.StateExcept Python

/-- What a generation may have created: its resources, those of its egress state, and its topics. -/
inductive Resource where
  | key (key : Key)
  | state (role : StateRole)
  | topics
  deriving DecidableEq

/-- What a step answers: the write of a resource is granted to the caller. -/
inductive Effect where
  | granted (generation : Uuid) (resource : Resource)
  deriving DecidableEq

/-- What the creator of a generation does under its claim. -/
inductive CreatorCall where
  | dispatchControl (key : ControlKey)
  | bindControl (key : ControlKey) (uid : Uid)
  | dispatchCompute (role : ComputeRole)
  | reserveCompute (role : ComputeRole) (payload : ComputePayload role)
  | bindCompute (role : ComputeRole) (uid : Uid)
  | reserveRelayKeys (publicKeys : PublicKeys)
  | bindRelayKeys (uid : Uid)
  | reserveRelayInput (role : RelayRole) (payload : RelayInput)
  | bindRelayInput (role : RelayRole) (uid : Uid)
  | reserveVolume (role : VolumeRole) (payload : VolumePayload)
  | bindVolume (role : VolumeRole) (uid : Uid)
  | recordVolumeRelease (role : VolumeRole) (evidence : Release) (ready : Bool)
  | dispatchTopics
  | reserveState (stateId : Uuid) (keyFingerprint : Text) (storageBytes : ℕ)
  | reserveStateVolume (stateId : Uuid)
  | bindState (stateId : Uuid) (role : StateRole) (uid : Uid)
  | recordStateVolumeRelease (stateId : Uuid) (evidence : Release)
  | reserveIpc (role : IpcRole) (payload : IpcPayload)
  | bindIpc (role : IpcRole) (uid : Uid)
  | recordIpcRelease (role : IpcRole) (evidence : Release) (ready : Bool)
  | validateTransfer (now : Time)

/-- The status in which release evidence is recorded: of the claim, or of a session that is ready. -/
def claimStatuses (ready : Bool) : List Status :=
  if ready then [.ready] else [.creating]

/-- A reservation with its answer. -/
def answer (generation : Uuid) (resource : Resource) (reserved : Bool × Database) :
    List Effect × Database :=
  (if reserved.1 then [.granted generation resource] else [], reserved.2)

/-- A change without an answer. -/
def silent (db : Database) : List Effect × Database :=
  ([], db)

/-- The transaction of a creator. -/
def CreatorCall.transact (db : Database) (row : SandboxSession) (owner generation : Uuid) :
    CreatorCall → Attempt (List Effect × Database)
  | .dispatchControl key =>
    answer generation (.key (.control key)) <$>
      SandboxManager.dispatchControl db row owner generation key
  | .bindControl key uid => silent <$> SandboxManager.bindControl db row owner generation key uid
  | .dispatchCompute role =>
    answer generation (.key (.compute role)) <$>
      SandboxManager.dispatchCompute db row owner generation role
  | .reserveCompute role payload =>
    answer generation (.key (.compute role)) <$>
      SandboxManager.reserveCompute db row owner generation role payload
  | .bindCompute role uid => silent <$> SandboxManager.bindCompute db row owner generation role uid
  | .reserveRelayKeys publicKeys =>
    answer generation (.key .custody) <$>
      SandboxManager.reserveRelayKeys db row owner generation publicKeys
  | .bindRelayKeys uid => silent <$> SandboxManager.bindRelayKeys db row owner generation uid
  | .reserveRelayInput role payload => answer generation (.key (.relayInput role)) <$>
    SandboxManager.reserveRelayInput db row owner generation role payload
  | .bindRelayInput role uid =>
    silent <$> SandboxManager.bindRelayInput db row owner generation role uid
  | .reserveVolume role payload =>
    answer generation (.key (.volume role)) <$>
      SandboxManager.reserveVolume db row owner generation role payload
  | .bindVolume role uid => silent <$> SandboxManager.bindVolume db row owner generation role uid
  | .recordVolumeRelease role evidence ready => silent <$>
    SandboxManager.recordVolumeRelease db row owner generation role evidence (claimStatuses ready)
  | .dispatchTopics =>
    answer generation .topics <$> SandboxManager.dispatchTopics db row owner generation
  | .reserveState stateId keyFingerprint storageBytes => answer generation (.state .key) <$>
    SandboxManager.reserveState db row owner generation stateId keyFingerprint storageBytes
  | .reserveStateVolume stateId =>
    answer generation (.state .volume) <$>
      SandboxManager.reserveStateVolume db row owner generation stateId
  | .bindState stateId role uid =>
    silent <$> SandboxManager.bindState db row owner generation stateId role uid
  | .recordStateVolumeRelease stateId evidence =>
    silent <$> SandboxManager.recordStateVolumeRelease db row owner generation stateId evidence
  | .reserveIpc role payload =>
    answer generation (.key (.ipc role)) <$>
      SandboxManager.reserveIpc db row owner generation role payload
  | .bindIpc role uid => silent <$> SandboxManager.bindIpc db row owner generation role uid
  | .recordIpcRelease role evidence ready => silent <$>
    SandboxManager.recordIpcRelease db row owner generation role evidence (claimStatuses ready)
  | .validateTransfer now => silent <$> SandboxManager.validateTransfer db row owner generation now

/-- What is settled when an original write returns. -/
inductive Settlement where
  | control (key : ControlKey)
  | compute (role : ComputeRole)
  | relayKeys
  | relayInput (role : RelayRole)
  | volume (role : VolumeRole)
  | ipc (role : IpcRole)
  | topics

/-- The transaction of an original write that returned. -/
def Settlement.transact (db : Database) (expected : PairIntent) : Settlement → Attempt Database
  | .control key => settleControl db expected key
  | .compute role => settleCompute db expected role
  | .relayKeys => settleRelayKeys db expected
  | .relayInput role => settleRelayInput db expected role
  | .volume role => settleVolume db expected role
  | .ipc role => settleIpc db expected role
  | .topics => settleTopics db expected

/-- What a cleanup does under its claim while it captures its pair. -/
inductive Capture where
  | fence
  | control (key : ControlKey) (uid : Option Uid)
  | compute (role : ComputeRole) (uid : Option Uid)
  | clone (role : VolumeRole) (uid : Option Uid)
  | ipcResource (role : IpcRole) (uid : Option Uid)
  | egressState (role : StateRole) (uid : Option Uid)
  | release (family : ReleaseFamily) (evidence : Release)
  | stateRelease (evidence : Release)
  | relayCustody (uid : Option Uid)
  | relayInput (role : RelayRole) (uid : Option Uid)
  | finishCapture

/-- The transaction of a capture. -/
def Capture.transact (db : Database) (work : CleanupWork) (now : Time)
    (recovery : Option RecoveryClaim) : Capture → Attempt Database
  | .fence => (·.2.2) <$> openCapture db work now recovery true
  | .control key uid => recordPairControl db work key uid now recovery
  | .compute role uid => recordPairCompute db work role uid now recovery
  | .clone role uid => recordClone db work role uid now recovery
  | .ipcResource role uid => recordIpcResource db work role uid now recovery
  | .egressState role uid => recordEgressState db work role uid now recovery
  | .release family evidence => recordPairRelease db work family evidence now recovery
  | .stateRelease evidence => recordStateRelease db work evidence now recovery
  | .relayCustody uid => recordRelayCustody db work uid now recovery
  | .relayInput role uid => recordRelayInput db work role uid now recovery
  | .finishCapture => (·.2) <$> sealPairCleanup db work now recovery

/-- The transactions of the manager, and the losses it must survive. -/
inductive Operation where
  | insertPending (sessionId sandboxId : Uuid) (version : Text) (now : Time) (projectId : Uuid)
  | claim (row : SandboxSession) (owner pvcId : Uuid) (now : Time) (paired : Bool)
  | begin (row : SandboxSession) (owner generation : Uuid) (namespaceName goldenVersion : Text)
      (resume : Bool)
  | create (row : SandboxSession) (owner generation : Uuid) (call : CreatorCall)
  | settle (expected : PairIntent) (settlement : Settlement)
  | settleState (expected : EgressState) (role : StateRole)
  | record (row : SandboxSession) (owner : Uuid) (values : RecordedValues)
  | markReady (sandboxId : Uuid) (now expected : Time)
  | stampResult (sandboxId : Uuid) (now : Time)
  | admitSession (sessionId : Uuid) (now : Time)
  | idle (sessionId sandboxId workId : Uuid) (now inactivity timeout : Time)
  | reap (sessionId sandboxId pvcId workId : Uuid) (now inactivity detached timeout : Time)
  | service (sessionId sandboxId workId : Uuid) (now timeout : Time) (targets : List Target)
  | recover (sessionId sandboxId workId newSandboxId : Uuid) (now timeout : Time)
  | shutdownAck (sandboxId : Uuid) (transition : Option Time)
  | capture (work : CleanupWork) (now : Time) (recovery : Option RecoveryClaim) (call : Capture)
  | complete (work : CleanupWork) (now : Time)
  | finishIdle (work : CleanupWork) (now : Time)
  | finishDestroyed (work : CleanupWork) (newSandboxId : Uuid) (now : Time)
  | finishDisposal (work : CleanupWork) (newSandboxId : Uuid) (now : Time)
  | recoveryFailed (row : SandboxSession) (now : Time)
  | finishUnpaired (row : SandboxSession) (works : List CleanupWork) (owner pvcId : Uuid)
      (now later : Time)
  | finishPaired (row : SandboxSession) (works : List CleanupWork) (owner pvcId : Uuid)
      (now later seconds : Time) (paired : Bool)
  | reconcile (generation workId : Uuid) (now timeout : Time)
  | saveTargets (workId : Uuid) (targets : List Target)
  | extendDeadline (workId : Uuid) (deadline : Time)
  | admitOrphan (workId sessionId sandboxId : Uuid) (targets : List Target) (now timeout : Time)
  | loseWork (workId : Uuid)
  | deleteSession (sessionId : Uuid)

namespace Operation

/-- The transaction of an operation. -/
def transact (db : Database) : Operation → Attempt (List Effect × Database)
  | insertPending sessionId sandboxId version now projectId =>
    silent <$> (·.2) <$> SandboxManager.insertPending db sessionId sandboxId version now projectId
  | claim row owner pvcId now paired =>
    silent <$> (·.2) <$> SandboxManager.claim db row owner pvcId now paired
  | begin row owner generation namespaceName goldenVersion resume =>
    silent <$> (·.2) <$>
      SandboxManager.begin db row owner generation namespaceName goldenVersion resume
  | create row owner generation call => call.transact db row owner generation
  | settle expected settlement => silent <$> settlement.transact db expected
  | settleState expected role => silent <$> SandboxManager.settleState db expected role
  | record row owner values => .ok (silent (SandboxManager.record db row owner values).2)
  | markReady sandboxId now expected =>
    .ok (silent (SandboxManager.markReady db sandboxId now expected).2)
  | stampResult sandboxId now => .ok (silent (SandboxManager.stampResult db sandboxId now))
  | admitSession sessionId now => .ok (silent (SandboxManager.admitSession db sessionId now).2)
  | idle sessionId sandboxId workId now inactivity timeout => silent <$> (·.2) <$>
    SandboxManager.idle db sessionId sandboxId workId now inactivity timeout
  | reap sessionId sandboxId pvcId workId now inactivity detached timeout => silent <$> (·.2) <$>
    SandboxManager.reap db sessionId sandboxId pvcId workId now inactivity detached timeout
  | service sessionId sandboxId workId now timeout targets =>
    silent <$> (·.2) <$> SandboxManager.service db sessionId sandboxId workId now timeout targets
  | recover sessionId sandboxId workId newSandboxId now timeout => silent <$> (·.2) <$>
    SandboxManager.recover db sessionId sandboxId workId newSandboxId now timeout
  | shutdownAck sandboxId transition =>
    .ok (silent (SandboxManager.shutdownAck db sandboxId transition))
  | capture work now recovery call => silent <$> call.transact db work now recovery
  | complete work now => silent <$> (·.2) <$> SandboxManager.complete db work now
  | finishIdle work now => silent <$> (·.2) <$> SandboxManager.finishIdle db work now
  | finishDestroyed work newSandboxId now =>
    silent <$> (·.2) <$> SandboxManager.finishDestroyed db work newSandboxId now
  | finishDisposal work newSandboxId now =>
    silent <$> SandboxManager.finishDisposal db work newSandboxId now
  | recoveryFailed row now => .ok (silent (SandboxManager.recoveryFailed db row now))
  | finishUnpaired row works owner pvcId now later =>
    silent <$> SandboxManager.finishUnpaired db row works owner pvcId now later
  | finishPaired row works owner pvcId now later seconds paired =>
    silent <$> SandboxManager.finishPaired db row works owner pvcId now later seconds paired
  | reconcile generation workId now timeout =>
    silent <$> (·.2) <$> SandboxManager.reconcile db generation workId now timeout
  | saveTargets workId targets => silent <$> SandboxManager.saveTargets db workId targets
  | extendDeadline workId deadline => silent <$> SandboxManager.extendDeadline db workId deadline
  | admitOrphan workId sessionId sandboxId targets now timeout =>
    silent <$> SandboxManager.admitOrphan db workId sessionId sandboxId targets now timeout
  | loseWork workId => .ok (silent (SandboxManager.loseWork db workId))
  | deleteSession sessionId => .ok (silent (SandboxManager.deleteSession db sessionId))

/-- The identifiers that an operation draws. -/
def draws : Operation → List Uuid
  | insertPending _ sandboxId .. => [sandboxId]
  | claim _ owner pvcId .. => [owner, pvcId]
  | begin _ _ generation .. => [generation]
  | create _ _ _ (.reserveState stateId ..) => [stateId]
  | idle _ _ workId .. => [workId]
  | reap _ _ _ workId .. => [workId]
  | service _ _ workId .. => [workId]
  | recover _ _ workId newSandboxId .. => [workId, newSandboxId]
  | finishDestroyed _ newSandboxId _ => [newSandboxId]
  | finishDisposal _ newSandboxId _ => [newSandboxId]
  | finishUnpaired _ _ owner pvcId .. => [owner, pvcId]
  | finishPaired _ _ owner pvcId .. => [owner, pvcId]
  | reconcile _ workId .. => [workId]
  | admitOrphan workId .. => [workId]
  | _ => []

/-- The session rows that the caller of an operation has read. -/
def rows : Operation → List SandboxSession
  | claim row .. => [row]
  | begin row .. => [row]
  | create row .. => [row]
  | record row .. => [row]
  | recoveryFailed row _ => [row]
  | finishUnpaired row .. => [row]
  | finishPaired row .. => [row]
  | _ => []

/-- The cleanups that the caller of an operation has read. -/
def works : Operation → List CleanupWork
  | capture work .. => [work]
  | complete work _ => [work]
  | finishIdle work _ => [work]
  | finishDestroyed work .. => [work]
  | finishDisposal work .. => [work]
  | finishUnpaired _ works .. => works
  | finishPaired _ works .. => works
  | _ => []

/-- The generation whose Pod an operation may create. -/
def computes : Operation → Option Uuid
  | create _ _ generation (.dispatchCompute _) => some generation
  | create _ _ generation (.reserveCompute _ _) => some generation
  | _ => none

end Operation

/-- The database, what was read from committed states of it, and the identifiers drawn. -/
structure World where
  db : Database
  rows : List SandboxSession
  works : List CleanupWork
  drawn : List Uuid

namespace World

variable (world : World)

/-- The manager before its first session. -/
def initial : World :=
  ⟨.empty, [], [], []⟩

/-- An operation that a replica of the manager may attempt. -/
structure Possible (operation : Operation) : Prop where
  fresh : operation.draws.Nodup ∧ operation.draws.all (· ∉ world.drawn) = true
  rows : ∀ row ∈ operation.rows, row ∈ world.rows
  works : ∀ work ∈ operation.works, work ∈ world.works
  validated : ∀ receipt ∈ world.db.transfers.rows, some receipt.generation = operation.computes →
    receipt.validatedAt ≠ none

instance (operation : Operation) : Decidable (world.Possible operation) :=
  decidable_of_iff ((operation.draws.Nodup ∧ operation.draws.all (· ∉ world.drawn) = true) ∧
      (∀ row ∈ operation.rows, row ∈ world.rows) ∧ (∀ work ∈ operation.works, work ∈ world.works) ∧
      ∀ receipt ∈ world.db.transfers.rows, some receipt.generation = operation.computes →
        receipt.validatedAt ≠ none)
    ⟨fun ⟨hfresh, hrows, hworks, hvalidated⟩ ↦ ⟨hfresh, hrows, hworks, hvalidated⟩,
      fun ⟨hfresh, hrows, hworks, hvalidated⟩ ↦ ⟨hfresh, hrows, hworks, hvalidated⟩⟩

/-- The world after a commit. -/
def commit (db : Database) (drawn : List Uuid) : World :=
  { db := db
    rows := db.sessions.rows ++ world.rows
    works := db.works.rows ++ world.works
    drawn := drawn ++ world.drawn }

/-- One step. -/
def step (operation : Operation) : World × List Effect :=
  if world.Possible operation then
    match operation.transact world.db with
    | .ok (effects, db) => (world.commit db operation.draws, effects)
    | .error _ => ({ world with drawn := operation.draws ++ world.drawn }, [])
  else
    (world, [])

/-- The world and the answers after some operations. -/
abbrev run (operations : List Operation) : World × List Effect :=
  Runs.runFrom step initial operations

end World

end Ads.SandboxManager
