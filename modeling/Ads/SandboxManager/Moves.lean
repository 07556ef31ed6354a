import Ads.SandboxManager.Evolution
import Ads.SandboxManager.Manager

/-!
# Moves

What a transaction of the manager does, in moves that each concern one matter: a session with its
disk, the cleanups, one ledger, one egress state, one receipt (`Move`). A move names the guards that
the invariants rest on, and which operations make it. A transaction that commits reaches its result
by moves (`Reaches`); what is kept by every move is kept by every transaction.

The session and its disk move together. Their joint states turn as one machine (`Turn`); each turn
advances the timestamps of both.
-/

set_option autoImplicit false
set_option relaxedAutoImplicit false

namespace Ads.SandboxManager

open Foundation Python

/-! ### A session and its disk -/

/-- The turns of the joint state of a session and its disk. -/
inductive Turn : Status → Option PvcState → Status → Option PvcState → Prop where
  | claim {status : Status} (hstatus : status = .pending ∨ status = .stopped) :
    Turn status (some .detached) .creating (some .attaching)
  | ready : Turn .creating (some .attaching) .ready (some .attached)
  | idle : Turn .ready (some .attached) .shuttingDown (some .detaching)
  | detach : Turn .shuttingDown (some .detaching) .stopped (some .detached)
  | service {disk : Option PvcState} (hdisk : disk = none ∨ disk = some .detached) :
    Turn .stopped disk .service disk
  | serviced {disk : Option PvcState} : Turn .service disk .stopped disk
  | fail {disk : Option PvcState} : Turn .creating disk .failed (disk.map fun _ ↦ .failed)
  | giveUp {disk : Option PvcState} : Turn .recovering disk .failed disk

/-- A change of a session that its clock does not show. -/
structure SandboxSession.Quiet (before after : SandboxSession) : Prop where
  sessionId : after.sessionId = before.sessionId
  sandboxId : after.sandboxId = before.sandboxId
  status : after.status = before.status
  changed : after.statusChangedAt = before.statusChangedAt
  pvcId : after.pvcId = before.pvcId

/-- A transition of a session: it keeps its sandbox and its disk, and its clock advances. -/
structure SandboxSession.Turns (before after : SandboxSession) : Prop where
  sessionId : after.sessionId = before.sessionId
  sandboxId : after.sandboxId = before.sandboxId
  pvcId : after.pvcId = before.pvcId
  later : before.statusChangedAt < after.statusChangedAt

/-- A change of a disk that its clock does not show. -/
structure SessionPVC.Quiet (before after : SessionPVC) : Prop where
  pvcId : after.pvcId = before.pvcId
  sessionId : after.sessionId = before.sessionId
  state : after.state = before.state
  changed : after.lastStateChange = before.lastStateChange

/-- A transition of a disk. -/
structure SessionPVC.Turns (before after : SessionPVC) : Prop where
  pvcId : after.pvcId = before.pvcId
  sessionId : after.sessionId = before.sessionId
  later : before.lastStateChange < after.lastStateChange

/-! ### What a generation has in place -/

/-- The workspace and the egress state of a generation are settled and bound, and its topics are
settled. -/
structure Complete (db : Database) (intent : PairIntent) : Prop where
  workspace : (intent.slot (.volume .workspace)).dispatch = .settled ∧
    (intent.slot (.volume .workspace)).uid ≠ none
  topics : intent.topicsDispatch = .settled
  state : ∃ state ∈ db.states, intent.egressStateId = some state.stateId ∧ state.Attached

/-- A generation is retired under a snapshot: every resource is resolved, and so is its egress
state. -/
structure RetiredUnder (db : Database) (snapshot : PairSnapshot) (intent : PairIntent) : Prop where
  generation : snapshot.generation = intent.generation
  follows : ∀ key, (snapshot.slot key).Follows (intent.slot key)
  resolved : ∀ key, (snapshot.slot key).Resolved (intent.slot key)
  topics : intent.topicsDispatch ≠ .inflight
  state : ∀ stateId, intent.egressStateId = some stateId → ∃ state captured,
    db.states.find stateId = some state ∧ snapshot.egressState = some captured ∧
      (∀ role, (captured.slot role).Follows (state.slot role)) ∧ captured.Resolved state

/-! ### What an operation is for -/

namespace Operation

/-- The transactions that a shutdown must exclude. -/
def interferes : Operation → Bool
  | claim .. => true
  | recover .. => true
  | reap .. => true
  | service .. => true
  | _ => false

/-- The session whose shutdown an operation completes. -/
def completes : Operation → Option Uuid
  | complete work _ => work.sessionId
  | finishIdle work _ => work.sessionId
  | _ => none

/-- The generation whose workspace an operation records release evidence of. -/
def releasesWorkspace : Operation → Option Uuid
  | create _ _ generation (.recordVolumeRelease .workspace ..) => some generation
  | _ => none

/-- The egress state that an operation records release evidence of. -/
def releasesState : Operation → Option Uuid
  | create _ _ _ (.recordStateVolumeRelease stateId _) => some stateId
  | capture work _ _ (.stateRelease _) =>
    work.pairSnapshot.bind fun snapshot ↦ snapshot.egressState.map EgressState.stateId
  | _ => none

/-- The transfer that an operation validates, and when. -/
def validates : Operation → Option (Uuid × Time)
  | create _ _ generation (.validateTransfer now) => some (generation, now)
  | _ => none

/-- The sandbox and the transition that an operation acknowledges. -/
def acknowledges : Operation → Option (Uuid × Time)
  | shutdownAck sandboxId (some transition) => some (sandboxId, transition)
  | _ => none

/-- The session that an operation deletes. -/
def deletes : Operation → Option Uuid
  | deleteSession sessionId => some sessionId
  | _ => none

end Operation

/-! ### Cleanups -/

/-- What a cleanup claims: a session and a disk in the states that it put them in. -/
def CleanupWork.claimKey (work : CleanupWork) :
    Option Uuid × Uuid × Option Uuid × WorkKind × Time × Option Time :=
  (work.sessionId, work.sandboxId, work.pvcId, work.kind, work.stateChanged, work.pvcChanged)

/-- A cleanup that claims a session was made for the session and its disk as they are, and no other
cleanup claims the same. -/
structure Claims (db : Database) (work : CleanupWork) : Prop where
  row : ∃ row ∈ db.sessions, work.sessionId = some row.sessionId ∧
    work.sandboxId = row.sandboxId ∧ work.stateChanged = row.statusChangedAt ∧
    work.kind.status = some row.status
  disk : (work.pvcId = none ∧ work.pvcChanged = none) ∨ ∃ pvc ∈ db.pvcs,
    work.pvcId = some pvc.pvcId ∧ work.pvcChanged = some pvc.lastStateChange
  new : ∀ other ∈ db.works, other.claimKey ≠ work.claimKey

/-- The reconciliation of a lost idle cleanup whose topics are settled. -/
def Rebuilds (db : Database) (operation : Operation) (work : CleanupWork) : Prop :=
  ∃ generation workId now timeout intent, operation = .reconcile generation workId now timeout ∧
    db.intents.find generation = some intent ∧ intent.retiredAt = none ∧
    intent.topicsDispatch = .settled ∧ work.sandboxId = intent.sandboxId ∧
    (∀ other ∈ db.works, other.sandboxId ≠ intent.sandboxId) ∧
    ∃ row ∈ db.sessions, row.sessionId = intent.sessionId ∧ row.sandboxId = intent.sandboxId ∧
      row.status = .shuttingDown ∧ work.stateChanged = row.statusChangedAt

/-- A change of a stored cleanup. -/
structure Reworks (operation : Operation) (before after : CleanupWork) : Prop where
  workId : after.workId = before.workId
  sessionId : after.sessionId = before.sessionId
  sandboxId : after.sandboxId = before.sandboxId
  pvcId : after.pvcId = before.pvcId
  stateChanged : after.stateChanged = before.stateChanged
  pvcChanged : after.pvcChanged = before.pvcChanged
  kind : after.kind = before.kind ∨ after.kind = .recovery
  acknowledged : after.acknowledged = true → before.acknowledged = true ∨
    operation.acknowledges = some (before.sandboxId, before.stateChanged)

@[refl] theorem Reworks.refl (operation : Operation) (work : CleanupWork) :
    Reworks operation work work :=
  ⟨rfl, rfl, rfl, rfl, rfl, rfl, Or.inl rfl, Or.inl⟩

/-! ### Moves -/

/-- The moves of a transaction of one operation on the database at its start. Beside the database
stand the identifiers that were drawn. -/
inductive Move (start : Database) (operation : Operation) :
    Database → List Uuid → Database → List Uuid → Prop where
  /-- A session is written. -/
  | quietRow {db : Database} {drawn : List Uuid} {row row' : SandboxSession}
    (hrow : row ∈ db.sessions) (hquiet : row.Quiet row') (hcalm : operation.interferes = false) :
    Move start operation db drawn (db.putSession row') drawn
  /-- A disk is written. -/
  | quietPvc {db : Database} {drawn : List Uuid} {pvc pvc' : SessionPVC}
    (hpvc : pvc ∈ db.pvcs) (hquiet : pvc.Quiet pvc') (hcalm : operation.interferes = false) :
    Move start operation db drawn (db.putPvc pvc') drawn
  /-- A session turns beside its disk. -/
  | turnRow {db : Database} {drawn : List Uuid} {row row' : SandboxSession} (hrow : row ∈ db.sessions)
    (hturns : row.Turns row')
    (hturn : Turn row.status ((db.pvcOf row).map SessionPVC.state) row'.status
      ((db.pvcOf row).map SessionPVC.state)) (hidle : row.status ≠ .shuttingDown)
    (hready : row'.status ≠ .ready) :
    Move start operation db drawn (db.putSession row') drawn
  /-- A session turns with its disk. -/
  | turnBoth {db : Database} {drawn : List Uuid} {row row' : SandboxSession} {pvc pvc' : SessionPVC}
    (hrow : row ∈ db.sessions) (hpvc : db.pvcOf row = some pvc) (hturns : row.Turns row')
    (hturnsPvc : pvc.Turns pvc') (hturn : Turn row.status (some pvc.state) row'.status (some pvc'.state))
    (hidle : row.status = .shuttingDown → operation.completes = some row.sessionId)
    (hready : row'.status = .ready → ∀ intent ∈ db.intents, intent.sandboxId = row.sandboxId →
      intent.retiredAt = none → Complete db intent) :
    Move start operation db drawn ((db.putSession row').putPvc pvc') drawn
  /-- The disk of a stopped session is reaped. -/
  | reap {db : Database} {drawn : List Uuid} {row : SandboxSession} {pvc pvc' : SessionPVC}
    (hrow : row ∈ db.sessions) (hpvc : db.pvcOf row = some pvc) (hstopped : row.status = .stopped)
    (hturnsPvc : pvc.Turns pvc') (hdestroying : pvc'.state = .destroying) :
    Move start operation db drawn (db.putPvc pvc') drawn
  /-- A session is claimed with a new disk. -/
  | claimNew {db : Database} {drawn : List Uuid} {row row' : SandboxSession} {pvc : SessionPVC}
    {pvcs : Table SessionPVC.pvcId} (hrow : row ∈ db.sessions)
    (hstatus : row.status = .pending ∨ row.status = .stopped) (hnone : row.pvcId = none)
    (hfresh : pvc.pvcId ∉ drawn) (hinsert : db.pvcs.insert pvc = some pvcs)
    (howner : pvc.sessionId = row.sessionId) (hattaching : pvc.state = .attaching)
    (hsession : row'.sessionId = row.sessionId) (hsandbox : row'.sandboxId = row.sandboxId)
    (hpvcId : row'.pvcId = some pvc.pvcId) (hcreating : row'.status = .creating)
    (hlater : row.statusChangedAt < row'.statusChangedAt) :
    Move start operation db drawn ({ db with pvcs := pvcs }.putSession row') (pvc.pvcId :: drawn)
  /-- A stopped session gives up its disk. -/
  | giveUp {db : Database} {drawn : List Uuid} {row row' : SandboxSession} (hrow : row ∈ db.sessions)
    (hstopped : row.status = .stopped) (hsession : row'.sessionId = row.sessionId)
    (hsandbox : row'.sandboxId = row.sandboxId) (hstatus : row'.status = .stopped)
    (hchanged : row'.statusChangedAt = row.statusChangedAt) (hpvcId : row'.pvcId = none) :
    Move start operation db drawn (db.putSession row') drawn
  /-- A session gets a new sandbox, without its disk. -/
  | rehome {db : Database} {drawn : List Uuid} {row row' : SandboxSession} (hrow : row ∈ db.sessions)
    (hidle : row.status ≠ .shuttingDown) (hsession : row'.sessionId = row.sessionId)
    (hfresh : row'.sandboxId ∉ drawn) (hpvcId : row'.pvcId = none)
    (hstatus : row'.status = .stopped ∨ row'.status = .recovering) :
    Move start operation db drawn (db.putSession row') (row'.sandboxId :: drawn)
  /-- A recovery ends in a stopped session. -/
  | recovered {db : Database} {drawn : List Uuid} {row row' : SandboxSession}
    (hrow : row ∈ db.sessions) (hstatus : row.status = .recovering)
    (hsession : row'.sessionId = row.sessionId) (hsandbox : row'.sandboxId = row.sandboxId)
    (hpvcId : row'.pvcId = none) (hstopped : row'.status = .stopped)
    (hlater : row.statusChangedAt < row'.statusChangedAt) :
    Move start operation db drawn (db.putSession row') drawn
  /-- A disk that no session holds is written. -/
  | strayPvc {db : Database} {drawn : List Uuid} {pvc pvc' : SessionPVC} (hpvc : pvc ∈ db.pvcs)
    (hstray : ∀ row ∈ db.sessions, row.pvcId ≠ some pvc.pvcId) (hturnsPvc : pvc.Turns pvc') :
    Move start operation db drawn (db.putPvc pvc') drawn
  /-- Disks that no session holds are deleted. -/
  | dropPvcs {db : Database} {drawn : List Uuid} (keeps : SessionPVC → Bool)
    (hkeeps : ∀ row ∈ db.sessions, ∀ pvc, db.pvcOf row = some pvc → keeps pvc = true) :
    Move start operation db drawn { db with pvcs := db.pvcs.filter keeps } drawn
  /-- A session is inserted. -/
  | insertSession {db : Database} {drawn : List Uuid} {row : SandboxSession}
    {sessions : Table SandboxSession.sessionId} (hinsert : db.sessions.insert row = some sessions)
    (hfresh : row.sandboxId ∉ drawn) (hpending : row.status = .pending) (hpvcId : row.pvcId = none) :
    Move start operation db drawn { db with sessions := sessions } (row.sandboxId :: drawn)
  /-- A session is deleted with its disks and its cleanups. -/
  | deleteSession {db : Database} {drawn : List Uuid} {sessionId : Uuid}
    (hdeletes : operation.deletes = some sessionId) :
    Move start operation db drawn (deleteSession db sessionId) drawn
  /-- A cleanup is stored. -/
  | spawn {db : Database} {drawn : List Uuid} {work : CleanupWork}
    {works : Table CleanupWork.workId} (hinsert : db.works.insert work = some works)
    (hclaims : work.kind.timed = true → Claims db work)
    (horphan : work.kind = .orphan → work.sessionId = none)
    (hacknowledged : work.kind = .idle → work.acknowledged = true → Rebuilds start operation work) :
    Move start operation db drawn { db with works := works } drawn
  /-- Stored cleanups change or are deleted. -/
  | rework {db : Database} {drawn : List Uuid} {works : Table CleanupWork.workId}
    (hworks : ∀ after ∈ works, ∃ before ∈ db.works, Reworks operation before after) :
    Move start operation db drawn { db with works := works } drawn
  /-- A creator or a returning write advances a ledger. -/
  | advance {db : Database} {drawn : List Uuid} {intent intent' : PairIntent}
    (hstart : intent ∈ start.intents) (hintent : intent ∈ db.intents)
    (hadvances : intent.Advances intent')
    (hcompute : ∀ role, intent.computeDispatch role = .unissued →
      intent'.computeDispatch role = .unissued ∨ operation.computes = some intent.generation) :
    Move start operation db drawn (db.putIntent intent') drawn
  /-- Release evidence of a volume is recorded on its ledger. -/
  | evidence {db : Database} {drawn : List Uuid} {intent : PairIntent} {role : VolumeRole}
    {entry : IssuedVolume VolumePayload} {evidence : Release} (hstart : intent ∈ start.intents)
    (hintent : intent ∈ db.intents) (hlive : intent.retiredAt = none)
    (hentry : intent.volumeResources role = some entry)
    (hrelease : entry.release = none ∨ entry.release = some evidence)
    (hrecords : role = .workspace → operation.releasesWorkspace = some intent.generation) :
    Move start operation db drawn (db.putIntent { intent with
      volumeResources := Function.update intent.volumeResources role
        (some { entry with release := some evidence }) }) drawn
  /-- A new egress state is anchored. -/
  | anchor {db : Database} {drawn : List Uuid} {intent : PairIntent} {state : EgressState}
    {states : Table EgressState.stateId} (hstart : intent ∈ start.intents)
    (hintent : intent ∈ db.intents) (hlive : intent.retiredAt = none)
    (hnone : intent.egressStateId = none) (hinsert : db.states.insert state = some states)
    (hcreator : state.creatorGeneration = intent.generation)
    (hsandbox : state.sandboxId = intent.sandboxId) :
    Move start operation db drawn ({ db with states := states }.putIntent { intent with
      egressStateId := some state.stateId }) drawn
  /-- The creators of a generation are fenced. -/
  | fence {db : Database} {drawn : List Uuid} {intent : PairIntent} (hintent : intent ∈ db.intents)
    (hlive : intent.retiredAt = none) :
    Move start operation db drawn (db.putIntent intent.fenced) drawn
  /-- A generation is retired under a stored cleanup. -/
  | retire {db : Database} {drawn : List Uuid} {intent : PairIntent} {now : Time}
    {work : CleanupWork} {snapshot : PairSnapshot} (hintent : intent ∈ db.intents)
    (hlive : intent.retiredAt = none) (hstored : work ∈ start.works)
    (hsnapshot : work.pairSnapshot = some snapshot) (hretired : RetiredUnder db snapshot intent)
    (hscope : ∀ row ∈ db.sessions, row.sandboxId = intent.sandboxId →
      row.status = .shuttingDown) :
    Move start operation db drawn (db.putIntent (intent.retiredAs now)) drawn
  /-- A generation is allocated. -/
  | begin {db : Database} {drawn : List Uuid} {row : SandboxSession} {owner : Uuid}
    {intent : PairIntent} {namespaceName goldenVersion : Text} {intents : Table PairIntent.key}
    (hrow : row ∈ db.sessions) (hcreating : row.status = .creating)
    (hintent : intent = newIntent row owner intent.generation namespaceName goldenVersion)
    (hnew : db.liveIntent row.sandboxId = none)
    (hmem : ∀ other, other ∈ intents ↔ other = intent ∨ other ∈ db.intents) :
    Move start operation db drawn { db with intents := intents } drawn
  /-- A generation is allocated that inherits a retained one. -/
  | inherit {db : Database} {drawn : List Uuid} {row : SandboxSession} {owner : Uuid}
    {intent heir saved : PairIntent} {namespaceName goldenVersion : Text}
    {intents : Table PairIntent.key} {transfers : Table PairTransfer.generation}
    {transfer : PairTransfer} {state : EgressState} {old : IssuedVolume VolumePayload}
    (hrow : row ∈ db.sessions) (hcreating : row.status = .creating)
    (hintent : intent = newIntent row owner intent.generation namespaceName goldenVersion)
    (hnew : db.liveIntent row.sandboxId = none)
    (hsaved : saved ∈ db.intents)
    (hretired : ∃ retiredAt, saved.retiredAt = some retiredAt ∧ retiredAt < intent.claimChanged)
    (hsame : saved.sessionId = intent.sessionId ∧ saved.sandboxId = intent.sandboxId ∧
      saved.projectId = intent.projectId)
    (hanchor : saved.egressStateId = some state.stateId) (hstate : state ∈ db.states)
    (hvalid : state.Valid) (hold : saved.volumeResources .workspace = some old)
    (htransfer : transfer.generation = intent.generation ∧
      transfer.predecessor = saved.generation ∧ transfer.sessionId = intent.sessionId ∧
      transfer.sandboxId = intent.sandboxId ∧ transfer.projectId = intent.projectId ∧
      transfer.claimOwner = intent.claimOwner ∧ transfer.claimChanged = intent.claimChanged ∧
      transfer.state = state ∧ (∃ pvcChanged, transfer.workspace = old.claimedAt pvcChanged) ∧
      transfer.validatedAt = none)
    (hheir : heir = { intent with
      retainedFrom := some saved.generation
      egressStateId := some state.stateId
      volumeResources := Function.update intent.volumeResources .workspace (some transfer.workspace)
      topicsDispatch := .settled })
    (hinsert : db.transfers.insert transfer = some transfers)
    (huntransferred : ∀ other ∈ db.transfers, other.predecessor ≠ saved.generation)
    (hundisposed : db.disposals.find saved.generation = none)
    (hmem : ∀ other, other ∈ intents ↔ other = heir ∨ other ∈ db.intents) :
    Move start operation db drawn { db with intents := intents, transfers := transfers } drawn
  /-- An egress state advances: under the claim of a session, or before its creator is retired. -/
  | state {db : Database} {drawn : List Uuid} {state state' : EgressState}
    (hstart : state ∈ start.states) (hstate : state ∈ db.states) (hadvances : state.Advances state')
    (howner : (∃ row ∈ db.sessions, row.sandboxId = state.sandboxId) ∨
      ∀ creator ∈ db.intents, creator.generation = state.creatorGeneration →
        creator.retiredAt = none) :
    Move start operation db drawn (db.putState state') drawn
  /-- Release evidence of the volume of an egress state is recorded. -/
  | stateRelease {db : Database} {drawn : List Uuid} {state : EgressState} {evidence : Release}
    (hstate : state ∈ db.states)
    (hrelease : state.volumeRelease = none ∨ state.volumeRelease = some evidence)
    (hreleases : operation.releasesState = some state.stateId) :
    Move start operation db drawn (db.putState { state with volumeRelease := some evidence }) drawn
  /-- A transfer is validated. -/
  | validate {db : Database} {drawn : List Uuid} {receipt : PairTransfer} {now : Time}
    (hreceipt : receipt ∈ db.transfers)
    (hvalidates : operation.validates = some (receipt.generation, now)) :
    Move start operation db drawn (db.putTransfer { receipt with
      validatedAt := receipt.validatedAt <|> some now }) drawn
  /-- The disposal of a retained generation begins. -/
  | dispose {db : Database} {drawn : List Uuid} {disposal : PairDisposal}
    {disposals : Table PairDisposal.generation}
    (hinsert : db.disposals.insert disposal = some disposals)
    (hheir : ∀ other ∈ db.intents, other.retainedFrom ≠ some disposal.generation) :
    Move start operation db drawn { db with disposals := disposals } drawn
  /-- A disposal ends. -/
  | disposed {db : Database} {drawn : List Uuid} {disposal : PairDisposal} {now : Time}
    (hdisposal : disposal ∈ db.disposals) :
    Move start operation db drawn (db.putDisposal { disposal with completedAt := some now }) drawn

/-- What a transaction reaches by its moves. -/
inductive Reaches (start : Database) (drawn : List Uuid) (operation : Operation) :
    Database → List Uuid → Prop where
  | refl : Reaches start drawn operation start drawn
  | move {middle after : Database} {between later : List Uuid}
    (hreaches : Reaches start drawn operation middle between)
    (hmove : Move start operation middle between after later) :
    Reaches start drawn operation after later

end Ads.SandboxManager
