import Ads.SandboxManager.Lifecycle

/-!
# The end of a generation

A generation is retired once its cleanup holds the claim and every original writer has settled
(`retire`). An idle cleanup then leaves the session stopped with its disk detached (`finishIdle`);
a destructive one ends the sandbox (`finishDestroyed`); a disposal closes its receipt
(`finishDisposal`). A recovery retires every generation that it carries and claims the session
afresh in one transaction (`finishPaired`). What a lost cleanup row owed is rebuilt from the ledger
(`reconcile`).
-/

set_option autoImplicit false
set_option relaxedAutoImplicit false

namespace Ads.SandboxManager

open Foundation Foundation.StateExcept Python

/-! ### Retirement -/

/-- `PairRetirementRepository.retire`. -/
def retire (db : Database) (expected : CleanupWork) (now : Time)
    (recovery : Option RecoveryClaim) : Attempt (Bool × Database) := do
  let work ← ownedPairCleanup db expected now recovery
  let pair ← cleanupPair work
  let intent ← require (db.intents.find pair.generation)
    (.claimLost "retirement original intent missing")
  if intent.retiredAt ≠ none then
    return (true, db)
  else do
    let (settled, db) ← pairWritersSettled db work now recovery
    if settled = false then
      return (false, db)
    else do
      let intent ← require (db.intents.find pair.generation) .assertionError
      return (true, db.putIntent { intent with retiredAt := some now })

/-- The columns that the end of a pair clears. -/
def SandboxSession.unpaired (row : SandboxSession) (now : Time) : SandboxSession :=
  { row.stopped now with
    claimedBy := none
    ipcPodUid := none }

/-- `finish_idle`. -/
def finishIdle (db : Database) (expected : CleanupWork) (now : Time) :
    Attempt (Bool × Database) := do
  failIf (expected.kind ≠ .idle) (.claimLost "idle retirement claim required")
  let sessionId ← require expected.sessionId (.claimLost "idle retirement claim required")
  let pvcId ← require expected.pvcId (.claimLost "idle retirement claim required")
  let (retired, db) ← retire db expected now none
  if retired = false then
    return (false, db)
  else do
    let row ← require (db.sessions.find sessionId) (.claimLost "idle retirement lifetime missing")
    let pvc ← require (db.pvcs.find pvcId) (.claimLost "idle retirement lifetime missing")
    let retained ← require (expected.targets.find? Target.retain)
      (.claimLost "idle retirement workspace proof changed")
    failIf (retained.uid ≠ pvc.uid) (.claimLost "idle retirement workspace proof changed")
    failIf (db.works.find expected.workId = none) .assertionError
    return (true, ((db.putSession (row.unpaired now)).putPvc
      (pvc.detached now retained)).deleteWork expected.workId)

/-- The session after its sandbox was destroyed: the next request starts a new sandbox. -/
def SandboxSession.destroyed (row : SandboxSession) (sandboxId : Uuid) (now : Time) :
    SandboxSession :=
  { row.unpaired now with
    sandboxId := sandboxId
    pvcId := none
    pvcUid := none }

/-- `finish_destroyed`. -/
def finishDestroyed (db : Database) (work : CleanupWork) (newSandboxId : Uuid) (now : Time) :
    Attempt (Bool × Database) := do
  failIf (work.kind ≠ .orphan ∧ work.kind ≠ .service ∧ work.kind ≠ .reap)
    (.claimLost "destructive completion requires a destructive claim")
  let (retired, db) ← retire db work now none
  if retired = false then
    return (false, db)
  else do
    failIf (db.works.find work.workId = none) .assertionError
    match work.sessionId with
    | none => return (true, db.deleteWork work.workId)
    | some sessionId => do
      let (row, pvc) ← require (db.locked sessionId work.sandboxId)
        (.claimLost "destructive completion lacks original lifetime")
      failIf (∃ object ∈ work.targets, object.retain = true ∧
          some object.name = pvc.map fun pvc ↦ ObjectName.session pvc.pvcId)
        (.claimLost "destructive completion deletes retained workspace")
      let db := pvc.elim db fun pvc ↦ db.deletePvc pvc.pvcId
      return (true, (db.putSession (row.destroyed newSandboxId now)).deleteWork work.workId)

/-! ### The end of a disposal -/

/-- `PairDisposalRepository.verify`. -/
def verifyDisposal (db : Database) (generation : Uuid) : Attempt PairDisposal := do
  let (intent, workspace) ← retainedWorkspace db generation
  let receipt ← require (db.disposals.find generation)
    (.claimLost "retained disposal ownership or proof changed")
  failIf ((receipt.sessionId, receipt.sandboxId, receipt.projectId) ≠
      (intent.sessionId, intent.sandboxId, intent.projectId) ∨ receipt.pvcUid ≠ workspace.uid ∨
      receipt.pvcId ≠ workspace.payload.pvcId ∨
      receipt.createdAt < intent.retiredAt.getD intent.claimChanged ∨
      receipt.completedAt.any (· < receipt.createdAt) = true)
    (.claimLost "retained disposal ownership or proof changed")
  return receipt

/-- `PairDisposalRepository.owned`. -/
def ownedDisposal (db : Database) (expected : CleanupWork) : Attempt PairDisposal := do
  failIf (expected.sessionId = none ∧ expected.kind ≠ .orphan)
    (.claimLost "retained expiry requires a session claim")
  failIf (owns db expected = false) (.claimLost "retained expiry claim lost")
  let receipt ← require (db.disposals.rows.find? fun disposal ↦ disposal.workId = expected.workId)
    (.claimLost "retained expiry receipt missing")
  let receipt ← verifyDisposal db receipt.generation
  if expected.kind = .orphan then
    let (intent, _) ← retainedWorkspace db receipt.generation
    orphanScope db intent
  let work ← require (db.works.find expected.workId)
    (.claimLost "retained expiry work identity changed")
  failIf (receipt.completedAt ≠ none ∨ (work.kind ≠ .reap ∧ work.kind ≠ .orphan) ∨
      (work.sessionId, work.sandboxId, work.pvcId, work.stateChanged, work.pvcChanged) ≠
        (expected.sessionId, expected.sandboxId, expected.pvcId, expected.stateChanged,
          expected.pvcChanged) ∨
      work.sandboxId ≠ receipt.sandboxId ∨
      (work.kind = .reap ∧ (work.sessionId, work.pvcId) ≠
        (some receipt.sessionId, some receipt.pvcId)) ∨
      (work.kind = .orphan ∧ (work.sessionId ≠ none ∨ work.pvcId ≠ none)))
    (.claimLost "retained expiry work identity changed")
  return receipt

/-- `PairDisposalRepository.finish`. -/
def finishDisposal (db : Database) (work : CleanupWork) (newSandboxId : Uuid) (now : Time) :
    Attempt Database := do
  let receipt ← ownedDisposal db work
  let closed := { receipt with completedAt := some now }
  if work.kind = .orphan then
    return (db.putDisposal closed).deleteWork work.workId
  else do
    let (row, pvc) ← require (db.locked receipt.sessionId receipt.sandboxId)
      (.claimLost "retained expiry lifetime changed")
    let pvc ← require pvc (.claimLost "retained expiry lifetime changed")
    failIf (pvc.uid ≠ receipt.pvcUid) (.claimLost "retained expiry lifetime changed")
    return (((db.putSession { row with
      pvcId := none
      pvcUid := none
      sandboxId := newSandboxId
      statusChangedAt := advance row.statusChangedAt now }).deletePvc pvc.pvcId).putDisposal
        closed).deleteWork work.workId

/-! ### The end of a recovery -/

/-- `RecoveryService._owned`. -/
def recoveryOwned (db : Database) (observed : SandboxSession) : Option SandboxSession :=
  (db.sessions.find observed.sessionId).filter fun row ↦
    row.sandboxId = observed.sandboxId ∧ row.status = .recovering ∧
      row.statusChangedAt = observed.statusChangedAt

/-- `RecoveryService.execute`, where the executor fails. -/
def recoveryFailed (db : Database) (observed : SandboxSession) (now : Time) : Database :=
  match recoveryOwned db observed with
  | none => db
  | some row => db.putSession { row with
      status := .failed
      statusChangedAt := advance row.statusChangedAt now }

/-- The PVC of a disk is among the targets of a cleanup. -/
def CleanupWork.destroys (work : CleanupWork) (pvc : SessionPVC) (cleaned : Bool) : Bool :=
  work.targets.any fun object ↦ object.kind = .persistentVolumeClaim &&
    object.name = .session pvc.pvcId && (pvc.uid = none || object.uid = pvc.uid) &&
    (!cleaned || object.cleaned)

/-- The disks of a session are deleted. -/
def Database.deletePvcsOf (db : Database) (sessionId : Uuid) : Database :=
  { db with pvcs := db.pvcs.filter fun pvc ↦ pvc.sessionId ≠ sessionId }

/-- The cleanups of a recovery are deleted. -/
def Database.deleteWorks (db : Database) (works : List CleanupWork) : Database :=
  works.foldl (fun db work ↦ db.deleteWork work.workId) db

/-- A fresh claim ends the recovery. -/
def reclaim (db : Database) (row : SandboxSession) (owner pvcId : Uuid) (later : Time)
    (paired : Bool) : Attempt Database := do
  let (claimed, db) ← claim (db.putSession row) row owner pvcId later paired
  failIf (claimed = none) (.runtimeError "rebuild claim lost")
  return db

/-- The end of `RecoveryService._execute` for a session without a pair. -/
def finishUnpaired (db : Database) (observed : SandboxSession) (works : List CleanupWork)
    (owner pvcId : Uuid) (now later : Time) : Attempt Database :=
  match recoveryOwned db observed with
  | none => return db
  | some row => do
    failIf (∃ pvc ∈ db.pvcs.rows, pvc.sessionId = row.sessionId ∧
        (works.any fun work ↦ work.destroys pvc true) = false)
      (.runtimeError "PVC record has no proven cleanup")
    let stopped := { row.stopped now with
      serviceDeadline := row.serviceDeadline
      pvcId := none
      pvcUid := none }
    reclaim ((db.deletePvcsOf row.sessionId).deleteWorks works) stopped owner pvcId later false

/-- What the retirements of a recovery accumulate: the cleanups of retired generations, and the
sandboxes for which nothing was issued. -/
structure Retirements where
  retired : List (Uuid × CleanupWork)
  unissued : List Uuid

/-- The retirement of what one cleanup of a recovery carries. -/
def retireCarried (observed : SandboxSession) (seconds now : Time) (paired : Bool)
    (carried : Database × Retirements) (work : CleanupWork) : Attempt (Database × Retirements) := do
  let (db, done) := carried
  match work.pairSnapshot with
  | none => do
    failIf (paired = false ∨ (∃ object ∈ work.targets, object.uid ≠ none) ∨
        (∃ intent ∈ db.intents.rows, intent.sandboxId = work.sandboxId) ∨
        ∃ state ∈ db.states.rows, state.sandboxId = work.sandboxId)
      (.claimLost "mixed recovery lacks original unissued evidence")
    return (db, { done with unissued := work.sandboxId :: done.unissued })
  | some _ => do
    let pair ← cleanupPair work
    if pair.generation ∈ done.retired.map Prod.fst then
      return (db, done)
    else do
      let (saved, db) ← retire db work now (some ⟨observed, seconds⟩)
      failIf (saved = false) (.claimLost "paired recovery terminal proof incomplete")
      return (db, { done with retired := (pair.generation, work) :: done.retired })

/-- `RecoveryService._finish_paired`. -/
def finishPaired (db : Database) (observed : SandboxSession) (works : List CleanupWork)
    (owner pvcId : Uuid) (now later seconds : Time) (paired : Bool) : Attempt Database :=
  match recoveryOwned db observed with
  | none => return db
  | some row => do
    let (db, done) ← works.foldlM (retireCarried observed seconds now paired) (db, ⟨[], []⟩)
    failIf (∃ pvc ∈ db.pvcs.rows, pvc.sessionId = row.sessionId ∧
        (done.retired.any fun (_, work) ↦ work.destroys pvc false) = false ∧
        (pvc.sandboxId ∉ done.unissued ∨ pvc.uid ≠ none))
      (.claimLost "paired recovery workspace not proven destroyed")
    failIf (∃ work ∈ works, (db.works.find work.workId).all (·.kind ≠ .recovery) = true)
      (.claimLost "paired recovery work changed before retirement")
    let stopped := { row.stopped now with
      serviceDeadline := row.serviceDeadline
      pvcId := none
      pvcUid := none
      ipcPodUid := none }
    reclaim ((db.deletePvcsOf row.sessionId).deleteWorks works) stopped owner pvcId later true

/-! ### The registry -/

/-- The workspace of a generation, with its evidence. -/
def PairLedger.workspaceTarget (ledger : PairLedger) (pvcId : Uuid) (uid : Option Uid)
    (retain : Bool) : Target :=
  (target .persistentVolumeClaim (.session pvcId) uid retain).withRelease
    ((ledger.volumeResources .workspace).bind (·.release))

/-- The objects of a retired generation that `reconcile` tears down. -/
def reconciledTargets (db : Database) (intent : PairIntent) (pvc : Option SessionPVC)
    (workspace : IssuedVolume VolumePayload) : List Target :=
  [intent.ipcPodTarget] ++ intent.computeTargets ++ intent.controlTargets ++
    [intent.ipcVolumeTarget] ++ intent.cloneTargets ++ intent.relayInputTargets ++
    (intent.egressStateId.bind db.states.find).toList.flatMap (fun state ↦
      [state.target .key, state.target .volume]) ++
    [intent.workspaceTarget (pvc.elim workspace.payload.pvcId SessionPVC.pvcId) workspace.uid
      false] ++ intent.custodyTargets

/-- The objects of a live generation that `reconcile` tears down for an idle session. -/
def idleTargets (db : Database) (intent : PairIntent) : List Target :=
  intent.computeTargets ++ intent.controlTargets ++ [intent.ipcVolumeTarget] ++
    intent.cloneTargets ++ intent.custodyTargets ++ intent.relayInputTargets ++
    ((intent.egressStateId.bind db.states.find).toList.flatMap fun state ↦
      [state.target .key, state.target .volume].filter fun object ↦ object.uid.isSome) ++
    [intent.ipcPodTarget]

/-- The cleanup that `reconcile` rebuilds. -/
def rebuiltWork (workId : Uuid) (row : Option SandboxSession) (pvc : Option SessionPVC)
    (intent : PairIntent) (kind : WorkKind) (now timeout : Time) (acknowledged : Bool)
    (targets : List Target) (snapshot : Option PairSnapshot) : CleanupWork :=
  { workId := workId
    sessionId := row.map SandboxSession.sessionId
    sandboxId := intent.sandboxId
    pvcId := row.bind fun _ ↦ pvc.map SessionPVC.pvcId
    kind := kind
    stateChanged := row.elim now SandboxSession.statusChangedAt
    pvcChanged := row.bind fun _ ↦ pvc.map SessionPVC.lastStateChange
    deadline := now + timeout
    acknowledged := acknowledged
    targets := targets
    pairSnapshot := snapshot }

/-- The receipt of a disposal that is still open. -/
def openReceipt (db : Database) (generation : Uuid) : Attempt (Option PairDisposal) :=
  match db.disposals.find generation with
  | none => return none
  | some _ => some <$> verifyDisposal db generation

/-- The kind of cleanup that a retained generation without one needs. -/
def retainedKind (db : Database) (intent : PairIntent) (row : Option SandboxSession)
    (pvc : Option SessionPVC) (receipt : Option PairDisposal) : Attempt (Option WorkKind) :=
  match row with
  | none => do
    orphanScope db intent
    return some .orphan
  | some row =>
    if row.status = .stopped ∧ row.sandboxId = intent.sandboxId ∧
        row.projectId = intent.projectId ∧ pvc.any (·.state = .destroying) = true ∧
        receipt.any (fun receipt ↦ row.pvcId = some receipt.pvcId && row.pvcUid = receipt.pvcUid) =
          true then
      return some .reap
    else
      return none

/-- `reconcile` of a retired generation. -/
def reconcileRetired (db : Database) (intent : PairIntent) (row : Option SandboxSession)
    (pvc : Option SessionPVC) (workId : Uuid) (now timeout : Time) :
    Attempt (Option CleanupWork × Database) :=
  match intent.volumeResources .workspace, intent.retainedFrom with
  | some workspace, none => do
    let receipt ← openReceipt db intent.generation
    if receipt.any (·.completedAt ≠ none) = true then
      return (none, db)
    else do
      let kind ← retainedKind db intent row pvc receipt
      match kind with
      | none => return (none, db)
      | some kind => do
        let work := rebuiltWork (receipt.elim workId PairDisposal.workId) row pvc intent kind now
          timeout true (reconciledTargets db intent pvc workspace) none
        let db ← db.insertWork work
        let snapshot ← if kind = .orphan then pure none
          else pairSnapshot db intent.sessionId intent.sandboxId (some intent.generation)
        let work := { work with pairSnapshot := snapshot }
        let db := db.putWork work
        if receipt = none then
          let db ← beginDisposal db work intent.generation now
          return (some work, db)
        else
          return (some work, db)
  | _, _ => return (none, db)

/-- The kind of cleanup that a live generation without one needs. -/
def liveKind (intent : PairIntent) (row : Option SandboxSession) (pvc : Option SessionPVC) :
    Attempt (Option WorkKind) :=
  match row with
  | none => if pvc.isSome then return none else return some .orphan
  | some row => do
    failIf (row.projectId ≠ intent.projectId)
      (.claimLost "durable pair inventory acquired a foreign project")
    if row.status = .recovering ∧ pvc.all (·.state = .failed) = true then
      return some .recovery
    else if row.sandboxId = intent.sandboxId ∧ row.pvcId = pvc.map SessionPVC.pvcId then
      if row.status = .shuttingDown ∧ pvc.any (·.state = .detaching) = true then
        return some .idle
      else if row.status = .service ∧ pvc.all (·.state = .detached) = true then
        return some .service
      else
        return none
    else
      return none

/-- `reconcile` of a generation that is not retired. A rebuilt idle cleanup is acknowledged where
the topics of its generation are settled. -/
def reconcileLive (db : Database) (intent : PairIntent) (row : Option SandboxSession)
    (pvc : Option SessionPVC) (workId : Uuid) (now timeout : Time) :
    Attempt (Option CleanupWork × Database) := do
  let snapshot ← pairSnapshot db intent.sessionId intent.sandboxId (some intent.generation)
  let snapshot ← require snapshot
    (.claimLost "durable pair inventory lost its original snapshot")
  let kind ← liveKind intent row pvc
  match kind with
  | none => return (none, db)
  | some kind => do
    let workspace := pvc.toList.map fun pvc ↦
      intent.workspaceTarget pvc.pvcId pvc.uid (decide (kind = .idle))
    let targets := workspace ++ if kind = .idle then idleTargets db intent else []
    let work := rebuiltWork workId row pvc intent kind now timeout
      (kind ≠ .idle || intent.topicsDispatch = .settled) targets (some snapshot)
    let db ← db.insertWork work
    if kind = .orphan then
      let _ ← ownedPairCleanup db work now none
      return (some work, db)
    else
      return (some work, db)

/-- `PairRegistry.reconcile`. -/
def reconcile (db : Database) (generation workId : Uuid) (now timeout : Time) :
    Attempt (Option CleanupWork × Database) :=
  match db.intents.find generation with
  | none => return (none, db)
  | some intent =>
    let row := db.sessions.find intent.sessionId
    let pvc := db.pvcs.rows.find? fun pvc ↦
      pvc.sessionId = intent.sessionId ∧ pvc.sandboxId = intent.sandboxId
    if (∃ work ∈ db.works.rows, work.sandboxId = intent.sandboxId) ∨
        ∃ transfer ∈ db.transfers.rows, transfer.predecessor = generation then
      return (none, db)
    else if intent.retiredAt ≠ none then
      reconcileRetired db intent row pvc workId now timeout
    else
      reconcileLive db intent row pvc workId now timeout

/-! ### Messages and workers -/

/-- `shutdown_ack`: the drain of a sandbox is acknowledged for one transition. -/
def shutdownAck (db : Database) (sandboxId : Uuid) (transition : Option Time) : Database :=
  match transition with
  | none => db
  | some transition =>
    (db.works.rows.filter fun work ↦ work.sandboxId = sandboxId ∧ work.kind = .idle ∧
      work.stateChanged = transition ∧ owns db work = true).foldl
        (fun db work ↦ db.putWork { work with acknowledged := true }) db

/-- A target without its evidence. -/
def Target.object (object : Target) : ObjectKind × ObjectName × Bool :=
  (object.kind, object.name, object.retain)

/-- A worker stores what it observed of the targets of a cleanup. -/
def saveTargets (db : Database) (workId : Uuid) (targets : List Target) : Attempt Database := do
  let stored ← require (db.works.find workId) (.claimLost "cleanup work vanished")
  failIf (targets.map Target.object ≠ stored.targets.map Target.object)
    (.valueError "targets name other objects")
  return db.putWork { stored with targets := targets }

/-- `execute`, where a cleanup is overdue or an orphan is rotated. -/
def extendDeadline (db : Database) (workId : Uuid) (deadline : Time) : Attempt Database := do
  let stored ← require (db.works.find workId) (.claimLost "cleanup work vanished")
  failIf (owns db stored = false) (.claimLost "cleanup claim lost")
  return db.putWork { stored with deadline := deadline }

/-- `_orphan`, where the objects of a sandbox that the manager does not know are torn down. -/
def admitOrphan (db : Database) (workId sessionId sandboxId : Uuid) (targets : List Target)
    (now timeout : Time) : Attempt Database := do
  if (∃ intent ∈ db.intents.rows, intent.sandboxId = sandboxId) ∨
      (db.sessions.find sessionId).any (·.sandboxId = sandboxId) = true ∨
      ∃ work ∈ db.works.rows, work.kind = .orphan ∧ work.sandboxId = sandboxId then
    return db
  else do
    let snapshot ← pairSnapshot db sessionId sandboxId none
    db.insertWork
      { workId := workId
        sessionId := none
        sandboxId := sandboxId
        pvcId := none
        kind := .orphan
        stateChanged := now
        pvcChanged := none
        deadline := now + timeout
        acknowledged := true
        targets := targets
        pairSnapshot := snapshot }

/-! ### Losses -/

/-- A cleanup row is lost, or dropped. -/
def loseWork (db : Database) (workId : Uuid) : Database :=
  db.deleteWork workId

/-- A session row is deleted, with its disks and its cleanups. -/
def deleteSession (db : Database) (sessionId : Uuid) : Database :=
  { db with
    sessions := db.sessions.filter fun row ↦ row.sessionId ≠ sessionId
    pvcs := db.pvcs.filter fun pvc ↦ pvc.sessionId ≠ sessionId
    works := db.works.filter fun work ↦ work.sessionId ≠ some sessionId }

end Ads.SandboxManager
