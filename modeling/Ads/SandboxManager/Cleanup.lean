import Ads.SandboxManager.Sessions

/-!
# Cleanup of a pair

A cleanup owns its session as long as the session and its disk are in the state that the cleanup put
them in (`owns`). Under that claim it fences the creators of the generation (`fencePairCreators`),
records on its snapshot the UIDs and the release evidence that it observes, and judges whether every
original writer has settled (`pairWritersSettled`). The seal compares the snapshot, brought up to
date with what may have settled since, with the live ledger (`sealPairCleanup`).
-/

set_option autoImplicit false
set_option relaxedAutoImplicit false

namespace Ads.SandboxManager

open Foundation Foundation.StateExcept Python

/-! ### The claim of a cleanup -/

/-- The status in which a session waits for a kind of cleanup. -/
def WorkKind.status : WorkKind → Option Status
  | .idle => some .shuttingDown
  | .reap => some .stopped
  | .service => some .service
  | .orphan => none
  | .recovery => none

/-- The state in which a disk waits for a kind of cleanup. -/
def WorkKind.pvcState : WorkKind → Option PvcState
  | .idle => some .detaching
  | .reap => some .destroying
  | .service => some .detached
  | .orphan => none
  | .recovery => none

/-- The disk that a cleanup was made for, in the state that it waits for. -/
def CleanupWork.ownsPvc (work : CleanupWork) : Option SessionPVC → Bool
  | none => work.pvcId = none
  | some pvc => some pvc.lastStateChange = work.pvcChanged && some pvc.state = work.kind.pvcState

/-- `LifecycleRepository.owns`. -/
def owns (db : Database) (work : CleanupWork) : Bool :=
  work.kind = .orphan ||
    (work.sessionId.bind fun sessionId ↦ db.locked sessionId work.sandboxId).any
      fun (row, pvc) ↦ some row.status = work.kind.status &&
        row.statusChangedAt = work.stateChanged && row.pvcId = work.pvcId && work.ownsPvc pvc

/-- The egress state of a snapshot belongs to its generation. -/
def PairSnapshot.Anchors (snapshot : PairSnapshot) (work : CleanupWork) (state : EgressState) :
    Prop :=
  snapshot.egressStateId = some state.stateId ∧ state.sandboxId = snapshot.sandboxId ∧
    state.sessionId = snapshot.sessionId ∧ state.projectId = snapshot.projectId ∧
    (snapshot.retainedFrom = none → state.creatorGeneration = snapshot.generation) ∧
    state.namespaceName = snapshot.namespaceName ∧ state.sandboxId = work.sandboxId

instance (snapshot : PairSnapshot) (work : CleanupWork) (state : EgressState) :
    Decidable (snapshot.Anchors work state) :=
  inferInstanceAs (Decidable (_ ∧ _))

/-- The captured state is valid and belongs to the generation. -/
def requireAnchor (snapshot : PairSnapshot) (work : CleanupWork) : Attempt Unit :=
  match snapshot.egressState with
  | none => failIf (snapshot.egressStateId ≠ none)
      (.runtimeError "persistent egress cleanup anchor and snapshot disagree")
  | some state => do
    failIf (snapshot.egressStateId = none)
      (.runtimeError "persistent egress cleanup anchor and snapshot disagree")
    validateState state
    failIf (¬ snapshot.Anchors work state)
      (.runtimeError "persistent egress cleanup state identity changed")

/-- `cleanup_pair`, with the snapshot that it checks, past what the types of its fields say. -/
def cleanupPair (work : CleanupWork) : Attempt PairSnapshot := do
  let snapshot ← require work.pairSnapshot (.runtimeError "incomplete pair cleanup snapshot")
  failIf (snapshot.retainedFrom ≠ none ∧ (snapshot.retainedFrom = some snapshot.generation ∨
      snapshot.egressState = none)) (.runtimeError "invalid retained cleanup provenance")
  requireAnchor snapshot work
  failIf (snapshot.sandboxId ≠ work.sandboxId ∨
      (work.kind ≠ .orphan ∧ some snapshot.sessionId ≠ work.sessionId) ∨
      (work.kind = .orphan ∧ work.sessionId ≠ none) ∨ ¬ IsVisible snapshot.namespaceName ∨
      ¬ IsVisible snapshot.goldenVersion)
    (.runtimeError "pair cleanup scope or controls changed")
  return snapshot

/-- The claim of a recovery: the session as it was seen, and for how long it may recover. -/
@[ext] structure RecoveryClaim where
  row : SandboxSession
  seconds : Time

instance : DecidableEq RecoveryClaim :=
  fun _ _ ↦ decidable_of_iff _ RecoveryClaim.ext_iff.symm

/-- The claim of a recovery still holds. -/
def requireRecovery (db : Database) (expected : CleanupWork) (pair : PairBinding) (now : Time)
    (recovery : Option RecoveryClaim) : Attempt Unit := do
  let recovery ← require recovery (.claimLost "pair recovery claim required")
  failIf (recovery.row.sessionId ≠ pair.sessionId) (.claimLost "pair recovery claim required")
  let row ← require (db.sessions.find recovery.row.sessionId)
    (.claimLost "pair recovery claim changed")
  failIf ((row.sandboxId, row.projectId, row.statusChangedAt) ≠
      (recovery.row.sandboxId, recovery.row.projectId, recovery.row.statusChangedAt) ∨
      row.status ≠ .recovering ∨ row.projectId ≠ pair.projectId ∨ row.pvcId ≠ none ∨
      row.claimedBy ≠ none ∨ row.statusChangedAt + recovery.seconds ≤ now ∨
      ∃ target ∈ expected.targets, target.retain = true)
    (.claimLost "pair recovery claim changed")
  match expected.pvcId with
  | none => return ()
  | some pvcId => do
    let pvc ← require (db.pvcs.find pvcId) (.claimLost "pair recovery PVC ownership changed")
    failIf (pvc.sessionId ≠ pair.sessionId ∨ pvc.state ≠ .failed)
      (.claimLost "pair recovery PVC ownership changed")

/-- Nothing owns the session or the sandbox of an orphan. -/
def Unowned (db : Database) (sessionId sandboxId : Uuid) : Prop :=
  (∀ row ∈ db.sessions.rows, row.sessionId ≠ sessionId ∧ row.sandboxId ≠ sandboxId) ∧
    (∀ pvc ∈ db.pvcs.rows, pvc.sessionId ≠ sessionId) ∧
    ∀ work ∈ db.works.rows, work.kind = .recovery →
      work.sessionId ≠ some sessionId ∧ work.sandboxId ≠ sandboxId

instance (db : Database) (sessionId sandboxId : Uuid) :
    Decidable (Unowned db sessionId sandboxId) :=
  inferInstanceAs (Decidable (_ ∧ _))

/-- The claim of an orphan still holds. -/
def requireOrphan (db : Database) (expected : CleanupWork) (snapshot : PairSnapshot)
    (recovery : Option RecoveryClaim) : Attempt Unit := do
  failIf (recovery ≠ none ∨ expected.pvcId ≠ none) (.claimLost "invalid pair orphan claim")
  failIf (¬ Unowned db snapshot.sessionId snapshot.sandboxId)
    (.claimLost "pair orphan acquired an owner")
  let intent ← require (db.intents.find snapshot.generation)
    (.claimLost "pair orphan durable identity changed")
  failIf (intent.binding ≠ snapshot.binding ∨ intent.namespaceName ≠ snapshot.namespaceName ∨
      intent.goldenVersion ≠ snapshot.goldenVersion)
    (.claimLost "pair orphan durable identity changed")

/-- The claim of a cleanup of its kind still holds. -/
def requireClaim (db : Database) (expected : CleanupWork) (snapshot : PairSnapshot) (now : Time)
    (recovery : Option RecoveryClaim) : Attempt Unit :=
  match expected.kind with
  | .recovery => requireRecovery db expected snapshot.binding now recovery
  | .orphan => requireOrphan db expected snapshot recovery
  | _ => failIf (recovery ≠ none ∨ owns db expected = false)
      (.claimLost "pair cleanup claim changed")

/-- The stored cleanup is the expected one, but for its deadline and its acknowledgement. -/
def CleanupWork.SameClaim (stored expected : CleanupWork) : Prop :=
  { stored with deadline := expected.deadline, acknowledged := expected.acknowledged } = expected

instance (stored expected : CleanupWork) : Decidable (stored.SameClaim expected) :=
  inferInstanceAs (Decidable (_ = _))

/-- A kind of cleanup that owns a session for a limited time. -/
def WorkKind.timed : WorkKind → Bool
  | .idle => true
  | .service => true
  | .reap => true
  | .orphan => false
  | .recovery => false

/-- `owned_pair_cleanup`. An idle cleanup is only owned once its drain is acknowledged. -/
def ownedPairCleanup (db : Database) (expected : CleanupWork) (now : Time)
    (recovery : Option RecoveryClaim) : Attempt CleanupWork := do
  failIf (expected.kind = .orphan ∧ expected.sessionId ≠ none)
    (.claimLost "invalid pair orphan claim")
  failIf (expected.kind = .recovery ∧ recovery = none) (.claimLost "pair recovery claim required")
  if expected.kind = .orphan ∧ expected.pairSnapshot = none then
    return expected
  else do
    let snapshot ← cleanupPair expected
    requireClaim db expected snapshot now recovery
    let stored ← require (db.works.find expected.workId)
      (.claimLost "pair cleanup work changed or not drained")
    failIf (¬ stored.SameClaim expected ∨
        (stored.kind.timed = true ∧ stored.deadline ≤ now) ∨
        (stored.kind = .idle ∧ stored.acknowledged = false))
      (.claimLost "pair cleanup work changed or not drained")
    let pair ← cleanupPair stored
    failIf (stored.kind ≠ .orphan ∧
        (db.sessions.find pair.sessionId).map SandboxSession.projectId ≠ some pair.projectId)
      (.claimLost "pair cleanup project identity changed")
    return stored

/-! ### The fence -/

/-- A late reading of a captured stage. -/
def Dispatch.Follows (captured live : Dispatch) : Prop :=
  live = captured ∨ (captured = .inflight ∧ live = .settled)

instance (captured live : Dispatch) : Decidable (Dispatch.Follows captured live) :=
  inferInstanceAs (Decidable (_ ∨ _))

/-- The payloads of a ledger are those of its snapshot. -/
def PairLedger.SamePayloads (captured live : PairLedger) : Prop :=
  live.computePayloads = captured.computePayloads ∧
    live.relayCustody.map Issued.payload = captured.relayCustody.map Issued.payload ∧
    (∀ role, (live.relayInputs role).map Issued.payload =
      (captured.relayInputs role).map Issued.payload) ∧
    (∀ role, (live.volumeResources role).map (·.payload) =
      (captured.volumeResources role).map (·.payload)) ∧
    ∀ role, (live.ipcResources role).map (·.payload) = (captured.ipcResources role).map (·.payload)

instance (captured live : PairLedger) : Decidable (captured.SamePayloads live) :=
  inferInstanceAs (Decidable (_ ∧ _))

/-- The egress state still follows the captured one. -/
def requireCapturedState (db : Database) (intent : PairIntent) (snapshot : PairSnapshot) :
    Attempt Unit := do
  failIf (intent.egressStateId ≠ snapshot.egressStateId)
    (.claimLost "persistent egress cleanup anchor changed")
  match intent.egressStateId with
  | none => return ()
  | some stateId => do
    let state ← require (db.states.find stateId)
      (.claimLost "persistent egress cleanup reservation missing")
    let captured ← require snapshot.egressState
      (.runtimeError "incomplete persistent egress state snapshot")
    requireCleanupState state intent.toPairLedger captured

/-- `fence_pair_creators`: future dispatches are fenced, not the writes already reserved. -/
def fencePairCreators (db : Database) (work : CleanupWork) : Attempt (PairIntent × Database) := do
  let snapshot ← cleanupPair work
  let intent ← require (db.intents.find snapshot.generation)
    (.claimLost "pair creator fence identity changed")
  failIf (intent.retiredAt ≠ none ∨ intent.binding ≠ snapshot.binding ∨
      intent.namespaceName ≠ snapshot.namespaceName ∨
      intent.goldenVersion ≠ snapshot.goldenVersion ∨ intent.claimOwner ≠ snapshot.claimOwner ∨
      intent.claimChanged ≠ snapshot.claimChanged)
    (.claimLost "pair creator fence identity changed")
  failIf (¬ Dispatch.Follows snapshot.topicsDispatch intent.topicsDispatch)
    (.claimLost "paired topic cleanup ownership changed")
  failIf (¬ ∀ role, (snapshot.slot (.volume role)).Follows (intent.slot (.volume role)))
    (.claimLost "paired clone cleanup ownership changed")
  failIf (¬ ∀ role, (snapshot.slot (.ipc role)).Follows (intent.slot (.ipc role)))
    (.claimLost "paired IPC cleanup ownership changed")
  requireCapturedState db intent snapshot
  failIf (¬ snapshot.SamePayloads intent.toPairLedger)
    (.claimLost "pair cleanup payload changed")
  let fenced := { intent with creationFenced := true }
  return (fenced, db.putIntent fenced)

instance (captured live : Slot Uid) : Decidable (captured.Resolved live) :=
  inferInstanceAs (Decidable (_ ∨ _))

/-- Both resources of the egress state are resolved under the captured one. -/
def EgressState.Resolved (captured live : EgressState) : Prop :=
  ∀ role, (captured.slot role).Resolved (live.slot role)

instance (captured live : EgressState) : Decidable (captured.Resolved live) :=
  inferInstanceAs (Decidable (∀ _, _))

/-- The egress state that a ledger is anchored to is resolved under the captured one. -/
def stateResolved (live captured : Option EgressState) : Bool :=
  live.all fun state ↦ captured.all fun before ↦ before.Resolved state

/-- `pair_writers_settled`: fences the creators, and judges every original writer. -/
def pairWritersSettled (db : Database) (expected : CleanupWork) (now : Time)
    (recovery : Option RecoveryClaim) : Attempt (Bool × Database) := do
  let work ← ownedPairCleanup db expected now recovery
  let (intent, db) ← fencePairCreators db work
  let snapshot ← require work.pairSnapshot .assertionError
  if ¬ ((∀ key, (snapshot.slot (.control key)).Follows (intent.slot (.control key))) ∧
      ∀ role, (snapshot.slot (.compute role)).Follows (intent.slot (.compute role))) then
    -- Later drift of the ledger cannot establish a positive settlement.
    return (false, db)
  else do
    failIf (¬ ∀ role, (snapshot.slot (.relayInput role)).Follows (intent.slot (.relayInput role)))
      (.claimLost "pair cleanup resource identity changed")
    failIf (¬ (snapshot.slot .custody).Follows (intent.slot .custody))
      (.claimLost "pair cleanup custody evidence changed")
    let state := intent.egressStateId.bind db.states.find
    return (intent.topicsDispatch ≠ .inflight &&
      decide (∀ key : Key, (snapshot.slot key).Resolved (intent.slot key)) &&
      stateResolved state snapshot.egressState, db)

/-! ### What a cleanup records -/

/-- The cleanup that is owned and its snapshot, with its creators fenced if the source does. -/
def openCapture (db : Database) (expected : CleanupWork) (now : Time)
    (recovery : Option RecoveryClaim) (fences : Bool) :
    Attempt (CleanupWork × PairSnapshot × Database) := do
  let work ← ownedPairCleanup db expected now recovery
  let (_, db) ← if fences then (Prod.map some id <$> fencePairCreators db work) else pure (none, db)
  let snapshot ← require work.pairSnapshot .assertionError
  return (work, snapshot, db)

/-- The snapshot is stored on its cleanup. -/
def storeSnapshot (db : Database) (work : CleanupWork) (snapshot : PairSnapshot) : Database :=
  db.putWork { work with pairSnapshot := some snapshot }

/-- `record_pair_control`. -/
def recordPairControl (db : Database) (expected : CleanupWork) (key : ControlKey)
    (uid : Option Uid) (now : Time) (recovery : Option RecoveryClaim) : Attempt Database := do
  let (work, snapshot, db) ← openCapture db expected now recovery false
  match uid with
  | none => return db
  | some uid => do
    refuseReplacement (snapshot.controlUids key) uid "pair cleanup UID replacement refused"
    return storeSnapshot db work { snapshot with
      controlUids := Function.update snapshot.controlUids key (some uid) }

/-- `record_pair_compute`. -/
def recordPairCompute (db : Database) (expected : CleanupWork) (role : ComputeRole)
    (uid : Option Uid) (now : Time) (recovery : Option RecoveryClaim) : Attempt Database := do
  let (work, snapshot, db) ← openCapture db expected now recovery false
  match uid with
  | none => return db
  | some uid => do
    refuseReplacement (snapshot.computeUids role) uid "pair cleanup compute UID replacement refused"
    return storeSnapshot db work { snapshot with
      computeUids := Function.update snapshot.computeUids role (some uid) }

/-- `record_clone`. -/
def recordClone (db : Database) (expected : CleanupWork) (role : VolumeRole)
    (uid : Option Uid) (now : Time) (recovery : Option RecoveryClaim) : Attempt Database := do
  let (work, snapshot, db) ← openCapture db expected now recovery true
  let entry ← require (snapshot.volumeResources role)
    (.runtimeError "paired clone was never dispatched")
  match uid with
  | none => return db
  | some uid => do
    refuseReplacement entry.uid uid "paired clone cleanup UID replacement refused"
    return storeSnapshot db work { snapshot with
      volumeResources := Function.update snapshot.volumeResources role
        (some { entry with uid := some uid }) }

/-- `record_ipc_resource`. -/
def recordIpcResource (db : Database) (expected : CleanupWork) (role : IpcRole)
    (uid : Option Uid) (now : Time) (recovery : Option RecoveryClaim) : Attempt Database := do
  let (work, snapshot, db) ← openCapture db expected now recovery true
  let entry ← require (snapshot.ipcResources role)
    (.runtimeError "paired IPC resource was never dispatched")
  match uid with
  | none => return db
  | some uid => do
    refuseReplacement entry.uid uid "paired IPC cleanup UID replacement refused"
    return storeSnapshot db work { snapshot with
      ipcResources := Function.update snapshot.ipcResources role
        (some { entry with uid := some uid }) }

/-- `record_egress_state`. -/
def recordEgressState (db : Database) (expected : CleanupWork) (role : StateRole)
    (uid : Option Uid) (now : Time) (recovery : Option RecoveryClaim) : Attempt Database := do
  let (work, snapshot, db) ← openCapture db expected now recovery true
  let state ← require snapshot.egressState
    (.runtimeError "persistent egress state was never reserved")
  validateState state
  requireIssued (state.dispatch role) "persistent egress resource was never dispatched"
  match uid with
  | none => return db
  | some uid => do
    refuseReplacement (state.uid role) uid "persistent egress cleanup UID replacement refused"
    let persistent := { state with uid := Function.update state.uid role (some uid) }
    validateState persistent
    return storeSnapshot db work { snapshot with egressState := some persistent }

/-- The two families of volumes that release evidence is recorded for. -/
inductive ReleaseFamily where
  | volume (role : VolumeRole)
  | ipc (role : IpcRole)
  deriving DecidableEq

/-- `record_pair_release`. -/
def recordPairRelease (db : Database) (expected : CleanupWork) (family : ReleaseFamily)
    (evidence : Release) (now : Time) (recovery : Option RecoveryClaim) : Attempt Database := do
  let (work, snapshot, db) ← openCapture db expected now recovery true
  match family with
  | .volume role => do
    let entry ← recordEvidence (snapshot.volumeResources role) evidence
      "bound paired resource release evidence required"
    return storeSnapshot db work { snapshot with
      volumeResources := Function.update snapshot.volumeResources role (some entry) }
  | .ipc role => do
    let entry ← recordEvidence (snapshot.ipcResources role) evidence
      "bound paired resource release evidence required"
    return storeSnapshot db work { snapshot with
      ipcResources := Function.update snapshot.ipcResources role (some entry) }

/-- `record_state_release`, on the snapshot and on the state itself. -/
def recordStateRelease (db : Database) (expected : CleanupWork) (evidence : Release) (now : Time)
    (recovery : Option RecoveryClaim) : Attempt Database := do
  let (work, snapshot, db) ← openCapture db expected now recovery true
  let persistent ← require snapshot.egressState
    (.runtimeError "persistent egress state was never reserved")
  failIf (persistent.dispatch .volume = .unissued ∨ persistent.uid .volume = none)
    (.runtimeError "bound persistent egress volume release evidence required")
  match persistent.volumeRelease with
  | some stored => do
    failIf (stored ≠ evidence) (.runtimeError "stored release evidence changed")
    return db
  | none => do
    let released := { persistent with volumeRelease := some evidence }
    validateState released
    let state ← require (db.states.find persistent.stateId)
      (.runtimeError "persistent egress state row missing")
    failIf (state.volumeRelease ≠ none ∧ state.volumeRelease ≠ some evidence)
      (.runtimeError "stored release evidence changed")
    return (storeSnapshot db work { snapshot with egressState := some released }).putState
      { state with volumeRelease := some evidence }

/-- `record_relay_custody`. -/
def recordRelayCustody (db : Database) (expected : CleanupWork) (uid : Option Uid) (now : Time)
    (recovery : Option RecoveryClaim) : Attempt Database := do
  let (work, snapshot, db) ← openCapture db expected now recovery false
  let custody ← require snapshot.relayCustody (.runtimeError "relay custody was never dispatched")
  match uid with
  | none => return db
  | some uid => do
    refuseReplacement custody.uid uid "relay custody cleanup UID replacement refused"
    return storeSnapshot db work { snapshot with
      relayCustody := some { custody with uid := some uid } }

/-- `record_relay_input`. -/
def recordRelayInput (db : Database) (expected : CleanupWork) (role : RelayRole)
    (uid : Option Uid) (now : Time) (recovery : Option RecoveryClaim) : Attempt Database := do
  let (work, snapshot, db) ← openCapture db expected now recovery false
  let entry ← require (snapshot.relayInputs role) (.runtimeError "relay input was never dispatched")
  match uid with
  | none => return db
  | some uid => do
    refuseReplacement entry.uid uid "relay input cleanup UID replacement refused"
    return storeSnapshot db work { snapshot with
      relayInputs := Function.update snapshot.relayInputs role
        (some { entry with uid := some uid }) }

/-! ### The seal -/

/-- An entry whose write settled after the capture. -/
def Issued.sealed {π : Type} (captured live : Issued π) : Issued π :=
  if captured.settled = false ∧ live.settled = true then
    { captured with settled := true, uid := live.uid }
  else
    captured

/-- The captured slot of a control or a Pod, where its write settled after the capture and the UIDs
do not differ. -/
def sealSlot (captured live : Slot Uid) : Slot Uid :=
  if captured.uid ≠ none ∧ live.uid ≠ none ∧ captured.uid ≠ live.uid then captured
  else captured.sealed live

/-- `merge_release`: evidence that only one side holds. -/
def IssuedVolume.mergeRelease {π : Type} (mine theirs : IssuedVolume π) : IssuedVolume π :=
  { mine with release := mine.release <|> theirs.release }

/-- The captured entry of a volume, brought up to date. -/
def IssuedVolume.sealed {π : Type} (captured live : IssuedVolume π) : IssuedVolume π :=
  IssuedVolume.mergeRelease { captured with toIssued := captured.toIssued.sealed live.toIssued } live

/-- A captured entry brought up to date with the live one, where both were issued. -/
def sealEntry {ε : Type} (merge : ε → ε → ε) (captured live : Option ε) : Option ε :=
  match captured, live with
  | some captured, some live => some (merge captured live)
  | captured, _ => captured

/-- The captured egress state, brought up to date. -/
def EgressState.sealed (captured live : EgressState) : EgressState :=
  { captured with
    volumeRelease := captured.volumeRelease <|> live.volumeRelease
    dispatch := fun role ↦ (sealSlot (captured.slot role) (live.slot role)).dispatch
    uid := fun role ↦ (sealSlot (captured.slot role) (live.slot role)).uid }

/-- The captured stage of the topics, brought up to date. -/
def sealDispatch (captured live : Dispatch) : Dispatch :=
  if captured = .inflight ∧ live = .settled then .settled else captured

/-- The snapshot of a cleanup, with what late writers settled and the evidence of the ledger. -/
def PairSnapshot.sealed (captured live : PairSnapshot) : PairSnapshot :=
  { captured with
    topicsDispatch := sealDispatch captured.topicsDispatch live.topicsDispatch
    relayInputs := fun role ↦
      sealEntry Issued.sealed (captured.relayInputs role) (live.relayInputs role)
    volumeResources := fun role ↦
      sealEntry IssuedVolume.sealed (captured.volumeResources role) (live.volumeResources role)
    ipcResources := fun role ↦
      sealEntry IssuedVolume.sealed (captured.ipcResources role) (live.ipcResources role)
    relayCustody := sealEntry Issued.sealed captured.relayCustody live.relayCustody
    egressState := sealEntry EgressState.sealed captured.egressState live.egressState
    controlDispatch := fun key ↦
      (sealSlot (captured.slot (.control key)) (live.slot (.control key))).dispatch
    controlUids := fun key ↦
      (sealSlot (captured.slot (.control key)) (live.slot (.control key))).uid
    computeDispatch := fun role ↦
      (sealSlot (captured.slot (.compute role)) (live.slot (.compute role))).dispatch
    computeUids := fun role ↦
      (sealSlot (captured.slot (.compute role)) (live.slot (.compute role))).uid }

/-- The live ledger, with the evidence of the cleanup. -/
def PairSnapshot.evidenced (live captured : PairSnapshot) : PairSnapshot :=
  { live with
    volumeResources := fun role ↦ sealEntry IssuedVolume.mergeRelease (live.volumeResources role)
      (captured.volumeResources role)
    ipcResources := fun role ↦ sealEntry IssuedVolume.mergeRelease (live.ipcResources role)
      (captured.ipcResources role) }

/-- `seal_pair_cleanup`. -/
def sealPairCleanup (db : Database) (expected : CleanupWork) (now : Time)
    (recovery : Option RecoveryClaim) : Attempt (Bool × Database) := do
  let (settled, db) ← pairWritersSettled db expected now recovery
  if settled = false then
    return (false, db)
  else do
    let captured ← cleanupPair expected
    let retained ← pairSnapshot db captured.sessionId captured.sandboxId none
    let retained ← require retained .assertionError
    failIf (retained.evidenced captured ≠ captured.sealed retained)
      (.claimLost "cleanup claim differs from retained ownership")
    return (true, db)

end Ads.SandboxManager
