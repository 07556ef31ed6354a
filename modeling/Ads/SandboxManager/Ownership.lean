import Ads.SandboxManager.Database

/-!
# Ownership of a generation

The checks that stand before every change of a ledger: that the caller still holds the session's
claim (`ownedSession`), that the ledger belongs to it and is not fenced (`owned`), and that a
generation which inherited its disk still agrees with its receipt (`verifyTransfer`). The snapshot
of a ledger (`pairSnapshot`) is what a cleanup captures; a retired generation is verified by it
(`verifyRetirement`), and offered to a successor while no transfer and no disposal took it
(`available`).
-/

set_option autoImplicit false
set_option relaxedAutoImplicit false

namespace Ads.SandboxManager

open Foundation Foundation.StateExcept Python

/-! ### The egress state of a generation -/

/-- `egress_state_store.validate`. -/
def validateState (state : EgressState) : Attempt Unit :=
  failIf (¬ state.Valid) (.runtimeError "corrupt egress state reservation")

/-- `egress_state_store._matches`: a generation that inherited the state shares its scope, and any
other created it. -/
def stateMatches (state : EgressState) (pair : PairLedger) : Attempt Unit :=
  if pair.retainedFrom ≠ none then
    failIf (state.sessionId ≠ pair.sessionId ∨ state.sandboxId ≠ pair.sandboxId ∨
        state.projectId ≠ pair.projectId ∨ state.namespaceName ≠ pair.namespaceName ∨
        some state.stateId ≠ pair.egressStateId)
      (.claimLost "retained persistent state ownership changed")
  else
    failIf (state.sessionId ≠ pair.sessionId ∨ state.sandboxId ≠ pair.sandboxId ∨
        state.projectId ≠ pair.projectId ∨ state.creatorGeneration ≠ pair.generation ∨
        state.claimOwner ≠ pair.claimOwner ∨ state.claimChanged ≠ pair.claimChanged ∨
        state.namespaceName ≠ pair.namespaceName)
      (.claimLost "persistent egress state ownership changed")

/-- `require_cleanup_state` without a captured state. -/
def requireState (state : EgressState) (pair : PairLedger) : Attempt Unit := do
  validateState state
  stateMatches state pair
  failIf (some state.stateId ≠ pair.egressStateId)
    (.claimLost "persistent egress cleanup anchor changed")

instance (captured live : Slot Uid) : Decidable (captured.Follows live) :=
  decidable_of_iff ((live.dispatch = captured.dispatch ∨
      (captured.dispatch = .inflight ∧ live.dispatch = .settled)) ∧
      (live.uid = none ∨ live.uid = captured.uid))
    ⟨fun ⟨hdispatch, huid⟩ ↦ ⟨hdispatch, fun _ hlive ↦ huid.elim
        (fun hnone ↦ nomatch hnone.symm.trans hlive) fun hsame ↦ hsame.symm.trans hlive⟩,
      fun hfollows ↦ ⟨hfollows.dispatch, (em (live.uid = none)).imp_right fun hsome ↦
        (hfollows.uid.eq_of_ne_none hsome).symm⟩⟩

/-- `require_cleanup_state` with a captured state: only a late writer may have settled. -/
def requireCleanupState (state : EgressState) (pair : PairLedger) (captured : EgressState) :
    Attempt Unit := do
  requireState state pair
  validateState captured
  failIf (state.scope ≠ captured.scope)
    (.claimLost "persistent egress cleanup reservation changed")
  failIf (¬ ∀ role, (captured.slot role).Follows (state.slot role))
    (.claimLost "persistent egress cleanup dispatch changed")

/-! ### Transfer receipts -/

/-- A workspace entry under the claim of a successor. -/
def IssuedVolume.claimedAt (workspace : IssuedVolume VolumePayload) (pvcChanged : Time) :
    IssuedVolume VolumePayload :=
  { workspace with payload := { workspace.payload with pvcChanged := pvcChanged } }

/-- `PairTransferRepository.verify`. -/
def verifyTransfer (db : Database) (pair : PairIntent) : Attempt (Option PairTransfer) :=
  match db.transfers.find pair.generation with
  | none => do
    failIf (pair.retainedFrom ≠ none)
      (.claimLost "retained generation transfer receipt missing")
    return none
  | some receipt => do
    let previous ← require (db.intents.find receipt.predecessor)
      (.claimLost "retained ownership receipt changed")
    let retiredAt ← require previous.retiredAt (.claimLost "retained ownership receipt changed")
    failIf (pair.retainedFrom ≠ some receipt.predecessor ∨
        pair.claimChanged ≤ retiredAt ∨
        (receipt.sessionId, receipt.sandboxId, receipt.projectId, receipt.claimOwner,
            receipt.claimChanged) ≠
          (pair.sessionId, pair.sandboxId, pair.projectId, pair.claimOwner, pair.claimChanged) ∨
        (previous.sessionId, previous.sandboxId, previous.projectId) ≠
          (pair.sessionId, pair.sandboxId, pair.projectId) ∨
        pair.egressStateId ≠ some receipt.state.stateId ∨
        pair.volumeResources .workspace ≠ some receipt.workspace ∨
        pair.topicsDispatch ≠ .settled)
      (.claimLost "retained ownership receipt changed")
    failIf ((previous.volumeResources .workspace).map
        (·.claimedAt receipt.workspace.payload.pvcChanged) ≠ some receipt.workspace)
      (.claimLost "retained workspace provenance changed")
    failIf (receipt.validatedAt.any (· ≤ receipt.claimChanged) = true ∨
        (receipt.validatedAt = none ∧ ∃ role, pair.computeDispatch role ≠ .unissued))
      (.claimLost "retained attachment lacks prior external validation")
    let state ← require (db.states.find receipt.state.stateId)
      (.claimLost "retained state provenance changed")
    validateState state
    failIf (state ≠ receipt.state) (.claimLost "retained state provenance changed")
    return some receipt

/-! ### The claim of a session -/

/-- `PairIntentRepository._owned`: the session as the caller expects it, under the caller's claim. -/
def ownedSession (db : Database) (expected : SandboxSession) (owner : Uuid)
    (statuses : List Status) : Attempt SandboxSession := do
  let row ← require (db.sessions.find expected.sessionId)
    (.claimLost "session provisioning claim changed")
  failIf ((row.sandboxId, row.projectId, row.statusChangedAt) ≠
      (expected.sandboxId, expected.projectId, expected.statusChangedAt) ∨
      row.status ∉ statuses ∨ row.claimedBy ≠ some owner)
    (.claimLost "session provisioning claim changed")
  return row

/-- `PairIntentRepository._validate`, past what the types of the columns say. -/
def validate (intent : PairIntent) : Attempt Unit := do
  failIf (intent.retainedFrom ≠ none ∧
      (intent.retainedFrom = some intent.generation ∨ intent.egressStateId = none))
    (.runtimeError "invalid retained generation provenance")
  failIf (intent.retiredAt ≠ none ∧ intent.creationFenced = false)
    (.runtimeError "retired pair lacks permanent creator fence")

/-- `PairIntentRepository._matches`. The transition to ready advances the timestamp of the session,
so that the claim's instant is only checked in the other statuses. -/
def pairMatches (intent : PairIntent) (row : SandboxSession) (owner : Uuid)
    (statuses : List Status) : Attempt Unit := do
  failIf (intent.sessionId ≠ row.sessionId ∨ intent.sandboxId ≠ row.sandboxId ∨
      intent.projectId ≠ row.projectId ∨ intent.claimOwner ≠ owner ∨
      (intent.claimChanged ≠ row.statusChangedAt ∧ row.status ∉ statuses))
    (.claimLost "prior pair requires fenced retirement")
  failIf (intent.creationFenced = true ∨ intent.retiredAt ≠ none)
    (.claimLost "pair creation is fenced")

/-- `PairIntentRepository.owned`. -/
def owned (db : Database) (expected : SandboxSession) (owner generation : Uuid)
    (statuses : List Status) : Attempt PairIntent := do
  let row ← ownedSession db expected owner statuses
  let intent ← require (db.intents.find generation) (.claimLost "pair intent missing")
  pairMatches intent row owner statuses
  validate intent
  let _ ← verifyTransfer db intent
  return intent

/-- `PairIntentRepository._settlement_intent`: the original scope only. -/
def settlementIntent (db : Database) (expected : PairIntent) : Attempt PairIntent := do
  let intent ← require (db.intents.find expected.generation) (.claimLost "pair intent missing")
  validate intent
  failIf (intent.retiredAt ≠ none) (.claimLost "retired generation cannot settle writes")
  failIf ((intent.binding, intent.namespaceName, intent.goldenVersion, intent.claimOwner,
      intent.claimChanged) ≠
    (expected.binding, expected.namespaceName, expected.goldenVersion, expected.claimOwner,
      expected.claimChanged)) (.claimLost "pair dispatch identity changed")
  return intent

/-! ### Snapshots -/

/-- The egress state that a ledger is anchored to. -/
def anchoredState (db : Database) (pair : PairLedger) : Attempt (Option EgressState) :=
  match pair.egressStateId with
  | none => return none
  | some stateId => do
    let state ← require (db.states.find stateId)
      (.runtimeError "anchored persistent egress state missing")
    failIf (state.sandboxId ≠ pair.sandboxId)
      (.runtimeError "anchored persistent egress state missing")
    requireState state pair
    return some state

/-- `LifecycleRepository.pair_snapshot`: of one generation of the sandbox, or of the one that is not
retired. -/
def pairSnapshot (db : Database) (sessionId sandboxId : Uuid) (generation : Option Uuid) :
    Attempt (Option PairSnapshot) :=
  let intent : Option PairIntent := match generation with
    | some wanted => (db.intents.find wanted).filter fun found ↦ found.sandboxId = sandboxId
    | none => db.liveIntent sandboxId
  match intent with
  | none => return none
  | some intent => do
    failIf (intent.sessionId ≠ sessionId)
      (.runtimeError "pair cleanup session identity mismatch")
    if intent.retiredAt = none then
      let _ ← verifyTransfer db intent
    let persistent ← anchoredState db intent.toPairLedger
    return some ⟨intent.toPairLedger, persistent⟩

/-- `PairRetirementRepository.verify`. -/
def verifyRetirement (db : Database) (generation : Uuid) : Attempt PairIntent := do
  let intent ← require (db.intents.find generation)
    (.claimLost "retirement tombstone or original ownership changed")
  failIf (intent.retiredAt = none ∨ intent.creationFenced = false)
    (.claimLost "retirement tombstone or original ownership changed")
  let _ ← pairSnapshot db intent.sessionId intent.sandboxId (some generation)
  return intent

/-! ### The retained generation of a sandbox -/

/-- `PairTransferRepository.available`. -/
def available (db : Database) (row : SandboxSession) :
    Attempt (PairIntent × EgressState × SessionPVC) := do
  let prior ← require (db.latestIntent row.sandboxId)
    (.claimLost "retained sandbox has no retired original generation")
  failIf (prior.retiredAt = none)
    (.claimLost "retained sandbox has no retired original generation")
  let _ ← verifyRetirement db prior.generation
  failIf (prior.projectId ≠ row.projectId)
    (.claimLost "retained generation acquired a foreign project")
  failIf ((∃ transfer ∈ db.transfers.rows, transfer.predecessor = prior.generation) ∨
      db.disposals.find prior.generation ≠ none)
    (.claimLost "retained generation is not available for exclusive transfer")
  let old ← require (prior.volumeResources .workspace)
    (.claimLost "retained workspace lifetime or claim changed")
  let pvc ← require (db.pvcOf row) (.claimLost "retained workspace lifetime or claim changed")
  failIf ((pvc.sessionId, pvc.sandboxId, pvc.uid) ≠ (row.sessionId, row.sandboxId, row.pvcUid) ∨
      pvc.pvcId ≠ old.payload.pvcId ∨ pvc.uid ≠ old.uid ∨
      (pvc.state ≠ .detached ∧ pvc.state ≠ .attaching) ∨
      (row.status = .stopped ∧ pvc.state ≠ .detached) ∨
      (row.status = .creating ∧ pvc.state ≠ .attaching) ∨
      (row.status ≠ .stopped ∧ row.status ≠ .creating) ∨
      row.goldenVersion ≠ prior.goldenVersion)
    (.claimLost "retained workspace lifetime or claim changed")
  let stateId ← require prior.egressStateId (.valueError "badly formed hexadecimal UUID string")
  let state ← require (db.states.find stateId)
    (.claimLost "retained persistent state or wrapping identity changed")
  return (prior, state, pvc)

/-- `PairTransferRepository.inherit`: the entries that the new generation takes over refer to
completed publications, and are settled from its birth. -/
def inherit (db : Database) (row : SandboxSession) (pair saved : PairIntent) (state : EgressState)
    (pvc : SessionPVC) : Attempt (PairIntent × Database) := do
  let _ ← ownedSession db row pair.claimOwner [.creating]
  let old ← require (saved.volumeResources .workspace)
    (.claimLost "new retained ownership scope changed")
  let retiredAt ← require saved.retiredAt (.claimLost "new retained ownership scope changed")
  failIf (pair.generation = saved.generation ∨ pair.retiredAt ≠ none ∨
      pair.creationFenced = true ∨
      (pair.sessionId, pair.sandboxId, pair.projectId, pair.claimChanged) ≠
        (row.sessionId, row.sandboxId, row.projectId, row.statusChangedAt) ∨
      pair.namespaceName ≠ saved.namespaceName ∨ pair.goldenVersion ≠ saved.goldenVersion ∨
      pair.claimChanged ≤ retiredAt ∨ pair.egressStateId ≠ none ∨ pair.retainedFrom ≠ none ∨
      (IssuedVolume.slot (pair.volumeResources .workspace)).dispatch ≠ .unissued ∨
      pair.topicsDispatch ≠ .unissued ∨ pvc.state ≠ .attaching ∨ some pvc.pvcId ≠ row.pvcId ∨
      pvc.uid ≠ row.pvcUid ∨
      (saved.sessionId, saved.sandboxId, saved.projectId) ≠
        (pair.sessionId, pair.sandboxId, pair.projectId) ∨
      pvc.pvcId ≠ old.payload.pvcId ∨ pvc.uid ≠ old.uid)
    (.claimLost "new retained ownership scope changed")
  let original ← verifyRetirement db saved.generation
  failIf (original.retiredAt ≠ saved.retiredAt)
    (.claimLost "retained predecessor proof changed")
  let workspace := old.claimedAt pvc.lastStateChange
  validateState state
  let db ← db.insertTransfer
    { generation := pair.generation
      predecessor := saved.generation
      sessionId := pair.sessionId
      sandboxId := pair.sandboxId
      projectId := pair.projectId
      claimOwner := pair.claimOwner
      claimChanged := pair.claimChanged
      state := state
      workspace := workspace
      validatedAt := none }
  let heir := { pair with
    retainedFrom := some saved.generation
    egressStateId := some state.stateId
    volumeResources := Function.update pair.volumeResources .workspace (some workspace)
    topicsDispatch := .settled }
  return (heir, db.putIntent heir)

/-- The ledger of a generation before anything is issued for it. -/
def newIntent (row : SandboxSession) (owner generation : Uuid) (namespaceName goldenVersion : Text) :
    PairIntent :=
  { generation := generation
    sessionId := row.sessionId
    sandboxId := row.sandboxId
    projectId := row.projectId
    claimOwner := owner
    claimChanged := row.statusChangedAt
    namespaceName := namespaceName
    goldenVersion := goldenVersion
    controlUids := fun _ ↦ none
    controlDispatch := fun _ ↦ .unissued
    computeUids := fun _ ↦ none
    computeDispatch := fun _ ↦ .unissued
    computePayloads := fun _ ↦ none
    relayCustody := none
    relayInputs := fun _ ↦ none
    egressStateId := none
    ipcResources := fun _ ↦ none
    volumeResources := fun _ ↦ none
    topicsDispatch := .unissued
    retainedFrom := none
    creationFenced := false
    retiredAt := none }

/-- `PairIntentRepository.begin`, where it allocates a generation: with `resume`, in the same
transaction, what the retired one retained is inherited. -/
def allocate (db : Database) (row : SandboxSession) (owner generation : Uuid)
    (namespaceName goldenVersion : Text) (resume : Bool) : Attempt (PairIntent × Database) := do
  failIf ((∃ previous ∈ db.intents.rows, previous.sandboxId = row.sandboxId) ∧ resume = false)
    (.claimLost "retired sandbox requires explicit ownership transfer")
  let intent := newIntent row owner generation namespaceName goldenVersion
  if resume then
    let (saved, state, pvc) ← available db row
    let db ← db.insertIntent intent
    inherit db row intent saved state pvc
  else
    let db ← db.insertIntent intent
    return (intent, db)

/-- `PairIntentRepository.begin`. -/
def begin (db : Database) (expected : SandboxSession) (owner generation : Uuid)
    (namespaceName goldenVersion : Text) (resume : Bool) : Attempt (PairIntent × Database) := do
  failIf (namespaceName = [] ∨ goldenVersion = [])
    (.valueError "pair namespace and builder version are required")
  let row ← ownedSession db expected owner [.creating]
  let (intent, db) ← match db.liveIntent row.sandboxId with
    | some intent => return (intent, db)
    | none => allocate db row owner generation namespaceName goldenVersion resume
  failIf (resume ≠ intent.retainedFrom.isSome)
    (.claimLost "paired resume mode differs from committed generation")
  pairMatches intent row owner [.creating]
  failIf (intent.namespaceName ≠ namespaceName ∨ intent.goldenVersion ≠ goldenVersion)
    (.runtimeError "pair builder configuration changed")
  validate intent
  let _ ← verifyTransfer db intent
  return (intent, db)

end Ads.SandboxManager
