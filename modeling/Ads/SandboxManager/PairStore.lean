import Ads.SandboxManager.Ownership

/-!
# The stores of a pair

What a creator does with the ledger of its generation: it reserves the only write of a resource,
records the UID under which the resource was observed, and records that the original write returned.
A reservation and a binding need the session's claim (`owned`); the return of the original write is
recorded even after the claim was lost (`settlementIntent`). A reservation answers whether the
caller may perform the write. Release evidence is recorded once, also while the session is ready.

The configuration inside the payload of a relay input is a function of its other fields, and what
the constructors accept as such a payload is left out: the source refuses more.
-/

set_option autoImplicit false
set_option relaxedAutoImplicit false

namespace Ads.SandboxManager

open Foundation Foundation.StateExcept Python

/-- No UID replaces a different one. -/
def refuseReplacement (previous : Option Uid) (uid : Uid) (reason : String) : Attempt Unit :=
  failIf (previous ≠ none ∧ previous ≠ some uid) (.runtimeError reason)

/-- Only an issued write settles. -/
def requireIssued (dispatch : Dispatch) (reason : String) : Attempt Unit :=
  failIf (dispatch = .unissued) (.runtimeError reason)

/-! ### Controls -/

/-- `PairIntentRepository.dispatch`. -/
def dispatchControl (db : Database) (row : SandboxSession) (owner generation : Uuid)
    (key : ControlKey) : Attempt (Bool × Database) := do
  let intent ← owned db row owner generation [.creating]
  if intent.controlUids key = none ∧ intent.controlDispatch key = .unissued then
    return (true, db.putIntent { intent with
      controlDispatch := Function.update intent.controlDispatch key .inflight })
  else
    return (false, db)

/-- `PairIntentRepository.bind`. -/
def bindControl (db : Database) (row : SandboxSession) (owner generation : Uuid)
    (key : ControlKey) (uid : Uid) : Attempt Database := do
  let intent ← owned db row owner generation [.creating]
  refuseReplacement (intent.controlUids key) uid "pair control UID replacement refused"
  return db.putIntent { intent with
    controlUids := Function.update intent.controlUids key (some uid) }

/-- `PairIntentRepository.settle`. -/
def settleControl (db : Database) (expected : PairIntent) (key : ControlKey) :
    Attempt Database := do
  let intent ← settlementIntent db expected
  requireIssued (intent.controlDispatch key) "pair control was never dispatched"
  return db.putIntent { intent with
    controlDispatch := Function.update intent.controlDispatch key .settled }

/-! ### Pods -/

/-- `require_egress_dependencies`. -/
def requireEgressDependencies (db : Database) (intent : PairIntent) (current : SandboxSession)
    (inputs : EgressInputs) : Attempt Unit := do
  let state ← require (intent.egressStateId.bind db.states.find)
    (.claimLost "persistent egress compute reservation missing")
  requireState state intent.toPairLedger
  let caAttempt ← require current.caAttempt (.valueError "exact paired CA identities required")
  let caSources ← require current.caSources (.valueError "exact paired CA identities required")
  failIf (∃ consumer, current.caClone consumer = none)
    (.valueError "exact paired CA identities required")
  failIf (inputs.retainedFrom ≠ intent.retainedFrom ∨ inputs.caAttempt ≠ caAttempt ∨
      some inputs.caEgressUid ≠ current.caClone .egress ∨
      some inputs.caKeyUid ≠ current.caClone .key ∨ inputs.caSources ≠ caSources ∨
      inputs.goldenVersion ≠ current.goldenVersion ∨ inputs.state ≠ state)
    (.claimLost "egress compute dependency identity changed")

/-- The dependencies of the Pod of a role. -/
def requireInputs (db : Database) (intent : PairIntent) (current : SandboxSession) :
    (role : ComputeRole) → ComputeInputs role → Attempt Unit
  | .guest, (inputs : GuestInputs) =>
    failIf (some inputs.pvcId ≠ current.pvcId ∨ some inputs.pvcUid ≠ current.pvcUid ∨
        some inputs.caAttempt ≠ current.caAttempt ∨
        some inputs.caGuestUid ≠ current.caClone .guest ∨
        some inputs.caSourceUid ≠ current.caSources.map CaSources.publicSource ∨
        inputs.goldenVersion ≠ current.goldenVersion)
      (.claimLost "guest volume identity changed")
  | .egress, (inputs : EgressInputs) => requireEgressDependencies db intent current inputs
  | .guestRelay, _ => return ()
  | .egressRelay, _ => return ()

/-- The roles whose RuntimeClasses differ. -/
def ComputeRole.isolated : ComputeRole → ComputeRole → Bool
  | .guest, .egress => true
  | .egress, .guest => true
  | _, _ => false

/-- `PairIntentRepository._compute_dependencies`. -/
def computeDependencies (db : Database) (intent : PairIntent) (current : SandboxSession)
    (role : ComputeRole) (payload : ComputePayload role) : Attempt Unit := do
  failIf ((fun key ↦ some (payload.controlUids key)) ≠ intent.controlUids)
    (.claimLost "compute control identities changed")
  failIf (∃ member, (intent.computePayloads member).any
      (·.runtime.transportMtu ≠ payload.runtime.transportMtu) = true)
    (.claimLost "paired compute transport MTU changed")
  failIf (∃ member, member.isolated role = true ∧ (intent.computePayloads member).any
      (·.runtime.runtimeClass = payload.runtime.runtimeClass) = true)
    (.claimLost "guest and egress RuntimeClasses must differ")
  requireInputs db intent current role payload.inputs

/-- The dependencies of a Pod that is committed. -/
def committedDependencies (db : Database) (intent : PairIntent) (current : SandboxSession)
    (role : ComputeRole) : Attempt Unit :=
  match intent.computePayloads role with
  | some payload => computeDependencies db intent current role payload
  | none => return ()

/-- `PairIntentRepository.dispatch_compute`. -/
def dispatchCompute (db : Database) (row : SandboxSession) (owner generation : Uuid)
    (role : ComputeRole) : Attempt (Bool × Database) := do
  let intent ← owned db row owner generation [.creating]
  if intent.computeUids role = none ∧ intent.computeDispatch role = .unissued then
    return (true, db.putIntent { intent with
      computeDispatch := Function.update intent.computeDispatch role .inflight })
  else
    return (false, db)

/-- `PairIntentRepository.reserve_compute`. -/
def reserveCompute (db : Database) (row : SandboxSession) (owner generation : Uuid)
    (role : ComputeRole) (payload : ComputePayload role) : Attempt (Bool × Database) := do
  let intent ← owned db row owner generation [.creating]
  let current ← require (db.sessions.find row.sessionId) .assertionError
  computeDependencies db intent current role payload
  failIf (intent.computePayloads role ≠ none ∧ intent.computePayloads role ≠ some payload)
    (.runtimeError "committed pair compute payload changed")
  if intent.computeUids role = none ∧ intent.computeDispatch role = .unissued then
    return (true, db.putIntent { intent with
      computePayloads := Function.update intent.computePayloads role (some payload)
      computeDispatch := Function.update intent.computeDispatch role .inflight })
  else
    failIf (intent.computePayloads role = none)
      (.runtimeError "compute reservation has no committed payload")
    return (false, db)

/-- `PairIntentRepository.bind_compute`. -/
def bindCompute (db : Database) (row : SandboxSession) (owner generation : Uuid)
    (role : ComputeRole) (uid : Uid) : Attempt Database := do
  let intent ← owned db row owner generation [.creating]
  let current ← require (db.sessions.find row.sessionId) .assertionError
  committedDependencies db intent current role
  refuseReplacement (intent.computeUids role) uid "pair compute UID replacement refused"
  return db.putIntent { intent with
    computeUids := Function.update intent.computeUids role (some uid) }

/-- `PairIntentRepository.settle_compute`. -/
def settleCompute (db : Database) (expected : PairIntent) (role : ComputeRole) :
    Attempt Database := do
  let intent ← settlementIntent db expected
  failIf (intent.computePayloads role ≠ expected.computePayloads role)
    (.claimLost "compute settlement payload changed")
  requireIssued (intent.computeDispatch role) "pair compute was never dispatched"
  return db.putIntent { intent with
    computeDispatch := Function.update intent.computeDispatch role .settled }

/-! ### Relay keys and relay inputs -/

/-- `PairIntentRepository.reserve_relay_keys`. -/
def reserveRelayKeys (db : Database) (row : SandboxSession) (owner generation : Uuid)
    (publicKeys : PublicKeys) : Attempt (Bool × Database) := do
  let intent ← owned db row owner generation [.creating]
  match intent.relayCustody with
  | none => return (true, db.putIntent { intent with relayCustody := some ⟨publicKeys, none, false⟩ })
  | some _ => return (false, db)

/-- `PairIntentRepository.bind_relay_keys`. -/
def bindRelayKeys (db : Database) (row : SandboxSession) (owner generation : Uuid) (uid : Uid) :
    Attempt Database := do
  let intent ← owned db row owner generation [.creating]
  let custody ← require intent.relayCustody (.runtimeError "relay custody was never dispatched")
  refuseReplacement custody.uid uid "relay custody UID replacement refused"
  return db.putIntent { intent with relayCustody := some { custody with uid := some uid } }

/-- `PairIntentRepository.settle_relay_keys`. -/
def settleRelayKeys (db : Database) (expected : PairIntent) : Attempt Database := do
  let intent ← settlementIntent db expected
  failIf (intent.relayCustody.map Issued.payload ≠ expected.relayCustody.map Issued.payload)
    (.claimLost "relay custody identity changed")
  let custody ← require intent.relayCustody (.runtimeError "relay custody was never dispatched")
  return db.putIntent { intent with relayCustody := some { custody with settled := true } }

/-- `PairIntentRepository.reserve_relay_input`. -/
def reserveRelayInput (db : Database) (row : SandboxSession) (owner generation : Uuid)
    (role : RelayRole) (payload : RelayInput) : Attempt (Bool × Database) := do
  let intent ← owned db row owner generation [.creating]
  failIf (some payload.publicKeys ≠ intent.relayCustody.map Issued.payload ∨
      some payload.custodyUid ≠ intent.relayCustody.bind Issued.uid ∨
      (∃ relay, some (payload.podUids relay) ≠ intent.computeUids relay.pod) ∨
      some payload.serviceUid ≠ intent.controlUids .serviceEgressRelay)
    (.claimLost "relay input dependency identity changed")
  match intent.relayInputs role with
  | none =>
    return (true, db.putIntent { intent with
      relayInputs := Function.update intent.relayInputs role (some ⟨payload, none, false⟩) })
  | some entry =>
    failIf (entry.payload ≠ payload) (.runtimeError "committed relay input payload changed")
    return (false, db)

/-- `PairIntentRepository.bind_relay_input`. -/
def bindRelayInput (db : Database) (row : SandboxSession) (owner generation : Uuid)
    (role : RelayRole) (uid : Uid) : Attempt Database := do
  let intent ← owned db row owner generation [.creating]
  let entry ← require (intent.relayInputs role) (.runtimeError "relay input was never dispatched")
  refuseReplacement entry.uid uid "relay input UID replacement refused"
  return db.putIntent { intent with
    relayInputs := Function.update intent.relayInputs role (some { entry with uid := some uid }) }

/-- `PairIntentRepository.settle_relay_input`. -/
def settleRelayInput (db : Database) (expected : PairIntent) (role : RelayRole) :
    Attempt Database := do
  let intent ← settlementIntent db expected
  failIf ((intent.relayInputs role).map Issued.payload ≠
      (expected.relayInputs role).map Issued.payload)
    (.claimLost "relay input settlement payload changed")
  let entry ← require (intent.relayInputs role) (.runtimeError "relay input was never dispatched")
  return db.putIntent { intent with
    relayInputs := Function.update intent.relayInputs role (some { entry with settled := true }) }

/-! ### Volumes -/

/-- A source as `validate_volume_payload` accepts it. -/
def CloneSource.Valid (source : CloneSource) : Prop :=
  0 < source.storageBytes ∧ source.storageBytes < 2 ^ 63

instance (source : CloneSource) : Decidable source.Valid :=
  inferInstanceAs (Decidable (_ ∧ _))

/-- The sources that a role takes. -/
def CloneSources.ValidFor (role : VolumeRole) : CloneSources → Prop
  | .workspace golden => role = .workspace ∧ golden.Valid
  | .outputs publicSource privateSource => role ≠ .workspace ∧ publicSource.Valid ∧
      privateSource.Valid ∧ publicSource.jobUid = privateSource.jobUid ∧
      publicSource.uid ≠ privateSource.uid

instance (role : VolumeRole) : (sources : CloneSources) → Decidable (sources.ValidFor role)
  | .workspace _ => inferInstanceAs (Decidable (_ ∧ _))
  | .outputs _ _ => inferInstanceAs (Decidable (_ ∧ _))

/-- The attempt and the identities of the CA outputs that a clone is made from. -/
def CloneSources.ca : CloneSources → Option (Uuid × CaSources)
  | .workspace _ => none
  | .outputs publicSource privateSource =>
    some (publicSource.jobUid, ⟨publicSource.uid, privateSource.uid⟩)

/-- The session with the CA outputs that its clones are made from. -/
def trackOutputs (intent : PairIntent) (current : SandboxSession) (attempt : Uuid)
    (identities : CaSources) : Attempt SandboxSession :=
  if current.caAttempt = none then do
    failIf (current.caSources ≠ none ∨ current.caClones ≠ none ∨
        ∃ consumer, intent.volumeResources (.clone consumer) ≠ none)
      (.claimLost "untracked CA clone bindings")
    return { current with
      caAttempt := some attempt
      caSources := some identities
      caClones := some fun _ ↦ none }
  else do
    failIf (current.caAttempt ≠ some attempt ∨ current.caSources ≠ some identities)
      (.claimLost "paired CA source identities changed")
    return current

/-- `PairVolumeRepository._current`. The session comes with the CA outputs that its first clone is
made from. -/
def currentVolume (db : Database) (row : SandboxSession) (owner generation : Uuid)
    (role : VolumeRole) (payload : VolumePayload) :
    Attempt (PairIntent × SandboxSession × SessionPVC) := do
  failIf (¬ payload.sources.ValidFor role) (.runtimeError "corrupt paired clone payload")
  let intent ← owned db row owner generation [.creating]
  let current ← require (db.sessions.find row.sessionId) .assertionError
  let pvc ← require (db.pvcs.find payload.pvcId)
    (.claimLost "paired clone workspace or control scope changed")
  failIf (current.pvcId ≠ some payload.pvcId ∨ current.goldenVersion ≠ intent.goldenVersion ∨
      pvc.lastStateChange ≠ payload.pvcChanged ∨ pvc.sessionId ≠ current.sessionId ∨
      pvc.sandboxId ≠ current.sandboxId ∨ pvc.state ≠ .attaching ∨ pvc.uid ≠ current.pvcUid ∨
      ∃ key, intent.controlUids key = none ∨ intent.controlDispatch key ≠ .settled)
    (.claimLost "paired clone workspace or control scope changed")
  match payload.sources.ca with
  | none => return (intent, current, pvc)
  | some (attempt, identities) => do
    let workspace ← require (intent.volumeResources .workspace)
      (.claimLost "paired workspace clone prerequisite changed")
    failIf (workspace.uid = none ∨ workspace.uid ≠ current.pvcUid ∨
        workspace.payload.pvcChanged ≠ payload.pvcChanged)
      (.claimLost "paired workspace clone prerequisite changed")
    let current ← trackOutputs intent current attempt identities
    return (intent, current, pvc)

/-- The UID that the session records for the volume of a role. -/
def SandboxSession.boundVolume (row : SandboxSession) : VolumeRole → Option Uid
  | .workspace => row.pvcUid
  | .clone consumer => row.caClone consumer

/-- `PairVolumeRepository.reserve`. -/
def reserveVolume (db : Database) (row : SandboxSession) (owner generation : Uuid)
    (role : VolumeRole) (payload : VolumePayload) : Attempt (Bool × Database) := do
  let (intent, current, _) ← currentVolume db row owner generation role payload
  failIf (current.boundVolume role ≠ (intent.volumeResources role).bind (·.uid))
    (.claimLost "untracked or replaced paired clone binding")
  match intent.volumeResources role with
  | none =>
    return (true, (db.putSession current).putIntent { intent with
      volumeResources :=
        Function.update intent.volumeResources role (some ⟨⟨payload, none, false⟩, none⟩) })
  | some entry =>
    failIf (entry.payload ≠ payload) (.runtimeError "committed paired clone payload changed")
    return (false, db.putSession current)

/-- `PairVolumeRepository.bind`, which binds the disk of the session as well. -/
def bindVolume (db : Database) (row : SandboxSession) (owner generation : Uuid)
    (role : VolumeRole) (uid : Uid) : Attempt Database := do
  let intent ← owned db row owner generation [.creating]
  let entry ← require (intent.volumeResources role)
    (.runtimeError "paired clone was never dispatched")
  let (intent, current, pvc) ← currentVolume db row owner generation role entry.payload
  refuseReplacement (current.boundVolume role) uid "paired clone UID replacement refused"
  refuseReplacement entry.uid uid "paired clone UID replacement refused"
  let bound := { intent with
    volumeResources := Function.update intent.volumeResources role
      (some { entry with uid := some uid }) }
  match role with
  | .workspace =>
    return ((db.putSession { current with pvcUid := some uid }).putPvc
      { pvc with uid := some uid }).putIntent bound
  | .clone consumer =>
    return (db.putSession { current with
      caClones := some (Function.update current.caClone consumer (some uid)) }).putIntent bound

/-- `PairVolumeRepository.settle`. -/
def settleVolume (db : Database) (expected : PairIntent) (role : VolumeRole) :
    Attempt Database := do
  let intent ← settlementIntent db expected
  failIf ((intent.volumeResources role).map (·.payload) ≠
      (expected.volumeResources role).map (·.payload))
    (.claimLost "paired clone settlement payload changed")
  let entry ← require (intent.volumeResources role)
    (.runtimeError "paired clone was never dispatched")
  return db.putIntent { intent with
    volumeResources :=
      Function.update intent.volumeResources role (some { entry with settled := true }) }

/-- Release evidence on an entry: the first is kept, and another must be the same. -/
def recordEvidence {π : Type} (entry : Option (IssuedVolume π)) (evidence : Release)
    (missing : String) : Attempt (IssuedVolume π) := do
  let entry ← require entry (.runtimeError missing)
  failIf (entry.uid = none) (.runtimeError missing)
  failIf (entry.release ≠ none ∧ entry.release ≠ some evidence)
    (.runtimeError "stored release evidence changed")
  return { entry with release := some evidence }

/-- `PairVolumeRepository.record_release`. -/
def recordVolumeRelease (db : Database) (row : SandboxSession) (owner generation : Uuid)
    (role : VolumeRole) (evidence : Release) (statuses : List Status) : Attempt Database := do
  let intent ← owned db row owner generation statuses
  let entry ← recordEvidence (intent.volumeResources role) evidence
    "bound paired clone release evidence required"
  return db.putIntent { intent with
    volumeResources := Function.update intent.volumeResources role (some entry) }

/-! ### Topics -/

/-- `PairCreation._topics`, up to the preparation. -/
def dispatchTopics (db : Database) (row : SandboxSession) (owner generation : Uuid) :
    Attempt (Bool × Database) := do
  let intent ← owned db row owner generation [.creating]
  match intent.topicsDispatch with
  | .unissued => return (true, db.putIntent { intent with topicsDispatch := .inflight })
  | .inflight => throw (.claimLost "paired topic write remains ambiguous")
  | .settled => return (false, db)

/-- `PairCreation._topic_write`, after the preparation. -/
def settleTopics (db : Database) (expected : PairIntent) : Attempt Database := do
  let intent ← settlementIntent db expected
  failIf (intent.topicsDispatch = .unissued) (.claimLost "paired topics were never dispatched")
  return db.putIntent { intent with topicsDispatch := .settled }

/-! ### The egress state -/

/-- `EgressStateRepository.reserve`. The first reservation answers with the wrapping key, whose
fingerprint it records. -/
def reserveState (db : Database) (row : SandboxSession) (owner generation stateId : Uuid)
    (keyFingerprint : Text) (storageBytes : ℕ) : Attempt (Bool × Database) := do
  failIf (¬ (0 < storageBytes ∧ storageBytes < 2 ^ 63))
    (.valueError "explicit positive egress storage bytes required")
  let pair ← owned db row owner generation [.creating]
  match db.states.rows.find? fun state ↦ state.sandboxId = pair.sandboxId with
  | none => do
    failIf (pair.egressStateId ≠ none)
      (.runtimeError "reserved persistent egress state disappeared")
    let state : EgressState :=
      { stateId := stateId
        sessionId := pair.sessionId
        sandboxId := pair.sandboxId
        projectId := pair.projectId
        creatorGeneration := pair.generation
        claimOwner := pair.claimOwner
        claimChanged := pair.claimChanged
        namespaceName := pair.namespaceName
        storageBytes := storageBytes
        keyFingerprint := keyFingerprint
        dispatch := fun role ↦ match role with
          | .key => .inflight
          | .volume => .unissued
        uid := fun _ ↦ none
        volumeRelease := none }
    let db ← db.insertState state
    let pair := { pair with egressStateId := some stateId }
    validateState state
    stateMatches state pair.toPairLedger
    return (true, db.putIntent pair)
  | some state => do
    validateState state
    stateMatches state pair.toPairLedger
    failIf (pair.egressStateId ≠ some state.stateId)
      (.runtimeError "persistent egress state anchor changed")
    failIf (state.storageBytes ≠ storageBytes)
      (.runtimeError "egress state storage reservation changed")
    return (false, db)

/-- `EgressStateRepository.owned`. -/
def ownedState (db : Database) (row : SandboxSession) (owner generation stateId : Uuid) :
    Attempt EgressState := do
  let pair ← owned db row owner generation [.creating]
  let state ← require (db.states.find stateId)
    (.claimLost "persistent egress state reservation missing")
  validateState state
  stateMatches state pair.toPairLedger
  failIf (pair.egressStateId ≠ some state.stateId)
    (.runtimeError "persistent egress state anchor changed")
  return state

/-- `EgressStateRepository.reserve_volume`. -/
def reserveStateVolume (db : Database) (row : SandboxSession) (owner generation stateId : Uuid) :
    Attempt (Bool × Database) := do
  let state ← ownedState db row owner generation stateId
  failIf (state.uid .key = none ∨ state.dispatch .key ≠ .settled)
    (.runtimeError "wrapping key custody must be bound and settled")
  if state.dispatch .volume = .unissued then
    return (true, db.putState { state with
      dispatch := Function.update state.dispatch .volume .inflight })
  else
    return (false, db)

/-- `EgressStateRepository.bind`. -/
def bindState (db : Database) (row : SandboxSession) (owner generation stateId : Uuid)
    (role : StateRole) (uid : Uid) : Attempt Database := do
  let state ← ownedState db row owner generation stateId
  requireIssued (state.dispatch role) "egress state resource was never dispatched"
  refuseReplacement (state.uid role) uid "egress state resource UID replacement refused"
  return db.putState { state with uid := Function.update state.uid role (some uid) }

/-- `EgressStateRepository.settle`, also after the claim or the generation was lost. -/
def settleState (db : Database) (expected : EgressState) (role : StateRole) :
    Attempt Database := do
  validateState expected
  failIf ((db.intents.find expected.creatorGeneration).any (·.retiredAt ≠ none) = true)
    (.claimLost "retired state creator cannot settle writes")
  let state ← require (db.states.find expected.stateId)
    (.claimLost "egress state settlement identity changed")
  failIf (state.scope ≠ expected.scope) (.claimLost "egress state settlement identity changed")
  validateState state
  failIf (role = .volume ∧ state.uid .key ≠ expected.uid .key)
    (.claimLost "egress state settlement custody changed")
  requireIssued (state.dispatch role) "egress state resource was never dispatched"
  return db.putState { state with dispatch := Function.update state.dispatch role .settled }

/-- `EgressStateRepository.record_volume_release`. -/
def recordStateVolumeRelease (db : Database) (row : SandboxSession)
    (owner generation stateId : Uuid) (evidence : Release) : Attempt Database := do
  let pair ← owned db row owner generation [.creating]
  failIf (pair.egressStateId ≠ some stateId)
    (.claimLost "persistent egress state anchor changed")
  let state ← require (db.states.find stateId) (.runtimeError "persistent egress state row missing")
  failIf (state.sandboxId ≠ pair.sandboxId) (.runtimeError "persistent egress state row missing")
  failIf (state.dispatch .volume = .unissued ∨ state.uid .volume = none)
    (.runtimeError "bound persistent egress volume release evidence required")
  failIf (state.volumeRelease ≠ none ∧ state.volumeRelease ≠ some evidence)
    (.runtimeError "stored release evidence changed")
  return db.putState { state with volumeRelease := some evidence }

/-! ### IPC -/

/-- `PairIpcRepository.dependencies`: every write before IPC is settled and bound. -/
def PairLedger.ReadyForIpc (pair : PairLedger) : Prop :=
  (∀ key, pair.controlUids key ≠ none ∧ pair.controlDispatch key = .settled) ∧
    (∀ role, pair.computeUids role ≠ none ∧ pair.computeDispatch role = .settled ∧
      pair.computePayloads role ≠ none) ∧
    pair.egressStateId ≠ none ∧
    (pair.slot .custody).dispatch = .settled ∧ (pair.slot .custody).uid ≠ none ∧
    ∀ role, (pair.slot (.relayInput role)).dispatch = .settled ∧
      (pair.slot (.relayInput role)).uid ≠ none

instance (pair : PairLedger) : Decidable pair.ReadyForIpc :=
  inferInstanceAs (Decidable (_ ∧ _))

/-- `PairIpcRepository._dependencies`. -/
def ipcDependencies (db : Database) (intent : PairIntent) (current : SandboxSession)
    (role : IpcRole) (payload : IpcPayload) : Attempt Unit := do
  failIf (current.ipcDeploymentUid ≠ none)
    (.claimLost "legacy IPC Deployment binding blocks paired Pod publication")
  failIf (¬ intent.ReadyForIpc)
    (.runtimeError "settled UID-bound complete pair required before IPC")
  failIf ((∃ key, some (payload.controlUids key) ≠ intent.controlUids key) ∨
      (∃ member, some (payload.computeUids member) ≠ intent.computeUids member) ∨
      (∃ relay, some (payload.relayInputUids relay) ≠ (intent.slot (.relayInput relay)).uid) ∨
      some payload.custodyUid ≠ (intent.slot .custody).uid ∨
      some payload.stateId ≠ intent.egressStateId)
    (.claimLost "paired IPC dependency identities changed")
  committedDependencies db intent current .guest
  committedDependencies db intent current .egress
  committedDependencies db intent current .guestRelay
  committedDependencies db intent current .egressRelay
  failIf (role = .pod ∧ ((intent.slot (.ipc .volume)).dispatch ≠ .settled ∨
      (intent.slot (.ipc .volume)).uid = none ∨
      (intent.slot (.ipc .volume)).uid ≠ payload.pod.map IpcPodInputs.volumeUid ∨
      current.ipcPvcUid ≠ (intent.slot (.ipc .volume)).uid))
    (.claimLost "settled UID-bound IPC volume required")

/-- The UID that the session records for an IPC resource. -/
def SandboxSession.boundIpc (row : SandboxSession) : IpcRole → Option Uid
  | .volume => row.ipcPvcUid
  | .pod => row.ipcPodUid

/-- The session with the UID of an IPC resource. -/
def SandboxSession.bindIpc (row : SandboxSession) (role : IpcRole) (uid : Uid) : SandboxSession :=
  match role with
  | .volume => { row with ipcPvcUid := some uid }
  | .pod => { row with ipcPodUid := some uid }

/-- `validate_ipc_payload`: only the Pod has the inputs of the Pod. -/
def validateIpcPayload (role : IpcRole) (payload : IpcPayload) : Attempt Unit :=
  failIf (payload.pod.isSome ≠ decide (role = .pod)) (.runtimeError "corrupt paired IPC payload")

/-- `PairIpcRepository.reserve`. -/
def reserveIpc (db : Database) (row : SandboxSession) (owner generation : Uuid)
    (role : IpcRole) (payload : IpcPayload) : Attempt (Bool × Database) := do
  validateIpcPayload role payload
  let intent ← owned db row owner generation [.creating]
  let current ← require (db.sessions.find row.sessionId) .assertionError
  ipcDependencies db intent current role payload
  failIf (current.boundIpc role ≠ (intent.ipcResources role).bind (·.uid))
    (.claimLost "untracked or replaced IPC session binding")
  match intent.ipcResources role with
  | none =>
    return (true, db.putIntent { intent with
      ipcResources :=
        Function.update intent.ipcResources role (some ⟨⟨payload, none, false⟩, none⟩) })
  | some entry =>
    failIf (entry.payload ≠ payload) (.runtimeError "committed paired IPC payload changed")
    return (false, db)

/-- `PairIpcRepository.bind`, which binds the session as well. -/
def bindIpc (db : Database) (row : SandboxSession) (owner generation : Uuid) (role : IpcRole)
    (uid : Uid) : Attempt Database := do
  let intent ← owned db row owner generation [.creating]
  let current ← require (db.sessions.find row.sessionId) .assertionError
  let entry ← require (intent.ipcResources role)
    (.runtimeError "paired IPC resource was never dispatched")
  ipcDependencies db intent current role entry.payload
  refuseReplacement entry.uid uid "paired IPC UID replacement refused"
  refuseReplacement (current.boundIpc role) uid "paired IPC UID replacement refused"
  return (db.putSession (current.bindIpc role uid)).putIntent { intent with
    ipcResources := Function.update intent.ipcResources role (some { entry with uid := some uid }) }

/-- `PairIpcRepository.settle`. -/
def settleIpc (db : Database) (expected : PairIntent) (role : IpcRole) : Attempt Database := do
  let intent ← settlementIntent db expected
  failIf ((intent.ipcResources role).map (·.payload) ≠ (expected.ipcResources role).map (·.payload))
    (.claimLost "paired IPC settlement payload changed")
  let entry ← require (intent.ipcResources role)
    (.runtimeError "paired IPC resource was never dispatched")
  return db.putIntent { intent with
    ipcResources := Function.update intent.ipcResources role (some { entry with settled := true }) }

/-- `PairIpcRepository.record_release`. -/
def recordIpcRelease (db : Database) (row : SandboxSession) (owner generation : Uuid)
    (role : IpcRole) (evidence : Release) (statuses : List Status) : Attempt Database := do
  let intent ← owned db row owner generation statuses
  let entry ← recordEvidence (intent.ipcResources role) evidence
    "bound paired IPC release evidence required"
  return db.putIntent { intent with
    ipcResources := Function.update intent.ipcResources role (some entry) }

/-! ### The validation of a transfer -/

/-- `PairCreation._retained`, after the cluster was observed: the receipt is marked once. -/
def validateTransfer (db : Database) (row : SandboxSession) (owner generation : Uuid)
    (now : Time) : Attempt Database := do
  let intent ← owned db row owner generation [.creating]
  let receipt ← verifyTransfer db intent
  let receipt ← require receipt .assertionError
  return db.putTransfer { receipt with validatedAt := receipt.validatedAt <|> some now }

end Ads.SandboxManager
