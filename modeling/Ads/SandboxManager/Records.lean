import Ads.Foundation.Reservation
import Ads.Foundation.Table
import Ads.Python.Values
import Mathlib.Data.Fintype.Pi

/-!
# The records of the sandbox manager

The rows of the manager's tables. A session is the durable identity of a sandbox; its disk is a
`SessionPVC`. A pair is one generation of the guest and the egress of a sandbox: its `PairIntent` is
the ledger of every resource that the manager may create for it, with the stage of the write and the
UID that was observed. The egress state outlives generations. A `CleanupWork` carries a snapshot of
the ledger and the exact objects to tear down. A `PairTransfer` hands the retained disk of a retired
generation to its successor; a `PairDisposal` claims it for destruction.

A column whose values the source validates on each reading has a type that admits no others: a UID
is a visible text, a resource that was issued has a payload. Timestamps are microseconds. Columns
that no modelled function reads (pings, the creation of a session, the unused cleanup journal) are
left out.
-/

set_option autoImplicit false
set_option relaxedAutoImplicit false

namespace Ads.SandboxManager

open Foundation Python

/-- A text that is not blank. -/
structure Label where
  text : Text
  visible : IsVisible text
  deriving DecidableEq

/-- The UID of an object of the cluster. -/
abbrev Uid := Label

/-- A timestamp. -/
abbrev Time := ℤ

/-- `advance`: the clock, but later than the previous timestamp. -/
def advance (previous now : Time) : Time :=
  max now (previous + 1)

theorem lt_advance (previous now : Time) : previous < advance previous now :=
  lt_of_lt_of_le (Int.lt_succ previous) (le_max_right now (previous + 1))

/-! ### Roles -/

/-- `CONTROL_RESOURCES`. -/
inductive ControlKey where
  | podGroupGuest
  | podGroupEgress
  | serviceEgress
  | serviceGuestRelay
  | serviceEgressRelay
  | networkPolicyEgress
  | networkPolicyGuestRelay
  | networkPolicyEgressRelay
  deriving DecidableEq

/-- All of them, in the order of the source. -/
def ControlKey.all : List ControlKey :=
  [.podGroupGuest, .podGroupEgress, .serviceEgress, .serviceGuestRelay, .serviceEgressRelay,
    .networkPolicyEgress, .networkPolicyGuestRelay, .networkPolicyEgressRelay]

instance : Fintype ControlKey :=
  ⟨⟨ControlKey.all, by decide⟩, fun key ↦ by cases key <;> decide⟩

/-- `COMPUTE_ROLES`. -/
inductive ComputeRole where
  | guest
  | egress
  | guestRelay
  | egressRelay
  deriving DecidableEq

/-- All of them, in the order of the source. -/
def ComputeRole.all : List ComputeRole :=
  [.guest, .egress, .guestRelay, .egressRelay]

instance : Fintype ComputeRole :=
  ⟨⟨ComputeRole.all, by decide⟩, fun role ↦ by cases role <;> decide⟩

/-- `INPUT_ROLES`. -/
inductive RelayRole where
  | guestRelay
  | egressRelay
  deriving DecidableEq

/-- All of them, in the order of the source. -/
def RelayRole.all : List RelayRole :=
  [.guestRelay, .egressRelay]

instance : Fintype RelayRole :=
  ⟨⟨RelayRole.all, by decide⟩, fun role ↦ by cases role <;> decide⟩

/-- The Pod that a relay input belongs to. -/
def RelayRole.pod : RelayRole → ComputeRole
  | .guestRelay => .guestRelay
  | .egressRelay => .egressRelay

/-- `CA_CONSUMERS`. -/
inductive CaConsumer where
  | guest
  | egress
  | key
  deriving DecidableEq

/-- All of them, in the order of the source. -/
def CaConsumer.all : List CaConsumer :=
  [.guest, .egress, .key]

instance : Fintype CaConsumer :=
  ⟨⟨CaConsumer.all, by decide⟩, fun consumer ↦ by cases consumer <;> decide⟩

/-- `VOLUME_ROLES`: the workspace, and the clones of the CA outputs. -/
inductive VolumeRole where
  | workspace
  | clone (consumer : CaConsumer)
  deriving DecidableEq

/-- All of them, in the order of the source. -/
def VolumeRole.all : List VolumeRole :=
  [.workspace, .clone .guest, .clone .egress, .clone .key]

instance : Fintype VolumeRole :=
  ⟨⟨VolumeRole.all, by decide⟩, fun role ↦ by
    cases role with
    | workspace => decide
    | clone consumer => cases consumer <;> decide⟩

/-- `IPC_ROLES`. -/
inductive IpcRole where
  | volume
  | pod
  deriving DecidableEq

/-- All of them, in the order of the source. -/
def IpcRole.all : List IpcRole :=
  [.volume, .pod]

instance : Fintype IpcRole :=
  ⟨⟨IpcRole.all, by decide⟩, fun role ↦ by cases role <;> decide⟩

/-- The resources of the egress state. -/
inductive StateRole where
  | key
  | volume
  deriving DecidableEq

/-- All of them, in the order of the source. -/
def StateRole.all : List StateRole :=
  [.key, .volume]

instance : Fintype StateRole :=
  ⟨⟨StateRole.all, by decide⟩, fun role ↦ by cases role <;> decide⟩

/-! ### The egress state -/

/-- `validate_release`: the identity of a bound volume, or that it was never bound. -/
inductive Release where
  | neverBound
  | bound (pvName pvUid : Label) (volumeKey : Option Label)
  deriving DecidableEq

/-- `EgressState`: the persistent state of a sandbox, with the stage and the UID of its wrapping key
and of its volume. -/
@[ext] structure EgressState where
  stateId : Uuid
  sessionId : Uuid
  sandboxId : Uuid
  projectId : Uuid
  creatorGeneration : Uuid
  claimOwner : Uuid
  claimChanged : Time
  namespaceName : Text
  storageBytes : ℕ
  keyFingerprint : Text
  dispatch : StateRole → Dispatch
  uid : StateRole → Option Uid
  volumeRelease : Option Release

instance : DecidableEq EgressState :=
  fun _ _ ↦ decidable_of_iff _ EgressState.ext_iff.symm

/-- A resource of the state. -/
def EgressState.slot (state : EgressState) (role : StateRole) : Slot Uid :=
  ⟨state.dispatch role, state.uid role⟩

/-- `_scope`: the state without its evidence. -/
def EgressState.scope (state : EgressState) : EgressState :=
  { state with
    dispatch := fun _ ↦ .unissued
    uid := fun _ ↦ none
    volumeRelease := none }

/-- A hexadecimal digit in lower case. -/
def isHexDigit (char : Char) : Bool :=
  isDigit char || ('a'.toNat ≤ char.toNat && char.toNat ≤ 'f'.toNat)

/-- `egress_state_store.validate` does not raise. -/
def EgressState.Valid (state : EgressState) : Prop :=
  0 < state.storageBytes ∧ state.storageBytes < 2 ^ 63 ∧ IsVisible state.namespaceName ∧
    state.keyFingerprint.length = 64 ∧ state.keyFingerprint.all isHexDigit = true ∧
    state.dispatch .key ≠ .unissued ∧
    (state.dispatch .volume = .unissued → state.uid .volume = none) ∧
    (state.dispatch .volume ≠ .unissued → state.dispatch .key = .settled ∧ state.uid .key ≠ none)

instance (state : EgressState) : Decidable state.Valid :=
  inferInstanceAs (Decidable (_ ∧ _))

/-- Both resources of the state are settled and bound. -/
def EgressState.Attached (state : EgressState) : Prop :=
  ∀ role, state.dispatch role = .settled ∧ state.uid role ≠ none

instance (state : EgressState) : Decidable state.Attached :=
  inferInstanceAs (Decidable (∀ _, _))

/-! ### What is committed before a resource is created -/

/-- What the constructor of a Pod takes from the platform: the observed MTU, the RuntimeClass, and
the rest of the runtime, which the manager only compares. -/
structure Runtime where
  transportMtu : ℕ
  runtimeClass : Option Text
  settings : Text
  deriving DecidableEq

/-- The identities of the CA outputs. -/
structure CaSources where
  publicSource : Uid
  privateSource : Uid
  deriving DecidableEq

/-- What a guest Pod is built from. -/
structure GuestInputs where
  pvcId : Uuid
  pvcUid : Uid
  caAttempt : Uuid
  caGuestUid : Uid
  caSourceUid : Uid
  goldenVersion : Text
  deriving DecidableEq

/-- What an egress Pod is built from. Its state is settled and bound. -/
@[ext] structure EgressInputs where
  retainedFrom : Option Uuid
  caAttempt : Uuid
  caEgressUid : Uid
  caKeyUid : Uid
  caSources : CaSources
  goldenVersion : Text
  state : EgressState
  attached : state.Attached

instance : DecidableEq EgressInputs :=
  fun _ _ ↦ decidable_of_iff _ EgressInputs.ext_iff.symm

/-- The inputs of the Pod of a role. Relays take none but their runtime. -/
def ComputeInputs : ComputeRole → Type
  | .guest => GuestInputs
  | .egress => EgressInputs
  | .guestRelay => Unit
  | .egressRelay => Unit

instance : (role : ComputeRole) → DecidableEq (ComputeInputs role)
  | .guest => inferInstanceAs (DecidableEq GuestInputs)
  | .egress => inferInstanceAs (DecidableEq EgressInputs)
  | .guestRelay => inferInstanceAs (DecidableEq Unit)
  | .egressRelay => inferInstanceAs (DecidableEq Unit)

/-- The payload of a Pod. -/
@[ext] structure ComputePayload (role : ComputeRole) where
  runtime : Runtime
  inputs : ComputeInputs role
  controlUids : ControlKey → Uid
  manifest : Text

instance {role : ComputeRole} : DecidableEq (ComputePayload role) :=
  fun _ _ ↦ decidable_of_iff _ ComputePayload.ext_iff.symm

/-- The raw bytes of a relay key, as `key_bytes` accepts them. -/
abbrev RelayKey := { raw : List (Fin 256) // raw.length = 32 ∧ ∃ byte ∈ raw, byte ≠ 0 }

/-- `validate_public_keys`: the public keys of both relays, which differ. -/
structure PublicKeys where
  guest : RelayKey
  egress : RelayKey
  distinct : guest ≠ egress
  deriving DecidableEq

/-- The payload of a relay input. Its configuration is a function of the rest. -/
@[ext] structure RelayInput where
  runtime : Runtime
  publicKeys : PublicKeys
  custodyUid : Uid
  podUids : RelayRole → Uid
  serviceUid : Uid
  serviceIpv4 : Text

instance : DecidableEq RelayInput :=
  fun _ _ ↦ decidable_of_iff _ RelayInput.ext_iff.symm

/-- A verified source of a clone. -/
structure CloneSource where
  name : Label
  uid : Label
  jobUid : Uuid
  storageBytes : ℕ
  deriving DecidableEq

/-- The sources of the clone of a role. -/
inductive CloneSources where
  | workspace (golden : CloneSource)
  | outputs (publicSource privateSource : CloneSource)
  deriving DecidableEq

/-- The payload of a clone. -/
structure VolumePayload where
  pvcId : Uuid
  pvcChanged : Time
  sources : CloneSources
  manifest : Text
  deriving DecidableEq

/-- What only the IPC Pod has in its payload. -/
structure IpcPodInputs where
  volumeUid : Uid
  adsServiceSubject : Uuid
  deriving DecidableEq

/-- The payload of an IPC resource. -/
@[ext] structure IpcPayload where
  manifest : Text
  controlUids : ControlKey → Uid
  computeUids : ComputeRole → Uid
  relayInputUids : RelayRole → Uid
  custodyUid : Uid
  stateId : Uuid
  pod : Option IpcPodInputs

instance : DecidableEq IpcPayload :=
  fun _ _ ↦ decidable_of_iff _ IpcPayload.ext_iff.symm

/-! ### The ledger of a pair -/

/-- A resource that was issued with a payload. -/
@[ext] structure Issued (π : Type) where
  payload : π
  uid : Option Uid
  settled : Bool

instance {π : Type} [DecidableEq π] : DecidableEq (Issued π) :=
  fun _ _ ↦ decidable_of_iff _ Issued.ext_iff.symm

/-- A volume that was issued, with its release evidence. -/
@[ext] structure IssuedVolume (π : Type) extends Issued π where
  release : Option Release

instance {π : Type} [DecidableEq π] : DecidableEq (IssuedVolume π) :=
  fun _ _ ↦ decidable_of_iff _ IssuedVolume.ext_iff.symm

/-- The stage of a resource that was issued. -/
def Issued.dispatch {π : Type} (entry : Issued π) : Dispatch :=
  if entry.settled then .settled else .inflight

/-- The slot of an entry; an entry that was not issued is empty. -/
def Issued.slot {π : Type} : Option (Issued π) → Slot Uid
  | none => ⟨.unissued, none⟩
  | some entry => ⟨entry.dispatch, entry.uid⟩

/-- The slot of an entry of a volume. -/
def IssuedVolume.slot {π : Type} (entry : Option (IssuedVolume π)) : Slot Uid :=
  Issued.slot (entry.map IssuedVolume.toIssued)

/-- The columns of a generation that a snapshot captures. -/
@[ext] structure PairLedger where
  generation : Uuid
  sessionId : Uuid
  sandboxId : Uuid
  projectId : Uuid
  claimOwner : Uuid
  claimChanged : Time
  namespaceName : Text
  goldenVersion : Text
  controlUids : ControlKey → Option Uid
  controlDispatch : ControlKey → Dispatch
  computeUids : ComputeRole → Option Uid
  computeDispatch : ComputeRole → Dispatch
  computePayloads : (role : ComputeRole) → Option (ComputePayload role)
  relayCustody : Option (Issued PublicKeys)
  relayInputs : RelayRole → Option (Issued RelayInput)
  egressStateId : Option Uuid
  ipcResources : IpcRole → Option (IssuedVolume IpcPayload)
  volumeResources : VolumeRole → Option (IssuedVolume VolumePayload)
  topicsDispatch : Dispatch
  retainedFrom : Option Uuid

instance : DecidableEq PairLedger :=
  fun _ _ ↦ decidable_of_iff _ PairLedger.ext_iff.symm

/-- The resources of a generation. -/
inductive Key where
  | control (key : ControlKey)
  | compute (role : ComputeRole)
  | custody
  | relayInput (role : RelayRole)
  | volume (role : VolumeRole)
  | ipc (role : IpcRole)
  deriving DecidableEq

/-- What is decided of every family is decided of every resource. -/
instance {holds : Key → Prop} [DecidablePred holds] : Decidable (∀ key, holds key) :=
  decidable_of_iff ((∀ key, holds (.control key)) ∧ (∀ role, holds (.compute role)) ∧
      holds .custody ∧ (∀ role, holds (.relayInput role)) ∧ (∀ role, holds (.volume role)) ∧
      ∀ role, holds (.ipc role))
    ⟨fun ⟨hcontrol, hcompute, hcustody, hinput, hvolume, hipc⟩ key ↦ by
      cases key with
      | control key => exact hcontrol key
      | compute role => exact hcompute role
      | custody => exact hcustody
      | relayInput role => exact hinput role
      | volume role => exact hvolume role
      | ipc role => exact hipc role,
      fun h ↦ ⟨fun _ ↦ h _, fun _ ↦ h _, h _, fun _ ↦ h _, fun _ ↦ h _, fun _ ↦ h _⟩⟩

/-- The slot of a resource. -/
def PairLedger.slot (ledger : PairLedger) : Key → Slot Uid
  | .control key => ⟨ledger.controlDispatch key, ledger.controlUids key⟩
  | .compute role => ⟨ledger.computeDispatch role, ledger.computeUids role⟩
  | .custody => Issued.slot ledger.relayCustody
  | .relayInput role => Issued.slot (ledger.relayInputs role)
  | .volume role => IssuedVolume.slot (ledger.volumeResources role)
  | .ipc role => IssuedVolume.slot (ledger.ipcResources role)

/-- `PairBinding`: who a generation belongs to. -/
structure PairBinding where
  sessionId : Uuid
  sandboxId : Uuid
  projectId : Uuid
  generation : Uuid
  deriving DecidableEq

/-- `binding`. -/
def PairLedger.binding (ledger : PairLedger) : PairBinding :=
  ⟨ledger.sessionId, ledger.sandboxId, ledger.projectId, ledger.generation⟩

/-- `PairIntent`: the live ledger of a generation. -/
@[ext] structure PairIntent extends PairLedger where
  creationFenced : Bool
  retiredAt : Option Time

instance : DecidableEq PairIntent :=
  fun _ _ ↦ decidable_of_iff _ PairIntent.ext_iff.symm

/-- The primary key of a generation. -/
def PairIntent.key (intent : PairIntent) : Uuid :=
  intent.generation

/-- `pair_snapshot`: a captured ledger, with the egress state that it is anchored to. -/
@[ext] structure PairSnapshot extends PairLedger where
  egressState : Option EgressState

instance : DecidableEq PairSnapshot :=
  fun _ _ ↦ decidable_of_iff _ PairSnapshot.ext_iff.symm

/-! ### Sessions -/

/-- The statuses of a session. -/
inductive Status where
  | pending
  | creating
  | ready
  | shuttingDown
  | stopped
  | service
  | failed
  | recovering
  deriving DecidableEq

/-- `SandboxSession`. -/
@[ext] structure SandboxSession where
  sessionId : Uuid
  sandboxId : Uuid
  projectId : Uuid
  status : Status
  goldenVersion : Text
  pvcUid : Option Uid
  pvcId : Option Uuid
  serviceDeadline : Option Time
  guestDeploymentUid : Option Uid
  ipcDeploymentUid : Option Uid
  ipcPodUid : Option Uid
  ipcPvcUid : Option Uid
  caAttempt : Option Uuid
  caSources : Option CaSources
  caClones : Option (CaConsumer → Option Uid)
  claimedBy : Option Uuid
  statusChangedAt : Time
  lastExecutionAt : Time

instance : DecidableEq SandboxSession :=
  fun _ _ ↦ decidable_of_iff _ SandboxSession.ext_iff.symm

/-- `(row.ca_clones or {}).get`. -/
def SandboxSession.caClone (row : SandboxSession) (consumer : CaConsumer) : Option Uid :=
  row.caClones.bind fun clones ↦ clones consumer

/-- The states of a disk. -/
inductive PvcState where
  | detached
  | attaching
  | attached
  | detaching
  | destroying
  | failed
  deriving DecidableEq

/-! ### Cleanup -/

/-- The kinds of objects that are torn down. -/
inductive ObjectKind where
  | pod
  | podGroup
  | service
  | networkPolicy
  | deployment
  | persistentVolumeClaim
  | secret
  deriving DecidableEq

/-- The names that the manager gives to its objects, and any other. -/
inductive ObjectName where
  | session (id : Uuid)
  | ipc (sandboxId : Uuid)
  | caConsumer (consumer : CaConsumer) (sandboxId : Uuid)
  | pair (role : ComputeRole) (sandboxId : Uuid)
  | relayInput (role : RelayRole) (sandboxId generation : Uuid)
  | relayKeys (sandboxId generation : Uuid)
  | egressState (role : StateRole) (stateId : Uuid)
  | other (name : Text)
  deriving DecidableEq

/-- The kind and the role of a control resource. -/
def ControlKey.object : ControlKey → ObjectKind × ComputeRole
  | .podGroupGuest => (.podGroup, .guest)
  | .podGroupEgress => (.podGroup, .egress)
  | .serviceEgress => (.service, .egress)
  | .serviceGuestRelay => (.service, .guestRelay)
  | .serviceEgressRelay => (.service, .egressRelay)
  | .networkPolicyEgress => (.networkPolicy, .egress)
  | .networkPolicyGuestRelay => (.networkPolicy, .guestRelay)
  | .networkPolicyEgressRelay => (.networkPolicy, .egressRelay)

/-- `target`: an exact object, with the release evidence stored on it. -/
structure Target where
  kind : ObjectKind
  name : ObjectName
  uid : Option Uid
  retain : Bool
  release : Option Release
  cleaned : Bool
  deriving DecidableEq

/-- `SessionPVC`: a disk lifetime. -/
structure SessionPVC where
  pvcId : Uuid
  sessionId : Uuid
  sandboxId : Uuid
  uid : Option Uid
  releaseEvidence : Option Target
  state : PvcState
  lastExecution : Time
  lastStateChange : Time
  deriving DecidableEq

/-- The kinds of cleanup. -/
inductive WorkKind where
  | idle
  | service
  | reap
  | orphan
  | recovery
  deriving DecidableEq

/-- `CleanupWork`: a restart-safe intent to tear down. -/
@[ext] structure CleanupWork where
  workId : Uuid
  sessionId : Option Uuid
  sandboxId : Uuid
  pvcId : Option Uuid
  kind : WorkKind
  stateChanged : Time
  pvcChanged : Option Time
  deadline : Time
  acknowledged : Bool
  targets : List Target
  pairSnapshot : Option PairSnapshot

instance : DecidableEq CleanupWork :=
  fun _ _ ↦ decidable_of_iff _ CleanupWork.ext_iff.symm

/-! ### Transfer and disposal -/

/-- `PairTransfer`: the receipt of a one-use transfer. -/
@[ext] structure PairTransfer where
  generation : Uuid
  predecessor : Uuid
  sessionId : Uuid
  sandboxId : Uuid
  projectId : Uuid
  claimOwner : Uuid
  claimChanged : Time
  state : EgressState
  workspace : IssuedVolume VolumePayload
  validatedAt : Option Time

instance : DecidableEq PairTransfer :=
  fun _ _ ↦ decidable_of_iff _ PairTransfer.ext_iff.symm

/-- `PairDisposal`: the one-way claim to destroy a retained generation. -/
structure PairDisposal where
  generation : Uuid
  workId : Uuid
  sessionId : Uuid
  sandboxId : Uuid
  projectId : Uuid
  pvcId : Uuid
  pvcUid : Option Uid
  createdAt : Time
  completedAt : Option Time
  deriving DecidableEq

end Ads.SandboxManager
