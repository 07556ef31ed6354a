import Ads.SandboxManager.Outcomes

/-!
# How a ledger evolves

What one transaction may do to the ledger of a generation. Every slot advances by at most one stage
and its UID is written once; so are the payloads, the release evidence and the anchor of the egress
state; the fence stays, and a retired ledger is final (`PairIntent.Evolves`). Each family of
resources has one lemma that takes a change of its own slot to the whole ledger.
-/

set_option autoImplicit false
set_option relaxedAutoImplicit false

namespace Ads.SandboxManager

open Foundation Python

/-- Who a generation belongs to and what it was built from. -/
def PairLedger.origin (ledger : PairLedger) :
    PairBinding × Uuid × Time × Text × Text × Option Uuid :=
  (ledger.binding, ledger.claimOwner, ledger.claimChanged, ledger.namespaceName,
    ledger.goldenVersion, ledger.retainedFrom)

/-- The release evidence of a volume. -/
def PairLedger.volumeRelease (ledger : PairLedger) (role : VolumeRole) : Option Release :=
  (ledger.volumeResources role).bind (·.release)

/-- The release evidence of an IPC resource. -/
def PairLedger.ipcRelease (ledger : PairLedger) (role : IpcRole) : Option Release :=
  (ledger.ipcResources role).bind (·.release)

/-- What is committed is not replaced. -/
structure PairLedger.KeepsPayloads (before after : PairLedger) : Prop where
  compute : ∀ role, WriteOnce (before.computePayloads role) (after.computePayloads role)
  custody : WriteOnce (before.relayCustody.map Issued.payload)
    (after.relayCustody.map Issued.payload)
  relayInput : ∀ role, WriteOnce ((before.relayInputs role).map Issued.payload)
    ((after.relayInputs role).map Issued.payload)
  volume : ∀ role, WriteOnce ((before.volumeResources role).map (·.payload))
    ((after.volumeResources role).map (·.payload))
  ipc : ∀ role, WriteOnce ((before.ipcResources role).map (·.payload))
    ((after.ipcResources role).map (·.payload))

@[refl] theorem PairLedger.KeepsPayloads.refl (ledger : PairLedger) : ledger.KeepsPayloads ledger :=
  ⟨fun _ ↦ .refl _, .refl _, fun _ ↦ .refl _, fun _ ↦ .refl _, fun _ ↦ .refl _⟩

theorem PairLedger.KeepsPayloads.of_eq {before after : PairLedger}
    (hcompute : after.computePayloads = before.computePayloads)
    (hcustody : after.relayCustody = before.relayCustody)
    (hinputs : after.relayInputs = before.relayInputs)
    (hvolumes : after.volumeResources = before.volumeResources)
    (hipc : after.ipcResources = before.ipcResources) : before.KeepsPayloads after := by
  refine ⟨fun role ↦ ?_, ?_, fun role ↦ ?_, fun role ↦ ?_, fun role ↦ ?_⟩
  · rw [hcompute]
  · rw [hcustody]
  · rw [hinputs]
  · rw [hvolumes]
  · rw [hipc]

/-- What one transaction may do to a ledger. -/
structure PairIntent.Evolves (before after : PairIntent) : Prop where
  origin : after.origin = before.origin
  slots : ∀ key, (before.slot key).Advances (after.slot key)
  topics : before.topicsDispatch.Next after.topicsDispatch
  payloads : before.KeepsPayloads after.toPairLedger
  anchor : WriteOnce before.egressStateId after.egressStateId
  volumeRelease : ∀ role, WriteOnce (before.volumeRelease role) (after.volumeRelease role)
  ipcRelease : ∀ role, WriteOnce (before.ipcRelease role) (after.ipcRelease role)
  fence : before.creationFenced = true → after.creationFenced = true
  final : before.retiredAt ≠ none → after = before

namespace PairIntent

variable {before between after intent : PairIntent}

@[refl] theorem Evolves.refl (intent : PairIntent) : intent.Evolves intent :=
  { origin := rfl
    slots := fun _ ↦ .refl _
    topics := .stay _
    payloads := .refl _
    anchor := .refl _
    volumeRelease := fun _ ↦ .refl _
    ipcRelease := fun _ ↦ .refl _
    fence := id
    final := fun _ ↦ rfl }

theorem Evolves.binding (hevolves : before.Evolves after) : after.binding = before.binding :=
  congrArg Prod.fst hevolves.origin

theorem Evolves.generation (hevolves : before.Evolves after) :
    after.generation = before.generation :=
  congrArg PairBinding.generation hevolves.binding

theorem Evolves.sandboxId (hevolves : before.Evolves after) : after.sandboxId = before.sandboxId :=
  congrArg PairBinding.sandboxId hevolves.binding

theorem Evolves.sessionId (hevolves : before.Evolves after) : after.sessionId = before.sessionId :=
  congrArg PairBinding.sessionId hevolves.binding

theorem Evolves.retainedFrom (hevolves : before.Evolves after) :
    after.retainedFrom = before.retainedFrom :=
  congrArg (fun origin ↦ origin.2.2.2.2.2) hevolves.origin

/-- What a creator or a returning write does: the ledger evolves, and neither its life nor the
evidence of its volumes nor its anchor changes. -/
structure Advances (before after : PairIntent) : Prop extends before.Evolves after where
  live : before.retiredAt = none
  stillLive : after.retiredAt = none
  fenceKept : after.creationFenced = before.creationFenced
  anchorKept : after.egressStateId = before.egressStateId
  evidenceKept : ∀ role, after.volumeRelease role = before.volumeRelease role

/-! ### Changes of one slot -/

/-- A stage that is raised beside its UID. -/
theorem advances_dispatch {uid : Option Uid} {stage next : Dispatch} (hnext : stage.Next next) :
    Slot.Advances ⟨stage, uid⟩ ⟨next, uid⟩ :=
  ⟨hnext, .refl _⟩

/-- A UID that is written beside its stage. -/
theorem advances_uid {previous uid : Option Uid} {stage : Dispatch} (huid : WriteOnce previous uid) :
    Slot.Advances ⟨stage, previous⟩ ⟨stage, uid⟩ :=
  ⟨.stay _, huid⟩

/-- The stages of controls. -/
theorem advances_of_controlDispatch (hlive : intent.retiredAt = none) {key : ControlKey}
    {stage : Dispatch} (hnext : (intent.controlDispatch key).Next stage) :
    intent.Advances { intent with
      controlDispatch := Function.update intent.controlDispatch key stage } :=
  { Evolves.refl intent with
    slots := by
      intro other
      cases other with
      | control other =>
        change Slot.Advances ⟨intent.controlDispatch other, _⟩
          ⟨Function.update intent.controlDispatch key stage other, _⟩
        by_cases hother : other = key
        · rw [hother, Function.update_self]
          exact advances_dispatch hnext
        · rw [Function.update_of_ne hother]
      | _ => exact .refl _
    payloads := .of_eq rfl rfl rfl rfl rfl
    final := fun hretired ↦ absurd hlive hretired
    live := hlive
    stillLive := hlive
    fenceKept := rfl
    anchorKept := rfl
    evidenceKept := fun _ ↦ rfl }

/-- The UIDs of controls. -/
theorem advances_of_controlUids (hlive : intent.retiredAt = none) {key : ControlKey}
    {uid : Option Uid} (huid : WriteOnce (intent.controlUids key) uid) :
    intent.Advances { intent with controlUids := Function.update intent.controlUids key uid } :=
  { Evolves.refl intent with
    slots := by
      intro other
      cases other with
      | control other =>
        change Slot.Advances ⟨_, intent.controlUids other⟩
          ⟨_, Function.update intent.controlUids key uid other⟩
        by_cases hother : other = key
        · rw [hother, Function.update_self]
          exact advances_uid huid
        · rw [Function.update_of_ne hother]
      | _ => exact .refl _
    payloads := .of_eq rfl rfl rfl rfl rfl
    final := fun hretired ↦ absurd hlive hretired
    live := hlive
    stillLive := hlive
    fenceKept := rfl
    anchorKept := rfl
    evidenceKept := fun _ ↦ rfl }

/-- The stages of Pods. -/
theorem advances_of_computeDispatch (hlive : intent.retiredAt = none) {role : ComputeRole}
    {stage : Dispatch} (hnext : (intent.computeDispatch role).Next stage) :
    intent.Advances { intent with
      computeDispatch := Function.update intent.computeDispatch role stage } :=
  { Evolves.refl intent with
    slots := by
      intro other
      cases other with
      | compute other =>
        change Slot.Advances ⟨intent.computeDispatch other, _⟩
          ⟨Function.update intent.computeDispatch role stage other, _⟩
        by_cases hother : other = role
        · rw [hother, Function.update_self]
          exact advances_dispatch hnext
        · rw [Function.update_of_ne hother]
      | _ => exact .refl _
    payloads := .of_eq rfl rfl rfl rfl rfl
    final := fun hretired ↦ absurd hlive hretired
    live := hlive
    stillLive := hlive
    fenceKept := rfl
    anchorKept := rfl
    evidenceKept := fun _ ↦ rfl }

/-- The UIDs of Pods. -/
theorem advances_of_computeUids (hlive : intent.retiredAt = none) {role : ComputeRole}
    {uid : Option Uid} (huid : WriteOnce (intent.computeUids role) uid) :
    intent.Advances { intent with computeUids := Function.update intent.computeUids role uid } :=
  { Evolves.refl intent with
    slots := by
      intro other
      cases other with
      | compute other =>
        change Slot.Advances ⟨_, intent.computeUids other⟩
          ⟨_, Function.update intent.computeUids role uid other⟩
        by_cases hother : other = role
        · rw [hother, Function.update_self]
          exact advances_uid huid
        · rw [Function.update_of_ne hother]
      | _ => exact .refl _
    payloads := .of_eq rfl rfl rfl rfl rfl
    final := fun hretired ↦ absurd hlive hretired
    live := hlive
    stillLive := hlive
    fenceKept := rfl
    anchorKept := rfl
    evidenceKept := fun _ ↦ rfl }

/-- A Pod that is issued with its payload. -/
theorem advances_of_computePayloads (hlive : intent.retiredAt = none) {role : ComputeRole}
    {stage : Dispatch} (hnext : (intent.computeDispatch role).Next stage)
    {payload : Option (ComputePayload role)}
    (hpayload : WriteOnce (intent.computePayloads role) payload) :
    intent.Advances { intent with
      computePayloads := Function.update intent.computePayloads role payload
      computeDispatch := Function.update intent.computeDispatch role stage } :=
  { advances_of_computeDispatch hlive hnext with
    payloads := { PairLedger.KeepsPayloads.refl intent.toPairLedger with
      compute := by
        intro other
        change WriteOnce _ (Function.update intent.computePayloads role payload other)
        by_cases hother : other = role
        · subst hother
          rw [Function.update_self]
          exact hpayload
        · rw [Function.update_of_ne hother] }
    final := fun hretired ↦ absurd hlive hretired }

/-- The custody of the relay keys. -/
theorem advances_of_relayCustody (hlive : intent.retiredAt = none) {entry : Option (Issued PublicKeys)}
    (hslot : (Issued.slot intent.relayCustody).Advances (Issued.slot entry))
    (hpayload : WriteOnce (intent.relayCustody.map Issued.payload) (entry.map Issued.payload)) :
    intent.Advances { intent with relayCustody := entry } :=
  { Evolves.refl intent with
    slots := by
      intro other
      cases other with
      | custody => exact hslot
      | _ => exact .refl _
    payloads := { PairLedger.KeepsPayloads.refl intent.toPairLedger with custody := hpayload }
    final := fun hretired ↦ absurd hlive hretired
    live := hlive
    stillLive := hlive
    fenceKept := rfl
    anchorKept := rfl
    evidenceKept := fun _ ↦ rfl }

/-- The relay inputs. -/
theorem advances_of_relayInputs (hlive : intent.retiredAt = none) {role : RelayRole}
    {entry : Option (Issued RelayInput)}
    (hslot : (Issued.slot (intent.relayInputs role)).Advances (Issued.slot entry))
    (hpayload : WriteOnce ((intent.relayInputs role).map Issued.payload)
      (entry.map Issued.payload)) :
    intent.Advances { intent with
      relayInputs := Function.update intent.relayInputs role entry } :=
  { Evolves.refl intent with
    slots := by
      intro other
      cases other with
      | relayInput other =>
        change (Issued.slot (intent.relayInputs other)).Advances
          (Issued.slot (Function.update intent.relayInputs role entry other))
        by_cases hother : other = role
        · rw [hother, Function.update_self]
          exact hslot
        · rw [Function.update_of_ne hother]
      | _ => exact .refl _
    payloads := { PairLedger.KeepsPayloads.refl intent.toPairLedger with
      relayInput := by
        intro other
        change WriteOnce _ ((Function.update intent.relayInputs role entry other).map Issued.payload)
        by_cases hother : other = role
        · rw [hother, Function.update_self]
          exact hpayload
        · rw [Function.update_of_ne hother] }
    final := fun hretired ↦ absurd hlive hretired
    live := hlive
    stillLive := hlive
    fenceKept := rfl
    anchorKept := rfl
    evidenceKept := fun _ ↦ rfl }

/-- The volumes. -/
theorem evolves_of_volumeResources (hlive : intent.retiredAt = none) {role : VolumeRole}
    {entry : Option (IssuedVolume VolumePayload)}
    (hslot : (IssuedVolume.slot (intent.volumeResources role)).Advances (IssuedVolume.slot entry))
    (hpayload : WriteOnce ((intent.volumeResources role).map (·.payload)) (entry.map (·.payload)))
    (hrelease : WriteOnce (intent.volumeRelease role) (entry.bind (·.release))) :
    intent.Evolves { intent with
      volumeResources := Function.update intent.volumeResources role entry } :=
  { Evolves.refl intent with
    slots := by
      intro other
      cases other with
      | volume other =>
        change (IssuedVolume.slot (intent.volumeResources other)).Advances
          (IssuedVolume.slot (Function.update intent.volumeResources role entry other))
        by_cases hother : other = role
        · rw [hother, Function.update_self]
          exact hslot
        · rw [Function.update_of_ne hother]
      | _ => exact .refl _
    payloads := { PairLedger.KeepsPayloads.refl intent.toPairLedger with
      volume := by
        intro other
        change WriteOnce _ ((Function.update intent.volumeResources role entry other).map (·.payload))
        by_cases hother : other = role
        · rw [hother, Function.update_self]
          exact hpayload
        · rw [Function.update_of_ne hother] }
    volumeRelease := by
      intro other
      change WriteOnce _ ((Function.update intent.volumeResources role entry other).bind (·.release))
      by_cases hother : other = role
      · rw [hother, Function.update_self]
        exact hrelease
      · rw [Function.update_of_ne hother]
        exact .refl _
    final := fun hretired ↦ absurd hlive hretired }

/-- The volumes, without their evidence. -/
theorem advances_of_volumeResources (hlive : intent.retiredAt = none) {role : VolumeRole}
    {entry : Option (IssuedVolume VolumePayload)}
    (hslot : (IssuedVolume.slot (intent.volumeResources role)).Advances (IssuedVolume.slot entry))
    (hpayload : WriteOnce ((intent.volumeResources role).map (·.payload)) (entry.map (·.payload)))
    (hrelease : entry.bind (·.release) = intent.volumeRelease role) :
    intent.Advances { intent with
      volumeResources := Function.update intent.volumeResources role entry } :=
  { evolves_of_volumeResources hlive hslot hpayload (hrelease ▸ .refl _) with
    live := hlive
    stillLive := hlive
    fenceKept := rfl
    anchorKept := rfl
    evidenceKept := by
      intro other
      change (Function.update intent.volumeResources role entry other).bind (·.release) = _
      by_cases hother : other = role
      · rw [hother, Function.update_self]
        exact hrelease
      · rw [Function.update_of_ne hother]
        rfl }

/-- The IPC resources. -/
theorem advances_of_ipcResources (hlive : intent.retiredAt = none) {role : IpcRole}
    {entry : Option (IssuedVolume IpcPayload)}
    (hslot : (IssuedVolume.slot (intent.ipcResources role)).Advances (IssuedVolume.slot entry))
    (hpayload : WriteOnce ((intent.ipcResources role).map (·.payload)) (entry.map (·.payload)))
    (hrelease : WriteOnce (intent.ipcRelease role) (entry.bind (·.release))) :
    intent.Advances { intent with
      ipcResources := Function.update intent.ipcResources role entry } :=
  { Evolves.refl intent with
    slots := by
      intro other
      cases other with
      | ipc other =>
        change (IssuedVolume.slot (intent.ipcResources other)).Advances
          (IssuedVolume.slot (Function.update intent.ipcResources role entry other))
        by_cases hother : other = role
        · rw [hother, Function.update_self]
          exact hslot
        · rw [Function.update_of_ne hother]
      | _ => exact .refl _
    payloads := { PairLedger.KeepsPayloads.refl intent.toPairLedger with
      ipc := by
        intro other
        change WriteOnce _ ((Function.update intent.ipcResources role entry other).map (·.payload))
        by_cases hother : other = role
        · rw [hother, Function.update_self]
          exact hpayload
        · rw [Function.update_of_ne hother] }
    ipcRelease := by
      intro other
      change WriteOnce _ ((Function.update intent.ipcResources role entry other).bind (·.release))
      by_cases hother : other = role
      · rw [hother, Function.update_self]
        exact hrelease
      · rw [Function.update_of_ne hother]
        exact .refl _
    final := fun hretired ↦ absurd hlive hretired
    live := hlive
    stillLive := hlive
    fenceKept := rfl
    anchorKept := rfl
    evidenceKept := fun _ ↦ rfl }

/-- The topics. -/
theorem advances_of_topicsDispatch (hlive : intent.retiredAt = none) {stage : Dispatch}
    (hnext : intent.topicsDispatch.Next stage) :
    intent.Advances { intent with topicsDispatch := stage } :=
  { Evolves.refl intent with
    topics := hnext
    payloads := .of_eq rfl rfl rfl rfl rfl
    final := fun hretired ↦ absurd hlive hretired
    live := hlive
    stillLive := hlive
    fenceKept := rfl
    anchorKept := rfl
    evidenceKept := fun _ ↦ rfl }

/-! ### Changes of the life of a ledger -/

/-- The anchor of a new egress state. -/
theorem evolves_of_anchor (hlive : intent.retiredAt = none) (hnone : intent.egressStateId = none)
    (stateId : Uuid) : intent.Evolves { intent with egressStateId := some stateId } :=
  { Evolves.refl intent with
    anchor := hnone ▸ .of_none
    payloads := .of_eq rfl rfl rfl rfl rfl
    final := fun hretired ↦ absurd hlive hretired }

theorem evolves_fenced (hlive : intent.retiredAt = none) : intent.Evolves intent.fenced :=
  { Evolves.refl intent with
    fence := fun _ ↦ rfl
    final := fun hretired ↦ absurd hlive hretired }

/-- The retirement of a ledger that is fenced. -/
def retiredAs (intent : PairIntent) (now : Time) : PairIntent :=
  { intent with retiredAt := some now }

theorem evolves_retiredAs (hlive : intent.retiredAt = none) (now : Time) :
    intent.Evolves (intent.retiredAs now) :=
  { Evolves.refl intent with
    final := fun hretired ↦ absurd hlive hretired }

/-- A ledger that evolved is fenced. -/
theorem Evolves.fenced (hevolves : before.Evolves after) (hlive : after.retiredAt = none) :
    before.Evolves after.fenced :=
  { hevolves with
    fence := fun _ ↦ rfl
    final := fun hretired ↦ absurd (hevolves.final hretired ▸ hlive) hretired }

/-- A ledger that evolved is retired. -/
theorem Evolves.retiredAs (hevolves : before.Evolves after) (hlive : after.retiredAt = none)
    (now : Time) : before.Evolves (after.retiredAs now) :=
  { hevolves with
    final := fun hretired ↦ absurd (hevolves.final hretired ▸ hlive) hretired }

end PairIntent

/-! ### The egress state -/

/-- What one transaction may do to an egress state, its evidence apart. -/
structure EgressState.Advances (before after : EgressState) : Prop where
  scope : after.scope = before.scope
  slots : ∀ role, (before.slot role).Advances (after.slot role)
  release : after.volumeRelease = before.volumeRelease

namespace EgressState

variable {before after state : EgressState}

@[refl] theorem Advances.refl (state : EgressState) : state.Advances state :=
  ⟨rfl, fun _ ↦ .refl _, rfl⟩

theorem Advances.stateId (hadvances : before.Advances after) : after.stateId = before.stateId :=
  (congrArg EgressState.stateId hadvances.scope :)

theorem Advances.sandboxId (hadvances : before.Advances after) :
    after.sandboxId = before.sandboxId :=
  (congrArg EgressState.sandboxId hadvances.scope :)

theorem Advances.creatorGeneration (hadvances : before.Advances after) :
    after.creatorGeneration = before.creatorGeneration :=
  (congrArg EgressState.creatorGeneration hadvances.scope :)

theorem advances_of_dispatch {role : StateRole} {stage : Dispatch}
    (hnext : (state.dispatch role).Next stage) :
    state.Advances { state with dispatch := Function.update state.dispatch role stage } := by
  refine ⟨rfl, fun other ↦ ?_, rfl⟩
  change Slot.Advances ⟨state.dispatch other, _⟩
    ⟨Function.update state.dispatch role stage other, _⟩
  by_cases hother : other = role
  · rw [hother, Function.update_self]
    exact PairIntent.advances_dispatch hnext
  · rw [Function.update_of_ne hother]

theorem advances_of_uid {role : StateRole} {uid : Option Uid}
    (huid : WriteOnce (state.uid role) uid) :
    state.Advances { state with uid := Function.update state.uid role uid } := by
  refine ⟨rfl, fun other ↦ ?_, rfl⟩
  change Slot.Advances ⟨_, state.uid other⟩ ⟨_, Function.update state.uid role uid other⟩
  by_cases hother : other = role
  · rw [hother, Function.update_self]
    exact PairIntent.advances_uid huid
  · rw [Function.update_of_ne hother]

/-- An egress state that is attached is final but for its evidence. -/
theorem Advances.eq_of_attached (hadvances : before.Advances after) (hattached : before.Attached) :
    after = before := by
  have hslot : ∀ role, after.slot role = before.slot role := fun role ↦
    (hadvances.slots role).eq_of_settled (hattached role).1 (hattached role).2
  obtain ⟨h1, h2, h3, h4, h5, h6, h7, h8, h9, h10, -⟩ := EgressState.ext_iff.mp hadvances.scope
  exact EgressState.ext h1 h2 h3 h4 h5 h6 h7 h8 h9 h10
    (funext fun role ↦ congrArg Slot.dispatch (hslot role))
    (funext fun role ↦ congrArg Slot.uid (hslot role)) hadvances.release

end EgressState

end Ads.SandboxManager
