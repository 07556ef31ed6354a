import Ads.SandboxManager.Manager
import Ads.SandboxManager.Outcomes

/-!
# The seal of a settled cleanup

`pair_writers_settled` and `seal_pair_cleanup` judge the same snapshot against the same ledger. A
snapshot drifts legally from its ledger when only the cleanup and the late original writers changed
either (`PairSnapshot.Drifts`). The seal then accepts what is settled exactly when the ledger records
every UID that a settled capture holds, the egress state the release evidence that the capture holds
of it, and the receipt of a transfer still agrees (`sealPairCleanup_iff`). It refuses a resource
whose creator settled the write, and was lost before it bound the UID that the cleanup observed.
-/

set_option autoImplicit false
set_option relaxedAutoImplicit false

namespace Ads.SandboxManager

open Foundation Foundation.StateExcept Python

/-! ### Legal drift -/

/-- Two pieces of evidence that are both there are the same. -/
def Agrees {ν : Type} (mine theirs : Option ν) : Prop :=
  ∀ evidence, mine = some evidence → ∀ other, theirs = some other → evidence = other

instance {ν : Type} [DecidableEq ν] (mine theirs : Option ν) : Decidable (Agrees mine theirs) :=
  decidable_of_iff (mine = none ∨ theirs = none ∨ mine = theirs) <| by
    unfold Agrees
    cases mine with
    | none => exact iff_of_true (Or.inl rfl) (nofun)
    | some evidence =>
      cases theirs with
      | none => exact iff_of_true (Or.inr (Or.inl rfl)) (nofun)
      | some other => simp

/-- A ledger without its evidence. -/
def PairLedger.scope (ledger : PairLedger) : PairLedger :=
  { ledger with
    controlUids := fun _ ↦ none
    controlDispatch := fun _ ↦ .unissued
    computeUids := fun _ ↦ none
    computeDispatch := fun _ ↦ .unissued
    relayCustody := none
    relayInputs := fun _ ↦ none
    ipcResources := fun _ ↦ none
    volumeResources := fun _ ↦ none
    topicsDispatch := .unissued }

/-- The egress state follows its capture, and release evidence was recorded on either side. -/
structure EgressState.Drifts (captured live : EgressState) : Prop where
  scope : live.scope = captured.scope
  slots : ∀ role, (captured.slot role).Follows (live.slot role)
  release : Agrees captured.volumeRelease live.volumeRelease

/-- The ledger follows its capture: the cleanup recorded UIDs that the ledger does not hold, late
writers settled, and release evidence was recorded on either side. -/
structure PairSnapshot.Drifts (captured live : PairSnapshot) : Prop where
  scope : live.toPairLedger.scope = captured.toPairLedger.scope
  payloads : captured.SamePayloads live.toPairLedger
  slots : ∀ key, (captured.slot key).Follows (live.slot key)
  topics : Dispatch.Follows captured.topicsDispatch live.topicsDispatch
  volumeRelease : ∀ role, Agrees ((captured.volumeResources role).bind (·.release))
    ((live.volumeResources role).bind (·.release))
  ipcRelease : ∀ role, Agrees ((captured.ipcResources role).bind (·.release))
    ((live.ipcResources role).bind (·.release))
  state : Option.Rel EgressState.Drifts captured.egressState live.egressState

instance (captured live : EgressState) : Decidable (captured.Drifts live) :=
  decidable_of_iff (live.scope = captured.scope ∧
      (∀ role, (captured.slot role).Follows (live.slot role)) ∧
      Agrees captured.volumeRelease live.volumeRelease)
    ⟨fun ⟨hscope, hslots, hrelease⟩ ↦ ⟨hscope, hslots, hrelease⟩,
      fun ⟨hscope, hslots, hrelease⟩ ↦ ⟨hscope, hslots, hrelease⟩⟩

instance : (captured live : Option EgressState) →
    Decidable (Option.Rel EgressState.Drifts captured live)
  | none, none => isTrue .none
  | some _, some _ => decidable_of_iff _ ⟨.some, fun | .some hdrifts => hdrifts⟩
  | none, some _ => isFalse (nomatch ·)
  | some _, none => isFalse (nomatch ·)

instance (captured live : PairSnapshot) : Decidable (captured.Drifts live) :=
  decidable_of_iff (live.toPairLedger.scope = captured.toPairLedger.scope ∧
      captured.SamePayloads live.toPairLedger ∧
      (∀ key, (captured.slot key).Follows (live.slot key)) ∧
      Dispatch.Follows captured.topicsDispatch live.topicsDispatch ∧
      (∀ role, Agrees ((captured.volumeResources role).bind (·.release))
        ((live.volumeResources role).bind (·.release))) ∧
      (∀ role, Agrees ((captured.ipcResources role).bind (·.release))
        ((live.ipcResources role).bind (·.release))) ∧
      Option.Rel EgressState.Drifts captured.egressState live.egressState)
    ⟨fun ⟨hscope, hpayloads, hslots, htopics, hvolume, hipc, hstate⟩ ↦
        ⟨hscope, hpayloads, hslots, htopics, hvolume, hipc, hstate⟩,
      fun ⟨hscope, hpayloads, hslots, htopics, hvolume, hipc, hstate⟩ ↦
        ⟨hscope, hpayloads, hslots, htopics, hvolume, hipc, hstate⟩⟩

/-- A slot that is settled in the capture is recorded with its UID. -/
def Recorded (captured live : Slot Uid) : Prop :=
  captured.dispatch = .settled → live.uid = captured.uid

/-- The egress state records what its capture holds. -/
structure EgressState.Sealable (captured live : EgressState) : Prop where
  slots : ∀ role, Recorded (captured.slot role) (live.slot role)
  release : captured.volumeRelease ≠ none → live.volumeRelease ≠ none

/-- The ledger records what its capture holds. -/
structure PairSnapshot.Sealable (captured live : PairSnapshot) : Prop where
  slots : ∀ key, Recorded (captured.slot key) (live.slot key)
  state : ∀ before ∈ captured.egressState, ∀ state ∈ live.egressState, before.Sealable state

/-! ### Slots and entries -/

/-- A slot that follows its capture does not differ from it in its UID. -/
theorem sealSlot_eq {captured live : Slot Uid} (hfollows : captured.Follows live) :
    sealSlot captured live = captured.sealed live := by
  refine if_neg ?_
  rintro ⟨-, hlive, hdifferent⟩
  exact hdifferent (hfollows.uid.eq_of_ne_none hlive)

theorem eq_sealSlot_iff {captured live : Slot Uid} (hfollows : captured.Follows live)
    (hresolved : captured.Resolved live) :
    live = sealSlot captured live ↔ Recorded captured live := by
  rw [sealSlot_eq hfollows]
  exact Slot.eq_sealed_iff hfollows hresolved

section Entries

variable {π : Type}

theorem Issued.dispatch_eq_settled {entry : Issued π} :
    entry.dispatch = .settled ↔ entry.settled = true := by
  unfold Issued.dispatch
  cases entry.settled with
  | false => exact iff_of_false (nomatch ·) (nomatch ·)
  | true => exact iff_of_true rfl rfl

theorem Issued.dispatch_eq_inflight {entry : Issued π} :
    entry.dispatch = .inflight ↔ entry.settled = false := by
  unfold Issued.dispatch
  cases entry.settled with
  | false => exact iff_of_true rfl rfl
  | true => exact iff_of_false (nomatch ·) (nomatch ·)

theorem Issued.dispatch_ne_unissued {entry : Issued π} : entry.dispatch ≠ .unissued := by
  unfold Issued.dispatch
  cases entry.settled with
  | false => exact (nomatch ·)
  | true => exact (nomatch ·)

/-- Entries with one payload are the same when their slots are. -/
theorem Issued.eq_iff_slot {entry other : Issued π} (hpayload : entry.payload = other.payload) :
    entry = other ↔ Issued.slot (some entry) = Issued.slot (some other) := by
  constructor
  · exact fun heq ↦ congrArg (fun entry ↦ Issued.slot (some entry)) heq
  · intro hslot
    have hdispatch : entry.dispatch = other.dispatch := congrArg Slot.dispatch hslot
    have hsettled : entry.settled = other.settled := by
      rw [Bool.eq_iff_iff, ← dispatch_eq_settled, ← dispatch_eq_settled, hdispatch]
    exact Issued.ext hpayload (congrArg Slot.uid hslot) hsettled

/-- Bringing an entry up to date brings its slot up to date. -/
theorem Issued.slot_sealed (captured live : Issued π) :
    Issued.slot (some (captured.sealed live)) =
      (Issued.slot (some captured)).sealed (Issued.slot (some live)) := by
  unfold Issued.sealed Slot.sealed
  change _ = if captured.dispatch = .inflight ∧ live.dispatch = .settled then _ else _
  simp only [dispatch_eq_inflight, dispatch_eq_settled]
  split_ifs
  · rfl
  · rfl

theorem Issued.payload_sealed (captured live : Issued π) :
    (captured.sealed live).payload = captured.payload := by
  unfold Issued.sealed
  split_ifs
  · rfl
  · rfl

/-- An entry is its capture brought up to date when it records what the capture holds. -/
theorem Issued.eq_sealed_iff {captured live : Issued π} (hpayload : live.payload = captured.payload)
    (hfollows : (Issued.slot (some captured)).Follows (Issued.slot (some live)))
    (hresolved : (Issued.slot (some captured)).Resolved (Issued.slot (some live))) :
    live = captured.sealed live ↔
      Recorded (Issued.slot (some captured)) (Issued.slot (some live)) := by
  rw [Issued.eq_iff_slot (hpayload.trans (payload_sealed captured live).symm), slot_sealed]
  exact Slot.eq_sealed_iff hfollows hresolved

/-- The same of entries that may not have been issued. -/
theorem eq_sealEntry_iff {captured live : Option (Issued π)}
    (hpayload : live.map Issued.payload = captured.map Issued.payload)
    (hfollows : (Issued.slot captured).Follows (Issued.slot live))
    (hresolved : (Issued.slot captured).Resolved (Issued.slot live)) :
    live = sealEntry Issued.sealed captured live ↔
      Recorded (Issued.slot captured) (Issued.slot live) := by
  cases captured with
  | none =>
    cases live with
    | none => exact iff_of_true rfl fun _ ↦ rfl
    | some live => cases hpayload
  | some captured =>
    cases live with
    | none => cases hpayload
    | some live =>
      change some live = some (captured.sealed live) ↔ _
      rw [Option.some.injEq]
      exact Issued.eq_sealed_iff (Option.some.inj hpayload) hfollows hresolved

/-- The evidence of both sides does not depend on which is taken first. -/
theorem Agrees.or_comm {ν : Type} {mine theirs : Option ν} (hagrees : Agrees mine theirs) :
    (theirs <|> mine) = (mine <|> theirs) := by
  cases mine with
  | none =>
    cases theirs with
    | none => rfl
    | some evidence => rfl
  | some evidence =>
    cases theirs with
    | none => rfl
    | some other => exact congrArg some (hagrees evidence rfl other rfl).symm

/-- The entry of a volume with the evidence of its capture is the capture brought up to date, when
it records what the capture holds. -/
theorem mergeEntry_eq_sealEntry_iff {captured live : Option (IssuedVolume π)}
    (hpayload : live.map (·.payload) = captured.map (·.payload))
    (hrelease : Agrees (captured.bind (·.release)) (live.bind (·.release)))
    (hfollows : (IssuedVolume.slot captured).Follows (IssuedVolume.slot live))
    (hresolved : (IssuedVolume.slot captured).Resolved (IssuedVolume.slot live)) :
    sealEntry IssuedVolume.mergeRelease live captured =
        sealEntry IssuedVolume.sealed captured live ↔
      Recorded (IssuedVolume.slot captured) (IssuedVolume.slot live) := by
  cases captured with
  | none =>
    cases live with
    | none => exact iff_of_true rfl fun _ ↦ rfl
    | some live => cases hpayload
  | some captured =>
    cases live with
    | none => cases hpayload
    | some live =>
      change some (live.mergeRelease captured) = some (captured.sealed live) ↔ _
      rw [Option.some.injEq]
      refine Iff.trans ?_ (Issued.eq_sealed_iff (Option.some.inj hpayload) hfollows hresolved)
      constructor
      · exact congrArg IssuedVolume.toIssued
      · intro hissued
        have hevidence : (live.mergeRelease captured).release = (captured.sealed live).release :=
          Agrees.or_comm hrelease
        exact IssuedVolume.ext (congrArg Issued.payload hissued) (congrArg Issued.uid hissued)
          (congrArg Issued.settled hissued) hevidence

end Entries

/-! ### The egress state -/

/-- The egress state is its capture brought up to date, when it records what the capture holds. -/
theorem EgressState.eq_sealed_iff {captured live : EgressState} (hdrifts : captured.Drifts live)
    (hresolved : captured.Resolved live) : live = captured.sealed live ↔ captured.Sealable live := by
  have hslots : (∀ role, live.slot role = sealSlot (captured.slot role) (live.slot role)) ↔
      ∀ role, Recorded (captured.slot role) (live.slot role) :=
    forall_congr' fun role ↦ eq_sealSlot_iff (hdrifts.slots role) (hresolved role)
  have hrelease : live.volumeRelease = (captured.volumeRelease <|> live.volumeRelease) ↔
      (captured.volumeRelease ≠ none → live.volumeRelease ≠ none) := by
    rw [← Agrees.or_comm hdrifts.release]
    cases live.volumeRelease with
    | none =>
      change none = captured.volumeRelease ↔ _
      exact ⟨fun hnone hsome ↦ absurd hnone.symm hsome, fun h ↦ (not_not.mp fun hsome ↦
        h hsome rfl).symm⟩
    | some evidence => exact iff_of_true rfl fun _ ↦ Option.some_ne_none evidence
  have hscope := EgressState.ext_iff.mp hdrifts.scope
  constructor
  · intro heq
    refine ⟨hslots.mp fun role ↦ ?_, hrelease.mp (congrArg EgressState.volumeRelease heq)⟩
    exact congrArg (fun state : EgressState ↦ state.slot role) heq
  · rintro ⟨hrecorded, hevidence⟩
    have hslot := hslots.mpr hrecorded
    obtain ⟨h1, h2, h3, h4, h5, h6, h7, h8, h9, h10, -⟩ := hscope
    exact EgressState.ext h1 h2 h3 h4 h5 h6 h7 h8 h9 h10
      (funext fun role ↦ congrArg Slot.dispatch (hslot role))
      (funext fun role ↦ congrArg Slot.uid (hslot role)) (hrelease.mpr hevidence)

theorem eq_sealDispatch {captured live : Dispatch} (hfollows : Dispatch.Follows captured live)
    (hdone : live ≠ .inflight) : live = sealDispatch captured live := by
  unfold sealDispatch
  rcases hfollows with rfl | ⟨rfl, rfl⟩
  · rw [if_neg]
    rintro ⟨hinflight, -⟩
    exact hdone hinflight
  · rfl

/-! ### Snapshots -/

/-- Every resource of a snapshot and of its egress state is resolved. -/
structure PairSnapshot.Resolved (captured live : PairSnapshot) : Prop where
  slots : ∀ key, (captured.slot key).Resolved (live.slot key)
  topics : live.topicsDispatch ≠ .inflight
  state : ∀ before ∈ captured.egressState, ∀ state ∈ live.egressState, before.Resolved state

/-- The state of a ledger is the captured one brought up to date, when it records what that holds. -/
theorem eq_sealState_iff {captured live : Option EgressState}
    (hdrifts : Option.Rel EgressState.Drifts captured live)
    (hresolved : ∀ before ∈ captured, ∀ state ∈ live, before.Resolved state) :
    live = sealEntry EgressState.sealed captured live ↔
      ∀ before ∈ captured, ∀ state ∈ live, before.Sealable state := by
  cases hdrifts with
  | none => exact iff_of_true rfl fun _ hmem ↦ absurd hmem (Option.not_mem_none _)
  | @some captured live hdrifts =>
    change some live = some (captured.sealed live) ↔ _
    rw [Option.some.injEq, EgressState.eq_sealed_iff hdrifts (hresolved captured rfl live rfl)]
    constructor
    · rintro hsealable _ ⟨⟩ _ ⟨⟩
      exact hsealable
    · exact fun h ↦ h captured rfl live rfl

/-- The seal compares equal snapshots exactly when the ledger records what its capture holds. -/
theorem PairSnapshot.evidenced_eq_sealed_iff {captured live : PairSnapshot}
    (hdrifts : captured.Drifts live) (hresolved : captured.Resolved live) :
    live.evidenced captured = captured.sealed live ↔ captured.Sealable live := by
  have hcontrol := fun key ↦ eq_sealSlot_iff (hdrifts.slots (.control key))
    (hresolved.slots (.control key))
  have hcompute := fun role ↦ eq_sealSlot_iff (hdrifts.slots (.compute role))
    (hresolved.slots (.compute role))
  obtain ⟨hpods, hcustodyPayload, hinputPayload, hvolumePayload, hipcPayload⟩ := hdrifts.payloads
  have hcustody := eq_sealEntry_iff hcustodyPayload (hdrifts.slots .custody)
    (hresolved.slots .custody)
  have hinput := fun role ↦ eq_sealEntry_iff (hinputPayload role)
    (hdrifts.slots (.relayInput role)) (hresolved.slots (.relayInput role))
  have hvolume := fun role ↦ mergeEntry_eq_sealEntry_iff (hvolumePayload role)
    (hdrifts.volumeRelease role) (hdrifts.slots (.volume role)) (hresolved.slots (.volume role))
  have hipc := fun role ↦ mergeEntry_eq_sealEntry_iff (hipcPayload role)
    (hdrifts.ipcRelease role) (hdrifts.slots (.ipc role)) (hresolved.slots (.ipc role))
  have hstate := eq_sealState_iff hdrifts.state hresolved.state
  constructor
  · intro heq
    refine ⟨fun key ↦ ?_, hstate.mp (congrArg PairSnapshot.egressState heq)⟩
    cases key with
    | control key =>
      exact (hcontrol key).mp (congrArg (fun pair : PairSnapshot ↦ pair.slot (.control key)) heq)
    | compute role =>
      exact (hcompute role).mp (congrArg (fun pair : PairSnapshot ↦ pair.slot (.compute role)) heq)
    | custody =>
      exact hcustody.mp (congrArg (fun pair : PairSnapshot ↦ pair.relayCustody) heq)
    | relayInput role =>
      exact (hinput role).mp (congrArg (fun pair : PairSnapshot ↦ pair.relayInputs role) heq)
    | volume role =>
      exact (hvolume role).mp (congrArg (fun pair : PairSnapshot ↦ pair.volumeResources role) heq)
    | ipc role =>
      exact (hipc role).mp (congrArg (fun pair : PairSnapshot ↦ pair.ipcResources role) heq)
  · rintro ⟨hslots, hstates⟩
    have hscope := PairLedger.ext_iff.mp hdrifts.scope
    obtain ⟨h1, h2, h3, h4, h5, h6, h7, h8, -, -, -, -, h13, -, -, h16, -, -, -, h20⟩ := hscope
    exact PairSnapshot.ext h1 h2 h3 h4 h5 h6 h7 h8
      (funext fun key ↦ congrArg Slot.uid ((hcontrol key).mpr (hslots (.control key))))
      (funext fun key ↦ congrArg Slot.dispatch ((hcontrol key).mpr (hslots (.control key))))
      (funext fun role ↦ congrArg Slot.uid ((hcompute role).mpr (hslots (.compute role))))
      (funext fun role ↦ congrArg Slot.dispatch ((hcompute role).mpr (hslots (.compute role))))
      h13 (hcustody.mpr (hslots .custody))
      (funext fun role ↦ (hinput role).mpr (hslots (.relayInput role))) h16
      (funext fun role ↦ (hipc role).mpr (hslots (.ipc role)))
      (funext fun role ↦ (hvolume role).mpr (hslots (.volume role)))
      (eq_sealDispatch hdrifts.topics hresolved.topics) h20 (hstate.mpr hstates)

/-! ### The ledger under the fence -/

/-- The unique index of the generations that are not retired. -/
def Database.OneLive (db : Database) : Prop :=
  ∀ intent ∈ db.intents, ∀ other ∈ db.intents, intent.sandboxId = other.sandboxId →
    intent.retiredAt = none → other.retiredAt = none → intent = other

/-- The snapshot of a generation as the database holds it. -/
def Database.snapshotOf (db : Database) (intent : PairIntent) : PairSnapshot :=
  ⟨intent.toPairLedger, intent.egressStateId.bind db.states.find⟩

variable {db after : Database} {intent : PairIntent}

theorem mem_putIntent_fenced (hintent : intent ∈ db.intents) {other : PairIntent} :
    other ∈ (db.putIntent intent.fenced).intents ↔
      other = intent.fenced ∨ (other ∈ db.intents ∧ other.generation ≠ intent.generation) := by
  refine Table.mem_put.trans (or_congr ?_ Iff.rfl)
  exact and_iff_left ⟨intent, hintent, rfl⟩

/-- The generation that is not retired, once it is fenced. -/
theorem liveIntent_fenced (hone : db.OneLive) (hintent : intent ∈ db.intents)
    (hlive : intent.retiredAt = none) :
    (db.putIntent intent.fenced).liveIntent intent.sandboxId = some intent.fenced := by
  cases hfind : (db.putIntent intent.fenced).liveIntent intent.sandboxId with
  | none =>
    have hnone := List.find?_eq_none.mp hfind intent.fenced
      ((mem_putIntent_fenced hintent).mpr (Or.inl rfl))
    exact absurd (decide_eq_true ⟨rfl, hlive⟩) hnone
  | some found =>
    unfold Database.liveIntent at hfind
    have hmatches := List.find?_some hfind
    simp only [decide_eq_true_eq] at hmatches
    obtain ⟨hsandbox, hfound⟩ := hmatches
    rcases (mem_putIntent_fenced hintent).mp (List.mem_of_find?_eq_some hfind) with
      rfl | ⟨hmem, hkey⟩
    · rfl
    · have hsame := hone found hmem intent hintent hsandbox hfound hlive
      exact absurd (congrArg PairIntent.key hsame) hkey

/-- The fence does not touch what a receipt is verified by. -/
theorem verifyTransfer_fenced (hintent : intent ∈ db.intents) :
    verifyTransfer (db.putIntent intent.fenced) intent.fenced = verifyTransfer db intent := by
  unfold verifyTransfer
  have hreceipt : (db.putIntent intent.fenced).transfers.find intent.fenced.generation =
      db.transfers.find intent.generation := rfl
  rw [hreceipt]
  cases db.transfers.find intent.generation with
  | none => rfl
  | some receipt =>
    dsimp only
    have hput : (db.putIntent intent.fenced).intents.find receipt.predecessor =
        if receipt.predecessor = intent.generation then some intent.fenced
        else db.intents.find receipt.predecessor := by
      refine Table.find_put.trans ?_
      change (if receipt.predecessor = intent.generation then _ else _) = _
      split_ifs with hkey
      · have hfind := Table.find_key hintent
        rw [show receipt.predecessor = intent.key from hkey, hfind]
        rfl
      · rfl
    rw [hput]
    split_ifs with hkey
    · have hfind := Table.find_key hintent
      rw [hkey, show db.intents.find intent.generation = some intent from hfind]
      rfl
    · rfl

/-- The egress state of a generation that may be fenced. -/
theorem anchoredState_of_fenceable {snapshot : PairSnapshot}
    (hfenceable : Fenceable db snapshot intent) :
    anchoredState db intent.toPairLedger = .ok (intent.egressStateId.bind db.states.find) := by
  have hstate := hfenceable.state
  obtain ⟨_, -, hstate⟩ := except_bind_eq_ok.mp hstate
  unfold anchoredState
  cases hanchor : intent.egressStateId with
  | none => rfl
  | some stateId =>
    rw [hanchor] at hstate
    obtain ⟨state, hfound, hstate⟩ := except_bind_eq_ok.mp hstate
    obtain ⟨captured, -, hstate⟩ := except_bind_eq_ok.mp hstate
    obtain ⟨⟨⟩, hrequire, -⟩ := except_bind_eq_ok.mp hstate
    have hfound := require_eq_ok.mp hfound
    have hsandbox : state.sandboxId = intent.sandboxId := by
      obtain ⟨_, -, hmatches⟩ := except_bind_eq_ok.mp hrequire
      obtain ⟨_, hmatches, -⟩ := except_bind_eq_ok.mp hmatches
      unfold stateMatches at hmatches
      split_ifs at hmatches
      · exact not_not.mp (not_or.mp (not_or.mp (failIf_eq_ok.mp hmatches)).2).1
      · exact not_not.mp (not_or.mp (not_or.mp (failIf_eq_ok.mp hmatches)).2).1
    dsimp only
    rw [Option.bind_some, hfound]
    refine except_bind_eq_ok.mpr ⟨state, rfl, except_bind_eq_ok.mpr
      ⟨(), failIf_eq_ok.mpr (not_not.mpr hsandbox), except_bind_eq_ok.mpr ⟨(), hrequire, rfl⟩⟩⟩

/-! ### The seal -/

/-- Settled writers resolve the snapshot. -/
theorem WritersSettled.resolves {snapshot : PairSnapshot}
    (hsettled : WritersSettled db snapshot intent) : snapshot.Resolved (db.snapshotOf intent) := by
  refine ⟨hsettled.resolved, hsettled.topics, fun before hbefore state hstate ↦ ?_⟩
  have hall := (Option.all_eq_true _ _).mp hsettled.state state hstate
  exact of_decide_eq_true ((Option.all_eq_true _ _).mp hall before hbefore)

/-- What the seal finds where the writers have settled: the receipt of a transfer, and the two
snapshots that it compares. -/
theorem sealPairCleanup_eq {work : CleanupWork} {captured : PairSnapshot} {now : Time}
    {recovery : Option RecoveryClaim} (hone : db.OneLive) (hcaptured : cleanupPair work = .ok captured)
    (hfenceable : Fenceable db captured intent)
    (hsettled : pairWritersSettled db work now recovery = .ok (true, db.putIntent intent.fenced)) :
    sealPairCleanup db work now recovery = .ok (true, after) ↔
      (∃ receipt, verifyTransfer db intent = .ok receipt) ∧
      (db.snapshotOf intent).evidenced captured = captured.sealed (db.snapshotOf intent) ∧
      db.putIntent intent.fenced = after := by
  have hintent := (Table.find_eq_some_iff.mp hfenceable.found).1
  have hbinding := PairBinding.mk.inj hfenceable.binding
  have hlive := liveIntent_fenced hone hintent hfenceable.live
  have hsnapshot : pairSnapshot (db.putIntent intent.fenced) captured.sessionId captured.sandboxId
      none = (do
        let _ ← verifyTransfer db intent
        return some (db.snapshotOf intent)) := by
    rw [← hbinding.1, ← hbinding.2.1]
    unfold pairSnapshot
    simp only [hlive]
    have hanchor : anchoredState (db.putIntent intent.fenced) intent.fenced.toPairLedger =
        .ok (intent.egressStateId.bind db.states.find) :=
      (anchoredState_of_fenceable hfenceable :)
    have hsession : failIf (intent.fenced.sessionId ≠ intent.sessionId)
        (Failure.runtimeError "pair cleanup session identity mismatch") = .ok () :=
      failIf_eq_ok.mpr (not_not.mpr rfl)
    rw [hsession, if_pos (show intent.fenced.retiredAt = none from hfenceable.live),
      verifyTransfer_fenced hintent, hanchor]
    rfl
  constructor
  · intro h
    obtain ⟨⟨_, _⟩, hjudged, h⟩ := except_bind_eq_ok.mp h
    obtain ⟨rfl, rfl⟩ := Prod.mk.inj (Except.ok.inj (hsettled.symm.trans hjudged))
    obtain ⟨found, hfound, h⟩ := except_bind_eq_ok.mp h
    obtain rfl := Except.ok.inj (hcaptured.symm.trans hfound)
    rw [hsnapshot] at h
    obtain ⟨_, hretained, h⟩ := except_bind_eq_ok.mp h
    obtain ⟨receipt, hreceipt, hretained⟩ := except_bind_eq_ok.mp hretained
    obtain rfl := except_pure_eq_ok.mp hretained
    obtain ⟨retained, hretained, h⟩ := except_bind_eq_ok.mp h
    obtain rfl := Option.some.inj (require_eq_ok.mp hretained)
    obtain ⟨_, hequal, h⟩ := except_bind_eq_ok.mp h
    exact ⟨⟨receipt, hreceipt⟩, not_not.mp (failIf_eq_ok.mp hequal),
      (Prod.mk.inj (except_pure_eq_ok.mp h)).2⟩
  · rintro ⟨⟨receipt, hreceipt⟩, hequal, rfl⟩
    rw [hreceipt] at hsnapshot
    exact except_bind_eq_ok.mpr ⟨_, hsettled, except_bind_eq_ok.mpr ⟨_, hcaptured,
      except_bind_eq_ok.mpr ⟨_, hsnapshot, except_bind_eq_ok.mpr ⟨_, rfl, except_bind_eq_ok.mpr
        ⟨(), failIf_eq_ok.mpr (not_not.mpr hequal), rfl⟩⟩⟩⟩⟩

/-- Where the snapshot drifted legally from its ledger and the writers are settled, the cleanup is
sealed exactly when the ledger records what the capture holds and its receipt still agrees. -/
theorem sealPairCleanup_iff {work : CleanupWork} {captured : PairSnapshot} {now : Time}
    {recovery : Option RecoveryClaim} (hone : db.OneLive)
    (hcaptured : work.pairSnapshot = some captured)
    (hintent : db.intents.find captured.generation = some intent)
    (hdrifts : captured.Drifts (db.snapshotOf intent))
    (hsettled : pairWritersSettled db work now recovery = .ok (true, after)) :
    sealPairCleanup db work now recovery = .ok (true, after) ↔
      captured.Sealable (db.snapshotOf intent) ∧ ∃ receipt, verifyTransfer db intent = .ok receipt := by
  obtain ⟨stored, snapshot, found, howned, hfenceable, rfl, hjudged⟩ :=
    pairWritersSettled_eq_ok hsettled
  obtain rfl : snapshot = captured :=
    Option.some.inj ((cleanupPair_eq_ok howned.captured).1.symm.trans hcaptured)
  obtain rfl : found = intent := Option.some.inj (hfenceable.found.symm.trans hintent)
  rw [sealPairCleanup_eq hone howned.captured hfenceable hsettled,
    PairSnapshot.evidenced_eq_sealed_iff hdrifts (hjudged rfl).resolves]
  constructor
  · exact fun ⟨hreceipt, hsealable, _⟩ ↦ ⟨hsealable, hreceipt⟩
  · exact fun ⟨hsealable, hreceipt⟩ ↦ ⟨hreceipt, hsealable, rfl⟩

/-! ### A creator that is lost before it binds -/

namespace Crash

def uid : Uid :=
  ⟨['u'], 'u', List.mem_singleton.mpr rfl, by decide⟩

def pending : SandboxSession :=
  { sessionId := 1
    sandboxId := 2
    projectId := 3
    status := .pending
    goldenVersion := ['g']
    pvcUid := none
    pvcId := none
    serviceDeadline := none
    guestDeploymentUid := none
    ipcDeploymentUid := none
    ipcPodUid := none
    ipcPvcUid := none
    caAttempt := none
    caSources := none
    caClones := none
    claimedBy := none
    statusChangedAt := 0
    lastExecutionAt := 0 }

/-- The session under the claim of a provisioner. -/
def creating : SandboxSession :=
  { pending.claimed 4 10 with pvcId := some 5 }

/-- The session under recovery. -/
def recovering : SandboxSession :=
  creating.recovering 9 1000

/-- A provisioner creates one control, and is lost before or after it binds it. The recovery of the
session observes the control. -/
def operations (bindings : List Operation) : List Operation :=
  [.insertPending 1 2 ['g'] 0 3, .claim pending 4 5 10 true, .begin creating 4 6 ['n'] ['g'] false,
    .create creating 4 6 (.dispatchControl .podGroupGuest)] ++ bindings ++
  [.settle (newIntent creating 4 6 ['n'] ['g']) (.control .podGroupGuest),
    .recover 1 2 8 9 1000 100]

/-- The database when the recovery has observed the control. -/
def database (bindings : List Operation) : Database :=
  let world := (World.run (operations bindings)).1
  (World.run (operations bindings ++ world.db.works.rows.map fun work ↦
    .capture work 1001 (some ⟨recovering, 100⟩) (.control .podGroupGuest (some uid)))).1.db

/-- The control was never bound. -/
def lost : Database :=
  database []

/-- The control was bound. -/
def bound : Database :=
  database [.create creating 4 6 (.bindControl .podGroupGuest uid)]

/-- The claim of the recovery. -/
def recovery : RecoveryClaim :=
  ⟨recovering, 100⟩

/-- A cleanup with its snapshot and its ledger. -/
def captures (db : Database) : List (CleanupWork × PairSnapshot × PairIntent) :=
  db.works.rows.flatMap fun work ↦ work.pairSnapshot.toList.flatMap fun captured ↦
    (db.intents.find captured.generation).toList.map fun intent ↦ (work, captured, intent)

theorem mem_captures {db : Database} {work : CleanupWork} {captured : PairSnapshot}
    {intent : PairIntent} (h : (work, captured, intent) ∈ captures db) :
    work.pairSnapshot = some captured ∧ db.intents.find captured.generation = some intent := by
  obtain ⟨_, -, h⟩ := List.mem_flatMap.mp h
  obtain ⟨_, hcaptured, h⟩ := List.mem_flatMap.mp h
  obtain ⟨_, hintent, ⟨⟩⟩ := List.mem_map.mp h
  exact ⟨Option.mem_toList.mp hcaptured, Option.mem_toList.mp hintent⟩

end Crash

open Crash in
theorem sealPairCleanup_iff_example :
    ∃ work captured intent after, work.pairSnapshot = some captured ∧
      bound.intents.find captured.generation = some intent ∧
      captured.Drifts (bound.snapshotOf intent) ∧
      pairWritersSettled bound work 1002 recovery = .ok (true, after) ∧
      (sealPairCleanup bound work 1002 recovery = .ok (true, after) ↔
        captured.Sealable (bound.snapshotOf intent) ∧
          ∃ receipt, verifyTransfer bound intent = .ok receipt) := by
  have hcase : ∃ found ∈ captures bound, found.2.1.Drifts (bound.snapshotOf found.2.2) ∧
      yields (pairWritersSettled bound found.1 1002 recovery) (·.1) = true := by
    decide +kernel
  obtain ⟨⟨work, captured, intent⟩, hfound, hdrifts, hyields⟩ := hcase
  obtain ⟨hcaptured, hintent⟩ := mem_captures hfound
  obtain ⟨⟨settled, after⟩, hsettled, rfl⟩ := exists_of_yields hyields
  have hone : bound.OneLive := by
    unfold Database.OneLive
    decide +kernel
  exact ⟨work, captured, intent, after, hcaptured, hintent, hdrifts, hsettled,
    sealPairCleanup_iff hone hcaptured hintent hdrifts hsettled⟩

open Crash in
/-- The writers of the control that was never bound are settled, and the seal refuses it. -/
theorem sealPairCleanup_refuses_example :
    ∃ work captured intent after, work.pairSnapshot = some captured ∧
      lost.intents.find captured.generation = some intent ∧
      captured.Drifts (lost.snapshotOf intent) ∧
      pairWritersSettled lost work 1002 recovery = .ok (true, after) ∧
      sealPairCleanup lost work 1002 recovery =
        .error (.claimLost "cleanup claim differs from retained ownership") := by
  have hcase : ∃ found ∈ captures lost, found.2.1.Drifts (lost.snapshotOf found.2.2) ∧
      yields (pairWritersSettled lost found.1 1002 recovery) (·.1) = true ∧
      raised (sealPairCleanup lost found.1 1002 recovery)
        (.claimLost "cleanup claim differs from retained ownership") = true := by
    decide +kernel
  obtain ⟨⟨work, captured, intent⟩, hfound, hdrifts, hyields, hraised⟩ := hcase
  obtain ⟨hcaptured, hintent⟩ := mem_captures hfound
  obtain ⟨⟨settled, after⟩, hsettled, rfl⟩ := exists_of_yields hyields
  exact ⟨work, captured, intent, after, hcaptured, hintent, hdrifts, hsettled,
    eq_error_of_raised hraised⟩

end Ads.SandboxManager
