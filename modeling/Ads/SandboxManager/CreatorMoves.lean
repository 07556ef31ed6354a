import Ads.SandboxManager.Moves

/-!
# The moves of creators

Every transaction of a creator, and every original write that returns, is one advance of its ledger
or of its egress state, beside quiet writes to the session and its disk.
-/

set_option autoImplicit false
set_option relaxedAutoImplicit false

namespace Ads.SandboxManager

open Foundation Foundation.StateExcept Python

variable {db after : Database} {drawn : List Uuid} {expected : SandboxSession}
  {owner generation : Uuid} {statuses : List Status} {intent : PairIntent}

/-- What a transaction commits: it reaches it by moves that use no identifiers but those drawn. -/
def Commits (start : Database) (drawn : List Uuid) (operation : Operation) (after : Database) :
    Prop :=
  ∃ later, Reaches start drawn operation after later ∧
    ∀ identifier ∈ later, identifier ∈ operation.draws ∨ identifier ∈ drawn

section Commits

variable {operation : Operation}

theorem Commits.refl : Commits db drawn operation db :=
  ⟨drawn, .refl, fun _ hdrawn ↦ Or.inr hdrawn⟩

/-- One more move that draws nothing. -/
theorem Commits.move {middle : Database} (hcommits : Commits db drawn operation middle)
    (hmove : ∀ later, Move db operation middle later after later) :
    Commits db drawn operation after := by
  obtain ⟨later, hreaches, hlater⟩ := hcommits
  exact ⟨later, hreaches.move (hmove later), hlater⟩

/-- A transaction of one move. -/
theorem Commits.single (hmove : Move db operation db drawn after drawn) :
    Commits db drawn operation after :=
  ⟨drawn, Reaches.refl.move hmove, fun _ hdrawn ↦ Or.inr hdrawn⟩

/-- A transaction of one move that uses an identifier that was drawn. -/
theorem Commits.drawing {identifier : Uuid} (hdraws : identifier ∈ operation.draws)
    (hmove : Move db operation db drawn after (identifier :: drawn)) :
    Commits db drawn operation after := by
  refine ⟨identifier :: drawn, Reaches.refl.move hmove, fun other hother ↦ ?_⟩
  rcases List.mem_cons.mp hother with rfl | hdrawn
  · exact Or.inl hdraws
  · exact Or.inr hdrawn

end Commits

/-! ### Claims -/

/-- The ledger of a generation under the claim of its creator. -/
structure Owned (db : Database) (expected : SandboxSession) (owner generation : Uuid)
    (statuses : List Status) (row : SandboxSession) (intent : PairIntent) : Prop where
  session : db.sessions.find expected.sessionId = some row
  status : row.status ∈ statuses
  found : db.intents.find generation = some intent
  sandbox : intent.sandboxId = row.sandboxId
  unfenced : intent.creationFenced = false
  live : intent.retiredAt = none
  verified : ∃ receipt, verifyTransfer db intent = .ok receipt

namespace Owned

variable {row : SandboxSession}

theorem mem (howned : Owned db expected owner generation statuses row intent) :
    intent ∈ db.intents :=
  (Table.find_eq_some_iff.mp howned.found).1

theorem generation_eq (howned : Owned db expected owner generation statuses row intent) :
    intent.generation = generation :=
  (Table.find_eq_some_iff.mp howned.found).2

theorem row_mem (howned : Owned db expected owner generation statuses row intent) :
    row ∈ db.sessions :=
  (Table.find_eq_some_iff.mp howned.session).1

end Owned

theorem ownedSession_eq_ok {row : SandboxSession}
    (h : ownedSession db expected owner statuses = .ok row) :
    db.sessions.find expected.sessionId = some row ∧ row.status ∈ statuses := by
  obtain ⟨found, hfound, h⟩ := except_bind_eq_ok.mp h
  obtain ⟨_, hguard, h⟩ := except_bind_eq_ok.mp h
  obtain rfl := except_pure_eq_ok.mp h
  obtain ⟨-, hguard⟩ := not_or.mp (failIf_eq_ok.mp hguard)
  exact ⟨require_eq_ok.mp hfound, not_not.mp (not_or.mp hguard).1⟩

theorem pairMatches_eq_ok {row : SandboxSession} {result : Unit}
    (h : pairMatches intent row owner statuses = .ok result) :
    intent.sandboxId = row.sandboxId ∧ intent.creationFenced = false ∧ intent.retiredAt = none := by
  obtain ⟨_, hscope, h⟩ := except_bind_eq_ok.mp h
  obtain ⟨-, hscope⟩ := not_or.mp (failIf_eq_ok.mp hscope)
  obtain ⟨hfenced, hretired⟩ := not_or.mp (failIf_eq_ok.mp h)
  exact ⟨not_not.mp (not_or.mp hscope).1, Bool.eq_false_of_not_eq_true hfenced,
    not_not.mp hretired⟩

theorem owned_eq_ok (h : owned db expected owner generation statuses = .ok intent) :
    ∃ row, Owned db expected owner generation statuses row intent := by
  obtain ⟨row, hrow, h⟩ := except_bind_eq_ok.mp h
  obtain ⟨found, hfound, h⟩ := except_bind_eq_ok.mp h
  obtain ⟨_, hmatches, h⟩ := except_bind_eq_ok.mp h
  obtain ⟨_, -, h⟩ := except_bind_eq_ok.mp h
  obtain ⟨receipt, hreceipt, h⟩ := except_bind_eq_ok.mp h
  obtain rfl := except_pure_eq_ok.mp h
  obtain ⟨hsession, hstatus⟩ := ownedSession_eq_ok hrow
  obtain ⟨hsandbox, hunfenced, hlive⟩ := pairMatches_eq_ok hmatches
  exact ⟨row, hsession, hstatus, require_eq_ok.mp hfound, hsandbox, hunfenced, hlive, receipt,
    hreceipt⟩

/-- The ledger that an original write returns to. -/
theorem settlementIntent_eq_ok {original : PairIntent}
    (h : settlementIntent db original = .ok intent) :
    intent ∈ db.intents ∧ intent.retiredAt = none := by
  obtain ⟨found, hfound, h⟩ := except_bind_eq_ok.mp h
  obtain ⟨_, -, h⟩ := except_bind_eq_ok.mp h
  obtain ⟨_, hretired, h⟩ := except_bind_eq_ok.mp h
  obtain ⟨_, -, h⟩ := except_bind_eq_ok.mp h
  obtain rfl := except_pure_eq_ok.mp h
  exact ⟨(Table.find_eq_some_iff.mp (require_eq_ok.mp hfound)).1,
    not_not.mp (failIf_eq_ok.mp hretired)⟩

/-! ### Slots -/

/-- A UID that is not replaced is written once. -/
theorem writeOnce_of_refuseReplacement {previous : Option Uid} {uid : Uid} {reason : String}
    {result : Unit} (h : refuseReplacement previous uid reason = .ok result) :
    WriteOnce previous (some uid) :=
  .of_guard (failIf_eq_ok.mp h)

/-- What was issued may settle. -/
theorem next_settled_of_issued {stage : Dispatch} (hissued : stage ≠ .unissued) :
    stage.Next .settled := by
  cases stage with
  | unissued => exact absurd rfl hissued
  | inflight => exact .settle
  | settled => exact .stay _

theorem next_inflight_of_unissued {stage : Dispatch} (hunissued : stage = .unissued) :
    stage.Next .inflight :=
  hunissued ▸ .issue

/-- An entry that is issued. -/
theorem advances_issued {π : Type} {entry : Option (Issued π)} (hnone : entry = none) (payload : π) :
    (Issued.slot entry).Advances (Issued.slot (some ⟨payload, none, false⟩)) := by
  rw [hnone]
  exact ⟨.issue, .refl _⟩

/-- An entry that is bound. -/
theorem advances_bound {π : Type} {entry : Issued π} {uid : Uid}
    (huid : WriteOnce entry.uid (some uid)) :
    (Issued.slot (some entry)).Advances (Issued.slot (some { entry with uid := some uid })) :=
  ⟨.stay _, huid⟩

/-- An entry that is settled. -/
theorem advances_settled {π : Type} (entry : Issued π) :
    (Issued.slot (some entry)).Advances (Issued.slot (some { entry with settled := true })) := by
  refine ⟨?_, .refl _⟩
  obtain ⟨payload, uid, settled⟩ := entry
  cases settled with
  | false => exact .settle
  | true => exact .stay _

/-- The only write of a resource whose stage is raised. -/
theorem computeDispatch_update {role : ComputeRole} {stage : Dispatch}
    (hissued : intent.computeDispatch role ≠ .unissued) (other : ComputeRole)
    (hother : intent.computeDispatch other = .unissued) :
    Function.update intent.computeDispatch role stage other = .unissued := by
  rw [Function.update_of_ne, hother]
  rintro rfl
  exact hissued hother

/-! ### Controls -/

section Outcomes

variable {granted : Bool}

theorem dispatchControl_eq_ok {key : ControlKey}
    (h : dispatchControl db expected owner generation key = .ok (granted, after)) :
    ∃ row intent, Owned db expected owner generation [.creating] row intent ∧
      ((granted = false ∧ after = db) ∨ (granted = true ∧ intent.controlDispatch key = .unissued ∧
        after = db.putIntent { intent with
          controlDispatch := Function.update intent.controlDispatch key .inflight })) := by
  obtain ⟨intent, hintent, h⟩ := except_bind_eq_ok.mp h
  obtain ⟨row, howned⟩ := owned_eq_ok hintent
  refine ⟨row, intent, howned, ?_⟩
  split_ifs at h with hunissued
  · obtain ⟨rfl, rfl⟩ := Prod.mk.inj (except_pure_eq_ok.mp h)
    exact Or.inr ⟨rfl, hunissued.2, rfl⟩
  · obtain ⟨rfl, rfl⟩ := Prod.mk.inj (except_pure_eq_ok.mp h)
    exact Or.inl ⟨rfl, rfl⟩

theorem bindControl_eq_ok {key : ControlKey} {uid : Uid}
    (h : bindControl db expected owner generation key uid = .ok after) :
    ∃ row intent, Owned db expected owner generation [.creating] row intent ∧
      WriteOnce (intent.controlUids key) (some uid) ∧
      after = db.putIntent { intent with
        controlUids := Function.update intent.controlUids key (some uid) } := by
  obtain ⟨intent, hintent, h⟩ := except_bind_eq_ok.mp h
  obtain ⟨_, huid, h⟩ := except_bind_eq_ok.mp h
  obtain ⟨row, howned⟩ := owned_eq_ok hintent
  exact ⟨row, intent, howned, writeOnce_of_refuseReplacement huid, (except_pure_eq_ok.mp h).symm⟩

theorem settleControl_eq_ok {original : PairIntent} {key : ControlKey}
    (h : settleControl db original key = .ok after) :
    ∃ intent ∈ db.intents, intent.retiredAt = none ∧ intent.controlDispatch key ≠ .unissued ∧
      after = db.putIntent { intent with
        controlDispatch := Function.update intent.controlDispatch key .settled } := by
  obtain ⟨intent, hintent, h⟩ := except_bind_eq_ok.mp h
  obtain ⟨_, hissued, h⟩ := except_bind_eq_ok.mp h
  obtain ⟨hmem, hlive⟩ := settlementIntent_eq_ok hintent
  exact ⟨intent, hmem, hlive, failIf_eq_ok.mp hissued, (except_pure_eq_ok.mp h).symm⟩

/-! ### Pods -/

theorem dispatchCompute_eq_ok {role : ComputeRole}
    (h : dispatchCompute db expected owner generation role = .ok (granted, after)) :
    ∃ row intent, Owned db expected owner generation [.creating] row intent ∧
      ((granted = false ∧ after = db) ∨ (granted = true ∧ intent.computeDispatch role = .unissued ∧
        after = db.putIntent { intent with
          computeDispatch := Function.update intent.computeDispatch role .inflight })) := by
  obtain ⟨intent, hintent, h⟩ := except_bind_eq_ok.mp h
  obtain ⟨row, howned⟩ := owned_eq_ok hintent
  refine ⟨row, intent, howned, ?_⟩
  split_ifs at h with hunissued
  · obtain ⟨rfl, rfl⟩ := Prod.mk.inj (except_pure_eq_ok.mp h)
    exact Or.inr ⟨rfl, hunissued.2, rfl⟩
  · obtain ⟨rfl, rfl⟩ := Prod.mk.inj (except_pure_eq_ok.mp h)
    exact Or.inl ⟨rfl, rfl⟩

theorem reserveCompute_eq_ok {role : ComputeRole} {payload : ComputePayload role}
    (h : reserveCompute db expected owner generation role payload = .ok (granted, after)) :
    ∃ row intent, Owned db expected owner generation [.creating] row intent ∧
      ((granted = false ∧ after = db) ∨ (granted = true ∧ intent.computeDispatch role = .unissued ∧
        WriteOnce (intent.computePayloads role) (some payload) ∧
        after = db.putIntent { intent with
          computePayloads := Function.update intent.computePayloads role (some payload)
          computeDispatch := Function.update intent.computeDispatch role .inflight })) := by
  obtain ⟨intent, hintent, h⟩ := except_bind_eq_ok.mp h
  obtain ⟨_, -, h⟩ := except_bind_eq_ok.mp h
  obtain ⟨_, -, h⟩ := except_bind_eq_ok.mp h
  obtain ⟨_, hpayload, h⟩ := except_bind_eq_ok.mp h
  obtain ⟨row, howned⟩ := owned_eq_ok hintent
  refine ⟨row, intent, howned, ?_⟩
  split_ifs at h with hunissued
  · obtain ⟨rfl, rfl⟩ := Prod.mk.inj (except_pure_eq_ok.mp h)
    exact Or.inr ⟨rfl, hunissued.2, .of_guard (failIf_eq_ok.mp hpayload), rfl⟩
  · obtain ⟨_, -, h⟩ := except_bind_eq_ok.mp h
    obtain ⟨rfl, rfl⟩ := Prod.mk.inj (except_pure_eq_ok.mp h)
    exact Or.inl ⟨rfl, rfl⟩

theorem bindCompute_eq_ok {role : ComputeRole} {uid : Uid}
    (h : bindCompute db expected owner generation role uid = .ok after) :
    ∃ row intent, Owned db expected owner generation [.creating] row intent ∧
      WriteOnce (intent.computeUids role) (some uid) ∧
      after = db.putIntent { intent with
        computeUids := Function.update intent.computeUids role (some uid) } := by
  obtain ⟨intent, hintent, h⟩ := except_bind_eq_ok.mp h
  obtain ⟨_, -, h⟩ := except_bind_eq_ok.mp h
  obtain ⟨_, -, h⟩ := except_bind_eq_ok.mp h
  obtain ⟨_, huid, h⟩ := except_bind_eq_ok.mp h
  obtain ⟨row, howned⟩ := owned_eq_ok hintent
  exact ⟨row, intent, howned, writeOnce_of_refuseReplacement huid, (except_pure_eq_ok.mp h).symm⟩

theorem settleCompute_eq_ok {original : PairIntent} {role : ComputeRole}
    (h : settleCompute db original role = .ok after) :
    ∃ intent ∈ db.intents, intent.retiredAt = none ∧ intent.computeDispatch role ≠ .unissued ∧
      after = db.putIntent { intent with
        computeDispatch := Function.update intent.computeDispatch role .settled } := by
  obtain ⟨intent, hintent, h⟩ := except_bind_eq_ok.mp h
  obtain ⟨_, -, h⟩ := except_bind_eq_ok.mp h
  obtain ⟨_, hissued, h⟩ := except_bind_eq_ok.mp h
  obtain ⟨hmem, hlive⟩ := settlementIntent_eq_ok hintent
  exact ⟨intent, hmem, hlive, failIf_eq_ok.mp hissued, (except_pure_eq_ok.mp h).symm⟩

/-! ### Relay keys and relay inputs -/

theorem reserveRelayKeys_eq_ok {publicKeys : PublicKeys}
    (h : reserveRelayKeys db expected owner generation publicKeys = .ok (granted, after)) :
    ∃ row intent, Owned db expected owner generation [.creating] row intent ∧
      ((granted = false ∧ after = db) ∨ (granted = true ∧ intent.relayCustody = none ∧
        after = db.putIntent { intent with relayCustody := some ⟨publicKeys, none, false⟩ })) := by
  obtain ⟨intent, hintent, h⟩ := except_bind_eq_ok.mp h
  obtain ⟨row, howned⟩ := owned_eq_ok hintent
  refine ⟨row, intent, howned, ?_⟩
  split at h
  next hnone =>
    obtain ⟨rfl, rfl⟩ := Prod.mk.inj (except_pure_eq_ok.mp h)
    exact Or.inr ⟨rfl, hnone, rfl⟩
  · obtain ⟨rfl, rfl⟩ := Prod.mk.inj (except_pure_eq_ok.mp h)
    exact Or.inl ⟨rfl, rfl⟩

theorem bindRelayKeys_eq_ok {uid : Uid}
    (h : bindRelayKeys db expected owner generation uid = .ok after) :
    ∃ row intent entry, Owned db expected owner generation [.creating] row intent ∧
      intent.relayCustody = some entry ∧ WriteOnce entry.uid (some uid) ∧
      after = db.putIntent { intent with
        relayCustody := some { entry with uid := some uid } } := by
  obtain ⟨intent, hintent, h⟩ := except_bind_eq_ok.mp h
  obtain ⟨entry, hentry, h⟩ := except_bind_eq_ok.mp h
  obtain ⟨_, huid, h⟩ := except_bind_eq_ok.mp h
  obtain ⟨row, howned⟩ := owned_eq_ok hintent
  exact ⟨row, intent, entry, howned, require_eq_ok.mp hentry, writeOnce_of_refuseReplacement huid,
    (except_pure_eq_ok.mp h).symm⟩

theorem settleRelayKeys_eq_ok {original : PairIntent}
    (h : settleRelayKeys db original = .ok after) :
    ∃ intent ∈ db.intents, ∃ entry, intent.retiredAt = none ∧ intent.relayCustody = some entry ∧
      after = db.putIntent { intent with
        relayCustody := some { entry with settled := true } } := by
  obtain ⟨intent, hintent, h⟩ := except_bind_eq_ok.mp h
  obtain ⟨_, -, h⟩ := except_bind_eq_ok.mp h
  obtain ⟨entry, hentry, h⟩ := except_bind_eq_ok.mp h
  obtain ⟨hmem, hlive⟩ := settlementIntent_eq_ok hintent
  exact ⟨intent, hmem, entry, hlive, require_eq_ok.mp hentry, (except_pure_eq_ok.mp h).symm⟩

theorem reserveRelayInput_eq_ok {role : RelayRole} {payload : RelayInput}
    (h : reserveRelayInput db expected owner generation role payload = .ok (granted, after)) :
    ∃ row intent, Owned db expected owner generation [.creating] row intent ∧
      ((granted = false ∧ after = db) ∨ (granted = true ∧ intent.relayInputs role = none ∧
        after = db.putIntent { intent with
          relayInputs :=
            Function.update intent.relayInputs role (some ⟨payload, none, false⟩) })) := by
  obtain ⟨intent, hintent, h⟩ := except_bind_eq_ok.mp h
  obtain ⟨_, -, h⟩ := except_bind_eq_ok.mp h
  obtain ⟨row, howned⟩ := owned_eq_ok hintent
  refine ⟨row, intent, howned, ?_⟩
  split at h
  next hnone =>
    obtain ⟨rfl, rfl⟩ := Prod.mk.inj (except_pure_eq_ok.mp h)
    exact Or.inr ⟨rfl, hnone, rfl⟩
  · obtain ⟨_, -, h⟩ := except_bind_eq_ok.mp h
    obtain ⟨rfl, rfl⟩ := Prod.mk.inj (except_pure_eq_ok.mp h)
    exact Or.inl ⟨rfl, rfl⟩

theorem bindRelayInput_eq_ok {role : RelayRole} {uid : Uid}
    (h : bindRelayInput db expected owner generation role uid = .ok after) :
    ∃ row intent entry, Owned db expected owner generation [.creating] row intent ∧
      intent.relayInputs role = some entry ∧ WriteOnce entry.uid (some uid) ∧
      after = db.putIntent { intent with
        relayInputs :=
          Function.update intent.relayInputs role (some { entry with uid := some uid }) } := by
  obtain ⟨intent, hintent, h⟩ := except_bind_eq_ok.mp h
  obtain ⟨entry, hentry, h⟩ := except_bind_eq_ok.mp h
  obtain ⟨_, huid, h⟩ := except_bind_eq_ok.mp h
  obtain ⟨row, howned⟩ := owned_eq_ok hintent
  exact ⟨row, intent, entry, howned, require_eq_ok.mp hentry, writeOnce_of_refuseReplacement huid,
    (except_pure_eq_ok.mp h).symm⟩

theorem settleRelayInput_eq_ok {original : PairIntent} {role : RelayRole}
    (h : settleRelayInput db original role = .ok after) :
    ∃ intent ∈ db.intents, ∃ entry, intent.retiredAt = none ∧
      intent.relayInputs role = some entry ∧
      after = db.putIntent { intent with
        relayInputs :=
          Function.update intent.relayInputs role (some { entry with settled := true }) } := by
  obtain ⟨intent, hintent, h⟩ := except_bind_eq_ok.mp h
  obtain ⟨_, -, h⟩ := except_bind_eq_ok.mp h
  obtain ⟨entry, hentry, h⟩ := except_bind_eq_ok.mp h
  obtain ⟨hmem, hlive⟩ := settlementIntent_eq_ok hintent
  exact ⟨intent, hmem, entry, hlive, require_eq_ok.mp hentry, (except_pure_eq_ok.mp h).symm⟩

/-! ### Volumes -/

theorem trackOutputs_eq_ok {current tracked : SandboxSession} {attempt : Uuid}
    {identities : CaSources} (h : trackOutputs intent current attempt identities = .ok tracked) :
    current.Quiet tracked := by
  unfold trackOutputs at h
  split_ifs at h
  · obtain ⟨_, -, h⟩ := except_bind_eq_ok.mp h
    obtain rfl := except_pure_eq_ok.mp h
    exact ⟨rfl, rfl, rfl, rfl, rfl⟩
  · obtain ⟨_, -, h⟩ := except_bind_eq_ok.mp h
    obtain rfl := except_pure_eq_ok.mp h
    exact ⟨rfl, rfl, rfl, rfl, rfl⟩

/-- The ledger, the session and its disk under the claim of a clone. -/
theorem currentVolume_eq_ok {role : VolumeRole} {payload : VolumePayload}
    {current : SandboxSession} {pvc : SessionPVC}
    (h : currentVolume db expected owner generation role payload = .ok (intent, current, pvc)) :
    owned db expected owner generation [.creating] = .ok intent ∧
      ∃ row, Owned db expected owner generation [.creating] row intent ∧ row.Quiet current ∧
        db.pvcOf row = some pvc := by
  obtain ⟨_, -, h⟩ := except_bind_eq_ok.mp h
  obtain ⟨found, hintent, h⟩ := except_bind_eq_ok.mp h
  obtain ⟨session, hsession, h⟩ := except_bind_eq_ok.mp h
  obtain ⟨disk, hdisk, h⟩ := except_bind_eq_ok.mp h
  obtain ⟨_, hscope, h⟩ := except_bind_eq_ok.mp h
  obtain ⟨row, howned⟩ := owned_eq_ok hintent
  obtain rfl : session = row :=
    Option.some.inj ((require_eq_ok.mp hsession).symm.trans howned.session)
  have hpvc : db.pvcOf session = some disk := by
    have hpvcId := not_not.mp (not_or.mp (failIf_eq_ok.mp hscope)).1
    unfold Database.pvcOf
    rw [hpvcId]
    exact require_eq_ok.mp hdisk
  split at h
  · simp only [except_pure_eq_ok, Prod.mk.injEq] at h
    obtain ⟨rfl, rfl, rfl⟩ := h
    exact ⟨hintent, session, howned, ⟨rfl, rfl, rfl, rfl, rfl⟩, hpvc⟩
  · obtain ⟨_, -, h⟩ := except_bind_eq_ok.mp h
    obtain ⟨_, -, h⟩ := except_bind_eq_ok.mp h
    obtain ⟨tracked, htracked, h⟩ := except_bind_eq_ok.mp h
    simp only [except_pure_eq_ok, Prod.mk.injEq] at h
    obtain ⟨rfl, rfl, rfl⟩ := h
    exact ⟨hintent, session, howned, trackOutputs_eq_ok htracked, hpvc⟩

theorem reserveVolume_eq_ok {role : VolumeRole} {payload : VolumePayload}
    (h : reserveVolume db expected owner generation role payload = .ok (granted, after)) :
    ∃ row current intent, Owned db expected owner generation [.creating] row intent ∧
      row.Quiet current ∧
      ((granted = false ∧ after = db.putSession current) ∨
        (granted = true ∧ intent.volumeResources role = none ∧
          after = (db.putSession current).putIntent { intent with
            volumeResources :=
              Function.update intent.volumeResources role
                (some ⟨⟨payload, none, false⟩, none⟩) })) := by
  obtain ⟨⟨intent, current, pvc⟩, hcurrent, h⟩ := except_bind_eq_ok.mp h
  obtain ⟨_, -, h⟩ := except_bind_eq_ok.mp h
  obtain ⟨-, row, howned, hquiet, -⟩ := currentVolume_eq_ok hcurrent
  refine ⟨row, current, intent, howned, hquiet, ?_⟩
  split at h
  next hnone =>
    obtain ⟨rfl, rfl⟩ := Prod.mk.inj (except_pure_eq_ok.mp h)
    exact Or.inr ⟨rfl, hnone, rfl⟩
  · obtain ⟨_, -, h⟩ := except_bind_eq_ok.mp h
    obtain ⟨rfl, rfl⟩ := Prod.mk.inj (except_pure_eq_ok.mp h)
    exact Or.inl ⟨rfl, rfl⟩

/-- The binding of the workspace binds the disk of the session as well. -/
theorem bindVolume_eq_ok {role : VolumeRole} {uid : Uid}
    (h : bindVolume db expected owner generation role uid = .ok after) :
    ∃ row bound intent entry pvc, Owned db expected owner generation [.creating] row intent ∧
      intent.volumeResources role = some entry ∧ WriteOnce entry.uid (some uid) ∧
      row.Quiet bound ∧ db.pvcOf row = some pvc ∧
      (after = (db.putSession bound).putIntent { intent with
          volumeResources :=
            Function.update intent.volumeResources role (some { entry with uid := some uid }) } ∨
        after = ((db.putSession bound).putPvc { pvc with uid := some uid }).putIntent { intent with
          volumeResources :=
            Function.update intent.volumeResources role (some { entry with uid := some uid }) }) := by
  obtain ⟨first, hfirst, h⟩ := except_bind_eq_ok.mp h
  obtain ⟨entry, hentry, h⟩ := except_bind_eq_ok.mp h
  obtain ⟨⟨intent, current, pvc⟩, hcurrent, h⟩ := except_bind_eq_ok.mp h
  obtain ⟨_, -, h⟩ := except_bind_eq_ok.mp h
  obtain ⟨_, huid, h⟩ := except_bind_eq_ok.mp h
  obtain ⟨hintent, row, howned, hquiet, hpvc⟩ := currentVolume_eq_ok hcurrent
  obtain rfl : first = intent := Except.ok.inj (hfirst.symm.trans hintent)
  have hentry := require_eq_ok.mp hentry
  have huid := writeOnce_of_refuseReplacement huid
  obtain ⟨hsession, hsandbox, hstatus, hchanged, hpvcId⟩ := hquiet
  cases role with
  | workspace =>
    refine ⟨row, _, first, entry, pvc, howned, hentry, huid, ?_, hpvc,
      Or.inr (except_pure_eq_ok.mp h).symm⟩
    exact ⟨hsession, hsandbox, hstatus, hchanged, hpvcId⟩
  | clone consumer =>
    refine ⟨row, _, first, entry, pvc, howned, hentry, huid, ?_, hpvc,
      Or.inl (except_pure_eq_ok.mp h).symm⟩
    exact ⟨hsession, hsandbox, hstatus, hchanged, hpvcId⟩

theorem settleVolume_eq_ok {original : PairIntent} {role : VolumeRole}
    (h : settleVolume db original role = .ok after) :
    ∃ intent ∈ db.intents, ∃ entry, intent.retiredAt = none ∧
      intent.volumeResources role = some entry ∧
      after = db.putIntent { intent with
        volumeResources :=
          Function.update intent.volumeResources role (some { entry with settled := true }) } := by
  obtain ⟨intent, hintent, h⟩ := except_bind_eq_ok.mp h
  obtain ⟨_, -, h⟩ := except_bind_eq_ok.mp h
  obtain ⟨entry, hentry, h⟩ := except_bind_eq_ok.mp h
  obtain ⟨hmem, hlive⟩ := settlementIntent_eq_ok hintent
  exact ⟨intent, hmem, entry, hlive, require_eq_ok.mp hentry, (except_pure_eq_ok.mp h).symm⟩

/-- Recorded evidence stands on an entry that had none, or the same. -/
theorem recordEvidence_eq_ok {π : Type} {entry : Option (IssuedVolume π)} {evidence : Release}
    {missing : String} {recorded : IssuedVolume π}
    (h : recordEvidence entry evidence missing = .ok recorded) :
    ∃ found, entry = some found ∧ found.uid ≠ none ∧
      (found.release = none ∨ found.release = some evidence) ∧
      recorded = { found with release := some evidence } := by
  obtain ⟨found, hfound, h⟩ := except_bind_eq_ok.mp h
  obtain ⟨_, huid, h⟩ := except_bind_eq_ok.mp h
  obtain ⟨_, hrelease, h⟩ := except_bind_eq_ok.mp h
  refine ⟨found, require_eq_ok.mp hfound, failIf_eq_ok.mp huid, ?_, (except_pure_eq_ok.mp h).symm⟩
  exact Decidable.or_iff_not_not_and_not.mpr (failIf_eq_ok.mp hrelease)

theorem recordVolumeRelease_eq_ok {role : VolumeRole} {evidence : Release}
    (h : recordVolumeRelease db expected owner generation role evidence statuses = .ok after) :
    ∃ row intent entry, Owned db expected owner generation statuses row intent ∧
      intent.volumeResources role = some entry ∧
      (entry.release = none ∨ entry.release = some evidence) ∧
      after = db.putIntent { intent with
        volumeResources :=
          Function.update intent.volumeResources role
            (some { entry with release := some evidence }) } := by
  obtain ⟨intent, hintent, h⟩ := except_bind_eq_ok.mp h
  obtain ⟨recorded, hrecorded, h⟩ := except_bind_eq_ok.mp h
  obtain ⟨row, howned⟩ := owned_eq_ok hintent
  obtain ⟨entry, hentry, -, hrelease, rfl⟩ := recordEvidence_eq_ok hrecorded
  exact ⟨row, intent, entry, howned, hentry, hrelease, (except_pure_eq_ok.mp h).symm⟩

/-! ### Topics -/

theorem dispatchTopics_eq_ok
    (h : dispatchTopics db expected owner generation = .ok (granted, after)) :
    ∃ row intent, Owned db expected owner generation [.creating] row intent ∧
      ((granted = false ∧ after = db) ∨ (granted = true ∧ intent.topicsDispatch = .unissued ∧
        after = db.putIntent { intent with topicsDispatch := .inflight })) := by
  obtain ⟨intent, hintent, h⟩ := except_bind_eq_ok.mp h
  obtain ⟨row, howned⟩ := owned_eq_ok hintent
  refine ⟨row, intent, howned, ?_⟩
  split at h
  next hunissued =>
    obtain ⟨rfl, rfl⟩ := Prod.mk.inj (except_pure_eq_ok.mp h)
    exact Or.inr ⟨rfl, hunissued, rfl⟩
  · exact absurd h except_throw_ne_ok
  · obtain ⟨rfl, rfl⟩ := Prod.mk.inj (except_pure_eq_ok.mp h)
    exact Or.inl ⟨rfl, rfl⟩

theorem settleTopics_eq_ok {original : PairIntent} (h : settleTopics db original = .ok after) :
    ∃ intent ∈ db.intents, intent.retiredAt = none ∧ intent.topicsDispatch ≠ .unissued ∧
      after = db.putIntent { intent with topicsDispatch := .settled } := by
  obtain ⟨intent, hintent, h⟩ := except_bind_eq_ok.mp h
  obtain ⟨_, hissued, h⟩ := except_bind_eq_ok.mp h
  obtain ⟨hmem, hlive⟩ := settlementIntent_eq_ok hintent
  exact ⟨intent, hmem, hlive, failIf_eq_ok.mp hissued, (except_pure_eq_ok.mp h).symm⟩

/-! ### The egress state -/

/-- The egress state that matches a ledger is of its sandbox. -/
theorem stateMatches_eq_ok {state : EgressState} {pair : PairLedger} {result : Unit}
    (h : stateMatches state pair = .ok result) : state.sandboxId = pair.sandboxId := by
  unfold stateMatches at h
  split_ifs at h
  · exact not_not.mp (not_or.mp (not_or.mp (failIf_eq_ok.mp h)).2).1
  · exact not_not.mp (not_or.mp (not_or.mp (failIf_eq_ok.mp h)).2).1

theorem insertState_eq_ok {state : EgressState} (h : db.insertState state = .ok after) :
    ∃ states, db.states.insert state = some states ∧ after = { db with states := states } := by
  obtain ⟨_, -, h⟩ := except_bind_eq_ok.mp h
  obtain ⟨states, hstates, h⟩ := except_bind_eq_ok.mp h
  exact ⟨states, require_eq_ok.mp hstates, (except_pure_eq_ok.mp h).symm⟩

theorem reserveState_eq_ok {stateId : Uuid} {keyFingerprint : Text} {storageBytes : ℕ}
    (h : reserveState db expected owner generation stateId keyFingerprint storageBytes =
      .ok (granted, after)) :
    ∃ row intent, Owned db expected owner generation [.creating] row intent ∧
      ((granted = false ∧ after = db) ∨ (granted = true ∧ intent.egressStateId = none ∧
        ∃ state states, state.stateId = stateId ∧ state.creatorGeneration = intent.generation ∧
          state.sandboxId = intent.sandboxId ∧ state.dispatch .volume = .unissued ∧
          db.states.insert state = some states ∧
          after = { db with states := states }.putIntent { intent with
            egressStateId := some stateId })) := by
  obtain ⟨_, -, h⟩ := except_bind_eq_ok.mp h
  obtain ⟨intent, hintent, h⟩ := except_bind_eq_ok.mp h
  obtain ⟨row, howned⟩ := owned_eq_ok hintent
  refine ⟨row, intent, howned, ?_⟩
  split at h
  · obtain ⟨_, hnone, h⟩ := except_bind_eq_ok.mp h
    obtain ⟨middle, hinsert, h⟩ := except_bind_eq_ok.mp h
    obtain ⟨_, -, h⟩ := except_bind_eq_ok.mp h
    obtain ⟨_, -, h⟩ := except_bind_eq_ok.mp h
    obtain ⟨rfl, rfl⟩ := Prod.mk.inj (except_pure_eq_ok.mp h)
    obtain ⟨states, hstates, rfl⟩ := insertState_eq_ok hinsert
    exact Or.inr ⟨rfl, not_not.mp (failIf_eq_ok.mp hnone), _, states, rfl, rfl, rfl, rfl, hstates,
      rfl⟩
  · obtain ⟨_, -, h⟩ := except_bind_eq_ok.mp h
    obtain ⟨_, -, h⟩ := except_bind_eq_ok.mp h
    obtain ⟨_, -, h⟩ := except_bind_eq_ok.mp h
    obtain ⟨_, -, h⟩ := except_bind_eq_ok.mp h
    obtain ⟨rfl, rfl⟩ := Prod.mk.inj (except_pure_eq_ok.mp h)
    exact Or.inl ⟨rfl, rfl⟩

/-- The egress state of a generation under the claim of its creator. -/
theorem ownedState_eq_ok {stateId : Uuid} {state : EgressState}
    (h : ownedState db expected owner generation stateId = .ok state) :
    ∃ row intent, Owned db expected owner generation [.creating] row intent ∧
      state ∈ db.states ∧ intent.egressStateId = some state.stateId ∧
      state.sandboxId = intent.sandboxId := by
  obtain ⟨intent, hintent, h⟩ := except_bind_eq_ok.mp h
  obtain ⟨found, hfound, h⟩ := except_bind_eq_ok.mp h
  obtain ⟨_, -, h⟩ := except_bind_eq_ok.mp h
  obtain ⟨_, hmatches, h⟩ := except_bind_eq_ok.mp h
  obtain ⟨_, hanchor, h⟩ := except_bind_eq_ok.mp h
  obtain rfl := except_pure_eq_ok.mp h
  obtain ⟨row, howned⟩ := owned_eq_ok hintent
  exact ⟨row, intent, howned, (Table.find_eq_some_iff.mp (require_eq_ok.mp hfound)).1,
    not_not.mp (failIf_eq_ok.mp hanchor), stateMatches_eq_ok hmatches⟩

theorem reserveStateVolume_eq_ok {stateId : Uuid}
    (h : reserveStateVolume db expected owner generation stateId = .ok (granted, after)) :
    ∃ row intent state, Owned db expected owner generation [.creating] row intent ∧
      state ∈ db.states ∧ intent.egressStateId = some state.stateId ∧
      state.sandboxId = intent.sandboxId ∧
      ((granted = false ∧ after = db) ∨ (granted = true ∧ state.dispatch .volume = .unissued ∧
        after = db.putState { state with
          dispatch := Function.update state.dispatch .volume .inflight })) := by
  obtain ⟨state, hstate, h⟩ := except_bind_eq_ok.mp h
  obtain ⟨_, -, h⟩ := except_bind_eq_ok.mp h
  obtain ⟨row, intent, howned, hmem, hanchor, hsandbox⟩ := ownedState_eq_ok hstate
  refine ⟨row, intent, state, howned, hmem, hanchor, hsandbox, ?_⟩
  split_ifs at h with hunissued
  · obtain ⟨rfl, rfl⟩ := Prod.mk.inj (except_pure_eq_ok.mp h)
    exact Or.inr ⟨rfl, hunissued, rfl⟩
  · obtain ⟨rfl, rfl⟩ := Prod.mk.inj (except_pure_eq_ok.mp h)
    exact Or.inl ⟨rfl, rfl⟩

theorem bindState_eq_ok {stateId : Uuid} {role : StateRole} {uid : Uid}
    (h : bindState db expected owner generation stateId role uid = .ok after) :
    ∃ row intent state, Owned db expected owner generation [.creating] row intent ∧
      state ∈ db.states ∧ state.sandboxId = intent.sandboxId ∧
      WriteOnce (state.uid role) (some uid) ∧
      after = db.putState { state with uid := Function.update state.uid role (some uid) } := by
  obtain ⟨state, hstate, h⟩ := except_bind_eq_ok.mp h
  obtain ⟨_, -, h⟩ := except_bind_eq_ok.mp h
  obtain ⟨_, huid, h⟩ := except_bind_eq_ok.mp h
  obtain ⟨row, intent, howned, hmem, -, hsandbox⟩ := ownedState_eq_ok hstate
  exact ⟨row, intent, state, howned, hmem, hsandbox, writeOnce_of_refuseReplacement huid,
    (except_pure_eq_ok.mp h).symm⟩

/-- The original write of an egress state settles while its creator is not retired. -/
theorem settleState_eq_ok {original : EgressState} {role : StateRole}
    (h : settleState db original role = .ok after) :
    ∃ state ∈ db.states, state.dispatch role ≠ .unissued ∧
      (∀ creator ∈ db.intents, creator.generation = state.creatorGeneration →
        creator.retiredAt = none) ∧
      after = db.putState { state with
        dispatch := Function.update state.dispatch role .settled } := by
  obtain ⟨_, -, h⟩ := except_bind_eq_ok.mp h
  obtain ⟨_, hcreator, h⟩ := except_bind_eq_ok.mp h
  obtain ⟨state, hstate, h⟩ := except_bind_eq_ok.mp h
  obtain ⟨_, hscope, h⟩ := except_bind_eq_ok.mp h
  obtain ⟨_, -, h⟩ := except_bind_eq_ok.mp h
  obtain ⟨_, -, h⟩ := except_bind_eq_ok.mp h
  obtain ⟨_, hissued, h⟩ := except_bind_eq_ok.mp h
  have hsame : state.creatorGeneration = original.creatorGeneration :=
    (congrArg EgressState.creatorGeneration (not_not.mp (failIf_eq_ok.mp hscope)) :)
  refine ⟨state, (Table.find_eq_some_iff.mp (require_eq_ok.mp hstate)).1, failIf_eq_ok.mp hissued,
    fun creator hmem hkey ↦ ?_, (except_pure_eq_ok.mp h).symm⟩
  have hfind : db.intents.find original.creatorGeneration = some creator :=
    Table.find_eq_some_iff.mpr ⟨hmem, hkey.trans hsame⟩
  by_contra hretired
  rw [hfind] at hcreator
  exact failIf_eq_ok.mp hcreator (decide_eq_true hretired)

theorem recordStateVolumeRelease_eq_ok {stateId : Uuid} {evidence : Release}
    (h : recordStateVolumeRelease db expected owner generation stateId evidence = .ok after) :
    ∃ state ∈ db.states, state.stateId = stateId ∧
      (state.volumeRelease = none ∨ state.volumeRelease = some evidence) ∧
      after = db.putState { state with volumeRelease := some evidence } := by
  obtain ⟨intent, hintent, h⟩ := except_bind_eq_ok.mp h
  obtain ⟨_, -, h⟩ := except_bind_eq_ok.mp h
  obtain ⟨state, hstate, h⟩ := except_bind_eq_ok.mp h
  obtain ⟨_, -, h⟩ := except_bind_eq_ok.mp h
  obtain ⟨_, -, h⟩ := except_bind_eq_ok.mp h
  obtain ⟨_, hrelease, h⟩ := except_bind_eq_ok.mp h
  obtain ⟨hmem, hkey⟩ := Table.find_eq_some_iff.mp (require_eq_ok.mp hstate)
  exact ⟨state, hmem, hkey, Decidable.or_iff_not_not_and_not.mpr (failIf_eq_ok.mp hrelease),
    (except_pure_eq_ok.mp h).symm⟩

/-! ### IPC -/

theorem reserveIpc_eq_ok {role : IpcRole} {payload : IpcPayload}
    (h : reserveIpc db expected owner generation role payload = .ok (granted, after)) :
    ∃ row intent, Owned db expected owner generation [.creating] row intent ∧
      ((granted = false ∧ after = db) ∨ (granted = true ∧ intent.ipcResources role = none ∧
        after = db.putIntent { intent with
          ipcResources :=
            Function.update intent.ipcResources role
              (some ⟨⟨payload, none, false⟩, none⟩) })) := by
  obtain ⟨_, -, h⟩ := except_bind_eq_ok.mp h
  obtain ⟨intent, hintent, h⟩ := except_bind_eq_ok.mp h
  obtain ⟨_, -, h⟩ := except_bind_eq_ok.mp h
  obtain ⟨_, -, h⟩ := except_bind_eq_ok.mp h
  obtain ⟨_, -, h⟩ := except_bind_eq_ok.mp h
  obtain ⟨row, howned⟩ := owned_eq_ok hintent
  refine ⟨row, intent, howned, ?_⟩
  split at h
  next hnone =>
    obtain ⟨rfl, rfl⟩ := Prod.mk.inj (except_pure_eq_ok.mp h)
    exact Or.inr ⟨rfl, hnone, rfl⟩
  · obtain ⟨_, -, h⟩ := except_bind_eq_ok.mp h
    obtain ⟨rfl, rfl⟩ := Prod.mk.inj (except_pure_eq_ok.mp h)
    exact Or.inl ⟨rfl, rfl⟩

theorem bindIpc_eq_ok {role : IpcRole} {uid : Uid}
    (h : bindIpc db expected owner generation role uid = .ok after) :
    ∃ row intent entry, Owned db expected owner generation [.creating] row intent ∧
      intent.ipcResources role = some entry ∧ WriteOnce entry.uid (some uid) ∧
      after = (db.putSession (row.bindIpc role uid)).putIntent { intent with
        ipcResources :=
          Function.update intent.ipcResources role (some { entry with uid := some uid }) } := by
  obtain ⟨intent, hintent, h⟩ := except_bind_eq_ok.mp h
  obtain ⟨current, hcurrent, h⟩ := except_bind_eq_ok.mp h
  obtain ⟨entry, hentry, h⟩ := except_bind_eq_ok.mp h
  obtain ⟨_, -, h⟩ := except_bind_eq_ok.mp h
  obtain ⟨_, huid, h⟩ := except_bind_eq_ok.mp h
  obtain ⟨_, -, h⟩ := except_bind_eq_ok.mp h
  obtain ⟨row, howned⟩ := owned_eq_ok hintent
  obtain rfl : current = row :=
    Option.some.inj ((require_eq_ok.mp hcurrent).symm.trans howned.session)
  exact ⟨current, intent, entry, howned, require_eq_ok.mp hentry,
    writeOnce_of_refuseReplacement huid, (except_pure_eq_ok.mp h).symm⟩

theorem settleIpc_eq_ok {original : PairIntent} {role : IpcRole}
    (h : settleIpc db original role = .ok after) :
    ∃ intent ∈ db.intents, ∃ entry, intent.retiredAt = none ∧
      intent.ipcResources role = some entry ∧
      after = db.putIntent { intent with
        ipcResources :=
          Function.update intent.ipcResources role (some { entry with settled := true }) } := by
  obtain ⟨intent, hintent, h⟩ := except_bind_eq_ok.mp h
  obtain ⟨_, -, h⟩ := except_bind_eq_ok.mp h
  obtain ⟨entry, hentry, h⟩ := except_bind_eq_ok.mp h
  obtain ⟨hmem, hlive⟩ := settlementIntent_eq_ok hintent
  exact ⟨intent, hmem, entry, hlive, require_eq_ok.mp hentry, (except_pure_eq_ok.mp h).symm⟩

theorem recordIpcRelease_eq_ok {role : IpcRole} {evidence : Release}
    (h : recordIpcRelease db expected owner generation role evidence statuses = .ok after) :
    ∃ row intent entry, Owned db expected owner generation statuses row intent ∧
      intent.ipcResources role = some entry ∧
      (entry.release = none ∨ entry.release = some evidence) ∧
      after = db.putIntent { intent with
        ipcResources :=
          Function.update intent.ipcResources role
            (some { entry with release := some evidence }) } := by
  obtain ⟨intent, hintent, h⟩ := except_bind_eq_ok.mp h
  obtain ⟨recorded, hrecorded, h⟩ := except_bind_eq_ok.mp h
  obtain ⟨row, howned⟩ := owned_eq_ok hintent
  obtain ⟨entry, hentry, -, hrelease, rfl⟩ := recordEvidence_eq_ok hrecorded
  exact ⟨row, intent, entry, howned, hentry, hrelease, (except_pure_eq_ok.mp h).symm⟩

/-! ### The validation of a transfer -/

/-- The receipt that a generation is verified by is its own. -/
theorem verifyTransfer_eq_some {receipt : PairTransfer}
    (h : verifyTransfer db intent = .ok (some receipt)) :
    db.transfers.find intent.generation = some receipt := by
  unfold verifyTransfer at h
  split at h
  · obtain ⟨_, -, h⟩ := except_bind_eq_ok.mp h
    cases except_pure_eq_ok.mp h
  next found hfound =>
    obtain ⟨_, -, h⟩ := except_bind_eq_ok.mp h
    obtain ⟨_, -, h⟩ := except_bind_eq_ok.mp h
    obtain ⟨_, -, h⟩ := except_bind_eq_ok.mp h
    obtain ⟨_, -, h⟩ := except_bind_eq_ok.mp h
    obtain ⟨_, -, h⟩ := except_bind_eq_ok.mp h
    obtain ⟨_, -, h⟩ := except_bind_eq_ok.mp h
    obtain ⟨_, -, h⟩ := except_bind_eq_ok.mp h
    obtain ⟨_, -, h⟩ := except_bind_eq_ok.mp h
    obtain rfl := Option.some.inj (except_pure_eq_ok.mp h)
    exact hfound

theorem validateTransfer_eq_ok {now : Time}
    (h : validateTransfer db expected owner generation now = .ok after) :
    ∃ receipt ∈ db.transfers, receipt.generation = generation ∧
      after = db.putTransfer { receipt with validatedAt := receipt.validatedAt <|> some now } := by
  obtain ⟨intent, hintent, h⟩ := except_bind_eq_ok.mp h
  obtain ⟨verified, hverified, h⟩ := except_bind_eq_ok.mp h
  obtain ⟨receipt, hreceipt, h⟩ := except_bind_eq_ok.mp h
  obtain ⟨row, howned⟩ := owned_eq_ok hintent
  rw [require_eq_ok.mp hreceipt] at hverified
  obtain ⟨hmem, hkey⟩ := Table.find_eq_some_iff.mp (verifyTransfer_eq_some hverified)
  exact ⟨receipt, hmem, hkey.trans howned.generation_eq, (except_pure_eq_ok.mp h).symm⟩

end Outcomes

/-! ### Transactions -/

theorem answer_eq_ok {resource : Resource} {attempt : Attempt (Bool × Database)}
    {effects : List Effect}
    (h : answer generation resource <$> attempt = .ok (effects, after)) :
    ∃ granted, attempt = .ok (granted, after) ∧
      effects = if granted then [.granted generation resource] else [] := by
  obtain ⟨⟨granted, result⟩, hattempt, h⟩ := except_map_eq_ok.mp h
  obtain ⟨heffects, rfl⟩ := Prod.mk.inj h
  exact ⟨granted, hattempt, heffects.symm⟩

theorem silent_eq_ok {attempt : Attempt Database} {effects : List Effect}
    (h : silent <$> attempt = .ok (effects, after)) : attempt = .ok after ∧ effects = [] := by
  obtain ⟨result, hattempt, h⟩ := except_map_eq_ok.mp h
  obtain ⟨rfl, rfl⟩ := Prod.mk.inj h
  exact ⟨hattempt, rfl⟩

/-- One advance of the ledger, whose Pods the operation does not create. -/
theorem Commits.advance {operation : Operation} {intent' : PairIntent} (hmem : intent ∈ db.intents)
    (hadvances : intent.Advances intent')
    (hcompute : intent'.computeDispatch = intent.computeDispatch) :
    Commits db drawn operation (db.putIntent intent') :=
  .single (.advance hmem hmem hadvances fun role hunissued ↦
    Or.inl ((congrFun hcompute role).trans hunissued))

/-- The transaction of a creator commits by moves. -/
theorem CreatorCall.commits {call : CreatorCall} {effects : List Effect}
    (h : call.transact db expected owner generation = .ok (effects, after)) :
    Commits db drawn (.create expected owner generation call) after := by
  cases call with
  | dispatchControl key =>
    obtain ⟨granted, h, -⟩ := answer_eq_ok h
    obtain ⟨row, intent, howned, ⟨-, rfl⟩ | ⟨-, hunissued, rfl⟩⟩ := dispatchControl_eq_ok h
    · exact .refl
    · exact .advance howned.mem (PairIntent.advances_of_controlDispatch howned.live
        (next_inflight_of_unissued hunissued)) rfl
  | bindControl key uid =>
    obtain ⟨row, intent, howned, huid, rfl⟩ := bindControl_eq_ok (silent_eq_ok h).1
    exact .advance howned.mem (PairIntent.advances_of_controlUids howned.live huid) rfl
  | dispatchCompute role =>
    obtain ⟨granted, h, -⟩ := answer_eq_ok h
    obtain ⟨row, intent, howned, ⟨-, rfl⟩ | ⟨-, hunissued, rfl⟩⟩ := dispatchCompute_eq_ok h
    · exact .refl
    · exact .single (.advance howned.mem howned.mem (PairIntent.advances_of_computeDispatch
        howned.live (next_inflight_of_unissued hunissued))
        fun _ _ ↦ Or.inr (congrArg some howned.generation_eq.symm))
  | reserveCompute role payload =>
    obtain ⟨granted, h, -⟩ := answer_eq_ok h
    obtain ⟨row, intent, howned, ⟨-, rfl⟩ | ⟨-, hunissued, hpayload, rfl⟩⟩ :=
      reserveCompute_eq_ok h
    · exact .refl
    · exact .single (.advance howned.mem howned.mem (PairIntent.advances_of_computePayloads
        howned.live (next_inflight_of_unissued hunissued) hpayload)
        fun _ _ ↦ Or.inr (congrArg some howned.generation_eq.symm))
  | bindCompute role uid =>
    obtain ⟨row, intent, howned, huid, rfl⟩ := bindCompute_eq_ok (silent_eq_ok h).1
    exact .advance howned.mem (PairIntent.advances_of_computeUids howned.live huid) rfl
  | reserveRelayKeys publicKeys =>
    obtain ⟨granted, h, -⟩ := answer_eq_ok h
    obtain ⟨row, intent, howned, ⟨-, rfl⟩ | ⟨-, hnone, rfl⟩⟩ := reserveRelayKeys_eq_ok h
    · exact .refl
    · exact .advance howned.mem (PairIntent.advances_of_relayCustody howned.live
        (advances_issued hnone publicKeys) (hnone ▸ .of_none)) rfl
  | bindRelayKeys uid =>
    obtain ⟨row, intent, entry, howned, hentry, huid, rfl⟩ := bindRelayKeys_eq_ok (silent_eq_ok h).1
    exact .advance howned.mem (PairIntent.advances_of_relayCustody howned.live
      (hentry ▸ advances_bound huid) (hentry ▸ .refl _)) rfl
  | reserveRelayInput role payload =>
    obtain ⟨granted, h, -⟩ := answer_eq_ok h
    obtain ⟨row, intent, howned, ⟨-, rfl⟩ | ⟨-, hnone, rfl⟩⟩ := reserveRelayInput_eq_ok h
    · exact .refl
    · exact .advance howned.mem (PairIntent.advances_of_relayInputs howned.live
        (advances_issued hnone payload) (hnone ▸ .of_none)) rfl
  | bindRelayInput role uid =>
    obtain ⟨row, intent, entry, howned, hentry, huid, rfl⟩ :=
      bindRelayInput_eq_ok (silent_eq_ok h).1
    exact .advance howned.mem (PairIntent.advances_of_relayInputs howned.live
      (hentry ▸ advances_bound huid) (hentry ▸ .refl _)) rfl
  | reserveVolume role payload =>
    obtain ⟨granted, h, -⟩ := answer_eq_ok h
    obtain ⟨row, current, intent, howned, hquiet, ⟨-, rfl⟩ | ⟨-, hnone, rfl⟩⟩ :=
      reserveVolume_eq_ok h
    · exact .single (.quietRow howned.row_mem hquiet rfl)
    · refine Commits.move (.single (.quietRow howned.row_mem hquiet rfl)) fun later ↦ ?_
      exact .advance howned.mem howned.mem (PairIntent.advances_of_volumeResources howned.live
        (hnone ▸ ⟨.issue, .refl _⟩) (hnone ▸ .of_none)
        (by unfold PairLedger.volumeRelease; rw [hnone]; rfl)) fun role hunissued ↦ Or.inl hunissued
  | bindVolume role uid =>
    obtain ⟨row, bound, intent, entry, pvc, howned, hentry, huid, hquiet, hpvc, hafter⟩ :=
      bindVolume_eq_ok (silent_eq_ok h).1
    have hadvances : intent.Advances { intent with
        volumeResources :=
          Function.update intent.volumeResources role (some { entry with uid := some uid }) } :=
      PairIntent.advances_of_volumeResources howned.live (hentry ▸ advances_bound huid)
        (hentry ▸ .refl _) (by unfold PairLedger.volumeRelease; rw [hentry]; rfl)
    have hcurrent : ∀ {operation : Operation}, operation.interferes = false →
        Commits db drawn operation (db.putSession bound) :=
      fun hcalm ↦ .single (.quietRow howned.row_mem hquiet hcalm)
    rcases hafter with rfl | rfl
    · refine (hcurrent rfl).move fun later ↦ ?_
      exact .advance howned.mem howned.mem hadvances fun role hunissued ↦ Or.inl hunissued
    · have hdisk : Commits db drawn (.create expected owner generation (.bindVolume role uid))
          ((db.putSession bound).putPvc { pvc with uid := some uid }) :=
        (hcurrent rfl).move fun later ↦ .quietPvc (pvcOf_eq_some hpvc).2 ⟨rfl, rfl, rfl, rfl⟩ rfl
      refine hdisk.move fun later ↦ ?_
      exact .advance howned.mem howned.mem hadvances fun role hunissued ↦ Or.inl hunissued
  | recordVolumeRelease role evidence ready =>
    obtain ⟨row, intent, entry, howned, hentry, hrelease, rfl⟩ :=
      recordVolumeRelease_eq_ok (silent_eq_ok h).1
    refine .single (.evidence howned.mem howned.mem howned.live hentry hrelease ?_)
    rintro rfl
    exact congrArg some howned.generation_eq.symm
  | dispatchTopics =>
    obtain ⟨granted, h, -⟩ := answer_eq_ok h
    obtain ⟨row, intent, howned, ⟨-, rfl⟩ | ⟨-, hunissued, rfl⟩⟩ := dispatchTopics_eq_ok h
    · exact .refl
    · exact .advance howned.mem (PairIntent.advances_of_topicsDispatch howned.live
        (next_inflight_of_unissued hunissued)) rfl
  | reserveState stateId keyFingerprint storageBytes =>
    obtain ⟨granted, h, -⟩ := answer_eq_ok h
    obtain ⟨row, intent, howned, ⟨-, rfl⟩ | ⟨-, hnone, state, states, rfl, hcreator, hsandbox, -,
      hinsert, rfl⟩⟩ := reserveState_eq_ok h
    · exact .refl
    · exact .single (.anchor howned.mem howned.mem howned.live hnone hinsert hcreator hsandbox)
  | reserveStateVolume stateId =>
    obtain ⟨granted, h, -⟩ := answer_eq_ok h
    obtain ⟨row, intent, state, howned, hstate, -, hsandbox, ⟨-, rfl⟩ | ⟨-, hunissued, rfl⟩⟩ :=
      reserveStateVolume_eq_ok h
    · exact .refl
    · exact .single (.state hstate hstate (EgressState.advances_of_dispatch
        (next_inflight_of_unissued hunissued))
        (Or.inl ⟨row, howned.row_mem, (hsandbox.trans howned.sandbox).symm⟩))
  | bindState stateId role uid =>
    obtain ⟨row, intent, state, howned, hstate, hsandbox, huid, rfl⟩ :=
      bindState_eq_ok (silent_eq_ok h).1
    exact .single (.state hstate hstate (EgressState.advances_of_uid huid)
      (Or.inl ⟨row, howned.row_mem, (hsandbox.trans howned.sandbox).symm⟩))
  | recordStateVolumeRelease stateId evidence =>
    obtain ⟨state, hstate, rfl, hrelease, rfl⟩ :=
      recordStateVolumeRelease_eq_ok (silent_eq_ok h).1
    exact .single (.stateRelease hstate hrelease rfl)
  | reserveIpc role payload =>
    obtain ⟨granted, h, -⟩ := answer_eq_ok h
    obtain ⟨row, intent, howned, ⟨-, rfl⟩ | ⟨-, hnone, rfl⟩⟩ := reserveIpc_eq_ok h
    · exact .refl
    · exact .advance howned.mem (PairIntent.advances_of_ipcResources howned.live
        (hnone ▸ ⟨.issue, .refl _⟩) (hnone ▸ .of_none)
        (by unfold PairLedger.ipcRelease; rw [hnone]; exact .of_none)) rfl
  | bindIpc role uid =>
    obtain ⟨row, intent, entry, howned, hentry, huid, rfl⟩ := bindIpc_eq_ok (silent_eq_ok h).1
    have hquiet : row.Quiet (row.bindIpc role uid) := by
      cases role <;> exact ⟨rfl, rfl, rfl, rfl, rfl⟩
    refine Commits.move (.single (.quietRow howned.row_mem hquiet rfl)) fun later ↦ ?_
    exact .advance howned.mem howned.mem (PairIntent.advances_of_ipcResources howned.live
      (hentry ▸ advances_bound huid) (hentry ▸ .refl _)
      (by unfold PairLedger.ipcRelease; rw [hentry]; exact .refl _))
      fun role hunissued ↦ Or.inl hunissued
  | recordIpcRelease role evidence ready =>
    obtain ⟨row, intent, entry, howned, hentry, hrelease, rfl⟩ :=
      recordIpcRelease_eq_ok (silent_eq_ok h).1
    refine .advance howned.mem (PairIntent.advances_of_ipcResources howned.live
      (hentry ▸ .refl _) (hentry ▸ .refl _) ?_) rfl
    unfold PairLedger.ipcRelease
    rw [hentry]
    rcases hrelease with hnone | hsame
    · change WriteOnce entry.release _
      rw [hnone]
      exact .of_none
    · change WriteOnce entry.release _
      rw [hsame]
      exact .refl _
  | validateTransfer now =>
    obtain ⟨receipt, hreceipt, rfl, rfl⟩ := validateTransfer_eq_ok (silent_eq_ok h).1
    exact .single (.validate hreceipt rfl)

/-- An original write that returns advances its ledger. -/
theorem Settlement.commits {original : PairIntent} {settlement : Settlement} {operation : Operation}
    (h : settlement.transact db original = .ok after) : Commits db drawn operation after := by
  cases settlement with
  | control key =>
    obtain ⟨intent, hmem, hlive, hissued, rfl⟩ := settleControl_eq_ok h
    exact .advance hmem (PairIntent.advances_of_controlDispatch hlive
      (next_settled_of_issued hissued)) rfl
  | compute role =>
    obtain ⟨intent, hmem, hlive, hissued, rfl⟩ := settleCompute_eq_ok h
    exact .single (.advance hmem hmem (PairIntent.advances_of_computeDispatch hlive
      (next_settled_of_issued hissued)) fun other hother ↦
        Or.inl (computeDispatch_update hissued other hother))
  | relayKeys =>
    obtain ⟨intent, hmem, entry, hlive, hentry, rfl⟩ := settleRelayKeys_eq_ok h
    exact .advance hmem (PairIntent.advances_of_relayCustody hlive
      (hentry ▸ advances_settled entry) (hentry ▸ .refl _)) rfl
  | relayInput role =>
    obtain ⟨intent, hmem, entry, hlive, hentry, rfl⟩ := settleRelayInput_eq_ok h
    exact .advance hmem (PairIntent.advances_of_relayInputs hlive
      (hentry ▸ advances_settled entry) (hentry ▸ .refl _)) rfl
  | volume role =>
    obtain ⟨intent, hmem, entry, hlive, hentry, rfl⟩ := settleVolume_eq_ok h
    exact .advance hmem (PairIntent.advances_of_volumeResources hlive
      (hentry ▸ advances_settled entry.toIssued) (hentry ▸ .refl _)
      (by unfold PairLedger.volumeRelease; rw [hentry]; rfl)) rfl
  | ipc role =>
    obtain ⟨intent, hmem, entry, hlive, hentry, rfl⟩ := settleIpc_eq_ok h
    exact .advance hmem (PairIntent.advances_of_ipcResources hlive
      (hentry ▸ advances_settled entry.toIssued) (hentry ▸ .refl _)
      (by unfold PairLedger.ipcRelease; rw [hentry]; exact .refl _)) rfl
  | topics =>
    obtain ⟨intent, hmem, hlive, hissued, rfl⟩ := settleTopics_eq_ok h
    exact .advance hmem (PairIntent.advances_of_topicsDispatch hlive
      (next_settled_of_issued hissued)) rfl

/-- An original write to an egress state that returns. -/
theorem settleState_commits {original : EgressState} {role : StateRole} {operation : Operation}
    (h : settleState db original role = .ok after) : Commits db drawn operation after := by
  obtain ⟨state, hmem, hissued, hcreator, rfl⟩ := settleState_eq_ok h
  exact .single (.state hmem hmem (EgressState.advances_of_dispatch
    (next_settled_of_issued hissued)) (Or.inr hcreator))

end Ads.SandboxManager
