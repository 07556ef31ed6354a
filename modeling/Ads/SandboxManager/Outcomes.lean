import Ads.SandboxManager.Retirement

/-!
# Outcomes of transactions

What a transaction that ended in a value has found and done. Each lemma takes one transaction apart,
so that later proofs read its guards and its writes from the outcome, and never unfold it.
-/

set_option autoImplicit false
set_option relaxedAutoImplicit false

namespace Ads.SandboxManager

open Foundation Foundation.StateExcept Python

variable {db after : Database}

/-- A session that is locked with its disk. -/
theorem locked_eq_some {sessionId sandboxId : Uuid} {row : SandboxSession}
    {pvc : Option SessionPVC} (h : db.locked sessionId sandboxId = some (row, pvc)) :
    row ∈ db.sessions ∧ row.sessionId = sessionId ∧ row.sandboxId = sandboxId ∧
      db.pvcOf row = pvc := by
  unfold Database.locked at h
  split at h
  next found hfound =>
    obtain ⟨hmem, hkey⟩ := Table.find_eq_some_iff.mp hfound
    split_ifs at h with hsandbox
    · obtain ⟨rfl, hpvc⟩ := Prod.mk.inj (Option.some.inj h)
      exact ⟨hmem, hkey, hsandbox, hpvc⟩
  · cases h

/-- The disk of a session row is stored under its identifier. -/
theorem pvcOf_eq_some {row : SandboxSession} {pvc : SessionPVC} (h : db.pvcOf row = some pvc) :
    row.pvcId = some pvc.pvcId ∧ pvc ∈ db.pvcs := by
  obtain ⟨pvcId, hpvcId, hfind⟩ := Option.bind_eq_some_iff.mp h
  obtain ⟨hmem, hkey⟩ := Table.find_eq_some_iff.mp hfind
  exact ⟨hpvcId.trans (congrArg some hkey.symm), hmem⟩

/-! ### Insertions -/

theorem insertWork_eq_ok {work : CleanupWork} (h : db.insertWork work = .ok after) :
    ∃ works, db.works.insert work = some works ∧ after = { db with works := works } := by
  obtain ⟨works, hworks, h⟩ := except_bind_eq_ok.mp h
  exact ⟨works, require_eq_ok.mp hworks, (except_pure_eq_ok.mp h).symm⟩

theorem insertDisposal_eq_ok {disposal : PairDisposal} (h : db.insertDisposal disposal = .ok after) :
    (∀ other ∈ db.disposals.rows, other.workId ≠ disposal.workId) ∧
      ∃ disposals, db.disposals.insert disposal = some disposals ∧
        after = { db with disposals := disposals } := by
  obtain ⟨_, hfree, h⟩ := except_bind_eq_ok.mp h
  obtain ⟨disposals, hdisposals, h⟩ := except_bind_eq_ok.mp h
  refine ⟨fun other hother hsame ↦ failIf_eq_ok.mp hfree ⟨other, hother, hsame⟩, disposals,
    require_eq_ok.mp hdisposals, (except_pure_eq_ok.mp h).symm⟩

/-! ### Snapshots -/

/-- The snapshot of a generation that is not retired belongs to the one of its sandbox. -/
theorem pairSnapshot_none {sessionId sandboxId : Uuid} {snapshot : Option PairSnapshot}
    (h : pairSnapshot db sessionId sandboxId none = .ok snapshot)
    (hlive : db.liveIntent sandboxId = none) : snapshot = none := by
  unfold pairSnapshot at h
  simp only [hlive] at h
  exact (except_pure_eq_ok.mp h).symm

/-- The snapshot of one generation is of its ledger. -/
theorem pairSnapshot_some {intent : PairIntent} {snapshot : Option PairSnapshot}
    (hfind : db.intents.find intent.generation = some intent)
    (h : pairSnapshot db intent.sessionId intent.sandboxId (some intent.generation) = .ok snapshot) :
    ∃ captured, snapshot = some captured ∧ captured.toPairLedger = intent.toPairLedger := by
  unfold pairSnapshot at h
  simp only [hfind, Option.filter_some, decide_true, if_true] at h
  obtain ⟨_, -, h⟩ := except_bind_eq_ok.mp h
  split_ifs at h
  · obtain ⟨_, -, h⟩ := except_bind_eq_ok.mp h
    obtain ⟨persistent, -, h⟩ := except_bind_eq_ok.mp h
    exact ⟨_, (except_pure_eq_ok.mp h).symm, rfl⟩
  · obtain ⟨persistent, -, h⟩ := except_bind_eq_ok.mp h
    exact ⟨_, (except_pure_eq_ok.mp h).symm, rfl⟩

/-! ### Cleanup rows -/

/-- A transition stores a new cleanup with the snapshot of its pair. -/
theorem makeWork_eq_ok {workId : Uuid} {row : SandboxSession} {pvc : Option SessionPVC}
    {kind : WorkKind} {now timeout : Time} {targets : List Target} {work : CleanupWork}
    (h : makeWork db workId row pvc kind now timeout targets = .ok (work, after)) :
    ∃ snapshot, pairSnapshot db row.sessionId row.sandboxId none = .ok snapshot ∧
      work = newWork workId row pvc kind (now + timeout)
        (if snapshot = none then targets
          else targets.map (·.asPairPod row.sandboxId
            (snapshot.bind fun captured ↦ (captured.slot (.ipc .pod)).uid))) snapshot ∧
      ∃ works, db.works.insert work = some works ∧ after = { db with works := works } := by
  obtain ⟨snapshot, hsnapshot, h⟩ := except_bind_eq_ok.mp h
  obtain ⟨_, -, h⟩ := except_bind_eq_ok.mp h
  obtain ⟨_, -, h⟩ := except_bind_eq_ok.mp h
  obtain ⟨middle, hinsert, h⟩ := except_bind_eq_ok.mp h
  obtain ⟨hwork, hafter⟩ := Prod.mk.inj (except_pure_eq_ok.mp h)
  obtain ⟨works, hworks, rfl⟩ := insertWork_eq_ok hinsert
  exact ⟨snapshot, hsnapshot, hwork.symm, works, hwork ▸ hworks, hafter.symm⟩

/-! ### The retained generation -/

/-- A retained generation is offered when it is retired and neither transferred nor disposed of, and
the disk of the session is its workspace. -/
structure Available (db : Database) (row : SandboxSession) (saved : PairIntent)
    (state : EgressState) (pvc : SessionPVC) : Prop where
  latest : db.latestIntent row.sandboxId = some saved
  retired : saved.retiredAt ≠ none
  untransferred : ∀ transfer ∈ db.transfers, transfer.predecessor ≠ saved.generation
  undisposed : db.disposals.find saved.generation = none
  disk : db.pvcOf row = some pvc
  anchored : ∃ stateId, saved.egressStateId = some stateId ∧ db.states.find stateId = some state

theorem available_eq_ok {row : SandboxSession} {saved : PairIntent} {state : EgressState}
    {pvc : SessionPVC} (h : available db row = .ok (saved, state, pvc)) :
    Available db row saved state pvc := by
  obtain ⟨prior, hlatest, h⟩ := except_bind_eq_ok.mp h
  obtain ⟨_, hretired, h⟩ := except_bind_eq_ok.mp h
  obtain ⟨_, -, h⟩ := except_bind_eq_ok.mp h
  obtain ⟨_, -, h⟩ := except_bind_eq_ok.mp h
  obtain ⟨_, hfree, h⟩ := except_bind_eq_ok.mp h
  obtain ⟨old, -, h⟩ := except_bind_eq_ok.mp h
  obtain ⟨disk, hdisk, h⟩ := except_bind_eq_ok.mp h
  obtain ⟨_, -, h⟩ := except_bind_eq_ok.mp h
  obtain ⟨stateId, hstateId, h⟩ := except_bind_eq_ok.mp h
  obtain ⟨found, hstate, h⟩ := except_bind_eq_ok.mp h
  simp only [except_pure_eq_ok, Prod.mk.injEq] at h
  obtain ⟨rfl, rfl, rfl⟩ := h
  obtain ⟨huntransferred, hundisposed⟩ := not_or.mp (failIf_eq_ok.mp hfree)
  exact
    { latest := require_eq_ok.mp hlatest
      retired := failIf_eq_ok.mp hretired
      untransferred := fun transfer htransfer hsame ↦ huntransferred ⟨transfer, htransfer, hsame⟩
      undisposed := not_not.mp hundisposed
      disk := require_eq_ok.mp hdisk
      anchored := ⟨stateId, require_eq_ok.mp hstateId, require_eq_ok.mp hstate⟩ }

/-! ### Disposal -/

/-- The disposal of a retired generation begins with its receipt: nobody inherited the generation,
and a reap holds its workspace. -/
theorem beginDisposal_eq_ok {work : CleanupWork} {generation : Uuid} {now : Time}
    (h : beginDisposal db work generation now = .ok after) :
    ∃ intent workspace disposal disposals, db.intents.find generation = some intent ∧
      intent.retiredAt ≠ none ∧
      (∀ other ∈ db.intents, other.retainedFrom ≠ some generation) ∧
      intent.volumeResources .workspace = some workspace ∧
      (work.kind = .reap → ∃ pvc, work.pvcId.bind db.pvcs.find = some pvc ∧
        pvc.uid = workspace.uid) ∧
      disposal.generation = generation ∧ disposal.workId = work.workId ∧
      disposal.completedAt = none ∧
      db.disposals.insert disposal = some disposals ∧
      after = { db with disposals := disposals } := by
  obtain ⟨⟨intent, workspace⟩, hretained, h⟩ := except_bind_eq_ok.mp h
  obtain ⟨found, hfound, hretained⟩ := except_bind_eq_ok.mp hretained
  obtain ⟨_, hguard, hretained⟩ := except_bind_eq_ok.mp hretained
  obtain ⟨entry, hentry, hretained⟩ := except_bind_eq_ok.mp hretained
  obtain ⟨rfl, rfl⟩ := Prod.mk.inj (except_pure_eq_ok.mp hretained)
  obtain ⟨hretired, hguard⟩ := not_or.mp (failIf_eq_ok.mp hguard)
  obtain ⟨-, hheir⟩ := not_or.mp hguard
  have hfound := require_eq_ok.mp hfound
  have hkey : found.generation = generation := (Table.find_eq_some_iff.mp hfound).2
  obtain ⟨_, -, h⟩ := except_bind_eq_ok.mp h
  dsimp only at h
  have hinsert : ((work.kind = .reap → ∃ pvc, work.pvcId.bind db.pvcs.find = some pvc ∧
      pvc.uid = entry.uid)) ∧ db.insertDisposal
        { generation := found.generation
          workId := work.workId
          sessionId := found.sessionId
          sandboxId := found.sandboxId
          projectId := found.projectId
          pvcId := entry.payload.pvcId
          pvcUid := entry.uid
          createdAt := now
          completedAt := none } = .ok after := by
    split_ifs at h with horphan
    · obtain ⟨_, -, h⟩ := except_bind_eq_ok.mp h
      obtain ⟨_, -, h⟩ := except_bind_eq_ok.mp h
      exact ⟨fun hreap ↦ absurd (horphan.symm.trans hreap) (by decide), h⟩
    · obtain ⟨pvc, hpvc, h⟩ := except_bind_eq_ok.mp h
      obtain ⟨_, hsame, h⟩ := except_bind_eq_ok.mp h
      obtain ⟨-, hsame⟩ := not_or.mp (failIf_eq_ok.mp hsame)
      obtain ⟨-, hsame⟩ := not_or.mp hsame
      exact ⟨fun _ ↦ ⟨pvc, require_eq_ok.mp hpvc, not_not.mp hsame⟩, h⟩
  obtain ⟨hdisk, hinsert⟩ := hinsert
  obtain ⟨-, disposals, hdisposals, hafter⟩ := insertDisposal_eq_ok hinsert
  exact ⟨found, entry, _, disposals, hfound, hretired,
    fun other hother hfrom ↦ hheir ⟨other, hother, hfrom⟩, require_eq_ok.mp hentry, hdisk, hkey,
    rfl, rfl, hdisposals, hafter⟩

/-! ### Reap -/

/-- The disk under destruction. -/
def SessionPVC.destroying (pvc : SessionPVC) (now : Time) : SessionPVC :=
  { pvc with
    state := .destroying
    lastStateChange := advance pvc.lastStateChange now }

/-- The disk as the target of a reap, with the evidence that is stored on it. -/
def SessionPVC.reapTarget (pvc : SessionPVC) (pvcId : Uuid) : Target :=
  (target .persistentVolumeClaim (.session pvcId) pvc.uid false).withRelease
    (pvc.releaseEvidence.bind Target.release)

/-- A reap that stored a cleanup. -/
theorem reap_eq_ok {sessionId sandboxId pvcId workId : Uuid}
    {now inactivity detached timeout : Time} {result : Option CleanupWork}
    (h : reap db sessionId sandboxId pvcId workId now inactivity detached timeout =
      .ok (result, after)) :
    (result = none ∧ after = db) ∨
    ∃ work row pvc made middle, result = some work ∧
      db.locked sessionId sandboxId = some (row, some pvc) ∧
      Reapable row pvc pvcId now inactivity detached ∧
      makeWork (db.putPvc (pvc.destroying now)) workId row (pvc.destroying now) .reap now timeout
        [pvc.reapTarget pvcId] = .ok (made, middle) ∧
      withHistory middle made (db.history sandboxId) = .ok work ∧
      if db.history sandboxId = none then after = middle.putWork work
      else ∃ saved state disk, available db row = .ok (saved, state, disk) ∧
        beginDisposal (middle.putWork work) work saved.generation now = .ok after := by
  unfold reap at h
  split at h
  next row pvc hlocked =>
    split_ifs at h with hreapable
    · refine Or.inr ?_
      dsimp only at h
      by_cases hhistory : db.history sandboxId = none
      · rw [if_neg (not_not.mpr hhistory)] at h
        obtain ⟨_, hsaved, h⟩ := except_bind_eq_ok.mp h
        obtain rfl := except_pure_eq_ok.mp hsaved
        obtain ⟨⟨made, middle⟩, hmade, h⟩ := except_bind_eq_ok.mp h
        obtain ⟨work, hcarried, h⟩ := except_bind_eq_ok.mp h
        obtain ⟨rfl, rfl⟩ := Prod.mk.inj (except_pure_eq_ok.mp h)
        exact ⟨work, row, pvc, made, middle, rfl, hlocked, hreapable, hmade, hcarried,
          by rw [if_pos hhistory]⟩
      · rw [if_pos hhistory] at h
        obtain ⟨_, hsaved, h⟩ := except_bind_eq_ok.mp h
        obtain ⟨⟨saved, state, disk⟩, havailable, rfl⟩ := except_map_eq_ok.mp hsaved
        obtain ⟨⟨made, middle⟩, hmade, h⟩ := except_bind_eq_ok.mp h
        obtain ⟨work, hcarried, h⟩ := except_bind_eq_ok.mp h
        obtain ⟨final, hbegin, h⟩ := except_bind_eq_ok.mp h
        obtain ⟨rfl, rfl⟩ := Prod.mk.inj (except_pure_eq_ok.mp h)
        refine ⟨work, row, pvc, made, middle, rfl, hlocked, hreapable, hmade, hcarried, ?_⟩
        rw [if_neg hhistory]
        exact ⟨saved, state, disk, havailable, hbegin⟩
    · obtain ⟨rfl, rfl⟩ := Prod.mk.inj (except_pure_eq_ok.mp h)
      exact Or.inl ⟨rfl, rfl⟩
  · obtain ⟨rfl, rfl⟩ := Prod.mk.inj (except_pure_eq_ok.mp h)
    exact Or.inl ⟨rfl, rfl⟩

/-- The inventory that a reap gives to its cleanup, where a retired generation was met. -/
theorem withHistory_eq_ok {work carried : CleanupWork} {intent : PairIntent}
    (h : withHistory db work (some intent) = .ok carried) (hsnapshot : work.pairSnapshot = none)
    (hretired : intent.retiredAt ≠ none) :
    ∃ snapshot, pairSnapshot db intent.sessionId intent.sandboxId (some intent.generation) =
        .ok snapshot ∧
      carried = { work with
        pairSnapshot := snapshot
        targets := retiredTargets db intent work.targets } := by
  unfold withHistory at h
  rw [hsnapshot] at h
  dsimp only at h
  rw [if_pos hretired] at h
  obtain ⟨snapshot, hcaptured, h⟩ := except_bind_eq_ok.mp h
  exact ⟨snapshot, hcaptured, (except_pure_eq_ok.mp h).symm⟩

/-! ### The claim of a cleanup -/

/-- The snapshot that a cleanup is checked by is the one that it carries. -/
theorem cleanupPair_eq_ok {work : CleanupWork} {snapshot : PairSnapshot}
    (h : cleanupPair work = .ok snapshot) :
    work.pairSnapshot = some snapshot ∧ snapshot.sandboxId = work.sandboxId ∧
      (work.kind ≠ .orphan → some snapshot.sessionId = work.sessionId) := by
  obtain ⟨captured, hcaptured, h⟩ := except_bind_eq_ok.mp h
  obtain ⟨_, -, h⟩ := except_bind_eq_ok.mp h
  obtain ⟨_, -, h⟩ := except_bind_eq_ok.mp h
  obtain ⟨_, hscope, h⟩ := except_bind_eq_ok.mp h
  obtain rfl := except_pure_eq_ok.mp h
  obtain ⟨hsandbox, hscope⟩ := not_or.mp (failIf_eq_ok.mp hscope)
  obtain ⟨hsession, -⟩ := not_or.mp hscope
  exact ⟨require_eq_ok.mp hcaptured, not_not.mp hsandbox,
    fun hkind ↦ not_not.mp fun hne ↦ hsession ⟨hkind, hne⟩⟩

/-- A stored cleanup under an expected claim. -/
structure OwnedCleanup (db : Database) (expected work : CleanupWork) (snapshot : PairSnapshot)
    (now : Time) (recovery : Option RecoveryClaim) : Prop where
  captured : cleanupPair expected = .ok snapshot
  stored : db.works.find expected.workId = some work
  same : work.SameClaim expected
  claim : requireClaim db expected snapshot now recovery = .ok ()
  drained : work.kind = .idle → work.acknowledged = true

namespace OwnedCleanup

variable {expected work : CleanupWork} {snapshot : PairSnapshot} {now : Time}
  {recovery : Option RecoveryClaim}

theorem mem (howned : OwnedCleanup db expected work snapshot now recovery) : work ∈ db.works :=
  (Table.find_eq_some_iff.mp howned.stored).1

/-- But for its deadline and its acknowledgement the stored cleanup is the expected one. -/
theorem eq_expected (howned : OwnedCleanup db expected work snapshot now recovery) :
    { work with deadline := expected.deadline, acknowledged := expected.acknowledged } = expected :=
  howned.same

theorem kind_eq (howned : OwnedCleanup db expected work snapshot now recovery) :
    work.kind = expected.kind :=
  (congrArg CleanupWork.kind howned.eq_expected :)

theorem workId_eq (howned : OwnedCleanup db expected work snapshot now recovery) :
    work.workId = expected.workId :=
  (congrArg CleanupWork.workId howned.eq_expected :)

theorem snapshot_eq (howned : OwnedCleanup db expected work snapshot now recovery) :
    work.pairSnapshot = some snapshot :=
  (congrArg CleanupWork.pairSnapshot howned.eq_expected).trans (cleanupPair_eq_ok howned.captured).1

end OwnedCleanup

/-- A cleanup is owned: an orphan without a pair by its kind, any other by its claim. -/
theorem ownedPairCleanup_eq_ok {expected work : CleanupWork} {now : Time}
    {recovery : Option RecoveryClaim} (h : ownedPairCleanup db expected now recovery = .ok work) :
    (expected.kind = .orphan ∧ expected.pairSnapshot = none ∧ work = expected) ∨
      ∃ snapshot, OwnedCleanup db expected work snapshot now recovery := by
  obtain ⟨_, -, h⟩ := except_bind_eq_ok.mp h
  obtain ⟨_, -, h⟩ := except_bind_eq_ok.mp h
  split_ifs at h with horphan
  · exact Or.inl ⟨horphan.1, horphan.2, (except_pure_eq_ok.mp h).symm⟩
  · obtain ⟨snapshot, hsnapshot, h⟩ := except_bind_eq_ok.mp h
    obtain ⟨⟨⟩, hclaim, h⟩ := except_bind_eq_ok.mp h
    obtain ⟨stored, hstored, h⟩ := except_bind_eq_ok.mp h
    obtain ⟨_, hguard, h⟩ := except_bind_eq_ok.mp h
    obtain ⟨_, -, h⟩ := except_bind_eq_ok.mp h
    obtain ⟨_, -, h⟩ := except_bind_eq_ok.mp h
    obtain rfl := except_pure_eq_ok.mp h
    obtain ⟨hsame, hguard⟩ := not_or.mp (failIf_eq_ok.mp hguard)
    obtain ⟨-, hdrained⟩ := not_or.mp hguard
    exact Or.inr ⟨snapshot, hsnapshot, require_eq_ok.mp hstored, not_not.mp hsame, hclaim,
      fun hidle ↦ Bool.eq_true_of_not_eq_false fun hfalse ↦ hdrained ⟨hidle, hfalse⟩⟩

/-! ### The fence -/

/-- The ledger of a generation with its creators fenced. -/
def PairIntent.fenced (intent : PairIntent) : PairIntent :=
  { intent with creationFenced := true }

/-- What is checked before the creators of a generation are fenced. -/
structure Fenceable (db : Database) (snapshot : PairSnapshot) (intent : PairIntent) : Prop where
  found : db.intents.find snapshot.generation = some intent
  live : intent.retiredAt = none
  binding : intent.binding = snapshot.binding
  topics : Dispatch.Follows snapshot.topicsDispatch intent.topicsDispatch
  volumes : ∀ role, (snapshot.slot (.volume role)).Follows (intent.slot (.volume role))
  ipc : ∀ role, (snapshot.slot (.ipc role)).Follows (intent.slot (.ipc role))
  state : requireCapturedState db intent snapshot = .ok ()
  payloads : snapshot.SamePayloads intent.toPairLedger

theorem fencePairCreators_eq_ok {work : CleanupWork} {fenced : PairIntent}
    (h : fencePairCreators db work = .ok (fenced, after)) :
    ∃ snapshot intent, cleanupPair work = .ok snapshot ∧ Fenceable db snapshot intent ∧
      fenced = intent.fenced ∧ after = db.putIntent intent.fenced := by
  obtain ⟨snapshot, hsnapshot, h⟩ := except_bind_eq_ok.mp h
  obtain ⟨intent, hintent, h⟩ := except_bind_eq_ok.mp h
  obtain ⟨_, hidentity, h⟩ := except_bind_eq_ok.mp h
  obtain ⟨_, htopics, h⟩ := except_bind_eq_ok.mp h
  obtain ⟨_, hvolumes, h⟩ := except_bind_eq_ok.mp h
  obtain ⟨_, hipc, h⟩ := except_bind_eq_ok.mp h
  obtain ⟨⟨⟩, hstate, h⟩ := except_bind_eq_ok.mp h
  obtain ⟨_, hpayloads, h⟩ := except_bind_eq_ok.mp h
  obtain ⟨hfenced, hafter⟩ := Prod.mk.inj (except_pure_eq_ok.mp h)
  obtain ⟨hlive, hidentity⟩ := not_or.mp (failIf_eq_ok.mp hidentity)
  obtain ⟨hbinding, -⟩ := not_or.mp hidentity
  exact ⟨snapshot, intent, hsnapshot,
    { found := require_eq_ok.mp hintent
      live := not_not.mp hlive
      binding := not_not.mp hbinding
      topics := not_not.mp (failIf_eq_ok.mp htopics)
      volumes := not_not.mp (failIf_eq_ok.mp hvolumes)
      ipc := not_not.mp (failIf_eq_ok.mp hipc)
      state := hstate
      payloads := not_not.mp (failIf_eq_ok.mp hpayloads) }, hfenced.symm, hafter.symm⟩

/-! ### Settled writers -/

/-- Every original writer of a generation has settled under its capture. -/
structure WritersSettled (db : Database) (snapshot : PairSnapshot) (intent : PairIntent) :
    Prop where
  fenceable : Fenceable db snapshot intent
  follows : ∀ key, (snapshot.slot key).Follows (intent.slot key)
  resolved : ∀ key, (snapshot.slot key).Resolved (intent.slot key)
  topics : intent.topicsDispatch ≠ .inflight
  state : stateResolved (intent.egressStateId.bind db.states.find) snapshot.egressState = true

/-- Writers that are judged to be settled are settled, and the creators are fenced. -/
theorem pairWritersSettled_eq_ok {expected : CleanupWork} {now : Time}
    {recovery : Option RecoveryClaim} {settled : Bool}
    (h : pairWritersSettled db expected now recovery = .ok (settled, after)) :
    ∃ work snapshot intent, OwnedCleanup db expected work snapshot now recovery ∧
      Fenceable db snapshot intent ∧ after = db.putIntent intent.fenced ∧
      (settled = true → WritersSettled db snapshot intent) := by
  obtain ⟨work, howned, h⟩ := except_bind_eq_ok.mp h
  obtain ⟨⟨fenced, middle⟩, hfence, h⟩ := except_bind_eq_ok.mp h
  obtain ⟨snapshot, hsnapshot, h⟩ := except_bind_eq_ok.mp h
  obtain ⟨captured, intent, hcaptured, hfenceable, rfl, rfl⟩ := fencePairCreators_eq_ok hfence
  have hsame : captured = snapshot := Option.some.inj
    ((cleanupPair_eq_ok hcaptured).1.symm.trans (require_eq_ok.mp hsnapshot))
  rw [hsame] at hcaptured hfenceable
  have hclaim : OwnedCleanup db expected work snapshot now recovery := by
    rcases ownedPairCleanup_eq_ok howned with ⟨-, hnone, rfl⟩ | ⟨found, hfound⟩
    · exact absurd (hnone.symm.trans (require_eq_ok.mp hsnapshot)) (Option.some_ne_none _).symm
    · have hfound' : found = snapshot := Option.some.inj
        (hfound.snapshot_eq.symm.trans (require_eq_ok.mp hsnapshot))
      exact hfound' ▸ hfound
  refine ⟨work, snapshot, intent, hclaim, hfenceable, ?_⟩
  dsimp only at h
  split_ifs at h with hdrift
  · obtain ⟨_, hinputs, h⟩ := except_bind_eq_ok.mp h
    obtain ⟨_, hcustody, h⟩ := except_bind_eq_ok.mp h
    obtain ⟨rfl, rfl⟩ := Prod.mk.inj (except_pure_eq_ok.mp h)
    refine ⟨rfl, fun hsettled ↦ ?_⟩
    simp only [Bool.and_eq_true, decide_eq_true_eq] at hsettled
    obtain ⟨⟨htopics, hresolved⟩, hstate⟩ := hsettled
    obtain ⟨hcontrol, hcompute⟩ := hdrift
    refine ⟨hfenceable, fun key ↦ ?_, hresolved, htopics, hstate⟩
    cases key with
    | control key => exact hcontrol key
    | compute role => exact hcompute role
    | custody => exact not_not.mp (failIf_eq_ok.mp hcustody)
    | relayInput role => exact not_not.mp (failIf_eq_ok.mp hinputs) role
    | volume role => exact hfenceable.volumes role
    | ipc role => exact hfenceable.ipc role
  · obtain ⟨rfl, rfl⟩ := Prod.mk.inj (except_pure_eq_ok.mp h)
    exact ⟨rfl, fun hsettled ↦ absurd hsettled Bool.false_ne_true⟩

end Ads.SandboxManager
