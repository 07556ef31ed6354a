import Ads.SandboxManager.Outcomes

/-!
# The generation that a reap disposes of

A reap looks the generation of its sandbox up twice. The receipt of the disposal is made for the
latest generation by its claim (`available`); the snapshot and the targets of the cleanup are taken
from the first generation that a scan meets (`Database.history`). Where every generation of the
sandbox is retired, the cleanup carries the generation that it disposes of exactly when the two are
the same (`reap_disposes_iff`).
-/

set_option autoImplicit false
set_option relaxedAutoImplicit false

namespace Ads.SandboxManager

open Foundation Foundation.StateExcept Python

/-- A UID that is recorded of a resource of a generation, its egress state included. -/
def PairIntent.Holds (intent : PairIntent) (db : Database) (uid : Uid) : Prop :=
  (∃ key, (intent.slot key).uid = some uid) ∨
    ∃ state ∈ db.states, intent.egressStateId = some state.stateId ∧
      ∃ role, state.uid role = some uid

/-- A list of targets names a UID. -/
def Names (targets : List Target) (uid : Uid) : Prop :=
  ∃ object ∈ targets, object.uid = some uid

/-- A cleanup carries a generation: its snapshot is of that ledger, and its targets are the
resources of that generation and no others. -/
structure CleanupWork.DisposesOf (work : CleanupWork) (db : Database) (intent : PairIntent) :
    Prop where
  snapshot : ∃ captured, work.pairSnapshot = some captured ∧
    captured.toPairLedger = intent.toPairLedger
  targets : ∀ uid, Names work.targets uid ↔ intent.Holds db uid

/-! ### The UIDs of target lists -/

section Names

variable {uid : Uid}

@[simp] theorem names_nil : ¬ Names [] uid :=
  fun ⟨_, hmem, _⟩ ↦ List.not_mem_nil hmem

@[simp] theorem names_cons {object : Target} {rest : List Target} :
    Names (object :: rest) uid ↔ object.uid = some uid ∨ Names rest uid :=
  List.exists_mem_cons_iff _ _ _

@[simp] theorem names_append {first second : List Target} :
    Names (first ++ second) uid ↔ Names first uid ∨ Names second uid := by
  unfold Names
  simp only [List.mem_append, or_and_right, exists_or]

/-- One list for every member of a family. -/
theorem names_flatMap {ι : Type} {family : List ι} {targets : ι → List Target} :
    Names (family.flatMap targets) uid ↔ ∃ member ∈ family, Names (targets member) uid := by
  unfold Names
  constructor
  · rintro ⟨object, hobject, huid⟩
    obtain ⟨member, hmember, htarget⟩ := List.mem_flatMap.mp hobject
    exact ⟨member, hmember, object, htarget, huid⟩
  · rintro ⟨member, hmember, object, htarget, huid⟩
    exact ⟨object, List.mem_flatMap.mpr ⟨member, hmember, htarget⟩, huid⟩

/-- A target for a UID, if there is one. -/
theorem names_observed {recorded : Option Uid} {make : Uid → Target}
    (hmake : ∀ observed, (make observed).uid = some observed) :
    Names (recorded.toList.map make) uid ↔ recorded = some uid := by
  cases recorded with
  | none => exact iff_of_false names_nil (Option.some_ne_none _).symm
  | some observed =>
    rw [Option.toList_some, List.map_singleton, names_cons, hmake]
    exact or_iff_left names_nil

variable (ledger : PairLedger)

theorem names_ipcPodTarget :
    ledger.ipcPodTarget.uid = some uid ↔ (ledger.slot (.ipc .pod)).uid = some uid :=
  Iff.rfl

theorem names_ipcVolumeTarget :
    ledger.ipcVolumeTarget.uid = some uid ↔ (ledger.slot (.ipc .volume)).uid = some uid :=
  Iff.rfl

theorem names_computeTargets :
    Names ledger.computeTargets uid ↔ ∃ role, (ledger.slot (.compute role)).uid = some uid := by
  unfold PairLedger.computeTargets
  rw [names_flatMap]
  exact exists_congr fun role ↦
    (and_iff_right (by cases role <;> decide)).trans (names_observed fun _ ↦ rfl)

theorem names_controlTargets :
    Names ledger.controlTargets uid ↔ ∃ key, (ledger.slot (.control key)).uid = some uid := by
  unfold PairLedger.controlTargets
  rw [names_flatMap]
  exact exists_congr fun key ↦
    (and_iff_right (by cases key <;> decide)).trans (names_observed fun _ ↦ rfl)

theorem names_relayInputTargets :
    Names ledger.relayInputTargets uid ↔
      ∃ role, (ledger.slot (.relayInput role)).uid = some uid := by
  unfold PairLedger.relayInputTargets
  rw [names_flatMap]
  exact exists_congr fun role ↦
    (and_iff_right (by cases role <;> decide)).trans (names_observed fun _ ↦ rfl)

theorem names_custodyTargets :
    Names ledger.custodyTargets uid ↔ (ledger.slot .custody).uid = some uid :=
  names_observed fun _ ↦ rfl

theorem names_cloneTargets :
    Names ledger.cloneTargets uid ↔
      ∃ consumer, (ledger.slot (.volume (.clone consumer))).uid = some uid := by
  unfold PairLedger.cloneTargets
  rw [names_flatMap]
  refine exists_congr fun consumer ↦ (and_iff_right (by cases consumer <;> decide)).trans ?_
  change _ ↔ (IssuedVolume.slot (ledger.volumeResources (.clone consumer))).uid = some uid
  cases ledger.volumeResources (.clone consumer) with
  | none => exact iff_of_false names_nil (Option.some_ne_none _).symm
  | some entry =>
    rw [Option.toList_some, List.flatMap_singleton]
    exact names_observed fun _ ↦ rfl

/-- The targets of the egress state of a generation. -/
theorem names_stateTargets {db : Database} {stateId : Uuid} :
    Names ((db.states.find stateId).toList.flatMap fun state ↦
        [state.target .key, state.target .volume]) uid ↔
      ∃ state ∈ db.states, stateId = state.stateId ∧ ∃ role, state.uid role = some uid := by
  rw [names_flatMap]
  constructor
  · rintro ⟨state, hstate, hnames⟩
    obtain ⟨hmem, hkey⟩ := Table.find_eq_some_iff.mp (Option.mem_toList.mp hstate)
    rw [names_cons, names_cons] at hnames
    rcases hnames with hkeyUid | hvolumeUid | hnone
    · exact ⟨state, hmem, hkey.symm, .key, hkeyUid⟩
    · exact ⟨state, hmem, hkey.symm, .volume, hvolumeUid⟩
    · exact absurd hnone names_nil
  · rintro ⟨state, hmem, hkey, role, huid⟩
    refine ⟨state, Option.mem_toList.mpr (Table.find_eq_some_iff.mpr ⟨hmem, hkey.symm⟩), ?_⟩
    rw [names_cons, names_cons]
    cases role with
    | key => exact Or.inl huid
    | volume => exact Or.inr (Or.inl huid)

end Names

/-- What the targets of a retired generation name, beside what is kept: all that the generation
holds but its workspace. -/
theorem names_retiredTargets {db : Database} {intent : PairIntent} {keep : List Target} {uid : Uid}
    (hanchor : intent.egressStateId ≠ none)
    (hkeep : Names keep uid ↔ (intent.slot (.volume .workspace)).uid = some uid) :
    Names (retiredTargets db intent keep) uid ↔ intent.Holds db uid := by
  obtain ⟨stateId, hstateId⟩ := Option.ne_none_iff_exists'.mp hanchor
  unfold retiredTargets
  rw [if_neg hanchor, hstateId, Option.bind_some]
  simp only [names_append, names_cons, names_nil, or_false, names_ipcPodTarget,
    names_ipcVolumeTarget, names_computeTargets, names_controlTargets, names_cloneTargets,
    names_relayInputTargets, names_custodyTargets, names_stateTargets, hkeep]
  unfold PairIntent.Holds
  simp only [hstateId, Option.some.injEq]
  constructor
  · rintro ((((((((hpod | ⟨role, hrole⟩) | ⟨key, hkey⟩) | hvolume) | ⟨consumer, hclone⟩) |
      ⟨role, hinput⟩) | hstate | hcustody) | hworkspace))
    · exact Or.inl ⟨_, hpod⟩
    · exact Or.inl ⟨_, hrole⟩
    · exact Or.inl ⟨_, hkey⟩
    · exact Or.inl ⟨_, hvolume⟩
    · exact Or.inl ⟨_, hclone⟩
    · exact Or.inl ⟨_, hinput⟩
    · exact Or.inr hstate
    · exact Or.inl ⟨_, hcustody⟩
    · exact Or.inl ⟨_, hworkspace⟩
  · rintro (⟨key, hkey⟩ | hstate)
    · cases key with
      | control key => exact Or.inl (Or.inl (Or.inl (Or.inl (Or.inl (Or.inr ⟨key, hkey⟩)))))
      | compute role =>
        exact Or.inl (Or.inl (Or.inl (Or.inl (Or.inl (Or.inl (Or.inr ⟨role, hkey⟩))))))
      | custody => exact Or.inl (Or.inr (Or.inr hkey))
      | relayInput role => exact Or.inl (Or.inl (Or.inr ⟨role, hkey⟩))
      | volume role =>
        cases role with
        | workspace => exact Or.inr hkey
        | clone consumer => exact Or.inl (Or.inl (Or.inl (Or.inr ⟨consumer, hkey⟩)))
      | ipc role =>
        cases role with
        | volume => exact Or.inl (Or.inl (Or.inl (Or.inl (Or.inr hkey))))
        | pod => exact Or.inl (Or.inl (Or.inl (Or.inl (Or.inl (Or.inl (Or.inl hkey))))))
    · exact Or.inl (Or.inr (Or.inl hstate))

/-! ### Two lookups of one generation -/

/-- A fold that keeps what it has or takes the next item ends with an item or with its start. -/
theorem mem_of_foldl {α : Type} {step : Option α → α → Option α}
    (hstep : ∀ best item, step best item = best ∨ step best item = some item) {items : List α}
    {start : Option α} {last : α} (hfold : items.foldl step start = some last) :
    last ∈ items ∨ start = some last := by
  induction items generalizing start with
  | nil => exact Or.inr hfold
  | cons item rest ih =>
    rcases ih hfold with hrest | hnext
    · exact Or.inl (List.mem_cons_of_mem _ hrest)
    · rcases hstep start item with hkept | htaken
      · exact Or.inr (hkept.symm.trans hnext)
      · exact Or.inl (Option.some.inj (htaken.symm.trans hnext) ▸ List.mem_cons_self)

/-- The latest generation of a sandbox is one of its generations. -/
theorem latestIntent_mem {db : Database} {sandboxId : Uuid} {latest : PairIntent}
    (h : db.latestIntent sandboxId = some latest) :
    latest ∈ db.intents ∧ latest.sandboxId = sandboxId := by
  unfold Database.latestIntent at h
  have hlast := mem_of_foldl (fun best intent ↦ ?_) h
  · rcases hlast with hmem | hnone
    · obtain ⟨hmem, hsandbox⟩ := List.mem_filter.mp hmem
      exact ⟨hmem, of_decide_eq_true hsandbox⟩
    · cases hnone
  · cases best with
    | none => exact Or.inr rfl
    | some best =>
      dsimp only
      split_ifs
      · exact Or.inr rfl
      · exact Or.inl rfl

theorem history_mem {db : Database} {sandboxId : Uuid} {first : PairIntent}
    (h : db.history sandboxId = some first) :
    first ∈ db.intents ∧ first.sandboxId = sandboxId :=
  ⟨List.mem_of_find?_eq_some h, by simpa using List.find?_some h⟩

/-- A sandbox whose generations are retired has none that is not. -/
theorem liveIntent_eq_none {db : Database} {sandboxId : Uuid}
    (hretired : ∀ intent ∈ db.intents, intent.sandboxId = sandboxId → intent.retiredAt ≠ none) :
    db.liveIntent sandboxId = none := by
  refine List.find?_eq_none.mpr fun intent hintent hlive ↦ ?_
  obtain ⟨hsandbox, hnone⟩ := of_decide_eq_true hlive
  exact hretired intent hintent hsandbox hnone

/-- What a reap with a generation has stored: the cleanup with the inventory of the first generation
in the order of the table, and the receipt of the latest. -/
theorem reap_stores {db after : Database} {sessionId sandboxId pvcId workId : Uuid}
    {now inactivity detached timeout : Time} {work : CleanupWork}
    (hretired : ∀ intent ∈ db.intents, intent.sandboxId = sandboxId → intent.retiredAt ≠ none)
    (h : reap db sessionId sandboxId pvcId workId now inactivity detached timeout =
      .ok (some work, after)) {disposal : PairDisposal} (hbegun : disposal ∈ after.disposals)
    (hnew : disposal ∉ db.disposals) :
    ∃ first saved keep, db.history sandboxId = some first ∧
      db.latestIntent sandboxId = some saved ∧ saved.egressStateId ≠ none ∧
      disposal.generation = saved.generation ∧
      (∃ captured, work.pairSnapshot = some captured ∧
        captured.toPairLedger = first.toPairLedger) ∧
      work.targets = retiredTargets db first keep ∧
      ∀ uid, Names keep uid ↔ (saved.slot (.volume .workspace)).uid = some uid := by
  rcases reap_eq_ok h with ⟨hnone, -⟩ | ⟨made, row, pvc, stored, middle, hmade, hlocked, -, hwork,
    hcarried, hafter⟩
  · cases hnone
  obtain rfl := Option.some.inj hmade
  obtain ⟨-, -, hsandbox, hdisk⟩ := locked_eq_some hlocked
  obtain ⟨snapshot, hsnapshot, rfl, works, -, rfl⟩ := makeWork_eq_ok hwork
  have hlive : (db.putPvc (pvc.destroying now)).liveIntent row.sandboxId = none :=
    liveIntent_eq_none (hsandbox.symm ▸ hretired)
  obtain rfl := pairSnapshot_none hsnapshot hlive
  cases hhistory : db.history sandboxId with
  | none =>
    rw [if_pos hhistory] at hafter
    rw [hafter] at hbegun
    exact absurd hbegun hnew
  | some first =>
    obtain ⟨hfirst, hfirstSandbox⟩ := history_mem hhistory
    rw [hhistory] at hcarried hafter
    rw [if_neg (Option.some_ne_none first)] at hafter
    obtain ⟨saved, state, disk, havailable, hbegin⟩ := hafter
    have hoffer := available_eq_ok havailable
    obtain ⟨stateId, hanchor, -⟩ := hoffer.anchored
    obtain ⟨carried, hcaptured, rfl⟩ :=
      withHistory_eq_ok hcarried rfl (hretired first hfirst hfirstSandbox)
    obtain ⟨captured, rfl, hledger⟩ := pairSnapshot_some (Table.find_key hfirst) hcaptured
    obtain ⟨intent, workspace, receipt, disposals, hintent, -, -, hworkspace, hkept, hgeneration, -,
      -, hdisposals, rfl⟩ := beginDisposal_eq_ok hbegin
    have hreceipt : disposal = receipt :=
      (((Table.mem_insert hdisposals).1 disposal).mp hbegun).resolve_right hnew
    have hsaved : intent = saved := by
      have hmem := (latestIntent_mem hoffer.latest).1
      exact Option.some.inj (hintent.symm.trans (Table.find_key hmem))
    refine ⟨first, saved, [pvc.reapTarget pvcId], rfl, hsandbox ▸ hoffer.latest,
      hanchor ▸ Option.some_ne_none stateId, hreceipt ▸ hgeneration, ⟨captured, rfl, hledger⟩, rfl,
      fun uid ↦ ?_⟩
    obtain ⟨found, hfound, huid⟩ := hkept rfl
    have hpvc : found = pvc.destroying now := by
      have hput : ((db.putPvc (pvc.destroying now)).pvcs).find pvc.pvcId =
          some (pvc.destroying now) := by
        refine Table.find_eq_some_iff.mpr ⟨Table.mem_put.mpr (Or.inl ⟨rfl, pvc, ?_, rfl⟩), rfl⟩
        exact (pvcOf_eq_some hdisk).2
      exact Option.some.inj (hfound.symm.trans hput)
    rw [hpvc] at huid
    have hslot : (saved.slot (.volume .workspace)).uid = workspace.uid := by
      change (IssuedVolume.slot (saved.volumeResources .workspace)).uid = _
      rw [← hsaved, hworkspace]
      rfl
    rw [names_cons, hslot, ← huid]
    exact or_iff_left names_nil

/-- A cleanup that carries the latest generation carries the first one. -/
theorem history_eq_of_disposesOf {db : Database} {sandboxId : Uuid} {work : CleanupWork}
    {first saved : PairIntent} {captured : PairSnapshot}
    (hhistory : db.history sandboxId = some first) (hlatest : db.latestIntent sandboxId = some saved)
    (hcaptured : work.pairSnapshot = some captured)
    (hledger : captured.toPairLedger = first.toPairLedger) (hdisposes : work.DisposesOf db saved) :
    first = saved := by
  obtain ⟨snapshot, hsnapshot, hsame⟩ := hdisposes.snapshot
  have hledgers : first.toPairLedger = saved.toPairLedger := by
    rw [← hledger, ← hsame]
    exact congrArg PairSnapshot.toPairLedger (Option.some.inj (hcaptured.symm.trans hsnapshot))
  exact Table.eq_of_key_eq (history_mem hhistory).1 (latestIntent_mem hlatest).1
    (congrArg PairLedger.generation hledgers)

/-- A reap that stored a cleanup where the sandbox has a generation begins a disposal. -/
theorem reap_begins {db after : Database} {sessionId sandboxId pvcId workId : Uuid}
    {now inactivity detached timeout : Time} {work : CleanupWork}
    (h : reap db sessionId sandboxId pvcId workId now inactivity detached timeout =
      .ok (some work, after)) (hhistory : db.history sandboxId ≠ none) :
    ∃ disposal ∈ after.disposals, disposal ∉ db.disposals := by
  rcases reap_eq_ok h with ⟨hnone, -⟩ | ⟨made, row, pvc, stored, middle, hmade, -, -, hwork, -,
    hafter⟩
  · cases hnone
  rw [if_neg hhistory] at hafter
  obtain ⟨saved, state, disk, -, hbegin⟩ := hafter
  obtain ⟨snapshot, -, -, works, -, rfl⟩ := makeWork_eq_ok hwork
  obtain ⟨-, -, receipt, disposals, -, -, -, -, -, -, -, -, hdisposals, rfl⟩ :=
    beginDisposal_eq_ok hbegin
  obtain ⟨hmem, hfree⟩ := Table.mem_insert hdisposals
  exact ⟨receipt, (hmem receipt).mpr (Or.inl rfl), fun hold ↦ hfree receipt hold rfl⟩

/-- A reap carries the generation that it disposes of, exactly when the first generation of the
sandbox in the order of the table is the latest by its claim. -/
theorem reap_disposes_iff {db after : Database} {sessionId sandboxId pvcId workId : Uuid}
    {now inactivity detached timeout : Time} {work : CleanupWork}
    (hretired : ∀ intent ∈ db.intents, intent.sandboxId = sandboxId → intent.retiredAt ≠ none)
    (h : reap db sessionId sandboxId pvcId workId now inactivity detached timeout =
      .ok (some work, after)) {disposal : PairDisposal} (hbegun : disposal ∈ after.disposals)
    (hnew : disposal ∉ db.disposals) :
    (∃ saved, db.latestIntent sandboxId = some saved ∧ disposal.generation = saved.generation ∧
      work.DisposesOf db saved) ↔ db.history sandboxId = db.latestIntent sandboxId := by
  obtain ⟨first, saved, keep, hhistory, hlatest, hanchor, hgeneration, ⟨captured, hcaptured,
    hledger⟩, htargets, hkeep⟩ := reap_stores hretired h hbegun hnew
  rw [hhistory, hlatest]
  constructor
  · rintro ⟨found, hfound, -, hdisposes⟩
    obtain rfl := Option.some.inj hfound
    exact congrArg some (history_eq_of_disposesOf hhistory hlatest hcaptured hledger hdisposes)
  · intro hfirst
    obtain rfl := Option.some.inj hfirst
    refine ⟨first, rfl, hgeneration, ⟨captured, hcaptured, hledger⟩, fun uid ↦ ?_⟩
    rw [htargets]
    exact names_retiredTargets hanchor (hkeep uid)

/-! ### Two generations of one sandbox -/

namespace Specimen

/-- A UID of one letter. -/
def label (letter : Char) (hletter : isSpace letter = false) : Label :=
  ⟨[letter], letter, List.mem_singleton.mpr rfl, hletter⟩

/-- The UID of the workspace, and of all that the two generations share. -/
def shared : Uid :=
  label 's' (by decide)

def row : SandboxSession :=
  { sessionId := 1
    sandboxId := 2
    projectId := 3
    status := .stopped
    goldenVersion := ['g']
    pvcUid := some shared
    pvcId := some 5
    serviceDeadline := none
    guestDeploymentUid := none
    ipcDeploymentUid := none
    ipcPodUid := none
    ipcPvcUid := none
    caAttempt := none
    caSources := none
    caClones := none
    claimedBy := none
    statusChangedAt := 90
    lastExecutionAt := 70 }

def pvc : SessionPVC :=
  { pvcId := 5
    sessionId := 1
    sandboxId := 2
    uid := some shared
    releaseEvidence := none
    state := .detached
    lastExecution := 70
    lastStateChange := 90 }

def state : EgressState :=
  { stateId := 7
    sessionId := 1
    sandboxId := 2
    projectId := 3
    creatorGeneration := 6
    claimOwner := 4
    claimChanged := 10
    namespaceName := ['n']
    storageBytes := 1
    keyFingerprint := List.replicate 64 'a'
    dispatch := fun _ ↦ .settled
    uid := fun _ ↦ some shared
    volumeRelease := none }

/-- The workspace, created under a claim of the session. -/
def workspace (pvcChanged : Time) : IssuedVolume VolumePayload :=
  ⟨⟨⟨5, pvcChanged, .workspace ⟨shared, shared, 20, 1⟩, []⟩, some shared, true⟩, none⟩

/-- A retired generation with the UID of its guest Pod. -/
def retired (generation owner : Uuid) (claimChanged retiredAt : Time) (guest : Uid)
    (predecessor : Option Uuid) : PairIntent :=
  { newIntent { row with statusChangedAt := claimChanged } owner generation ['n'] ['g'] with
    computeDispatch := Function.update (fun _ ↦ .unissued) .guest .settled
    computeUids := Function.update (fun _ ↦ none) .guest (some guest)
    egressStateId := some 7
    volumeResources := Function.update (fun _ ↦ none) .workspace (some (workspace claimChanged))
    topicsDispatch := .settled
    retainedFrom := predecessor
    creationFenced := true
    retiredAt := some retiredAt }

/-- The generation that created the workspace, and the one that inherited it. -/
def creator : PairIntent :=
  retired 6 4 10 50 (label 'c' (by decide)) none

def heir : PairIntent :=
  retired 9 8 60 90 (label 'h' (by decide)) (some 6)

def transfer : PairTransfer :=
  { generation := 9
    predecessor := 6
    sessionId := 1
    sandboxId := 2
    projectId := 3
    claimOwner := 8
    claimChanged := 60
    state := state
    workspace := workspace 60
    validatedAt := some 61 }

/-- The database with the two generations in one of the two orders. -/
def database (intents : Table PairIntent.key) : Database :=
  { sessions := ⟨[row], by decide⟩
    pvcs := ⟨[pvc], by decide⟩
    intents := intents
    states := ⟨[state], by decide⟩
    works := .empty
    transfers := ⟨[transfer], by decide⟩
    disposals := .empty }

/-- A scan meets the generations in the order of their claims. -/
def oldestFirst : Database :=
  database ⟨[creator, heir], by decide⟩

/-- A scan meets the latest generation first. -/
def latestFirst : Database :=
  database ⟨[heir, creator], by decide⟩

end Specimen

open Specimen in
theorem reap_disposes_iff_example :
    ∃ work after disposal, reap latestFirst 1 2 5 11 1000 100 100 100 = .ok (some work, after) ∧
      disposal ∈ after.disposals ∧ disposal ∉ latestFirst.disposals ∧
      ((∃ saved, latestFirst.latestIntent 2 = some saved ∧ disposal.generation = saved.generation ∧
        work.DisposesOf latestFirst saved) ↔
          latestFirst.history 2 = latestFirst.latestIntent 2) := by
  obtain ⟨⟨result, after⟩, hreap, hsome⟩ := exists_of_yields
    (show yields (reap latestFirst 1 2 5 11 1000 100 100 100) (·.1.isSome) = true by decide +kernel)
  obtain ⟨work, rfl⟩ := Option.isSome_iff_exists.mp hsome
  obtain ⟨disposal, hbegun, hnew⟩ := reap_begins hreap (by decide +kernel)
  exact ⟨work, after, disposal, hreap, hbegun, hnew,
    reap_disposes_iff (by decide +kernel) hreap hbegun hnew⟩

open Specimen in
/-- Where a scan meets the oldest generation first, the reap disposes of the latest generation and
carries the oldest. -/
theorem reap_not_disposes_example :
    ∃ work after disposal, reap oldestFirst 1 2 5 11 1000 100 100 100 = .ok (some work, after) ∧
      disposal ∈ after.disposals ∧ disposal ∉ oldestFirst.disposals ∧
      ¬ ∃ saved, oldestFirst.latestIntent 2 = some saved ∧
        disposal.generation = saved.generation ∧ work.DisposesOf oldestFirst saved := by
  obtain ⟨⟨result, after⟩, hreap, hsome⟩ := exists_of_yields
    (show yields (reap oldestFirst 1 2 5 11 1000 100 100 100) (·.1.isSome) = true by decide +kernel)
  obtain ⟨work, rfl⟩ := Option.isSome_iff_exists.mp hsome
  obtain ⟨disposal, hbegun, hnew⟩ := reap_begins hreap (by decide +kernel)
  obtain ⟨first, latest, keep, hhistory, -, -, -, ⟨captured, hcaptured, hledger⟩, -, -⟩ :=
    reap_stores (by decide +kernel) hreap hbegun hnew
  refine ⟨work, after, disposal, hreap, hbegun, hnew, ?_⟩
  rintro ⟨saved, hlatest, -, hdisposes⟩
  have hfirst := history_eq_of_disposesOf hhistory hlatest hcaptured hledger hdisposes
  have hdifferent : oldestFirst.history 2 ≠ oldestFirst.latestIntent 2 := by decide +kernel
  exact hdifferent (hhistory.trans ((congrArg some hfirst).trans hlatest.symm))

end Ads.SandboxManager
