import Ads.Foundation.Runs
import Ads.SandboxIpc.EgressDelivery

/-!
# Revisions do not regress

Every state of a run is sound (`Sound`): the snapshot that is held is that of the floor, the file is
at least the floor, the receipt names the instance that was observed last, and a task in `_apply`
applies the snapshot that is held. A step leaves the floor, the file and, within one instance, the
store where they were or further on (`step_advances`).
-/

set_option autoImplicit false
set_option relaxedAutoImplicit false

namespace Ads.SandboxIpc.Egress

open Foundation.Runs Foundation.StateExcept Python SandboxEgress SandboxEgress.Configuration

/-! ### Sound states -/

/-- A receipt is of an instance that has run, and if that instance still runs its store holds the
revision or a later one. -/
def Issued (booted : List Uuid) (store : Configuration.PolicyStore)
    (receipt : EgressApplied) : Prop :=
  receipt.instanceId ∈ booted ∧ (receipt.instanceId = store.instanceId →
    ∃ snapshot, store.snapshot = some snapshot ∧ receipt.revision ≤ snapshot.revision)

/-- What holds in every state. -/
structure Sound (system : System) : Prop where
  /-- The snapshot that is held is that of the floor. -/
  held : ∀ snapshot, system.delivery.snapshot = some snapshot →
    snapshot.revision = system.delivery.floor.revision
  /-- The receipt names the instance that was observed last. -/
  receipt : ∀ receipt, system.delivery.installed = some receipt →
    system.delivery.instanceId = some receipt.instanceId
  /-- The receipt was issued by its instance. -/
  installed : ∀ receipt, system.delivery.installed = some receipt →
    Issued system.booted system.store receipt
  /-- So was every receipt that is in flight. -/
  answers : ∀ number receipt, (number, .ok receipt) ∈ system.answers →
    Issued system.booted system.store receipt
  /-- The instance that runs is one that has run. -/
  booted : system.store.instanceId ∈ system.booted
  /-- The file is at the floor, or the write of a later one has failed. -/
  durable : system.delivery.floor.revision ≤ system.delivery.floor.file.getD 0 ∧
    (system.delivery.failed = false →
      system.delivery.floor.file.getD 0 = system.delivery.floor.revision)
  /-- What is applied is the snapshot that is held. -/
  applying : ∀ applying, system.lock = some applying →
    system.delivery.snapshot = some applying.snapshot
  /-- While `_apply` waits for a ping there is no receipt. -/
  pinging : ∀ applying, system.lock = some applying → applying.stage = .ping →
    system.delivery.installed = none

/-- A snapshot comes after another one of the same store: its revision is not lower, and under the
same revision it has the same settings. -/
def Follows (old new : Option ProjectEgressSnapshot) : Prop :=
  ∀ before, old = some before → ∃ after, new = some after ∧ before.revision ≤ after.revision ∧
    (before.revision = after.revision → before.settings = after.settings)

/-- A snapshot comes after itself. -/
theorem Follows.refl (snapshot : Option ProjectEgressSnapshot) : Follows snapshot snapshot :=
  fun before hbefore ↦ ⟨before, hbefore, le_rfl, fun _ ↦ rfl⟩

/-- What comes after a later snapshot comes after an earlier one. -/
theorem Follows.trans {first second third : Option ProjectEgressSnapshot}
    (hfirst : Follows first second) (hsecond : Follows second third) : Follows first third := by
  intro before hbefore
  obtain ⟨middle, hmiddle, hlower, hsame⟩ := hfirst before hbefore
  obtain ⟨after, hafter, hupper, hagain⟩ := hsecond middle hmiddle
  refine ⟨after, hafter, hlower.trans hupper, fun hequal ↦ ?_⟩
  have hmid : before.revision = middle.revision := le_antisymm hlower (hequal ▸ hupper)
  exact (hsame hmid).trans (hagain (hmid ▸ hequal))

/-- What a step does to the floor, the file and the store. -/
structure Advances (before after : System) : Prop where
  /-- The floor. -/
  floor : before.delivery.floor.revision ≤ after.delivery.floor.revision
  /-- The file. -/
  file : before.delivery.floor.file.getD 0 ≤ after.delivery.floor.file.getD 0
  /-- The instances that have run. -/
  booted : ∀ instanceId ∈ before.booted, instanceId ∈ after.booted
  /-- The store of the same instance, or of an instance that has not run before. -/
  store : (after.store.instanceId = before.store.instanceId ∧
      Follows before.store.snapshot after.store.snapshot) ∨
    after.store.instanceId ∉ before.booted

/-- Nothing of them has changed. -/
theorem Advances.of_eq {before after : System} (hfloor : after.delivery.floor = before.delivery.floor)
    (hstore : after.store = before.store) (hbooted : after.booted = before.booted) :
    Advances before after := by
  refine ⟨by rw [hfloor], by rw [hfloor], fun _ h ↦ hbooted ▸ h, Or.inl ⟨by rw [hstore], ?_⟩⟩
  rw [hstore]
  exact Follows.refl _

/-- A receipt stays issued while its store goes on, and when another instance starts. -/
theorem Issued.advances {before after : System} {receipt : EgressApplied}
    (hissued : Issued before.booted before.store receipt) (hadvances : Advances before after) :
    Issued after.booted after.store receipt := by
  obtain ⟨hbooted, hholds⟩ := hissued
  refine ⟨hadvances.booted _ hbooted, fun hsame ↦ ?_⟩
  rcases hadvances.store with ⟨hinstance, hfollows⟩ | hother
  · obtain ⟨old, hold, hlower⟩ := hholds (hsame.trans hinstance)
    obtain ⟨new, hnew, hupper, -⟩ := hfollows old hold
    exact ⟨new, hnew, hlower.trans hupper⟩
  · exact absurd (hsame ▸ hbooted) hother

/-! ### `_apply` -/

/-- What a stretch of `_apply` leaves: a sound state with the same floor, file and store, and pushes
of the revision of the floor. -/
structure Proceeds (before after : System) (events : List Event) : Prop where
  /-- The state is sound. -/
  sound : Sound after
  /-- The floor and the file are those before. -/
  floor : after.delivery.floor = before.delivery.floor
  /-- The store is that before. -/
  store : after.store = before.store
  /-- The instances that have run are those before. -/
  booted : after.booted = before.booted
  /-- What is pushed has the revision of the floor. -/
  events : ∀ event ∈ events, ∃ revision, event = .applied revision revision

variable {system : System} {snapshot : ProjectEgressSnapshot}

/-- The lock is released. -/
theorem release_proceeds (hsound : Sound system) : Proceeds system system.release [] :=
  ⟨{ hsound with applying := nofun, pinging := nofun }, rfl, rfl, rfl, nofun⟩

/-- A push. -/
theorem push_proceeds (hsound : Sound system) (hsnapshot : system.delivery.snapshot = some snapshot)
    (origin : Origin) (attempt : ℕ) (expected : Uuid) :
    Proceeds system (system.push origin snapshot attempt expected).1
      (system.push origin snapshot attempt expected).2 := by
  refine ⟨{ hsound with applying := ?_, pinging := ?_ }, rfl, rfl, rfl, ?_⟩
  · intro applying happlying
    obtain rfl := Option.some.inj happlying
    exact hsnapshot
  · intro applying happlying hstage
    obtain rfl := Option.some.inj happlying
    cases hstage
  · intro event hevent
    rw [List.mem_singleton.mp hevent, ← hsound.held snapshot hsnapshot]
    exact ⟨_, rfl⟩

/-- The start of an attempt. -/
theorem enter_proceeds (hsound : Sound system) (hsnapshot : system.delivery.snapshot = some snapshot)
    (origin : Origin) (attempt : ℕ) :
    Proceeds system (system.enter origin snapshot attempt).1
      (system.enter origin snapshot attempt).2 := by
  unfold System.enter
  cases hinstance : system.delivery.instanceId with
  | none =>
    refine ⟨{ hsound with applying := ?_, pinging := ?_ }, rfl, rfl, rfl, nofun⟩
    · intro applying happlying
      obtain rfl := Option.some.inj happlying
      exact hsnapshot
    · intro _ _ _
      by_contra hsome
      obtain ⟨receipt, hreceipt⟩ := Option.ne_none_iff_exists'.mp hsome
      cases hinstance.symm.trans (hsound.receipt receipt hreceipt)
  | some expected => exact push_proceeds hsound hsnapshot origin attempt expected

/-- A round of `_background_apply`. -/
theorem background_proceeds (hsound : Sound system) :
    Proceeds system system.background.1 system.background.2 := by
  unfold System.background
  cases hsnapshot : system.delivery.snapshot with
  | none => exact release_proceeds hsound
  | some snapshot =>
    dsimp only
    split_ifs
    · exact release_proceeds hsound
    · exact enter_proceeds hsound hsnapshot _ 0

/-- The return of `_apply`. -/
theorem leave_proceeds (hsound : Sound system) (origin : Origin) :
    Proceeds system (system.leave origin).1 (system.leave origin).2 := by
  unfold System.leave
  cases origin with
  | receive => exact release_proceeds hsound
  | background observed =>
    dsimp only
    split_ifs
    · exact release_proceeds hsound
    · exact background_proceeds hsound

/-- What proceeds from a state with the same floor and store. -/
theorem Proceeds.of_eq {before middle after : System} {events : List Event}
    (hproceeds : Proceeds middle after events)
    (hfloor : middle.delivery.floor = before.delivery.floor) (hstore : middle.store = before.store)
    (hbooted : middle.booted = before.booted) : Proceeds before after events :=
  ⟨hproceeds.sound, hproceeds.floor.trans hfloor, hproceeds.store.trans hstore,
    hproceeds.booted.trans hbooted, hproceeds.events⟩

/-- An attempt that raises. -/
theorem retry_proceeds (hsound : Sound system) {applying : Applying}
    (happlying : system.lock = some applying) :
    Proceeds system (system.retry applying).1 (system.retry applying).2 := by
  unfold System.retry
  split_ifs
  · exact leave_proceeds hsound applying.origin
  · exact enter_proceeds hsound (hsound.applying applying happlying) applying.origin 1
  · have hfailed : Sound { system with delivery := { system.delivery with failed := true } } :=
      { hsound with durable := ⟨hsound.durable.1, nofun⟩ }
    exact (leave_proceeds hfailed applying.origin).of_eq rfl rfl rfl

/-- The answer to the ping of `_apply`. -/
theorem pinged_proceeds (hsound : Sound system) {applying : Applying}
    (happlying : system.lock = some applying) (hstage : applying.stage = .ping)
    (ping : EgressPing) :
    Proceeds system (system.pinged applying ping).1 (system.pinged applying ping).2 := by
  unfold System.pinged
  split_ifs
  · have hnone := hsound.pinging applying happlying hstage
    have hobserved : Sound { system with
        delivery := { system.delivery with instanceId := some ping.instanceId } } :=
      { hsound with receipt := fun receipt hreceipt ↦ nomatch hnone.symm.trans hreceipt }
    exact (push_proceeds hobserved (hsound.applying applying happlying) _ _ _).of_eq rfl rfl rfl
  · exact retry_proceeds hsound happlying

/-- The answer to the push of `_apply`. -/
theorem answered_proceeds (hsound : Sound system) {applying : Applying}
    (happlying : system.lock = some applying) (hpush : applying.stage ≠ .ping) (expected : Uuid)
    {answer : Except InstallFailure EgressApplied}
    (hanswer : ∀ receipt, answer = .ok receipt → Issued system.booted system.store receipt) :
    Proceeds system (system.answered applying expected answer).1
      (system.answered applying expected answer).2 := by
  unfold System.answered
  cases answer with
  | error failure =>
    cases failure with
    | staleConfiguration received current =>
      dsimp only
      split_ifs
      · exact leave_proceeds hsound applying.origin
      · exact retry_proceeds hsound happlying
    | decode raised => exact retry_proceeds hsound happlying
    | configurationUnavailable => exact retry_proceeds hsound happlying
    | revisionConflict => exact retry_proceeds hsound happlying
  | ok receipt =>
    dsimp only
    split_ifs with hunexpected hrevision
    · exact leave_proceeds hsound applying.origin
    · exact retry_proceeds hsound happlying
    · obtain ⟨-, hsame, hcurrent⟩ : ¬ system.delivery.stopped = true ∧
          receipt.instanceId = expected ∧ system.delivery.instanceId = some expected := by
        simpa only [not_or, ne_eq, not_not] using hunexpected
      have hreceived : Sound { system with
          delivery := { system.delivery with installed := some receipt, everInstalled := true } } := by
        refine { hsound with receipt := ?_, installed := ?_, pinging := ?_ }
        · intro other hother
          obtain rfl := Option.some.inj hother
          exact hsame ▸ hcurrent
        · intro other hother
          obtain rfl := Option.some.inj hother
          exact hanswer receipt rfl
        · intro other hother hstage
          obtain rfl := Option.some.inj (happlying.symm.trans hother)
          exact absurd hstage hpush
      exact (leave_proceeds hreceived applying.origin).of_eq rfl rfl rfl

/-! ### The tasks -/

variable {project : Uuid} {recodeSnapshot : Recoding ProjectEgressSnapshot}
  {recode : Recoding ProjectEgressSettings}

/-- What a step leaves: a sound state that has advanced, and pushes of the revision of the floor. -/
structure Steps (before after : System) (events : List Event) : Prop where
  /-- The state is sound. -/
  sound : Sound after
  /-- The state has advanced. -/
  advances : Advances before after
  /-- What is pushed has the revision of the floor. -/
  applied : ∀ floor revision, .applied floor revision ∈ events → floor = revision

/-- A stretch of `_apply` is such a step. -/
theorem Proceeds.steps {before after : System} {events : List Event}
    (hproceeds : Proceeds before after events) : Steps before after events := by
  refine ⟨hproceeds.sound, .of_eq hproceeds.floor hproceeds.store hproceeds.booted, ?_⟩
  intro floor revision hevent
  obtain ⟨_, hsame⟩ := hproceeds.events _ hevent
  cases hsame
  rfl

/-- A step from a state with the same floor and store. -/
theorem Steps.of_eq {before middle after : System} {events : List Event}
    (hsteps : Steps middle after events) (hfloor : middle.delivery.floor = before.delivery.floor)
    (hstore : middle.store = before.store) (hbooted : middle.booted = before.booted) :
    Steps before after events := by
  obtain ⟨hsound, ⟨hlower, hfile, hran, hfollows⟩, happlied⟩ := hsteps
  rw [hfloor] at hlower hfile
  rw [hbooted] at hran hfollows
  rw [hstore] at hfollows
  exact ⟨hsound, ⟨hlower, hfile, hran, hfollows⟩, happlied⟩

/-- A step that changes nothing of the floor and the store, and pushes nothing. -/
theorem Steps.of_sound {before after : System} (hsound : Sound after)
    (hfloor : after.delivery.floor = before.delivery.floor) (hstore : after.store = before.store)
    (hbooted : after.booted = before.booted) : Steps before after [] :=
  ⟨hsound, .of_eq hfloor hstore hbooted, nofun⟩

/-- The floor rises to a revision that is not below it, unless the write of the file fails. -/
theorem advance_spec {floor : RevisionFloor} {revision : ℕ}
    (hfile : floor.file.getD 0 = floor.revision) (hrevision : floor.revision ≤ revision)
    (outcome : Persistence) :
    floor.revision ≤ (floor.advance revision outcome).1.revision ∧
      floor.file.getD 0 ≤ (floor.advance revision outcome).1.file.getD 0 ∧
      (floor.advance revision outcome).1.revision ≤
        (floor.advance revision outcome).1.file.getD 0 ∧
      ((floor.advance revision outcome).2 = true →
        (floor.advance revision outcome).1.revision = floor.revision) ∧
      ((floor.advance revision outcome).2 = false →
        (floor.advance revision outcome).1.revision = revision ∧
          (floor.advance revision outcome).1.file.getD 0 = revision) := by
  unfold RevisionFloor.advance
  by_cases hreached : revision ≤ floor.revision
  · rw [if_pos hreached]
    have hsame := le_antisymm hrevision hreached
    exact ⟨le_rfl, le_rfl, hfile.ge, nofun, fun _ ↦ ⟨hsame, hfile.trans hsame⟩⟩
  · rw [if_neg hreached]
    cases outcome with
    | written => exact ⟨hrevision, hfile.trans_le hrevision, le_rfl, nofun, fun _ ↦ ⟨rfl, rfl⟩⟩
    | failedBefore => exact ⟨le_rfl, le_rfl, hfile.ge, fun _ ↦ rfl, nofun⟩
    | failedAfter => exact ⟨le_rfl, hfile.trans_le hrevision, hrevision, fun _ ↦ rfl, nofun⟩

/-- `receive` with the lock. -/
theorem receive_steps (hsound : Sound system) (hfree : system.lock = none)
    (outcome : Persistence) :
    Steps system (system.receive recode snapshot outcome).1
      (system.receive recode snapshot outcome).2 := by
  unfold System.receive
  by_cases hrefused : system.delivery.stopped ∨ system.delivery.failed ∨
      snapshot.revision < system.delivery.floor.revision
  · rw [if_pos hrefused]
    exact .of_sound hsound rfl rfl rfl
  rw [if_neg hrefused]
  obtain ⟨-, hrunning, hlower⟩ : ¬ system.delivery.stopped = true ∧
      system.delivery.failed = false ∧ system.delivery.floor.revision ≤ snapshot.revision := by
    simpa only [not_or, Bool.not_eq_true, not_lt] using hrefused
  cases canonicalSettings recode snapshot.settings with
  | error raised => exact .of_sound hsound rfl rfl rfl
  | ok settings =>
    obtain ⟨hfloor, hfile, hdurable, hkept, hwritten⟩ :=
      advance_spec (hsound.durable.2 hrunning) hlower outcome
    have hadvances : ∀ after : System,
        after.delivery.floor = (system.delivery.floor.advance snapshot.revision outcome).1 →
        after.store = system.store → after.booted = system.booted → Advances system after := by
      intro after hnext hstore hbooted
      refine ⟨hnext ▸ hfloor, hnext ▸ hfile, fun _ h ↦ hbooted ▸ h, Or.inl ⟨by rw [hstore], ?_⟩⟩
      rw [hstore]
      exact Follows.refl _
    dsimp only
    by_cases hraised : (system.delivery.floor.advance snapshot.revision outcome).2 = true
    · rw [if_pos hraised]
      refine ⟨{ hsound with held := ?_, durable := ⟨hdurable, ?_⟩ },
        hadvances _ rfl rfl rfl, fun _ _ hevent ↦ absurd hevent List.not_mem_nil⟩
      · exact fun held hheld ↦ (hsound.held held hheld).trans (hkept hraised).symm
      · exact fun hfailed ↦ absurd hfailed.symm Bool.false_ne_true
    · rw [if_neg hraised]
      obtain ⟨hrevision, hrecord⟩ := hwritten (Bool.eq_false_iff.mpr hraised)
      have hstored : Sound { system with delivery := { system.delivery with
          floor := (system.delivery.floor.advance snapshot.revision outcome).1,
          snapshot := some ⟨snapshot.revision, settings⟩ } } := by
        refine { hsound with held := ?_, durable := ?_, applying := ?_, pinging := ?_ }
        · intro held hheld
          obtain rfl := Option.some.inj hheld
          exact hrevision.symm
        · exact ⟨hdurable, fun _ ↦ hrecord.trans hrevision.symm⟩
        · exact fun _ happlying ↦ absurd (hfree.symm.trans happlying) (Option.some_ne_none _).symm
        · exact fun _ happlying ↦ absurd (hfree.symm.trans happlying) (Option.some_ne_none _).symm
      have hproceeds := enter_proceeds hstored rfl .receive 0
      exact ⟨hproceeds.sound, hadvances _ hproceeds.floor hproceeds.store hproceeds.booted,
        hproceeds.steps.applied⟩

/-- A health check. -/
theorem checked_steps (hsound : Sound system) (sequence : ℕ) (ping : EgressPing) (relays : Bool) :
    Steps system (system.checked sequence ping relays) [] := by
  unfold System.checked
  by_cases hignored : ¬ ping.healthy ∨ ¬ relays ∨ sequence < system.delivery.observedSequence
  · rw [if_pos hignored]
    exact .of_sound hsound rfl rfl rfl
  rw [if_neg hignored]
  dsimp only
  by_cases hsame : system.delivery.instanceId = some ping.instanceId
  · rw [if_pos hsame]
    exact .of_sound { hsound with } rfl rfl rfl
  · rw [if_neg hsame]
    refine .of_sound ?_ rfl rfl rfl
    exact { hsound with receipt := nofun, installed := nofun, pinging := fun _ _ _ ↦ rfl }

/-- An installation leaves a store that follows the store before, and issues its receipt. -/
theorem install_spec {store final : Configuration.PolicyStore} {receipt : EgressApplied}
    (hinstall : Configuration.PolicyStore.install recodeSnapshot recode snapshot store =
      .ok (receipt, final)) :
    final.instanceId = store.instanceId ∧ receipt.instanceId = store.instanceId ∧
      Follows store.snapshot final.snapshot ∧
      ∃ installed, final.snapshot = some installed ∧ installed.revision = receipt.revision := by
  unfold Configuration.PolicyStore.install at hinstall
  cases hcanonical : canonicalSnapshot recodeSnapshot recode snapshot with
  | error raised =>
    rw [hcanonical] at hinstall
    exact absurd hinstall throw_ne_ok
  | ok canonical =>
    rw [hcanonical] at hinstall
    obtain ⟨rfl, -, rfl, hprevious⟩ := swap_eq_ok hinstall
    refine ⟨rfl, rfl, ?_, canonical, rfl, rfl⟩
    intro previous hold
    obtain ⟨hlower, hsame⟩ := hprevious previous hold
    exact ⟨canonical, rfl, hlower, hsame⟩

/-- A push that reaches the egress process. -/
theorem land_steps (hsound : Sound system) (push : ℕ) :
    Steps system (step project recodeSnapshot recode system (.land push)).1
      (step project recodeSnapshot recode system (.land push)).2 := by
  dsimp only [step]
  cases system.pushes[push]? with
  | none => exact .of_sound hsound rfl rfl rfl
  | some pushed =>
    obtain ⟨number, pushed⟩ := pushed
    dsimp only
    cases hinstall : Configuration.PolicyStore.install recodeSnapshot recode pushed system.store with
    | error failure =>
      refine .of_sound { hsound with answers := ?_ } rfl rfl rfl
      intro other receipt hmem
      rcases List.mem_append.mp hmem with hold | hnew
      · exact hsound.answers other receipt hold
      · cases List.mem_singleton.mp hnew
    | ok installed =>
      obtain ⟨receipt, store⟩ := installed
      obtain ⟨hinstance, hreceipt, hfollows, installed, hinstalled, hrevision⟩ :=
        install_spec hinstall
      have hadvances : Advances system { system with
          store := store, answers := system.answers ++ [(number, .ok receipt)] } :=
        ⟨le_rfl, le_rfl, fun _ h ↦ h, Or.inl ⟨hinstance, hfollows⟩⟩
      refine ⟨{ hsound with installed := ?_, answers := ?_, booted := ?_ }, hadvances, ?_⟩
      · exact fun other hother ↦ (hsound.installed other hother).advances hadvances
      · intro other answer hmem
        rcases List.mem_append.mp hmem with hold | hnew
        · exact (hsound.answers other answer hold).advances hadvances
        · cases List.mem_singleton.mp hnew
          exact ⟨hreceipt ▸ hsound.booted, fun _ ↦ ⟨installed, hinstalled, hrevision.ge⟩⟩
      · exact hinstance ▸ hsound.booted
      · intro floor revision hevent
        cases List.mem_singleton.mp hevent

/-! ### Runs -/

/-- Every step leaves a sound state that has advanced, and pushes the revision of the floor. -/
theorem step_steps (hsound : Sound system) (input : Input) :
    Steps system (step project recodeSnapshot recode system input).1
      (step project recodeSnapshot recode system input).2 := by
  cases input with
  | receive projectId snapshot =>
    dsimp only [step]
    split_ifs
    · exact .of_sound hsound rfl rfl rfl
    · exact .of_sound { hsound with } rfl rfl rfl
  | acquire waiter outcome =>
    dsimp only [step]
    split
    · rename_i hfree _
      have hnext : Sound { system with waiting := system.waiting.eraseIdx waiter } :=
        { hsound with }
      exact (receive_steps hnext hfree outcome).of_eq rfl rfl rfl
    · have hnext : Sound { system with waiting := system.waiting.eraseIdx waiter } :=
        { hsound with }
      exact (background_proceeds hnext).steps.of_eq rfl rfl rfl
    · exact .of_sound hsound rfl rfl rfl
  | cancelWaiter waiter => exact .of_sound { hsound with } rfl rfl rfl
  | pinged ping =>
    dsimp only [step]
    cases happlying : system.lock with
    | none => exact .of_sound hsound rfl rfl rfl
    | some applying =>
      dsimp only
      split_ifs with hping
      · exact (pinged_proceeds hsound happlying hping.1 ping).steps
      · exact .of_sound hsound rfl rfl rfl
  | answered answer =>
    dsimp only [step]
    split
    · rename_i applying number result happlying hresult
      split
      · rename_i call expected hstage
        split_ifs
        · have hpush : applying.stage ≠ .ping := by
            rw [hstage]
            nofun
          refine (answered_proceeds hsound happlying hpush expected fun receipt hreceipt ↦ ?_).steps
          exact hsound.answers number receipt (hreceipt ▸ List.mem_of_getElem? hresult)
        · exact .of_sound hsound rfl rfl rfl
      · exact .of_sound hsound rfl rfl rfl
    · exact .of_sound hsound rfl rfl rfl
  | raised =>
    dsimp only [step]
    cases happlying : system.lock with
    | none => exact .of_sound hsound rfl rfl rfl
    | some applying => exact (retry_proceeds hsound happlying).steps
  | cancel => exact (release_proceeds hsound).steps
  | check =>
    dsimp only [step]
    split_ifs
    · exact .of_sound hsound rfl rfl rfl
    · exact .of_sound { hsound with } rfl rfl rfl
  | checked check ping relays =>
    dsimp only [step]
    split
    · rename_i sequence _
      split_ifs
      · have hnext : Sound { system with checks := system.checks.eraseIdx check } :=
          { hsound with }
        exact (checked_steps hnext sequence ping relays).of_eq rfl rfl rfl
      · exact .of_sound hsound rfl rfl rfl
    · exact .of_sound hsound rfl rfl rfl
  | checkRaised check => exact .of_sound { hsound with } rfl rfl rfl
  | close => exact .of_sound { hsound with } rfl rfl rfl
  | restart =>
    refine ⟨?_, ⟨hsound.durable.1, le_rfl, fun _ h ↦ h, Or.inl ⟨rfl, Follows.refl _⟩⟩, nofun⟩
    exact { hsound with
      held := nofun
      receipt := nofun
      installed := nofun
      durable := ⟨le_rfl, fun _ ↦ rfl⟩
      applying := nofun
      pinging := nofun }
  | land push => exact land_steps hsound push
  | closeStore =>
    exact ⟨{ hsound with }, ⟨le_rfl, le_rfl, fun _ h ↦ h, Or.inl ⟨rfl, Follows.refl _⟩⟩, nofun⟩
  | restartEgress instanceId =>
    dsimp only [step]
    by_cases hknown : instanceId ∈ system.booted
    · rw [if_pos hknown]
      exact .of_sound hsound rfl rfl rfl
    · rw [if_neg hknown]
      have hadvances : Advances system { system with
          store := { instanceId }, booted := system.booted ++ [instanceId] } :=
        ⟨le_rfl, le_rfl, fun _ h ↦ List.mem_append_left _ h, Or.inr hknown⟩
      refine ⟨{ hsound with installed := ?_, answers := ?_, booted := ?_ }, hadvances, nofun⟩
      · exact fun receipt hreceipt ↦ (hsound.installed receipt hreceipt).advances hadvances
      · exact fun number receipt hmem ↦ (hsound.answers number receipt hmem).advances hadvances
      · exact List.mem_append_right _ (List.mem_singleton_self _)

/-- A state that has started is sound. -/
theorem start_sound (file : Option ℕ) (instanceId : Uuid) :
    Sound (System.start file instanceId) where
  held := nofun
  receipt := nofun
  installed := nofun
  answers := nofun
  booted := List.mem_singleton_self _
  durable := ⟨le_rfl, fun _ ↦ rfl⟩
  applying := nofun
  pinging := nofun

/-- One advance after another. -/
theorem Advances.trans {first second third : System} (hfirst : Advances first second)
    (hsecond : Advances second third) : Advances first third := by
  refine ⟨hfirst.floor.trans hsecond.floor, hfirst.file.trans hsecond.file,
    fun _ h ↦ hsecond.booted _ (hfirst.booted _ h), ?_⟩
  rcases hsecond.store with ⟨hsame, hfollows⟩ | hother
  · rcases hfirst.store with ⟨hinstance, hfollowed⟩ | hnew
    · exact Or.inl ⟨hsame.trans hinstance, hfollowed.trans hfollows⟩
    · exact Or.inr (hsame ▸ hnew)
  · exact Or.inr fun hran ↦ hother (hfirst.booted _ hran)

/-- A run from a sound state ends in a sound state that has advanced. -/
theorem run_steps (hsound : Sound system) (inputs : List Input) :
    Steps system (runFrom (step project recodeSnapshot recode) system inputs).1
      (runFrom (step project recodeSnapshot recode) system inputs).2 := by
  refine run_induction (fun _ after events ↦ Steps system after events)
    (.of_sound hsound rfl rfl rfl) ?_ inputs
  intro inputs input middle events hsteps
  have hnext : Steps middle (step project recodeSnapshot recode middle input).1
      (step project recodeSnapshot recode middle input).2 :=
    step_steps hsteps.sound input
  refine ⟨hnext.sound, hsteps.advances.trans hnext.advances, fun floor revision hevent ↦ ?_⟩
  rcases List.mem_append.mp hevent with hearlier | hlater
  · exact hsteps.applied floor revision hearlier
  · exact hnext.applied floor revision hlater

/-- In every run: the snapshot that is held is that of the floor, and the file agrees with the floor
unless delivery has failed; neither the floor nor the file goes back; what is passed to the transport
is not below the floor; a receipt names the instance that was observed last, one that has run and
that, while it runs, holds the revision of the receipt or a later one; and the store of one instance
does not go back and keeps its settings under one revision. -/
theorem revisions_never_regress (project : Uuid) (recodeSnapshot : Recoding ProjectEgressSnapshot)
    (recode : Recoding ProjectEgressSettings) (file : Option ℕ) (instanceId : Uuid)
    (earlier later : List Input) :
    let run := runFrom (step project recodeSnapshot recode) (System.start file instanceId)
    let before := (run earlier).1
    let after := (run (earlier ++ later)).1
    (∀ snapshot, after.delivery.snapshot = some snapshot →
      snapshot.revision = after.delivery.floor.revision) ∧
    (after.delivery.failed = false →
      after.delivery.floor.file.getD 0 = after.delivery.floor.revision) ∧
    before.delivery.floor.revision ≤ after.delivery.floor.revision ∧
    before.delivery.floor.file.getD 0 ≤ after.delivery.floor.file.getD 0 ∧
    (∀ floor revision, .applied floor revision ∈ (run (earlier ++ later)).2 → floor ≤ revision) ∧
    (∀ receipt, after.delivery.installed = some receipt →
      after.delivery.instanceId = some receipt.instanceId ∧
        Issued after.booted after.store receipt) ∧
    (after.store.instanceId = before.store.instanceId →
      Follows before.store.snapshot after.store.snapshot) := by
  intro run before after
  have hstart := start_sound file instanceId
  have hbefore : Steps (System.start file instanceId) before (run earlier).2 :=
    run_steps hstart earlier
  have hafter : Steps (System.start file instanceId) after (run (earlier ++ later)).2 :=
    run_steps hstart (earlier ++ later)
  have hlater : Advances before after := by
    have hsteps : Steps before (runFrom (step project recodeSnapshot recode) before later).1
        (runFrom (step project recodeSnapshot recode) before later).2 :=
      run_steps hbefore.sound later
    have hsplit : after = (runFrom (step project recodeSnapshot recode) before later).1 := by
      change (runFrom _ _ (earlier ++ later)).1 = _
      rw [runFrom_append]
    exact hsplit ▸ hsteps.advances
  refine ⟨hafter.sound.held, hafter.sound.durable.2, hlater.floor, hlater.file, ?_, ?_, ?_⟩
  · exact fun floor revision hevent ↦ (hafter.applied floor revision hevent).le
  · exact fun receipt hreceipt ↦
      ⟨hafter.sound.receipt receipt hreceipt, hafter.sound.installed receipt hreceipt⟩
  · intro hsame
    rcases hlater.store with ⟨-, hfollows⟩ | hother
    · exact hfollows
    · exact absurd (hsame ▸ hbefore.sound.booted) hother

/-- A snapshot without rules. -/
def emptySnapshot (revision : ℕ) : ProjectEgressSnapshot :=
  ⟨revision, { rules := [] }⟩

/-- A snapshot is installed, and the egress process restarts. -/
def replacedRun : List Input :=
  [.receive 0 (emptySnapshot 5), .acquire 0 .written, .pinged ⟨1, true⟩, .land 0, .answered 0,
    .restartEgress 2]

/-- A push is in flight when the delivery process restarts, and lands when the next snapshot has
raised the floor. -/
def overtakenRun : List Input :=
  [.receive 0 (emptySnapshot 5), .acquire 0 .written, .pinged ⟨1, true⟩, .restart,
    .receive 0 (emptySnapshot 6), .acquire 0 .written, .land 0]

/-- A run of two processes that start with no file. -/
def freshRun (inputs : List Input) : System × List Event :=
  runFrom (step 0 Except.ok Except.ok) (System.start none 1) inputs

/-- Until the next health check a receipt names an instance that no longer runs, and a push that is
in flight may be installed after the floor has risen above it. -/
theorem delivery_outrun :
    (freshRun replacedRun).1.delivery.installed = some ⟨1, 5⟩ ∧
      (freshRun replacedRun).1.store.instanceId = 2 ∧
      .installed 6 5 ∈ (freshRun overtakenRun).2 := by
  decide +kernel

end Ads.SandboxIpc.Egress
