import Ads.SandboxEgress.CanonicalSettings

/-!
# The policy store

The model of `PolicyStore` of `configuration.py`. An installed snapshot is canonical, its revision is
at least that of the snapshot before, and under one revision the settings stay (`swap_eq_ok`). Two
snapshots that the store installs under one revision decide every request alike
(`canonicalSettings_decides`).
-/

set_option autoImplicit false
set_option relaxedAutoImplicit false

namespace Ads.SandboxEgress.Configuration

open Foundation.StateExcept Python

/-! ### The store -/

/-- `EgressApplied`. -/
structure EgressApplied where
  /-- The process that installed a snapshot. -/
  instanceId : Uuid
  /-- The revision it holds. -/
  revision : ℕ
deriving DecidableEq

/-- `PolicyStore`. -/
structure PolicyStore where
  /-- The process. -/
  instanceId : Uuid
  /-- The snapshot that is installed. -/
  snapshot : Option ProjectEgressSnapshot := none
  /-- The process has not closed the store. -/
  accepting : Bool := true
deriving DecidableEq

/-- What `install` raises. -/
inductive InstallFailure
  /-- The snapshot is not decoded. -/
  | decode (raised : Raised)
  /-- `ConfigurationUnavailable`. -/
  | configurationUnavailable
  /-- `StaleConfiguration`. -/
  | staleConfiguration (received applied : ℕ)
  /-- `RevisionConflict`. -/
  | revisionConflict
deriving DecidableEq

/-- The body of `install` under the lock. -/
def PolicyStore.swap (canonical : ProjectEgressSnapshot) :
    StateT PolicyStore (Except InstallFailure) EgressApplied := do
  let store ← get
  raiseIf (¬ store.accepting) .configurationUnavailable
  match store.snapshot with
  | none =>
    set { store with snapshot := some canonical }
    return ⟨store.instanceId, canonical.revision⟩
  | some previous =>
    raiseIf (canonical.revision < previous.revision)
      (.staleConfiguration canonical.revision previous.revision)
    if canonical.revision = previous.revision then
      raiseIf (canonical.settings ≠ previous.settings) .revisionConflict
      return ⟨store.instanceId, previous.revision⟩
    else
      set { store with snapshot := some canonical }
      return ⟨store.instanceId, canonical.revision⟩

/-- The snapshot that `install` makes of the one it receives, before it takes the lock. -/
def canonicalSnapshot (recodeSnapshot : Recoding ProjectEgressSnapshot)
    (recode : Recoding ProjectEgressSettings) (snapshot : ProjectEgressSnapshot) :
    Except Raised ProjectEgressSnapshot := do
  let snapshot ← recodeSnapshot snapshot
  let settings ← canonicalSettings recode snapshot.settings
  return ⟨snapshot.revision, settings⟩

/-- `PolicyStore.install`. -/
def PolicyStore.install (recodeSnapshot : Recoding ProjectEgressSnapshot)
    (recode : Recoding ProjectEgressSettings) (snapshot : ProjectEgressSnapshot) :
    StateT PolicyStore (Except InstallFailure) EgressApplied :=
  match canonicalSnapshot recodeSnapshot recode snapshot with
  | .error raised => throw (.decode raised)
  | .ok canonical => PolicyStore.swap canonical

/-! ### What the store takes for equal -/

/-- What an installation leaves and requires. -/
theorem swap_eq_ok {canonical : ProjectEgressSnapshot} {store final : PolicyStore}
    {receipt : EgressApplied} (hrun : PolicyStore.swap canonical store = .ok (receipt, final)) :
    final = { store with snapshot := some canonical } ∧ store.accepting = true ∧
      receipt = ⟨store.instanceId, canonical.revision⟩ ∧
      ∀ previous, store.snapshot = some previous → previous.revision ≤ canonical.revision ∧
        (previous.revision = canonical.revision → previous.settings = canonical.settings) := by
  obtain ⟨instanceId, snapshot, accepting⟩ := store
  unfold PolicyStore.swap at hrun
  obtain ⟨_, _, hget, hrun⟩ := bind_eq_ok.mp hrun
  obtain ⟨rfl, rfl⟩ := get_eq_ok.mp hget
  obtain ⟨_, _, hraise, hrun⟩ := bind_eq_ok.mp hrun
  obtain ⟨haccepting, rfl⟩ := raiseIf_eq_ok.mp hraise
  have hopen : accepting = true := not_not.mp haccepting
  cases snapshot with
  | none =>
    obtain ⟨_, _, hset, hrun⟩ := bind_eq_ok.mp hrun
    obtain rfl := set_eq_ok.mp hset
    obtain ⟨rfl, rfl⟩ := pure_eq_ok.mp hrun
    exact ⟨rfl, hopen, rfl, nofun⟩
  | some previous =>
    obtain ⟨_, _, hraise, hrun⟩ := bind_eq_ok.mp hrun
    obtain ⟨hstale, rfl⟩ := raiseIf_eq_ok.mp hraise
    by_cases hsame : canonical.revision = previous.revision
    · rw [if_pos hsame] at hrun
      obtain ⟨_, _, hraise, hrun⟩ := bind_eq_ok.mp hrun
      obtain ⟨hconflict, rfl⟩ := raiseIf_eq_ok.mp hraise
      obtain ⟨rfl, rfl⟩ := pure_eq_ok.mp hrun
      have hsettings : canonical.settings = previous.settings := not_not.mp hconflict
      obtain ⟨revision, settings⟩ := canonical
      obtain rfl : revision = previous.revision := hsame
      obtain rfl : settings = previous.settings := hsettings
      refine ⟨rfl, hopen, rfl, ?_⟩
      intro other hother
      obtain rfl := Option.some.inj hother
      exact ⟨le_rfl, fun _ ↦ rfl⟩
    · rw [if_neg hsame] at hrun
      obtain ⟨_, _, hset, hrun⟩ := bind_eq_ok.mp hrun
      obtain rfl := set_eq_ok.mp hset
      obtain ⟨rfl, rfl⟩ := pure_eq_ok.mp hrun
      refine ⟨rfl, hopen, rfl, ?_⟩
      intro other hother
      obtain rfl := Option.some.inj hother
      exact ⟨not_lt.mp hstale, fun h ↦ absurd h.symm hsame⟩

/-- `install` of an accepted snapshot. -/
theorem install_eq {recodeSnapshot : Recoding ProjectEgressSnapshot}
    {recode : Recoding ProjectEgressSettings}
    (hsnapshot : recodeSnapshot.Faithful ProjectEgressSnapshot.Accepted)
    (hrecode : recode.Faithful ProjectEgressSettings.Accepted) {snapshot : ProjectEgressSnapshot}
    (haccepted : snapshot.Accepted) :
    PolicyStore.install recodeSnapshot recode snapshot =
      PolicyStore.swap ⟨snapshot.revision, snapshot.settings.canonical⟩ := by
  have hcanonical : canonicalSnapshot recodeSnapshot recode snapshot =
      .ok ⟨snapshot.revision, snapshot.settings.canonical⟩ := by
    unfold canonicalSnapshot
    rw [hsnapshot snapshot haccepted, except_bind_eq_ok]
    refine ⟨snapshot, rfl, ?_⟩
    rw [canonicalSettings_eq hrecode haccepted.settings]
    rfl
  unfold PolicyStore.install
  rw [hcanonical]

/-- Canonical settings decide every request as the settings do, lack of budget included, and are
canonical; two snapshots that the store installs under one revision decide every request alike. -/
theorem canonicalSettings_decides (recodeSnapshot : Recoding ProjectEgressSnapshot)
    (recode : Recoding ProjectEgressSettings)
    (hsnapshot : recodeSnapshot.Faithful ProjectEgressSnapshot.Accepted)
    (hrecode : recode.Faithful ProjectEgressSettings.Accepted) {settings : ProjectEgressSettings}
    (haccepted : settings.Accepted) :
    (∃ canonical, canonicalSettings recode settings = .ok canonical ∧
      canonicalSettings recode canonical = .ok canonical ∧
      ∀ revision other request,
        permitted (some ⟨revision, canonical⟩) request =
          permitted (some ⟨other, settings⟩) request) ∧
    ∀ (first second : ProjectEgressSnapshot) (store installed again : PolicyStore)
      (receipt repeated : EgressApplied), first.Accepted → second.Accepted →
      PolicyStore.install recodeSnapshot recode first store = .ok (receipt, installed) →
      PolicyStore.install recodeSnapshot recode second installed = .ok (repeated, again) →
      second.revision = first.revision →
      ∀ request, permitted (some second) request = permitted (some first) request := by
  refine ⟨⟨settings.canonical, canonicalSettings_eq hrecode haccepted, ?_, fun revision other ↦
    permitted_canonical settings revision other⟩, ?_⟩
  · rw [canonicalSettings_eq hrecode haccepted.canonical, settings.canonical_canonical]
  · intro first second store installed again receipt repeated hfirst hsecond hinstall hagain hsame
      request
    rw [install_eq hsnapshot hrecode hfirst] at hinstall
    rw [install_eq hsnapshot hrecode hsecond] at hagain
    obtain ⟨rfl, -, -, -⟩ := swap_eq_ok hinstall
    obtain ⟨-, -, -, hprevious⟩ := swap_eq_ok hagain
    have hsettings : first.settings.canonical = second.settings.canonical :=
      (hprevious _ rfl).2 hsame.symm
    calc permitted (some second) request
        = permitted (some ⟨0, second.settings.canonical⟩) request :=
          (permitted_canonical second.settings 0 second.revision request).symm
      _ = permitted (some ⟨0, first.settings.canonical⟩) request := by rw [hsettings]
      _ = permitted (some first) request :=
          permitted_canonical first.settings 0 first.revision request

/-- The canonical form of a policy with a default case rule decides a request as the policy does. -/
theorem canonicalSettings_decides_docs :
    permitted (some ⟨7, docsSnapshot.settings.canonical⟩) docsRequest = .ok true := by
  obtain ⟨⟨canonical, hcanonical, -, hdecides⟩, -⟩ :=
    canonicalSettings_decides Except.ok Except.ok (fun _ _ ↦ rfl) (fun _ _ ↦ rfl)
      docsSnapshot_accepted
  obtain rfl := Except.ok.inj hcanonical
  rw [hdecides 7 1 docsRequest]
  decide +kernel

end Ads.SandboxEgress.Configuration
