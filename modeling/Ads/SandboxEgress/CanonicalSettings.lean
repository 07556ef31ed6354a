import Mathlib
import Ads.Python.Values
import Ads.SandboxEgress.PolicyDecision

/-!
# Canonical policy settings

The model of `canonical_settings` of `ads_commons.egress`. The JSON codec is a parameter; all that is
asked of it is that an accepted value is decoded as it was encoded. Canonical settings permit what
the settings permit and fail where they fail (`permitted_canonical`), are accepted and are left as
they are (`ProjectEgressSettings.canonical_canonical`).
-/

set_option autoImplicit false
set_option relaxedAutoImplicit false

namespace Ads.SandboxEgress

open Dns Foundation.StateExcept Python

/-! ### The codec -/

/-- What `msgspec.json.decode(msgspec.json.encode(·))` makes of the values of one type. -/
abbrev Recoding (α : Type) :=
  α → Except Raised α

/-- Accepted values are decoded as they were encoded. -/
def Recoding.Faithful {α : Type} (recode : Recoding α) (accepted : α → Prop) : Prop :=
  ∀ value, accepted value → recode value = .ok value

/-- `ProjectEgressSnapshot` as it is decoded. -/
structure ProjectEgressSnapshot.Accepted (snapshot : ProjectEgressSnapshot) : Prop where
  /-- The revision is in range. -/
  revision : 1 ≤ snapshot.revision ∧ snapshot.revision ≤ 9223372036854775807
  /-- The settings are accepted. -/
  settings : snapshot.settings.Accepted

/-! ### Canonical settings -/

/-- The text of an upgrade target. -/
def UpgradeTarget.text : UpgradeTarget → Text
  | .http2 => "http/2".toList
  | .websocket => "websocket".toList

/-- The order of upgrade targets as texts. -/
def UpgradeTarget.le (first second : UpgradeTarget) : Bool :=
  first.text ≤ second.text

/-- `tuple(sorted(upgrades))` where upgrades are listed. -/
def UpgradePolicy.canonical : UpgradePolicy → UpgradePolicy
  | .listed targets => .listed (targets.mergeSort UpgradeTarget.le)
  | upgrades => upgrades

/-- A path with the case rule of the mode where it has none. -/
def EgressPath.canonical (mode : EgressMode) (path : EgressPath) : EgressPath :=
  { path with caseInsensitive := some (path.caseInsensitive.getD (mode == .blacklist)) }

/-- The options of a rule with sorted upgrades and canonical paths. -/
def ProtocolSettings.canonical (mode : EgressMode) (options : ProtocolSettings) :
    ProtocolSettings :=
  { options with
    upgrades := options.upgrades.canonical
    paths := options.paths.map (EgressPath.canonical mode) }

/-- A rule with canonical options. -/
def EgressRule.canonical (mode : EgressMode) (rule : EgressRule) : EgressRule :=
  { rule with protocolSettings := rule.protocolSettings.canonical mode }

/-- The settings that `canonical_settings` makes of decoded ones. -/
def ProjectEgressSettings.canonical (settings : ProjectEgressSettings) : ProjectEgressSettings :=
  { settings with rules := settings.rules.map (EgressRule.canonical settings.mode) }

/-- `canonical_settings`. -/
def canonicalSettings (recode : Recoding ProjectEgressSettings) (settings : ProjectEgressSettings) :
    Except Raised ProjectEgressSettings := do
  let settings ← recode settings
  return settings.canonical

/-! ### Canonical settings decide as the settings -/

/-- The same upgrades are admitted. -/
theorem upgradesAdmit_canonical (mode : EgressMode) (rule : EgressRule) (request : PolicyRequest) :
    upgradesAdmit (rule.canonical mode) request = upgradesAdmit rule request := by
  unfold upgradesAdmit EgressRule.canonical ProtocolSettings.canonical
  cases request.upgrade with
  | none => rfl
  | some target =>
    cases rule.protocolSettings.upgrades with
    | any => rfl
    | none => rfl
    | listed targets => simp [UpgradePolicy.canonical]

/-- The same paths are matched with the same work. -/
theorem anyPathMatches_canonical (mode : EgressMode) (path : Bytes) (paths : List EgressPath) :
    anyPathMatches (mode == .whitelist) path (paths.map (EgressPath.canonical mode)) =
      anyPathMatches (mode == .whitelist) path paths := by
  have hdefault : (!(mode == .whitelist)) = (mode == .blacklist) := by
    cases mode <;> rfl
  induction paths with
  | nil => rfl
  | cons item rest ih =>
    rw [List.map_cons, anyPathMatches, anyPathMatches, ih, hdefault]
    rfl

/-- The same paths of a rule admit the request. -/
theorem pathsAdmit_canonical (mode : EgressMode) (rule : EgressRule) (request : PolicyRequest) :
    pathsAdmit (mode == .whitelist) (rule.canonical mode) request =
      pathsAdmit (mode == .whitelist) rule request := by
  have hpaths : (rule.canonical mode).protocolSettings.paths =
      rule.protocolSettings.paths.map (EgressPath.canonical mode) := rfl
  unfold pathsAdmit
  rw [hpaths]
  cases rule.protocolSettings.paths with
  | nil => rfl
  | cons item rest =>
    cases request.normalizedPath with
    | none => rfl
    | some path => exact anyPathMatches_canonical mode path (item :: rest)

/-- Canonical rules judge as the rules do, with the same work. -/
theorem judgeRules_canonical (mode : EgressMode) (names : List Text) (request : PolicyRequest)
    (rules : List EgressRule) :
    judgeRules (mode == .whitelist) names request (rules.map (EgressRule.canonical mode)) =
      judgeRules (mode == .whitelist) names request rules := by
  induction rules with
  | nil => rfl
  | cons rule rest ih =>
    rw [List.map_cons, judgeRules_cons, judgeRules_cons, ih, pathsAdmit_canonical,
      upgradesAdmit_canonical]
    rfl

/-- Canonical settings permit what the settings permit, and fail where they fail. -/
theorem permitted_canonical (settings : ProjectEgressSettings) (revision other : ℕ)
    (request : PolicyRequest) :
    permitted (some ⟨revision, settings.canonical⟩) request =
      permitted (some ⟨other, settings⟩) request := by
  unfold permitted
  have hmode : settings.canonical.mode = settings.mode := rfl
  have hrules : settings.canonical.rules =
      settings.rules.map (EgressRule.canonical settings.mode) := rfl
  simp only [hmode, hrules, judgeRules_canonical]

/-! ### Canonical settings are canonical -/

/-- Sorted upgrades are sorted. -/
theorem UpgradePolicy.canonical_canonical (upgrades : UpgradePolicy) :
    upgrades.canonical.canonical = upgrades.canonical := by
  cases upgrades with
  | any => rfl
  | none => rfl
  | listed targets =>
    have htrans : ∀ first second third : UpgradeTarget, first.le second = true →
        second.le third = true → first.le third = true := by
      intro first second third
      cases first <;> cases second <;> cases third <;> decide
    have htotal : ∀ first second : UpgradeTarget, (first.le second || second.le first) = true := by
      intro first second
      cases first <;> cases second <;> decide
    have hsorted := List.pairwise_mergeSort htrans htotal targets
    exact congrArg UpgradePolicy.listed (List.mergeSort_of_pairwise hsorted)

/-- Canonical settings are left as they are. -/
theorem ProjectEgressSettings.canonical_canonical (settings : ProjectEgressSettings) :
    settings.canonical.canonical = settings.canonical := by
  have hpath : ∀ path, EgressPath.canonical settings.mode (EgressPath.canonical settings.mode path) =
      EgressPath.canonical settings.mode path := fun _ ↦ rfl
  have hoptions : ∀ options : ProtocolSettings,
      (options.canonical settings.mode).canonical settings.mode =
        options.canonical settings.mode := by
    intro options
    unfold ProtocolSettings.canonical
    simp only [UpgradePolicy.canonical_canonical, List.map_map, Function.comp_def, hpath]
  have hrule : ∀ rule : EgressRule,
      (rule.canonical settings.mode).canonical settings.mode = rule.canonical settings.mode :=
    fun rule ↦ congrArg (fun options ↦ { rule with protocolSettings := options })
      (hoptions rule.protocolSettings)
  have hrules : (settings.rules.map (EgressRule.canonical settings.mode)).map
      (EgressRule.canonical settings.mode) =
        settings.rules.map (EgressRule.canonical settings.mode) := by
    simp only [List.map_map, Function.comp_def, hrule]
  exact congrArg (fun rules ↦ { settings with rules := rules }) hrules

/-- Canonical paths are accepted. -/
theorem EgressPath.Accepted.canonical {path : EgressPath} (hpath : path.Accepted)
    (mode : EgressMode) : (path.canonical mode).Accepted :=
  ⟨hpath.length, hpath.slash, hpath.plain⟩

/-- Canonical options are accepted. -/
theorem ProtocolSettings.Accepted.canonical {options : ProtocolSettings}
    (hoptions : options.Accepted) (mode : EgressMode) : (options.canonical mode).Accepted := by
  refine ⟨hoptions.method, ?_, ?_, ?_⟩
  · intro targets hlisted
    cases hupgrades : options.upgrades with
    | any =>
      rw [ProtocolSettings.canonical, hupgrades] at hlisted
      cases hlisted
    | none =>
      rw [ProtocolSettings.canonical, hupgrades] at hlisted
      cases hlisted
    | listed listed =>
      rw [ProtocolSettings.canonical, hupgrades] at hlisted
      obtain rfl := UpgradePolicy.listed.inj hlisted
      obtain ⟨hlower, hupper, hnodup⟩ := hoptions.upgrades listed hupgrades
      have hperm := List.mergeSort_perm listed UpgradeTarget.le
      exact ⟨hperm.length_eq ▸ hlower, hperm.length_eq ▸ hupper, hperm.nodup_iff.mpr hnodup⟩
  · exact (List.length_map _).trans_le hoptions.length
  · intro path hpath
    obtain ⟨item, hitem, rfl⟩ := List.mem_map.mp hpath
    exact (hoptions.paths item hitem).canonical mode

/-- Canonical settings are accepted. -/
theorem ProjectEgressSettings.Accepted.canonical {settings : ProjectEgressSettings}
    (haccepted : settings.Accepted) : settings.canonical.Accepted := by
  refine ⟨(List.length_map _).trans_le haccepted.length, ?_⟩
  intro rule hrule
  obtain ⟨item, hitem, rfl⟩ := List.mem_map.mp hrule
  obtain ⟨hlength, hdomain, hport, hoptions⟩ := haccepted.rules item hitem
  exact ⟨hlength, hdomain, hport, hoptions.canonical settings.mode⟩

/-- `canonical_settings` of accepted settings. -/
theorem canonicalSettings_eq {recode : Recoding ProjectEgressSettings}
    (hrecode : recode.Faithful ProjectEgressSettings.Accepted) {settings : ProjectEgressSettings}
    (haccepted : settings.Accepted) :
    canonicalSettings recode settings = .ok settings.canonical := by
  unfold canonicalSettings
  rw [hrecode settings haccepted]
  rfl

end Ads.SandboxEgress
