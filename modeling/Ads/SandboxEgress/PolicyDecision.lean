import Ads.Python.IpAddressText
import Ads.SandboxEgress.AntPatterns

/-!
# The decision of a policy

`Applies` and `Allowed` are the reference for `permitted`: a rule applies to a request in all its
conditions, a whitelist allows what some rule that applies allows by its domain, and a blacklist
what none denies. `permitted_iff` says that `permitted` decides as the reference does, whatever the
order of the rules, if it finishes, and `permitted_mono` that an unknown host name is allowed only
where every host name is.
-/

set_option autoImplicit false
set_option relaxedAutoImplicit false

namespace Ads.SandboxEgress

open Dns Foundation.StateExcept Foundation.Wildcards Python

/-! ### Settings the model accepts -/

/-- `EgressPath` as it is decoded. -/
structure EgressPath.Accepted (path : EgressPath) : Prop where
  /-- The length of the pattern. -/
  length : 1 ≤ path.pattern.length ∧ path.pattern.length ≤ 8192
  /-- The pattern starts with a slash. -/
  slash : path.pattern.head? = some '/'
  /-- The pattern has no NUL. -/
  plain : Char.ofNat 0 ∉ path.pattern

/-- `HttpMethod`. -/
def httpMethods : List Text :=
  ["any", "GET", "HEAD", "POST", "PUT", "DELETE", "CONNECT", "OPTIONS", "TRACE", "PATCH"].map
    String.toList

/-- `ProtocolSettings` as it is decoded. -/
structure ProtocolSettings.Accepted (settings : ProtocolSettings) : Prop where
  /-- The method is known. -/
  method : settings.method ∈ httpMethods
  /-- Listed upgrades are listed once. -/
  upgrades : ∀ targets, settings.upgrades = .listed targets →
    1 ≤ targets.length ∧ targets.length ≤ 2 ∧ targets.Nodup
  /-- The number of paths. -/
  length : settings.paths.length ≤ 256
  /-- The paths are accepted. -/
  paths : ∀ path ∈ settings.paths, path.Accepted

/-- The name of a domain pattern, without its wildcard. -/
def domainName (domain : Text) : Text :=
  match domain with
  | '*' :: '.' :: name => name
  | _ => domain

/-- `EgressRule` as it is decoded, its domain in lower case. -/
structure EgressRule.Accepted (rule : EgressRule) : Prop where
  /-- The length of the domain. -/
  length : 1 ≤ rule.domain.length ∧ rule.domain.length ≤ 253
  /-- The domain is any, or its labels are those of a host name. -/
  domain : rule.domain = ['*'] ∨ ((domainName rule.domain).splitOn '.').all isLabel
  /-- The port is in range. -/
  port : 1 ≤ rule.port ∧ rule.port ≤ 65535
  /-- The options are accepted. -/
  options : rule.protocolSettings.Accepted

/-- `ProjectEgressSettings` as it is decoded. -/
structure ProjectEgressSettings.Accepted (settings : ProjectEgressSettings) : Prop where
  /-- The number of rules. -/
  length : settings.rules.length ≤ 1024
  /-- The rules are accepted. -/
  rules : ∀ rule ∈ settings.rules, rule.Accepted

/-! ### The reference -/

/-- A domain pattern matches a host name: it is any, a suffix that one label is put before, or the
name. -/
def DomainMatches (pattern name : Text) : Prop :=
  pattern = ['*'] ∨
    (∃ label suffix, pattern = '*' :: '.' :: suffix ∧ '.' ∉ label ∧ name = label ++ '.' :: suffix) ∨
    (∀ suffix, pattern ≠ '*' :: '.' :: suffix) ∧ name = pattern

/-- The paths of a rule match the path of a request. -/
def PathsMatch (whitelist : Bool) (rule : EgressRule) (request : PolicyRequest) : Prop :=
  rule.protocolSettings.paths = [] ∨ ∃ path, request.normalizedPath = some path ∧
    ∃ item ∈ rule.protocolSettings.paths,
      AntMatches (encodeUtf8 item.pattern) path (item.caseInsensitive.getD (!whitelist))

/-- A rule admits an upgrade. -/
def Admits (rule : EgressRule) (target : UpgradeTarget) : Prop :=
  rule.protocolSettings.upgrades = .any ∨
    ∃ targets, rule.protocolSettings.upgrades = .listed targets ∧ target ∈ targets

/-- A rule applies to a request. -/
structure Applies (whitelist : Bool) (rule : EgressRule) (request : PolicyRequest) : Prop where
  /-- The port. -/
  port : rule.port = request.port
  /-- The protocol. -/
  protocol : rule.protocol = request.protocol
  /-- The sub-protocol. -/
  subProtocol : rule.subProtocol = .any ∨ rule.subProtocol = request.subProtocol
  /-- The method. -/
  method : rule.protocolSettings.method = "any".toList ∨
    rule.protocolSettings.method = request.method
  /-- The path. -/
  paths : PathsMatch whitelist rule request
  /-- The upgrade. -/
  upgrade : ∀ target, request.upgrade = some target → Admits rule target

/-- The decision of settings on a request for a host whose name may be known. -/
def Allowed (settings : ProjectEgressSettings) (request : PolicyRequest) (known : Option Text) :
    Prop :=
  match settings.mode with
  | .whitelist => ∃ rule ∈ settings.rules, Applies true rule request ∧
      (rule.domain = ['*'] ∨ ∃ name, known = some name ∧ DomainMatches rule.domain name)
  | .blacklist => ¬ ∃ rule ∈ settings.rules, Applies false rule request ∧
      (rule.domain = ['*'] ∨ known = none ∨
        ∃ name, known = some name ∧ DomainMatches rule.domain name)

/-! ### Rules -/

/-- A text that is divided at a character. -/
theorem partitionChar_eq {separator : Char} {text before after : Text} :
    partitionChar separator text = (before, true, after) ↔
      text = before ++ separator :: after ∧ separator ∉ before := by
  constructor
  · intro hparts
    by_cases hmem : separator ∈ text
    · obtain ⟨first, rest, rfl, hfirst⟩ := List.eq_append_cons_of_mem hmem
      rw [partitionChar_append hfirst] at hparts
      obtain ⟨rfl, hafter⟩ := Prod.mk.inj hparts
      obtain ⟨-, rfl⟩ := Prod.mk.inj hafter
      exact ⟨rfl, hfirst⟩
    · rw [partitionChar_of_not_mem hmem] at hparts
      cases hparts
  · rintro ⟨rfl, hbefore⟩
    exact partitionChar_append hbefore

/-- `domain_matches` decides the reference. -/
theorem domainMatches_iff {pattern name : Text} :
    domainMatches pattern name = true ↔ DomainMatches pattern name := by
  unfold domainMatches DomainMatches
  by_cases hany : pattern = ['*']
  · rw [if_pos hany]
    exact ⟨fun _ ↦ Or.inl hany, fun _ ↦ rfl⟩
  rw [if_neg hany, or_iff_right hany]
  split
  · rename_i suffix
    rw [beq_iff_eq]
    constructor
    · intro hparts
      obtain ⟨label, hlabel⟩ : ∃ label, partitionChar '.' name = (label, true, suffix) :=
        ⟨(partitionChar '.' name).1, Prod.ext rfl hparts⟩
      obtain ⟨rfl, hdot⟩ := partitionChar_eq.mp hlabel
      exact Or.inl ⟨label, suffix, rfl, hdot, rfl⟩
    · rintro (⟨label, other, hpattern, hdot, rfl⟩ | ⟨hplain, -⟩)
      · obtain rfl : suffix = other := by simpa using hpattern
        rw [partitionChar_append hdot]
      · exact absurd rfl (hplain suffix)
  · rename_i hplain
    rw [beq_iff_eq]
    constructor
    · intro hsame
      exact Or.inr ⟨hplain, hsame⟩
    · rintro (⟨label, suffix, hpattern, -⟩ | ⟨-, hsame⟩)
      · exact absurd hpattern (hplain suffix)
      · exact hsame

/-- The path of a pattern as bytes starts with a slash. -/
theorem EgressPath.Accepted.head?_encodeUtf8 {path : EgressPath} (hpath : path.Accepted) :
    (encodeUtf8 path.pattern).head? = some slashByte := by
  obtain ⟨rest, hrest⟩ : ∃ rest, path.pattern = '/' :: rest := by
    have hslash := hpath.slash
    cases hpattern : path.pattern with
    | nil =>
      rw [hpattern] at hslash
      cases hslash
    | cons first rest =>
      rw [hpattern] at hslash
      exact ⟨rest, congrArg (· :: rest) (Option.some.inj hslash)⟩
  rw [hrest]
  rfl

/-- What the evaluation of some paths fails for: lack of budget, or a pattern that is too long. -/
def Exceeds (paths : List EgressPath) (failure : Raised) : Prop :=
  OutOfBudget failure ∨ (∃ path ∈ paths, 8192 < (encodeUtf8 path.pattern).length) ∧
    failure = .requestDenied "path_limit"

/-- More paths may exceed more. -/
theorem Exceeds.mono {paths more : List EgressPath} {failure : Raised}
    (hexceeds : Exceeds paths failure) (hsubset : ∀ path ∈ paths, path ∈ more) :
    Exceeds more failure := by
  rcases hexceeds with hbudget | ⟨⟨path, hpath, hlong⟩, hlimit⟩
  · exact Or.inl hbudget
  · exact Or.inr ⟨⟨path, hsubset path hpath, hlong⟩, hlimit⟩

/-- A path is matched by one of some paths. -/
theorem anyPathMatches_spec (whitelist : Bool) {path : Bytes} {paths : List EgressPath}
    (hpaths : ∀ item ∈ paths, item.Accepted) (hslash : path.head? = some slashByte)
    (hlength : path.length ≤ 8192) (hzero : 0 ∉ path) (budget : MatchBudget) :
    Ensures (anyPathMatches whitelist path paths) budget
      (fun matched _ ↦ matched = true ↔ ∃ item ∈ paths,
        AntMatches (encodeUtf8 item.pattern) path (item.caseInsensitive.getD (!whitelist)))
      (Exceeds paths) := by
  induction paths generalizing budget with
  | nil =>
    unfold anyPathMatches
    rw [ensures_pure]
    simp
  | cons item rest ih =>
    obtain ⟨hitem, hrest⟩ := List.forall_mem_cons.mp hpaths
    unfold anyPathMatches
    rw [ensures_bind]
    refine (antMatches_spec _ budget hitem.head?_encodeUtf8 hslash hlength hzero).mono
      (fun matched budget hmatched ↦ ?_) fun failure hfailure ↦ ?_
    · rw [List.exists_mem_cons_iff, ← hmatched, ensures_ite]
      refine ⟨fun htrue ↦ ?_, fun hfalse ↦ ?_⟩
      · rw [ensures_pure]
        simp [htrue]
      · refine (ih hrest budget).mono (fun later _ hlater ↦ ?_) fun failure hfailure ↦ ?_
        · rw [hlater, or_iff_right hfalse]
        · exact hfailure.mono fun _ hpath ↦ List.mem_cons_of_mem _ hpath
    · rcases hfailure with hbudget | ⟨hlong, hlimit⟩
      · exact Or.inl hbudget
      · exact Or.inr ⟨⟨item, List.mem_cons_self, hlong⟩, hlimit⟩

/-- A request that passes the gate of `permitted` has a path in bounds. -/
theorem path_of_wellFormed {request : PolicyRequest} (hformed : wellFormed request = true)
    {path : Bytes} (hpath : request.normalizedPath = some path) :
    path.head? = some slashByte ∧ path.length ≤ 8192 ∧ 0 ∉ path := by
  unfold wellFormed at hformed
  obtain ⟨-, -, -, -, hpaths, -⟩ := of_decide_eq_true hformed
  exact hpaths path hpath

/-- The paths of a rule are matched. -/
theorem pathsAdmit_spec (whitelist : Bool) {rule : EgressRule} {request : PolicyRequest}
    (hrule : rule.Accepted) (hformed : wellFormed request = true) (budget : MatchBudget) :
    Ensures (pathsAdmit whitelist rule request) budget
      (fun admitted _ ↦ admitted = true ↔ PathsMatch whitelist rule request)
      (Exceeds rule.protocolSettings.paths) := by
  unfold pathsAdmit PathsMatch
  split
  · rename_i hpaths
    rw [ensures_pure]
    exact ⟨fun _ ↦ Or.inl hpaths, fun _ ↦ rfl⟩
  · rename_i hpath hpaths
    rw [ensures_pure]
    constructor
    · nofun
    · rintro (hnil | ⟨path, hsome, -⟩)
      · exact absurd hnil hpaths
      · cases hpath.symm.trans hsome
  · rename_i path hpath hpaths
    obtain ⟨hslash, hlength, hzero⟩ := path_of_wellFormed hformed hpath
    refine (anyPathMatches_spec whitelist hrule.options.paths hslash hlength hzero budget).mono
      (fun matched _ hmatched ↦ ?_) fun _ h ↦ h
    rw [hmatched, or_iff_right hpaths]
    constructor
    · exact fun hitem ↦ ⟨path, hpath, hitem⟩
    · rintro ⟨other, hother, hitem⟩
      obtain rfl := Option.some.inj (hpath.symm.trans hother)
      exact hitem

/-- An upgrade is admitted as the rule says. -/
theorem upgradesAdmit_iff {rule : EgressRule} {request : PolicyRequest} :
    upgradesAdmit rule request = true ↔
      ∀ target, request.upgrade = some target → Admits rule target := by
  unfold upgradesAdmit Admits
  cases request.upgrade with
  | none => exact ⟨fun _ _ ↦ nofun, fun _ ↦ rfl⟩
  | some target =>
    cases hupgrades : rule.protocolSettings.upgrades with
    | any => simp
    | none => simp
    | listed targets => simp

/-! ### Decisions -/

/-- A rule decides a request for names that are known. -/
def Decides (whitelist : Bool) (names : List Text) (request : PolicyRequest) (rule : EgressRule) :
    Prop :=
  Applies whitelist rule request ∧ (rule.domain = ['*'] ∨
    if whitelist then names ≠ [] ∧ ∀ name ∈ names, DomainMatches rule.domain name
    else names = [] ∨ ∃ name ∈ names, DomainMatches rule.domain name)

/-- The conditions that are checked before the paths are those of the reference. -/
theorem applies_iff {whitelist : Bool} {rule : EgressRule} {request : PolicyRequest} :
    Applies whitelist rule request ↔ appliesTo rule request = true ∧
      PathsMatch whitelist rule request ∧ upgradesAdmit rule request = true := by
  unfold appliesTo
  rw [upgradesAdmit_iff, decide_eq_true_iff]
  constructor
  · rintro ⟨hport, hprotocol, hsub, hmethod, hpaths, hupgrade⟩
    exact ⟨⟨hport, hprotocol, hsub, hmethod⟩, hpaths, hupgrade⟩
  · rintro ⟨⟨hport, hprotocol, hsub, hmethod⟩, hpaths, hupgrade⟩
    exact ⟨hport, hprotocol, hsub, hmethod, hpaths, hupgrade⟩

/-- One round of the loop over the rules. -/
theorem judgeRules_cons (whitelist : Bool) (names : List Text) (request : PolicyRequest)
    (rule : EgressRule) (rest : List EgressRule) :
    judgeRules whitelist names request (rule :: rest) =
      MatchBudget.consume 1 >>= fun _ ↦
        if ¬ appliesTo rule request then judgeRules whitelist names request rest
        else pathsAdmit whitelist rule request >>= fun admitted ↦
          if ¬ admitted ∨ ¬ upgradesAdmit rule request then
            judgeRules whitelist names request rest
          else if rule.domain = ['*'] then pure whitelist
          else if names = [] then
            if ¬ whitelist then pure false else judgeRules whitelist names request rest
          else if (if whitelist then names.all (domainMatches rule.domain)
            else names.any (domainMatches rule.domain)) then pure whitelist
          else judgeRules whitelist names request rest :=
  rfl

/-- The paths of the rules of a policy. -/
def rulePaths (rules : List EgressRule) : List EgressPath :=
  rules.flatMap fun rule ↦ rule.protocolSettings.paths

/-- The first rule that decides a request decides it, and without one the mode does. -/
theorem judgeRules_spec (whitelist : Bool) (names : List Text) {request : PolicyRequest}
    {rules : List EgressRule} (hrules : ∀ rule ∈ rules, rule.Accepted)
    (hformed : wellFormed request = true) (budget : MatchBudget) :
    Ensures (judgeRules whitelist names request rules) budget
      (fun decision _ ↦ decision = whitelist ↔ ∃ rule ∈ rules, Decides whitelist names request rule)
      (Exceeds (rulePaths rules)) := by
  induction rules generalizing budget with
  | nil =>
    unfold judgeRules
    rw [ensures_pure]
    simp
  | cons rule rest ih =>
    obtain ⟨hrule, hrest⟩ := List.forall_mem_cons.mp hrules
    -- A rule that does not decide leaves the decision to the rest.
    have hskip : ¬ Decides whitelist names request rule → ∀ budget,
        Ensures (judgeRules whitelist names request rest) budget
          (fun decision _ ↦ decision = whitelist ↔
            ∃ other ∈ rule :: rest, Decides whitelist names request other)
          (Exceeds (rulePaths (rule :: rest))) := by
      intro hnot budget
      refine (ih hrest budget).mono (fun decision _ hdecision ↦ ?_) fun failure hfailure ↦ ?_
      · rw [hdecision, List.exists_mem_cons_iff, or_iff_right hnot]
      · exact hfailure.mono fun _ hpath ↦ List.mem_append_right _ hpath
    have hdecided : Decides whitelist names request rule → ∀ budget,
        Ensures (pure whitelist : MatchM Bool) budget
          (fun decision _ ↦ decision = whitelist ↔
            ∃ other ∈ rule :: rest, Decides whitelist names request other)
          (Exceeds (rulePaths (rule :: rest))) := by
      intro hdecides budget
      rw [ensures_pure]
      exact ⟨fun _ ↦ ⟨rule, List.mem_cons_self, hdecides⟩, fun _ ↦ rfl⟩
    rw [judgeRules_cons, ensures_bind]
    refine (consume_spec 1 budget).mono (fun _ budget _ ↦ ?_) fun failure hfailure ↦
      Or.inl hfailure
    rw [ensures_ite]
    refine ⟨fun hother ↦ hskip (fun hdecides ↦ hother (applies_iff.mp hdecides.1).1) budget,
      fun happlies ↦ ?_⟩
    rw [ensures_bind]
    refine (pathsAdmit_spec whitelist hrule hformed budget).mono
      (fun admitted budget hadmitted ↦ ?_) fun failure hfailure ↦
        hfailure.mono fun _ hpath ↦ List.mem_append_left _ hpath
    rw [ensures_ite]
    constructor
    · intro hrefused
      refine hskip (fun hdecides ↦ ?_) budget
      obtain ⟨-, hpaths, hupgrade⟩ := applies_iff.mp hdecides.1
      rcases hrefused with hpath | htarget
      · exact hpath (hadmitted.mpr hpaths)
      · exact htarget hupgrade
    intro hadmits
    obtain ⟨hpath, hupgrade⟩ := not_or.mp hadmits
    have happly : Applies whitelist rule request :=
      applies_iff.mpr ⟨not_not.mp happlies, hadmitted.mp (not_not.mp hpath), not_not.mp hupgrade⟩
    rw [ensures_ite]
    refine ⟨fun hany ↦ hdecided ⟨happly, Or.inl hany⟩ budget, fun hnamed ↦ ?_⟩
    rw [ensures_ite]
    constructor
    · intro hunknown
      cases whitelist with
      | false =>
        exact hdecided ⟨happly, Or.inr (Or.inl hunknown)⟩ budget
      | true =>
        refine hskip (fun hdecides ↦ ?_) budget
        exact (hdecides.2.resolve_left hnamed).1 hunknown
    · intro hknown
      rw [ensures_ite]
      cases whitelist with
      | false =>
        have hmatches : (names.any (domainMatches rule.domain) = true) ↔
            ∃ name ∈ names, DomainMatches rule.domain name := by
          simp only [List.any_eq_true, domainMatches_iff]
        refine ⟨fun hmatched ↦ hdecided ⟨happly, Or.inr (Or.inr (hmatches.mp hmatched))⟩ budget,
          fun hmissed ↦ hskip (fun hdecides ↦ ?_) budget⟩
        exact hmissed (hmatches.mpr ((hdecides.2.resolve_left hnamed).resolve_left hknown))
      | true =>
        have hmatches : (names.all (domainMatches rule.domain) = true) ↔
            ∀ name ∈ names, DomainMatches rule.domain name := by
          simp only [List.all_eq_true, domainMatches_iff]
        refine ⟨fun hmatched ↦ hdecided ⟨happly, Or.inr ⟨hknown, hmatches.mp hmatched⟩⟩ budget,
          fun hmissed ↦ hskip (fun hdecides ↦ ?_) budget⟩
        exact hmissed (hmatches.mpr (hdecides.2.resolve_left hnamed).2)

/-- Names that agree are judged as the one they agree on. -/
theorem decides_iff {settings : ProjectEgressSettings} {request : PolicyRequest} {names : List Text}
    (hsame : ∀ first ∈ names, ∀ second ∈ names, first = second) {decision : Bool}
    (hdecision : decision = (settings.mode == .whitelist) ↔
      ∃ rule ∈ settings.rules, Decides (settings.mode == .whitelist) names request rule) :
    decision = true ↔ Allowed settings request names.head? := by
  have hforall : ∀ (property : Text → Prop), names ≠ [] ∧ (∀ name ∈ names, property name) ↔
      ∃ name, names.head? = some name ∧ property name := by
    intro property
    cases names with
    | nil => simp
    | cons first rest =>
      have hall : (∀ name ∈ first :: rest, property name) ↔ property first :=
        ⟨fun h ↦ h first List.mem_cons_self,
          fun h name hname ↦ hsame first List.mem_cons_self name hname ▸ h⟩
      rw [hall]
      simp
  have hexists : ∀ (property : Text → Prop), (names = [] ∨ ∃ name ∈ names, property name) ↔
      names.head? = none ∨ ∃ name, names.head? = some name ∧ property name := by
    intro property
    cases names with
    | nil => simp
    | cons first rest =>
      have hany : (∃ name ∈ first :: rest, property name) ↔ property first :=
        ⟨fun ⟨name, hname, h⟩ ↦ hsame first List.mem_cons_self name hname ▸ h,
          fun h ↦ ⟨first, List.mem_cons_self, h⟩⟩
      rw [hany]
      simp
  unfold Allowed
  unfold Decides at hdecision
  cases hmode : settings.mode with
  | whitelist =>
    rw [hmode] at hdecision
    simpa only [hforall, beq_self_eq_true, if_true] using hdecision
  | blacklist =>
    rw [hmode] at hdecision
    have hblack : (EgressMode.blacklist == EgressMode.whitelist) = false := rfl
    simp only [hblack, hexists, Bool.false_eq_true, if_false] at hdecision
    rw [← hdecision]
    cases decision
    · simp
    · simp

/-- The names differ when more than one remains without duplicates. -/
theorem not_one_lt_eraseDups_iff {α : Type} [BEq α] [LawfulBEq α] {items : List α} :
    ¬ items.eraseDups.length > 1 ↔ ∀ first ∈ items, ∀ second ∈ items, first = second := by
  constructor
  · intro hshort first hfirst second hsecond
    rw [← List.mem_eraseDups] at hfirst hsecond
    match hitems : items.eraseDups with
    | [] =>
      rw [hitems] at hfirst
      cases hfirst
    | [only] =>
      rw [hitems, List.mem_singleton] at hfirst hsecond
      rw [hfirst, hsecond]
    | _ :: _ :: _ =>
      rw [hitems] at hshort
      exact absurd (by simp) hshort
  · intro hsame
    cases items with
    | nil => simp
    | cons first rest =>
      have hfilter : rest.filter (fun other ↦ !other == first) = [] := by
        rw [List.filter_eq_nil_iff]
        intro other hother
        rw [hsame other (List.mem_cons_of_mem _ hother) first List.mem_cons_self]
        simp
      rw [List.eraseDups_cons, hfilter]
      simp

/-- `permitted` for a snapshot and a request of the right form. -/
theorem permitted_eq {snapshot : ProjectEgressSnapshot} {request : PolicyRequest}
    (hformed : wellFormed request = true) :
    permitted (some snapshot) request =
      request.names.mapM canonicalHost >>= fun names ↦
        if names.eraseDups.length > 1 then pure false
        else (judgeRules (snapshot.settings.mode == .whitelist) names request
          snapshot.settings.rules {}) >>= fun result ↦ pure result.1 := by
  unfold permitted
  simp only [hformed, not_true_eq_false, if_false]

/-- What `permitted` decides for names that it reads. -/
theorem permitted_eq_ok {snapshot : ProjectEgressSnapshot} {request : PolicyRequest}
    (haccepted : snapshot.settings.Accepted) (hformed : wellFormed request = true) {decision : Bool}
    (hrun : permitted (some snapshot) request = .ok decision) :
    ∃ names, request.names.mapM canonicalHost = .ok names ∧
      (decision = true ↔ (∀ first ∈ names, ∀ second ∈ names, first = second) ∧
        Allowed snapshot.settings request names.head?) := by
  rw [permitted_eq hformed] at hrun
  obtain ⟨names, hnames, hrun⟩ := except_bind_eq_ok.mp hrun
  refine ⟨names, hnames, ?_⟩
  by_cases hdiffer : names.eraseDups.length > 1
  · rw [if_pos hdiffer] at hrun
    obtain rfl := except_pure_eq_ok.mp hrun
    have hnot := mt not_one_lt_eraseDups_iff.mpr (not_not.mpr hdiffer)
    exact ⟨nofun, fun h ↦ absurd h.1 hnot⟩
  · rw [if_neg hdiffer] at hrun
    have hsame := not_one_lt_eraseDups_iff.mp hdiffer
    obtain ⟨⟨allowed, budget⟩, hjudged, hrun⟩ := except_bind_eq_ok.mp hrun
    obtain rfl := except_pure_eq_ok.mp hrun
    have hspec := judgeRules_spec (snapshot.settings.mode == .whitelist) names haccepted.rules
      hformed {}
    unfold Ensures at hspec
    rw [hjudged] at hspec
    rw [decides_iff hsame hspec]
    exact ⟨fun h ↦ ⟨hsame, h⟩, fun h ↦ h.2⟩

/-- What `permitted` fails for. -/
theorem permitted_eq_error {snapshot : ProjectEgressSnapshot} {request : PolicyRequest}
    (haccepted : snapshot.settings.Accepted) (hformed : wellFormed request = true)
    {failure : Raised} (hrun : permitted (some snapshot) request = .error failure) :
    Exceeds (rulePaths snapshot.settings.rules) failure ∨
      ∃ name ∈ request.names, canonicalHost name = .error failure := by
  rw [permitted_eq hformed] at hrun
  rcases except_bind_eq_error.mp hrun with hnames | ⟨names, -, hrun⟩
  · obtain ⟨before, name, after, hsplit, -, hname⟩ := except_mapM_eq_error.mp hnames
    exact Or.inr ⟨name, hsplit ▸ List.mem_append_right _ List.mem_cons_self, hname⟩
  · by_cases hdiffer : names.eraseDups.length > 1
    · rw [if_pos hdiffer] at hrun
      cases hrun
    · rw [if_neg hdiffer] at hrun
      rcases except_bind_eq_error.mp hrun with hjudged | ⟨_, -, hpure⟩
      · have hspec := judgeRules_spec (snapshot.settings.mode == .whitelist) names
          haccepted.rules hformed {}
        unfold Ensures at hspec
        rw [hjudged] at hspec
        exact Or.inl hspec
      · cases hpure

/-- The decision does not depend on the order of the rules. -/
theorem permitted_reordered {snapshot reordered : ProjectEgressSnapshot} {request : PolicyRequest}
    (haccepted : snapshot.settings.Accepted) (hformed : wellFormed request = true)
    {decision other : Bool} (hmode : reordered.settings.mode = snapshot.settings.mode)
    (hrules : reordered.settings.rules.Perm snapshot.settings.rules)
    (hdecision : permitted (some snapshot) request = .ok decision)
    (hother : permitted (some reordered) request = .ok other) : other = decision := by
  have hreordered : reordered.settings.Accepted :=
    ⟨hrules.length_eq ▸ haccepted.length, fun rule hrule ↦
      haccepted.rules rule (hrules.mem_iff.mp hrule)⟩
  obtain ⟨names, hnames, hiff⟩ := permitted_eq_ok haccepted hformed hdecision
  obtain ⟨same, hagain, hother⟩ := permitted_eq_ok hreordered hformed hother
  obtain rfl := Except.ok.inj (hnames.symm.trans hagain)
  rw [Bool.eq_iff_iff, hother, hiff]
  unfold Allowed
  simp only [hmode, hrules.mem_iff]

/-- `permitted` decides as the reference does, if it finishes, whatever the order of the rules. It
does not finish for lack of budget, for a pattern that is too long or for a name that is no host. -/
theorem permitted_iff {snapshot : ProjectEgressSnapshot} {request : PolicyRequest}
    (haccepted : snapshot.settings.Accepted) (hformed : wellFormed request = true) :
    (∀ decision, permitted (some snapshot) request = .ok decision →
      ∃ names, request.names.mapM canonicalHost = .ok names ∧
        (decision = true ↔ (∀ first ∈ names, ∀ second ∈ names, first = second) ∧
          Allowed snapshot.settings request names.head?)) ∧
    (∀ failure, permitted (some snapshot) request = .error failure →
      Exceeds (rulePaths snapshot.settings.rules) failure ∨
        ∃ name ∈ request.names, canonicalHost name = .error failure) ∧
    ∀ (reordered : ProjectEgressSnapshot) (decision other : Bool),
      reordered.settings.mode = snapshot.settings.mode →
      reordered.settings.rules.Perm snapshot.settings.rules →
      permitted (some snapshot) request = .ok decision →
      permitted (some reordered) request = .ok other → other = decision :=
  ⟨fun _ ↦ permitted_eq_ok haccepted hformed, fun _ ↦ permitted_eq_error haccepted hformed,
    fun _ _ _ ↦ permitted_reordered haccepted hformed⟩

/-- A policy that allows to read below one directory of the hosts under one domain. -/
def docsSnapshot : ProjectEgressSnapshot :=
  { revision := 1,
    settings := {
      rules := [{
        domain := "*.example".toList, port := 443, protocol := .https,
        protocolSettings := {
          method := "GET".toList, upgrades := .none, paths := [{ pattern := "/d/*".toList }] } }] } }

/-- A request that reads a file of that directory. -/
def docsRequest : PolicyRequest :=
  { names := ["A.example".toList], port := 443, protocol := .https, subProtocol := .http11,
    method := "GET".toList, normalizedPath := some (encodeUtf8 "/d/x".toList) }

/-- The policy is accepted. -/
theorem docsSnapshot_accepted : docsSnapshot.settings.Accepted := by
  refine ⟨by decide, ?_⟩
  intro rule hrule
  obtain rfl := List.mem_singleton.mp hrule
  refine ⟨by decide, Or.inr (by decide), by decide, by decide, nofun, by decide, ?_⟩
  intro path hpath
  obtain rfl := List.mem_singleton.mp hpath
  exact ⟨by decide, by decide, by decide⟩

/-- The request is allowed by a rule for its name, whose case is that of a host. -/
theorem permitted_iff_docs :
    permitted (some docsSnapshot) docsRequest = .ok true ∧
      Allowed docsSnapshot.settings docsRequest (some "a.example".toList) := by
  have hrun : permitted (some docsSnapshot) docsRequest = .ok true := by decide +kernel
  obtain ⟨names, hnames, hiff⟩ :=
    (permitted_iff docsSnapshot_accepted (by decide)).1 true hrun
  have hread : docsRequest.names.mapM canonicalHost = .ok ["a.example".toList] := by
    decide +kernel
  obtain rfl := Except.ok.inj (hnames.symm.trans hread)
  exact ⟨hrun, (hiff.mp rfl).2⟩

/-! ### Unknown names -/

/-- What the rules allow without a name they allow with every name. -/
theorem judgeRules_known {whitelist : Bool} (names : List Text) {request : PolicyRequest}
    {rules : List EgressRule} {budget final : MatchBudget}
    (hrun : judgeRules whitelist [] request rules budget = .ok (true, final)) :
    ∃ last, judgeRules whitelist names request rules budget = .ok (true, last) := by
  induction rules generalizing budget with
  | nil => exact ⟨final, hrun⟩
  | cons rule rest ih =>
    rw [judgeRules_cons] at hrun
    obtain ⟨⟨⟩, between, hconsumed, hrun⟩ := bind_eq_ok.mp hrun
    -- Both evaluations are the same up to the domain of the rule.
    have hcommon : ∀ {second : Unit → MatchM Bool}, (∃ last, second () between = .ok (true, last)) →
        ∃ last, (MatchBudget.consume 1 >>= second) budget = .ok (true, last) :=
      fun ⟨last, hlast⟩ ↦ ⟨last, bind_eq_ok.mpr ⟨(), between, hconsumed, hlast⟩⟩
    rw [judgeRules_cons]
    refine hcommon ?_
    by_cases happlies : appliesTo rule request = true
    swap
    · rw [if_pos happlies] at hrun ⊢
      exact ih hrun
    rw [if_neg (not_not.mpr happlies)] at hrun ⊢
    obtain ⟨admitted, matched, hpaths, hrun⟩ := bind_eq_ok.mp hrun
    have hthen : ∀ {second : Bool → MatchM Bool},
        (∃ last, second admitted matched = .ok (true, last)) →
        ∃ last, (pathsAdmit whitelist rule request >>= second) between = .ok (true, last) :=
      fun ⟨last, hlast⟩ ↦ ⟨last, bind_eq_ok.mpr ⟨admitted, matched, hpaths, hlast⟩⟩
    refine hthen ?_
    by_cases hrefused : ¬ admitted = true ∨ ¬ upgradesAdmit rule request = true
    · rw [if_pos hrefused] at hrun ⊢
      exact ih hrun
    rw [if_neg hrefused] at hrun ⊢
    by_cases hany : rule.domain = ['*']
    · rw [if_pos hany] at hrun ⊢
      exact ⟨final, hrun⟩
    rw [if_neg hany] at hrun ⊢
    rw [if_pos rfl] at hrun
    cases whitelist with
    | false =>
      obtain ⟨hfalse, -⟩ := pure_eq_ok.mp hrun
      cases hfalse
    | true =>
      rw [if_neg (not_not.mpr rfl)] at hrun
      by_cases hunknown : names = []
      · rw [if_pos hunknown, if_neg (not_not.mpr rfl)]
        exact ih hrun
      · rw [if_neg hunknown]
        by_cases hmatched : (if true = true then names.all (domainMatches rule.domain)
            else names.any (domainMatches rule.domain)) = true
        · rw [if_pos hmatched]
          exact ⟨matched, rfl⟩
        · rw [if_neg hmatched]
          exact ih hrun

/-- The names of the request are judged only as the names that are read from it. -/
theorem judgeRules_names (whitelist : Bool) (names others : List Text) (request : PolicyRequest)
    (rules : List EgressRule) :
    judgeRules whitelist names { request with names := others } rules =
      judgeRules whitelist names request rules := by
  induction rules with
  | nil => rfl
  | cons rule rest ih =>
    rw [judgeRules_cons, judgeRules_cons, ih]
    rfl

/-- What is allowed when no host name is known is allowed for every host name. -/
theorem permitted_mono {snapshot : Option ProjectEgressSnapshot} {request : PolicyRequest}
    (hunknown : permitted snapshot { request with names := [] } = .ok true) :
    ∀ host name, canonicalHost host = .ok name →
      permitted snapshot { request with names := [host] } = .ok true := by
  intro host name hhost
  cases snapshot with
  | none => cases hunknown
  | some snapshot =>
    have hformed : wellFormed { request with names := [] } = true := by
      by_contra hnot
      rw [permitted, if_pos hnot] at hunknown
      cases hunknown
    rw [permitted_eq hformed] at hunknown
    obtain ⟨names, hnames, hunknown⟩ := except_bind_eq_ok.mp hunknown
    obtain rfl := except_pure_eq_ok.mp hnames
    rw [if_neg (by decide)] at hunknown
    obtain ⟨⟨allowed, budget⟩, hjudged, hallowed⟩ := except_bind_eq_ok.mp hunknown
    obtain rfl := except_pure_eq_ok.mp hallowed
    rw [judgeRules_names] at hjudged
    obtain ⟨last, hlast⟩ := judgeRules_known [name] hjudged
    have hknown : wellFormed { request with names := [host] } = true := hformed
    rw [permitted_eq hknown]
    refine except_bind_eq_ok.mpr ⟨[name], ?_, ?_⟩
    · rw [List.mapM_cons]
      exact except_bind_eq_ok.mpr ⟨name, hhost, rfl⟩
    · have hone : ¬ [name].eraseDups.length > 1 := not_one_lt_eraseDups_iff.mpr (by simp)
      rw [if_neg hone, judgeRules_names]
      exact except_bind_eq_ok.mpr ⟨_, hlast, rfl⟩

/-- A policy that denies the hosts under one domain. -/
def deniedSnapshot : ProjectEgressSnapshot :=
  { revision := 1,
    settings := {
      mode := .blacklist,
      rules := [{
        domain := "*.example".toList, port := 80, protocol := .http,
        protocolSettings := { method := "any".toList, upgrades := .any } }] } }

/-- A request that the rule does not apply to is allowed for a host under the domain. -/
theorem permitted_mono_denied :
    permitted (some deniedSnapshot) { docsRequest with names := ["B.example".toList] } = .ok true :=
  permitted_mono (by decide +kernel) "B.example".toList "b.example".toList (by decide +kernel)

end Ads.SandboxEgress
