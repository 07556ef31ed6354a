import Mathlib.Data.List.MinMax
import Ads.SandboxEgress.DnssecDenial

/-!
# Chains of trust

The model of `dnssec_chain.py`. `zoneFrom` authenticates the keys of a zone: against a configured
anchor of the zone itself, or through the DS records of the zone that one of its observed signers
vouches for, which is authenticated first. The upstream resolver and the clocks are a parameter that
moves a world of its own and may answer anything.

The source recurses without a counter. `zoneFrom` counts the nested calls that may still be made and
stops with `outOfFuel`, which is no behaviour of the source: `authenticate_ends` says that it never
happens. `authenticate_secure` is the meaning of the state `secure`.
-/

set_option autoImplicit false
set_option relaxedAutoImplicit false

namespace Ads.SandboxEgress

open Dns Foundation.StateExcept

/-- A DNS message, as far as the chains read it. -/
structure Message where
  /-- The response code. -/
  rcode : ℕ
  /-- The answer section. -/
  answer : List RRset
  /-- The authority section. -/
  authority : List RRset
deriving DecidableEq, Repr

/-- `State`. -/
inductive SecurityState
  /-- The keys are trusted. -/
  | secure
  /-- The zone is proved to be unsigned. -/
  | insecure
  /-- The evidence is wrong. -/
  | bogus
  /-- The evidence is missing or unusable. -/
  | indeterminate
deriving DecidableEq, Repr

/-- `ZoneAuthentication`. Messages and checks carry the identity of their object. -/
structure ZoneAuthentication where
  /-- The zone. -/
  zone : Name
  /-- The verdict. -/
  state : SecurityState
  /-- The keys of a secure zone. -/
  trustedKeys : Option RRset := none
  /-- The messages acquired on the way. -/
  messages : List (ℕ × Message) := []
  /-- The signature checks made on the way. -/
  signatures : List (ℕ × SignatureCheck) := []
  /-- The DS checks made on the way. -/
  delegations : List (ℕ × DsCheck) := []
  /-- Why nothing could be established. -/
  limitation : Option String := none
  /-- The denial proofs made on the way. -/
  denials : List (ℕ × DenialProof) := []
deriving DecidableEq, Repr

/-- `exact`: the only RRset of the answer with the name, type and covered type. -/
def exactAnswer (message : Message) (name : Name) (kind : RdataType)
    (covers : RdataType := RdataType.none) : Option RRset :=
  match message.answer.filter fun rrset ↦
    rrset.name == name && rrset.rdtype == kind && rrset.covers == covers with
  | [found] => some found
  | _ => none

/-- The configured anchors, by zone. -/
abbrev Anchors := List (Name × RRset)

/-- `PositiveChains.__init__`: the anchors a configuration may have. -/
def configureAnchors (library : DnsLibrary) (anchors : Anchors) : BudgetM Anchors := do
  raiseIf (anchors = [] ∨ anchors.length > 16) (.exception "ValueError")
  anchors.forM fun (name, anchor) ↦ do
    bounded library anchor 64
    raiseIf (name ≠ anchor.name ∨ anchor.records = [] ∨
      anchor.rdtype ∉ [RdataType.ds, RdataType.dnskey]) (.exception "ValueError")
  return anchors

/-- `closest_anchor`: the most specific anchor at or above a name. -/
def closestAnchor (anchors : Anchors) (name : Name) : Option Name :=
  ((anchors.map Prod.fst).filter fun anchor ↦ name.IsSubdomain anchor).argmax
    fun anchor ↦ anchor.labels.length

/-- The resolver and the clocks. Each call moves the world it lives in. -/
structure Upstream (World : Type) where
  /-- `UpstreamResolver.exchange`. -/
  exchange : Name → RdataType → World → Except Raised (Message × World)
  /-- `time.time`. -/
  time : World → ℚ × World
  /-- `time.monotonic`. -/
  monotonic : World → ℚ × World

/-- How an authentication stops without a result. -/
inductive Halted
  /-- The source raises. -/
  | raised (failure : Raised)
  /-- The model makes no more nested calls. -/
  | outOfFuel
deriving DecidableEq, Repr

/-- The state of one call of `authenticate`. -/
structure ChainState (World : Type) where
  /-- The world of the resolver and the clocks. -/
  world : World
  /-- The verification budget. -/
  budget : CryptoBudget
  /-- `memo`: the zones with a result. -/
  memo : List (Name × ZoneAuthentication) := []
  /-- The identity of the next object. -/
  fresh : ℕ := 0

/-- Computations of one call of `authenticate`. -/
abbrev ChainM (World : Type) := StateT (ChainState World) (Except Halted)

section Primitives

variable {World : Type}

/-- Work that consumes the budget. -/
def charge {α : Type} (work : BudgetM α) : ChainM World α := do
  let state ← get
  match work state.budget with
  | .error failure => throw (.raised failure)
  | .ok (value, budget) =>
    set { state with budget := budget }
    return value

/-- A new object with its identity. -/
def identified {α : Type} (value : α) : ChainM World (ℕ × α) := do
  let state ← get
  set { state with fresh := state.fresh + 1 }
  return (state.fresh, value)

/-- An exchange with the upstream resolver. -/
def exchange (upstream : Upstream World) (name : Name) (kind : RdataType) :
    ChainM World (ℕ × Message) := do
  let state ← get
  match upstream.exchange name kind state.world with
  | .error failure => throw (.raised failure)
  | .ok (message, world) =>
    set { state with world := world }
    identified message

/-- A reading of one of the clocks. -/
def readClock (clock : World → ℚ × World) : ChainM World ℚ := do
  let state ← get
  let (reading, world) := clock state.world
  set { state with world := world }
  return reading

/-- Enter a result in the memo. -/
def remember (result : ZoneAuthentication) : ChainM World Unit := do
  let state ← get
  set { state with memo := (result.zone, result) :: state.memo }

end Primitives

/-- `dict[id(value)] = value` for each of the values. -/
def keep {α : Type} (kept added : List (ℕ × α)) : List (ℕ × α) :=
  added.foldl (fun kept item ↦ if item.1 ∈ kept.map Prod.fst then kept else kept ++ [item]) kept

/-- What `_zone` has gathered: one reference per object. -/
structure Gathered where
  /-- `messages`. -/
  messages : List (ℕ × Message) := []
  /-- `checks`. -/
  checks : List (ℕ × SignatureCheck) := []
  /-- `ds_checks`. -/
  dsChecks : List (ℕ × DsCheck) := []
  /-- `denials`. -/
  denials : List (ℕ × DenialProof) := []

/-- The objects of a parent's authentication are gathered too. -/
def Gathered.merge (gathered : Gathered) (parent : ZoneAuthentication) : Gathered where
  messages := keep gathered.messages parent.messages
  checks := keep gathered.checks parent.signatures
  dsChecks := keep gathered.dsChecks parent.delegations
  denials := keep gathered.denials parent.denials

/-- The constant inputs of one call of `authenticate`. -/
structure ChainContext (World : Type) where
  /-- The functions of dnspython and hashlib. -/
  library : DnsLibrary
  /-- dnspython's `nsec3_hash`. -/
  hasher : Nsec3Hasher
  /-- The configured anchors. -/
  anchors : Anchors
  /-- The resolver and the clocks. -/
  upstream : Upstream World
  /-- The deadline of the job. -/
  deadline : ℚ

section Zone

variable {World : Type} (context : ChainContext World)

/-- `result`: the result of a zone, unless the deadline of the job has passed. -/
def finish (zone : Name) (gathered : Gathered) (state : SecurityState)
    (trusted : Option RRset := none) (limitation : Option String := none) :
    ChainM World ZoneAuthentication := do
  let now ← readClock context.upstream.monotonic
  raiseIf (context.deadline ≤ now) (.raised (.requestDenied "dns_resolution_deadline"))
  let value : ZoneAuthentication :=
    { zone, state, trustedKeys := trusted, messages := gathered.messages,
      signatures := gathered.checks, delegations := gathered.dsChecks, limitation,
      denials := gathered.denials }
  remember value
  return value

/-- `dns.rrset.from_rdata` of keys. -/
def keysFromRdata (zone : Name) (ttl : ℕ) (records : List Rdata) : RRset :=
  { name := zone, rdclass := 1, rdtype := RdataType.dnskey, covers := RdataType.none, ttl, records }

/-- The state of a zone whose keys did not verify. -/
def unverified (checked : SignatureCheck) : SecurityState :=
  if checked.limitations ≠ [] ∨ checked.valid ∨ checked.unsupported ≠ [] ∧ checked.failures = [] then
    .indeterminate
  else .bogus

/-- The check of a key set against the trusted ones among its keys. -/
def verifyKeys (zone : Name) (keys : RRset) (signatures : Option RRset) (trusted : List Rdata)
    (gathered : Gathered) (limitation : String) : ChainM World ZoneAuthentication := do
  let now ← readClock context.upstream.time
  let checked ← charge (checkSignatures context.library keys signatures
    (keysFromRdata zone keys.ttl trusted) now)
  let object ← identified checked
  let gathered := { gathered with checks := keep gathered.checks [object] }
  if checked.verifiedExactly then finish context zone gathered .secure keys
  else finish context zone gathered (unverified checked) none limitation

/-- The branch of a zone with a configured anchor. -/
def authenticateAnchor (zone : Name) (anchor : RRset) (keys signatures : Option RRset)
    (gathered : Gathered) : ChainM World ZoneAuthentication :=
  match keys with
  | none => finish context zone gathered .indeterminate none "anchor_dnskey_absence_requires_proof"
  | some keys =>
    if keys.records = [] then
      finish context zone gathered .indeterminate none "anchor_dnskey_absence_requires_proof"
    else if anchor.rdtype = RdataType.ds then do
      let matched ← charge (checkDs context.library anchor keys)
      let object ← identified matched
      let gathered := { gathered with dsChecks := keep gathered.dsChecks [object] }
      if matched.supportedPaths = 0 then
        finish context zone gathered .indeterminate none "unsupported_upstream_anchor"
      else if matched.matched = [] then
        finish context zone gathered .bogus none "anchor_key_mismatch"
      else
        verifyKeys context zone keys signatures (matched.matched.map .dnskey) gathered
          "anchor_dnskey_verification"
    else
      let candidates := keys.records.filter (· ∈ anchor.records)
      if candidates = [] then finish context zone gathered .bogus none "anchor_key_mismatch"
      else verifyKeys context zone keys signatures candidates gathered "anchor_dnskey_verification"

/-- The signer of a signature may be asked about the zone: it is a proper ancestor, and not above
the closest anchor. -/
def MaySign (zone signer : Name) : Prop :=
  signer ≠ zone ∧ zone.IsSubdomain signer ∧
    ∀ boundary ∈ closestAnchor context.anchors zone, signer.IsSubdomain boundary

instance decidableMaySign (zone signer : Name) : Decidable (MaySign context zone signer) :=
  inferInstanceAs (Decidable (_ ∧ _ ∧ _))

/-- The signers of a signature set that may be asked about the zone. -/
def signersOf (zone : Name) (signatures : RRset) : List Name :=
  (signatures.signatures.map Rrsig.signer).filter fun signer ↦ MaySign context zone signer

/-- `parent_names`: the signers of the denial records of a message. -/
def parentNames (zone : Name) (authority : List RRset) : ChainM World (List Name) := do
  let sets := authority.filter fun rrset ↦
    rrset.rdtype = RdataType.rrsig ∧ rrset.covers ∈ [RdataType.nsec, RdataType.nsec3]
  sets.forM fun signatures ↦ charge (bounded context.library signatures 64)
  return (sets.flatMap (signersOf context zone)).eraseDups

/-- `evidence`: the denial records at or below a parent with their signature sets. -/
def evidenceOf (parent : Name) (authority proofSets : List RRset) : List (RRset × Option RRset) :=
  (proofSets.filter fun rrset ↦ rrset.name.IsSubdomain parent).map fun rrset ↦
    (rrset, match authority.filter fun item ↦ item.name == rrset.name &&
        item.rdtype == RdataType.rrsig && item.covers == rrset.rdtype with
      | [found] => some found
      | _ => none)

/-- The loop over the parents that may deny the delegation. -/
def denyByParents (recurse : Name → ChainM World ZoneAuthentication) (zone : Name)
    (authority proofSets : List RRset) : List Name → Gathered → ChainM World ZoneAuthentication
  | [], gathered =>
    finish context zone gathered .indeterminate none "delegation_absence_requires_proof"
  | parent :: rest, gathered => do
    let auth ← recurse parent
    let gathered := gathered.merge auth
    match auth.state, auth.trustedKeys with
    | .secure, some trusted =>
      let now ← readClock context.upstream.time
      let proof ← charge (validateDenial (checkSignatures context.library) context.hasher zone
        RdataType.ds .unsignedDelegation (evidenceOf parent authority proofSets) trusted now none)
      let object ← identified proof
      let gathered := { gathered with denials := keep gathered.denials [object] }
      if proof.valid then finish context zone gathered .insecure
      else denyByParents recurse zone authority proofSets rest gathered
    | _, _ => denyByParents recurse zone authority proofSets rest gathered

/-- The verdict where no parent vouched for the delegation. -/
def noParentPath (zone : Name) (gathered : Gathered) (parentStates : List SecurityState) :
    ChainM World ZoneAuthentication :=
  if .indeterminate ∈ parentStates ∨ gathered.checks.any fun (_, check) ↦
      !check.limitations.isEmpty || check.valid && check.verified.all (·.wildcard) then
    finish context zone gathered .indeterminate none "parent_evidence_incomplete"
  else if .insecure ∈ parentStates then
    finish context zone gathered .insecure none "signed_island_below_unsigned_cut"
  else finish context zone gathered .bogus none "no_valid_parent_path"

/-- The branch of a delegation that a secure parent vouches for. -/
def followDelegation (zone : Name) (keys signatures : Option RRset) (delegation : RRset)
    (gathered : Gathered) : ChainM World ZoneAuthentication := do
  let missing := keys.all fun keys ↦ keys.records.isEmpty
  let keys := keys.filter (fun keys ↦ !keys.records.isEmpty) |>.getD (keysFromRdata zone 0 [])
  let matched ← charge (checkDs context.library delegation keys)
  let object ← identified matched
  let gathered := { gathered with dsChecks := keep gathered.dsChecks [object] }
  if matched.supportedPaths = 0 then
    finish context zone gathered .insecure none "unsupported_only_delegation"
  else if matched.matched = [] then
    finish context zone gathered .bogus none
      (if missing then "authenticated_delegation_missing_dnskey" else "delegation_key_mismatch")
  else
    verifyKeys context zone keys signatures (matched.matched.map .dnskey) gathered
      "child_dnskey_verification"

/-- The loop over the parents that may vouch for the delegation. -/
def vouchByParents (recurse : Name → ChainM World ZoneAuthentication) (zone : Name)
    (keys signatures : Option RRset) (delegation delegationSignatures : RRset) :
    List Name → List SecurityState → Gathered → ChainM World ZoneAuthentication
  | [], parentStates, gathered => noParentPath context zone gathered parentStates
  | parent :: rest, parentStates, gathered => do
    let auth ← recurse parent
    let parentStates := parentStates ++ [auth.state]
    let gathered := gathered.merge auth
    match auth.state, auth.trustedKeys with
    | .secure, some trusted =>
      let now ← readClock context.upstream.time
      let checked ← charge (checkSignatures context.library delegation (some delegationSignatures)
        trusted now)
      let object ← identified checked
      let gathered := { gathered with checks := keep gathered.checks [object] }
      if checked.verifiedExactly then
        followDelegation context zone keys signatures delegation gathered
      else
        vouchByParents recurse zone keys signatures delegation delegationSignatures rest
          parentStates gathered
    | _, _ =>
      vouchByParents recurse zone keys signatures delegation delegationSignatures rest parentStates
        gathered

/-- The branch of a delegation without DS records. -/
def authenticateUnsigned (recurse : Name → ChainM World ZoneAuthentication) (zone : Name)
    (authority : List RRset) (gathered : Gathered) : ChainM World ZoneAuthentication := do
  let proofSets := authority.filter fun item ↦ item.rdtype ∈ [RdataType.nsec, RdataType.nsec3]
  raiseIf (proofSets.length > 64) (.raised (.requestDenied "dnssec_denial_scope_or_limit"))
  let parents ← parentNames context zone authority
  denyByParents context recurse zone authority proofSets parents gathered

/-- The answer without keys is a complete answer that the zone has none. -/
def completeAbsence (zone : Name) (message : Message) : Bool :=
  message.answer.isEmpty &&
    match message.authority.filter fun rrset ↦
        rrset.rdtype == RdataType.soa && rrset.name == zone with
    | [soa] => soa.records.length == 1
    | _ => false

/-- The branch of a delegation with DS records. -/
def authenticateSigned (recurse : Name → ChainM World ZoneAuthentication) (zone : Name)
    (message : Message) (keys signatures : Option RRset) (delegation : RRset)
    (delegationSignatures : Option RRset) (gathered : Gathered) :
    ChainM World ZoneAuthentication :=
  match delegationSignatures with
  | none =>
    finish context zone gathered .indeterminate none "delegation_signature_requires_parent"
  | some delegationSignatures =>
    if (keys.all fun keys ↦ keys.records.isEmpty) ∧ ¬ completeAbsence zone message then
      finish context zone gathered .indeterminate none "dnskey_absence_requires_proof"
    else do
      charge (bounded context.library delegationSignatures 64)
      let parents := (signersOf context zone delegationSignatures).eraseDups
      if parents = [] then
        finish context zone gathered .indeterminate none "no_observed_parent_signer"
      else
        vouchByParents context recurse zone keys signatures delegation delegationSignatures parents []
          gathered

/-- The branch of a zone without a configured anchor. -/
def authenticateDelegated (recurse : Name → ChainM World ZoneAuthentication) (zone : Name)
    (message : Message) (keys signatures : Option RRset) (gathered : Gathered) :
    ChainM World ZoneAuthentication := do
  let object ← exchange context.upstream zone RdataType.ds
  let gathered := { gathered with messages := keep gathered.messages [object] }
  if object.2.rcode ≠ 0 then
    finish context zone gathered .indeterminate none "delegation_resolution_failure"
  else
    match exactAnswer object.2 zone RdataType.ds with
    | none => authenticateUnsigned context recurse zone object.2.authority gathered
    | some delegation =>
      if delegation.records = [] then
        authenticateUnsigned context recurse zone object.2.authority gathered
      else
        authenticateSigned context recurse zone message keys signatures delegation
          (exactAnswer object.2 zone RdataType.rrsig RdataType.ds) gathered

/-- `_zone` after the memo and the limit of nested calls. -/
def authenticateZone (recurse : Name → ChainM World ZoneAuthentication) (zone : Name) :
    ChainM World ZoneAuthentication := do
  let object ← exchange context.upstream zone RdataType.dnskey
  let keys := exactAnswer object.2 zone RdataType.dnskey
  let signatures := exactAnswer object.2 zone RdataType.rrsig RdataType.dnskey
  let gathered : Gathered := { messages := [object] }
  if object.2.rcode ≠ 0 then
    finish context zone gathered .indeterminate none "dnskey_resolution_failure"
  else do
    keys.forM fun keys ↦ charge (bounded context.library keys 64)
    match context.anchors.lookup zone with
    | some anchor => authenticateAnchor context zone anchor keys signatures gathered
    | none => authenticateDelegated context recurse zone object.2 keys signatures gathered

/-- `_zone`, with a number of nested calls that may still be made. -/
def zoneFrom : ℕ → Name → List Name → ChainM World ZoneAuthentication
  | 0, _, _ => throw .outOfFuel
  | fuel + 1, zone, visiting => do
    let state ← get
    match state.memo.lookup zone with
    | some known => return known
    | none =>
      raiseIf (zone ∈ visiting ∨ 32 ≤ visiting.length)
        (.raised (.requestDenied "dnssec_chain_depth_or_cycle"))
      authenticateZone context (fun parent ↦ zoneFrom fuel parent (zone :: visiting)) zone

/-- `authenticate`. Thirty-three nested calls are one more than the limit of the source allows. -/
def authenticate (zone : Name) (budget : CryptoBudget) (world : World) :
    Except Halted ZoneAuthentication :=
  if ¬ zone.isAbsolute then .error (.raised (.exception "ValueError"))
  else
    match zoneFrom context 33 zone [] { world, budget } with
    | .error halted => .error halted
    | .ok (result, _) => .ok result

/-! ### The end of the recursion -/

section Ends

variable {context} {zone : Name} {recurse : Name → ChainM World ZoneAuthentication}

theorem avoids_charge {α : Type} {work : BudgetM α} :
    Avoids .outOfFuel (charge work : ChainM World α) := by
  refine Avoids.get.bind fun state ↦ ?_
  cases work state.budget with
  | error failure => exact Avoids.throw (by simp)
  | ok pair => exact Avoids.set.bind fun _ ↦ Avoids.pure

theorem avoids_identified {α : Type} {value : α} :
    Avoids .outOfFuel (identified value : ChainM World (ℕ × α)) :=
  Avoids.get.bind fun _ ↦ Avoids.set.bind fun _ ↦ Avoids.pure

theorem avoids_exchange {name : Name} {kind : RdataType} :
    Avoids .outOfFuel (exchange context.upstream name kind) := by
  refine Avoids.get.bind fun state ↦ ?_
  cases context.upstream.exchange name kind state.world with
  | error failure => exact Avoids.throw (by simp)
  | ok pair => exact Avoids.set.bind fun _ ↦ avoids_identified

theorem avoids_readClock {clock : World → ℚ × World} :
    Avoids .outOfFuel (readClock clock : ChainM World ℚ) :=
  Avoids.get.bind fun _ ↦ Avoids.set.bind fun _ ↦ Avoids.pure

theorem avoids_finish {gathered : Gathered} {state : SecurityState} {trusted : Option RRset}
    {limitation : Option String} :
    Avoids .outOfFuel (finish context zone gathered state trusted limitation) :=
  avoids_readClock.bind fun _ ↦ (Avoids.raiseIf (by simp)).bind fun _ ↦
    (Avoids.get.bind fun _ ↦ Avoids.set).bind fun _ ↦ Avoids.pure

theorem avoids_verifyKeys {keys : RRset} {signatures : Option RRset} {trusted : List Rdata}
    {gathered : Gathered} {limitation : String} :
    Avoids .outOfFuel (verifyKeys context zone keys signatures trusted gathered limitation) := by
  refine avoids_readClock.bind fun now ↦ avoids_charge.bind fun checked ↦
    avoids_identified.bind fun object ↦ ?_
  dsimp only
  split_ifs <;> exact avoids_finish

theorem avoids_authenticateAnchor {anchor : RRset} {keys signatures : Option RRset}
    {gathered : Gathered} :
    Avoids .outOfFuel (authenticateAnchor context zone anchor keys signatures gathered) := by
  cases keys with
  | none => exact avoids_finish
  | some keys =>
    unfold authenticateAnchor
    dsimp only
    split_ifs
    · exact avoids_finish
    · refine avoids_charge.bind fun matched ↦ avoids_identified.bind fun object ↦ ?_
      split_ifs
      · exact avoids_finish
      · exact avoids_finish
      · exact avoids_verifyKeys
    · exact avoids_finish
    · exact avoids_verifyKeys

theorem avoids_denyByParents (hrecurse : ∀ parent, Avoids .outOfFuel (recurse parent))
    {authority proofSets : List RRset} {parents : List Name} {gathered : Gathered} :
    Avoids .outOfFuel
      (denyByParents context recurse zone authority proofSets parents gathered) := by
  induction parents generalizing gathered with
  | nil => exact avoids_finish
  | cons parent rest ih =>
    unfold denyByParents
    refine (hrecurse parent).bind fun auth ↦ ?_
    dsimp only
    split
    · refine avoids_readClock.bind fun now ↦ avoids_charge.bind fun proof ↦
        avoids_identified.bind fun object ↦ ?_
      split_ifs
      · exact avoids_finish
      · exact ih
    · exact ih

theorem avoids_followDelegation {keys signatures : Option RRset} {delegation : RRset}
    {gathered : Gathered} :
    Avoids .outOfFuel (followDelegation context zone keys signatures delegation gathered) := by
  refine avoids_charge.bind fun matched ↦ avoids_identified.bind fun object ↦ ?_
  dsimp only
  split_ifs
  · exact avoids_finish
  · exact avoids_finish
  · exact avoids_finish
  · exact avoids_verifyKeys

theorem avoids_noParentPath {gathered : Gathered} {parentStates : List SecurityState} :
    Avoids .outOfFuel (noParentPath context zone gathered parentStates) := by
  unfold noParentPath
  split_ifs <;> exact avoids_finish

theorem avoids_vouchByParents (hrecurse : ∀ parent, Avoids .outOfFuel (recurse parent))
    {keys signatures : Option RRset} {delegation delegationSignatures : RRset}
    {parents : List Name} {parentStates : List SecurityState} {gathered : Gathered} :
    Avoids .outOfFuel (vouchByParents context recurse zone keys signatures delegation
      delegationSignatures parents parentStates gathered) := by
  induction parents generalizing parentStates gathered with
  | nil => exact avoids_noParentPath
  | cons parent rest ih =>
    unfold vouchByParents
    refine (hrecurse parent).bind fun auth ↦ ?_
    dsimp only
    split
    · refine avoids_readClock.bind fun now ↦ avoids_charge.bind fun checked ↦
        avoids_identified.bind fun object ↦ ?_
      split_ifs
      · exact avoids_followDelegation
      · exact ih
    · exact ih

theorem avoids_authenticateUnsigned (hrecurse : ∀ parent, Avoids .outOfFuel (recurse parent))
    {authority : List RRset} {gathered : Gathered} :
    Avoids .outOfFuel (authenticateUnsigned context recurse zone authority gathered) :=
  (Avoids.raiseIf (by simp)).bind fun _ ↦
    ((Avoids.forM fun _ ↦ avoids_charge).bind fun _ ↦ Avoids.pure).bind fun _ ↦
      avoids_denyByParents hrecurse

theorem avoids_authenticateSigned (hrecurse : ∀ parent, Avoids .outOfFuel (recurse parent))
    {message : Message} {keys signatures : Option RRset} {delegation : RRset}
    {delegationSignatures : Option RRset} {gathered : Gathered} :
    Avoids .outOfFuel (authenticateSigned context recurse zone message keys signatures delegation
      delegationSignatures gathered) := by
  cases delegationSignatures with
  | none => exact avoids_finish
  | some delegationSignatures =>
    unfold authenticateSigned
    dsimp only
    split_ifs
    · exact avoids_finish
    · exact avoids_charge.bind fun _ ↦ avoids_finish
    · exact avoids_charge.bind fun _ ↦ avoids_vouchByParents hrecurse

theorem avoids_authenticateDelegated (hrecurse : ∀ parent, Avoids .outOfFuel (recurse parent))
    {message : Message} {keys signatures : Option RRset} {gathered : Gathered} :
    Avoids .outOfFuel
      (authenticateDelegated context recurse zone message keys signatures gathered) := by
  refine avoids_exchange.bind fun object ↦ ?_
  dsimp only
  split_ifs
  · exact avoids_finish
  · split
    · exact avoids_authenticateUnsigned hrecurse
    · split_ifs
      · exact avoids_authenticateUnsigned hrecurse
      · exact avoids_authenticateSigned hrecurse

/-- The work on a zone does not run out of fuel if no nested call does. -/
theorem avoids_authenticateZone (hrecurse : ∀ parent, Avoids .outOfFuel (recurse parent)) :
    Avoids .outOfFuel (authenticateZone context recurse zone) := by
  refine avoids_exchange.bind fun object ↦ ?_
  dsimp only
  split_ifs
  · exact avoids_finish
  · refine Avoids.bind ?_ fun _ ↦ ?_
    · cases exactAnswer object.2 zone RdataType.dnskey with
      | none => exact Avoids.pure
      | some keys => exact avoids_charge
    · split
      · exact avoids_authenticateAnchor
      · exact avoids_authenticateDelegated hrecurse

/-- As many nested calls as the limit of the source leaves are enough. -/
theorem avoids_zoneFrom {fuel : ℕ} {visiting : List Name} (hvisiting : visiting.length ≤ 32)
    (hfuel : 33 ≤ fuel + visiting.length) :
    Avoids .outOfFuel (zoneFrom context fuel zone visiting) := by
  induction fuel generalizing zone visiting with
  | zero => omega
  | succ fuel ih =>
    unfold zoneFrom
    refine Avoids.get.bind fun state ↦ ?_
    split
    · exact Avoids.pure
    · refine Avoids.raiseIf_bind (by simp) fun hlimit ↦ avoids_authenticateZone fun parent ↦ ?_
      have hshort : visiting.length < 32 := Nat.not_le.mp fun hlong ↦ hlimit (Or.inr hlong)
      exact ih (by simp; omega) (by simp; omega)

end Ends

/-! ### What a secure zone has -/

/-- Some signature of the set verifies under the keys for the records themselves, not for an
expanded wildcard. -/
def Vouches (library : DnsLibrary) (records signatures keys : RRset) (now : ℚ) : Prop :=
  signatures.name = records.name ∧ signatures.covers = records.rdtype ∧
    ∃ path, IsVerifiedPath library records signatures keys now path ∧ path.wildcard = false

/-- The key has the digest of one of the DS records. -/
def HasDigest (library : DnsLibrary) (zone : Name) (delegation : RRset) (key : DnsKey) : Prop :=
  ∃ record ∈ delegation.delegations, library.makeDs zone key record.digestType = record

/-- The record is a key of an anchor: one of its keys, or one with the digest of its DS records. -/
def MatchesAnchor (library : DnsLibrary) (zone : Name) (anchor : RRset) (record : Rdata) : Prop :=
  if anchor.rdtype = RdataType.ds then
    ∃ key, record = .dnskey key ∧ HasDigest library zone anchor key
  else record ∈ anchor.records

/-- The zone's key set is trusted through a finite chain of zones from a configured anchor. -/
inductive Secured : Name → RRset → Prop
  /-- The key set of an anchor's zone is signed by one of its keys that matches the anchor. -/
  | anchor (zone : Name) (anchor keys signatures : RRset) (trusted : List Rdata) (now : ℚ) :
      context.anchors.lookup zone = some anchor → keys.name = zone →
      (∀ record ∈ trusted, record ∈ keys.records ∧
        MatchesAnchor context.library zone anchor record) →
      Vouches context.library keys signatures (keysFromRdata zone keys.ttl trusted) now →
      Secured zone keys
  /-- The DS set of a zone is verified by the keys of a secured zone that may sign it, and the key
  set of the zone is signed by one of its keys that matches one of the DS records. -/
  | delegation (zone parent : Name) (parentKeys delegation delegationSignatures keys signatures : RRset)
      (trusted : List DnsKey) (now later : ℚ) :
      Secured parent parentKeys → MaySign context zone parent → delegation.name = zone →
      delegation.rdtype = RdataType.ds →
      Vouches context.library delegation delegationSignatures parentKeys now → keys.name = zone →
      (∀ key ∈ trusted, key ∈ keys.keys ∧ HasDigest context.library zone delegation key) →
      Vouches context.library keys signatures
        (keysFromRdata zone keys.ttl (trusted.map .dnskey)) later →
      Secured zone keys

/-- A result that calls its zone secure has trusted keys of a secured zone. -/
def IsTrustworthy (auth : ZoneAuthentication) : Prop :=
  auth.state = .secure → ∃ keys, auth.trustedKeys = some keys ∧ Secured context auth.zone keys

/-- A result of `_zone` is about the zone and trustworthy, and has keys only where the zone is
secure. -/
structure IsResultOf (zone : Name) (auth : ZoneAuthentication) : Prop where
  /-- The zone. -/
  zone_eq : auth.zone = zone
  /-- A secure zone is secured. -/
  trustworthy : IsTrustworthy context auth
  /-- Keys are trusted in a secure zone only. -/
  secure : auth.trustedKeys ≠ none → auth.state = .secure

/-- Every result in the memo is one of its zone. -/
def MemoTrustworthy (state : ChainState World) : Prop :=
  ∀ zone auth, (zone, auth) ∈ state.memo → IsResultOf context zone auth

section Trust

variable {context} {zone : Name} {recurse : Name → ChainM World ZoneAuthentication}

/-- The zones of a chain descend from an anchor. -/
theorem Secured.exists_anchor {keys : RRset} (hsecured : Secured context zone keys) :
    ∃ anchor ∈ context.anchors.map Prod.fst, zone.IsSubdomain anchor := by
  induction hsecured with
  | anchor zone anchor keys signatures trusted now hanchor =>
    exact ⟨zone, List.mem_map.mpr ⟨_, mem_of_lookup hanchor, rfl⟩, .refl _⟩
  | delegation zone parent _ _ _ _ _ _ _ _ _ hsigner _ _ _ _ _ _ ih =>
    obtain ⟨anchor, hanchor, hparent⟩ := ih
    exact ⟨anchor, hanchor, hsigner.2.1.trans hparent⟩

theorem keeps_charge {α : Type} {work : BudgetM α} :
    Keeps (MemoTrustworthy context) (charge work)
      fun value ↦ ∃ budget final, work budget = .ok (value, final) := by
  refine Keeps.get.bind fun state hstate ↦ ?_
  cases hwork : work state.budget with
  | error failure => exact Keeps.throw
  | ok pair =>
    refine (Keeps.set (by exact hstate)).bind fun _ _ ↦ Keeps.pure ?_
    exact ⟨state.budget, pair.2, hwork⟩

theorem keeps_identified {α : Type} {value : α} :
    Keeps (MemoTrustworthy context) (identified value) fun _ ↦ True :=
  Keeps.get.bind fun _ hstate ↦ (Keeps.set (by exact hstate)).bind fun _ _ ↦ Keeps.pure trivial

theorem keeps_exchange {name : Name} {kind : RdataType} :
    Keeps (MemoTrustworthy context) (exchange context.upstream name kind) fun _ ↦ True := by
  refine Keeps.get.bind fun state hstate ↦ ?_
  cases context.upstream.exchange name kind state.world with
  | error failure => exact Keeps.throw
  | ok pair => exact (Keeps.set (by exact hstate)).bind fun _ _ ↦ keeps_identified

theorem keeps_readClock {clock : World → ℚ × World} :
    Keeps (MemoTrustworthy context) (readClock clock) fun _ ↦ True :=
  Keeps.get.bind fun _ hstate ↦ (Keeps.set (by exact hstate)).bind fun _ _ ↦ Keeps.pure trivial

theorem keeps_remember {auth : ZoneAuthentication} (hauth : IsResultOf context auth.zone auth) :
    Keeps (MemoTrustworthy context) (remember auth) fun _ ↦ True := by
  refine Keeps.get.bind fun state hstate ↦ (Keeps.set ?_).mono fun _ _ ↦ trivial
  intro zone other hmem
  rcases List.mem_cons.mp hmem with heq | hold
  · obtain ⟨rfl, rfl⟩ := Prod.mk.inj heq
    exact hauth
  · exact hstate zone other hold

/-- A result is trustworthy if its keys are secured whenever its state is `secure`. -/
theorem keeps_finish {gathered : Gathered} {state : SecurityState} {trusted : Option RRset}
    {limitation : Option String}
    (htrusted : state = .secure → ∃ keys, trusted = some keys ∧ Secured context zone keys)
    (hsecure : trusted ≠ none → state = .secure) :
    Keeps (MemoTrustworthy context) (finish context zone gathered state trusted limitation)
      (IsResultOf context zone) :=
  keeps_readClock.bind fun _ _ ↦ Keeps.raiseIf.bind fun _ _ ↦
    (keeps_remember ⟨rfl, by exact htrusted, hsecure⟩).bind fun _ _ ↦
      Keeps.pure ⟨rfl, by exact htrusted, hsecure⟩

/-- A check that ends with a verified path vouches for the records. -/
theorem vouches_of_checkSignatures {records keys : RRset} {signatures : Option RRset} {now : ℚ}
    {budget final : CryptoBudget} {checked : SignatureCheck}
    (hrun : checkSignatures context.library records signatures keys now budget =
      .ok (checked, final))
    (hexact : checked.verifiedExactly = true) :
    ∃ set, Vouches context.library records set keys now := by
  obtain ⟨path, hpath, hwildcard⟩ := List.any_eq_true.mp hexact
  obtain ⟨set, -, hname, hcovers, hverified⟩ := checkSignatures_verified hrun hpath
  exact ⟨set, hname, hcovers, path, hverified, by simpa using hwildcard⟩

theorem keeps_verifyKeys {keys : RRset} {signatures : Option RRset} {trusted : List Rdata}
    {gathered : Gathered} {limitation : String}
    (hsecured : ∀ set now, Vouches context.library keys set (keysFromRdata zone keys.ttl trusted) now →
      Secured context zone keys) :
    Keeps (MemoTrustworthy context)
      (verifyKeys context zone keys signatures trusted gathered limitation)
      (IsResultOf context zone) := by
  refine keeps_readClock.bind fun now _ ↦ keeps_charge.bind fun checked hchecked ↦
    keeps_identified.bind fun object _ ↦ ?_
  obtain ⟨budget, final, hrun⟩ := hchecked
  dsimp only
  split_ifs with hexact
  · obtain ⟨set, hvouches⟩ := vouches_of_checkSignatures hrun hexact
    exact keeps_finish (fun _ ↦ ⟨keys, rfl, hsecured set now hvouches⟩) fun _ ↦ rfl
  · refine keeps_finish (fun hstate ↦ ?_) (by simp)
    unfold unverified at hstate
    split_ifs at hstate

theorem keeps_authenticateAnchor {anchor : RRset} {keys signatures : Option RRset}
    {gathered : Gathered} (hanchor : context.anchors.lookup zone = some anchor)
    (hkeys : ∀ set ∈ keys, set.name = zone) :
    Keeps (MemoTrustworthy context)
      (authenticateAnchor context zone anchor keys signatures gathered)
      (IsResultOf context zone) := by
  cases keys with
  | none => exact keeps_finish nofun (by simp)
  | some keys =>
    have hname : keys.name = zone := hkeys keys rfl
    unfold authenticateAnchor
    dsimp only
    split_ifs with hempty hds hcandidates
    · exact keeps_finish nofun (by simp)
    · refine keeps_charge.bind fun matched hmatched ↦ keeps_identified.bind fun object _ ↦ ?_
      obtain ⟨budget, final, hrun⟩ := hmatched
      split_ifs
      · exact keeps_finish nofun (by simp)
      · exact keeps_finish nofun (by simp)
      · refine keeps_verifyKeys fun set now hvouches ↦
          .anchor zone anchor keys set _ now hanchor hname (fun record hrecord ↦ ?_) hvouches
        obtain ⟨key, hkey, rfl⟩ := List.mem_map.mp hrecord
        obtain ⟨hmem, hdigest⟩ := checkDs_matched hrun key hkey
        rw [MatchesAnchor, if_pos hds]
        exact ⟨RRset.mem_records_of_mem_keys hmem, key, rfl, hname ▸ hdigest⟩
    · exact keeps_finish nofun (by simp)
    · refine keeps_verifyKeys fun set now hvouches ↦
        .anchor zone anchor keys set _ now hanchor hname (fun record hrecord ↦ ?_) hvouches
      obtain ⟨hmem, hmatches⟩ := List.mem_filter.mp hrecord
      rw [MatchesAnchor, if_neg hds]
      exact ⟨hmem, of_decide_eq_true hmatches⟩

theorem keeps_denyByParents
    (hrecurse : ∀ parent, Keeps (MemoTrustworthy context) (recurse parent) (IsResultOf context parent))
    {authority proofSets : List RRset} {parents : List Name} {gathered : Gathered} :
    Keeps (MemoTrustworthy context)
      (denyByParents context recurse zone authority proofSets parents gathered)
      (IsResultOf context zone) := by
  induction parents generalizing gathered with
  | nil => exact keeps_finish nofun (by simp)
  | cons parent rest ih =>
    unfold denyByParents
    refine (hrecurse parent).bind fun auth _ ↦ ?_
    dsimp only
    split
    · refine keeps_readClock.bind fun now _ ↦ keeps_charge.bind fun proof _ ↦
        keeps_identified.bind fun object _ ↦ ?_
      split_ifs
      · exact keeps_finish nofun (by simp)
      · exact ih
    · exact ih

theorem keeps_noParentPath {gathered : Gathered} {parentStates : List SecurityState} :
    Keeps (MemoTrustworthy context) (noParentPath context zone gathered parentStates)
      (IsResultOf context zone) := by
  unfold noParentPath
  split_ifs <;> exact keeps_finish nofun (by simp)

/-- A delegation that the keys of a secured parent vouch for secures the zone. -/
theorem keeps_followDelegation {parent : Name} {parentKeys delegation delegationSignatures : RRset}
    {keys signatures : Option RRset} {gathered : Gathered} {now : ℚ}
    (hparent : Secured context parent parentKeys) (hsigner : MaySign context zone parent)
    (hname : delegation.name = zone) (htype : delegation.rdtype = RdataType.ds)
    (hvouches : Vouches context.library delegation delegationSignatures parentKeys now)
    (hkeys : ∀ set ∈ keys, set.name = zone) :
    Keeps (MemoTrustworthy context)
      (followDelegation context zone keys signatures delegation gathered)
      (IsResultOf context zone) := by
  unfold followDelegation
  generalize hset : (keys.filter fun keys ↦ !keys.records.isEmpty).getD (keysFromRdata zone 0 []) = set
  have hsetName : set.name = zone := by
    cases keys with
    | none => exact hset ▸ rfl
    | some found =>
      by_cases hempty : found.records.isEmpty
      · simp only [Option.filter, hempty] at hset
        exact hset ▸ rfl
      · simp only [Option.filter, hempty] at hset
        exact hset ▸ hkeys found rfl
  refine keeps_charge.bind fun matched hmatched ↦ keeps_identified.bind fun object _ ↦ ?_
  obtain ⟨budget, final, hrun⟩ := hmatched
  split_ifs
  · exact keeps_finish nofun (by simp)
  · exact keeps_finish nofun (by simp)
  · exact keeps_finish nofun (by simp)
  · refine keeps_verifyKeys fun found later hfound ↦ .delegation zone parent parentKeys delegation
      delegationSignatures set found matched.matched now later hparent hsigner hname htype hvouches
      hsetName (fun key hkey ↦ ?_) hfound
    exact hsetName ▸ checkDs_matched hrun key hkey

theorem keeps_vouchByParents
    (hrecurse : ∀ parent, Keeps (MemoTrustworthy context) (recurse parent) (IsResultOf context parent))
    {keys signatures : Option RRset} {delegation delegationSignatures : RRset}
    {parents : List Name} {parentStates : List SecurityState} {gathered : Gathered}
    (hparents : ∀ parent ∈ parents, MaySign context zone parent)
    (hname : delegation.name = zone) (htype : delegation.rdtype = RdataType.ds)
    (hkeys : ∀ set ∈ keys, set.name = zone) :
    Keeps (MemoTrustworthy context) (vouchByParents context recurse zone keys signatures delegation
      delegationSignatures parents parentStates gathered) (IsResultOf context zone) := by
  induction parents generalizing parentStates gathered with
  | nil => exact keeps_noParentPath
  | cons parent rest ih =>
    have hrest : ∀ states gathered, Keeps (MemoTrustworthy context) (vouchByParents context recurse
        zone keys signatures delegation delegationSignatures rest states gathered)
        (IsResultOf context zone) :=
      fun _ _ ↦ ih fun other hother ↦ hparents other (List.mem_cons_of_mem _ hother)
    unfold vouchByParents
    refine (hrecurse parent).bind fun auth hauth ↦ ?_
    dsimp only
    split
    · rename_i trusted hstate htrusted
      refine keeps_readClock.bind fun now _ ↦ keeps_charge.bind fun checked hchecked ↦
        keeps_identified.bind fun object _ ↦ ?_
      obtain ⟨budget, final, hrun⟩ := hchecked
      split_ifs with hexact
      · obtain ⟨set, hvouches⟩ := vouches_of_checkSignatures hrun hexact
        obtain ⟨parentKeys, hsame, hsecured⟩ := hauth.2 hstate
        obtain rfl := Option.some.inj (htrusted.symm.trans hsame)
        rw [hauth.1] at hsecured
        exact keeps_followDelegation hsecured (hparents parent List.mem_cons_self) hname htype
          hvouches hkeys
      · exact hrest _ _
    · exact hrest _ _

theorem keeps_authenticateUnsigned
    (hrecurse : ∀ parent, Keeps (MemoTrustworthy context) (recurse parent) (IsResultOf context parent))
    {authority : List RRset} {gathered : Gathered} :
    Keeps (MemoTrustworthy context) (authenticateUnsigned context recurse zone authority gathered)
      (IsResultOf context zone) := by
  refine Keeps.raiseIf.bind fun _ _ ↦ ?_
  refine Keeps.bind ?_ fun parents (_ : True) ↦ keeps_denyByParents hrecurse
  exact (Keeps.forM fun _ ↦ keeps_charge.mono fun _ _ ↦ trivial).bind fun _ _ ↦ Keeps.pure trivial

/-- What an answer holds under a name and type has that name and type. -/
theorem exactAnswer_eq_some {message : Message} {name : Name} {kind covers : RdataType}
    {found : RRset} (hfound : exactAnswer message name kind covers = some found) :
    found.name = name ∧ found.rdtype = kind := by
  unfold exactAnswer at hfound
  split at hfound
  · rename_i only hfilter
    have hmem : only ∈ message.answer.filter fun rrset ↦
        rrset.name == name && rrset.rdtype == kind && rrset.covers == covers := by
      rw [hfilter]
      exact List.mem_singleton_self only
    have htest := (List.mem_filter.mp hmem).2
    simp only [Bool.and_eq_true, beq_iff_eq] at htest
    exact Option.some.inj hfound ▸ htest.1
  · cases hfound

/-- The signers of a signature set may sign the zone. -/
theorem maySign_of_mem_signersOf {signatures : RRset} {signer : Name}
    (hsigner : signer ∈ (signersOf context zone signatures).eraseDups) :
    MaySign context zone signer :=
  of_decide_eq_true (List.mem_filter.mp (List.mem_eraseDups.mp hsigner)).2

theorem keeps_authenticateSigned
    (hrecurse : ∀ parent, Keeps (MemoTrustworthy context) (recurse parent) (IsResultOf context parent))
    {message : Message} {keys signatures : Option RRset} {delegation : RRset}
    {delegationSignatures : Option RRset} {gathered : Gathered}
    (hname : delegation.name = zone) (htype : delegation.rdtype = RdataType.ds)
    (hkeys : ∀ set ∈ keys, set.name = zone) :
    Keeps (MemoTrustworthy context) (authenticateSigned context recurse zone message keys signatures
      delegation delegationSignatures gathered) (IsResultOf context zone) := by
  cases delegationSignatures with
  | none => exact keeps_finish nofun (by simp)
  | some delegationSignatures =>
    unfold authenticateSigned
    dsimp only
    split_ifs
    · exact keeps_finish nofun (by simp)
    · exact keeps_charge.bind fun _ _ ↦ keeps_finish nofun (by simp)
    · exact keeps_charge.bind fun _ _ ↦ keeps_vouchByParents hrecurse
        (fun parent hparent ↦ maySign_of_mem_signersOf hparent) hname htype hkeys

theorem keeps_authenticateDelegated
    (hrecurse : ∀ parent, Keeps (MemoTrustworthy context) (recurse parent) (IsResultOf context parent))
    {message : Message} {keys signatures : Option RRset} {gathered : Gathered}
    (hkeys : ∀ set ∈ keys, set.name = zone) :
    Keeps (MemoTrustworthy context)
      (authenticateDelegated context recurse zone message keys signatures gathered)
      (IsResultOf context zone) := by
  refine keeps_exchange.bind fun object _ ↦ ?_
  dsimp only
  split_ifs
  · exact keeps_finish nofun (by simp)
  · split
    · exact keeps_authenticateUnsigned hrecurse
    · rename_i delegation hdelegation
      obtain ⟨hname, htype⟩ := exactAnswer_eq_some hdelegation
      split_ifs
      · exact keeps_authenticateUnsigned hrecurse
      · exact keeps_authenticateSigned hrecurse hname htype hkeys

/-- The work on a zone is trustworthy if the nested calls are. -/
theorem keeps_authenticateZone
    (hrecurse : ∀ parent, Keeps (MemoTrustworthy context) (recurse parent) (IsResultOf context parent)) :
    Keeps (MemoTrustworthy context) (authenticateZone context recurse zone)
      (IsResultOf context zone) := by
  refine keeps_exchange.bind fun object _ ↦ ?_
  dsimp only
  have hkeys : ∀ set ∈ exactAnswer object.2 zone RdataType.dnskey, set.name = zone :=
    fun set hset ↦ (exactAnswer_eq_some hset).1
  split_ifs
  · exact keeps_finish nofun (by simp)
  · refine Keeps.bind ?_ fun _ (_ : True) ↦ ?_
    · cases exactAnswer object.2 zone RdataType.dnskey with
      | none => exact Keeps.pure trivial
      | some keys => exact keeps_charge.mono fun _ _ ↦ trivial
    · split
      · rename_i anchor hanchor
        exact keeps_authenticateAnchor hanchor hkeys
      · exact keeps_authenticateDelegated hrecurse hkeys

/-- Every result of `_zone` is trustworthy, by induction on the nested calls. -/
theorem keeps_zoneFrom {fuel : ℕ} {visiting : List Name} :
    Keeps (MemoTrustworthy context) (zoneFrom context fuel zone visiting)
      (IsResultOf context zone) := by
  induction fuel generalizing zone visiting with
  | zero => exact Keeps.throw
  | succ fuel ih =>
    unfold zoneFrom
    refine Keeps.get.bind fun state hstate ↦ ?_
    split
    · rename_i known hknown
      exact Keeps.pure (hstate zone known (mem_of_lookup hknown))
    · exact Keeps.raiseIf.bind fun _ _ ↦ keeps_authenticateZone fun parent ↦ ih

end Trust

/-- A zone is called secure only through a finite chain of zones from a configured anchor, whatever
the resolver and the clocks do, and the recursion that builds the chain ends. -/
theorem authenticate_secure (zone : Name) (budget : CryptoBudget) (world : World) :
    authenticate context zone budget world ≠ .error .outOfFuel ∧
      ∀ auth, authenticate context zone budget world = .ok auth → auth.state = .secure →
        ∃ keys, auth.trustedKeys = some keys ∧ Secured context zone keys := by
  have havoids : Avoids .outOfFuel (zoneFrom context 33 zone []) :=
    avoids_zoneFrom (by simp) (by simp)
  have hends := havoids { world, budget }
  unfold authenticate
  by_cases habsolute : zone.isAbsolute = true
  · rw [if_neg (not_not.mpr habsolute)]
    cases hrun : zoneFrom context 33 zone [] { world, budget } with
    | error halted =>
      rw [hrun] at hends
      exact ⟨fun heq ↦ hends (congrArg _ (Except.error.inj heq)), nofun⟩
    | ok pair =>
      refine ⟨nofun, fun auth hauth hsecure ↦ ?_⟩
      obtain rfl := Except.ok.inj hauth
      obtain ⟨-, hzone, htrustworthy⟩ := keeps_zoneFrom { world, budget } pair.1 pair.2
        (fun _ _ hmem ↦ absurd hmem List.not_mem_nil) hrun
      exact hzone ▸ htrustworthy hsecure
  · rw [if_pos habsolute]
    exact ⟨by simp, nofun⟩

end Zone

end Ads.SandboxEgress
