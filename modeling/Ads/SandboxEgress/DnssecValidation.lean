import Mathlib
import Ads.Dns.Records
import Ads.SandboxEgress.Policy

/-!
# Bounded signature and digest checks

The model of `dnssec_validation.py`: the budget shared by the cryptographic work of one resolution,
the check of an RRset against the keys of a zone and the comparison of a DS set with a key set.
What dnspython and hashlib compute (wire forms, fingerprints, key tags, the verification of one
signature and the digest of one key) is the parameter `DnsLibrary`, an oracle that may answer
anything. Clock readings are rational numbers; the source refuses a reading that is not finite.

`checkSignatures_verified` and `checkDs_matched` are what callers learn from a check: every verified
path names a signature of the set and a key of the supplied keys that the library accepted together,
inside the signature's own lifetime and for the zone of the keys, and every matched key has the
digest of one of the supplied DS records.
-/

set_option autoImplicit false
set_option relaxedAutoImplicit false

namespace Ads.SandboxEgress

open Dns Foundation.StateExcept

/-- `CryptoBudget`: the verification work that is left. -/
structure CryptoBudget where
  /-- The units of work that may still be consumed. -/
  remaining : ℕ := 128
deriving DecidableEq, Repr

/-- Computations that consume the budget and may raise. -/
abbrev BudgetM := StateT CryptoBudget (Except Raised)

/-- `CryptoBudget.consume`. -/
def CryptoBudget.consume (count : ℕ) : BudgetM Unit := do
  raiseIf (count < 1) (.exception "ValueError")
  let budget ← get
  raiseIf (budget.remaining < count) (.requestDenied "dnssec_crypto_budget")
  set (CryptoBudget.mk (budget.remaining - count))

/-- The defects a check can report. -/
inductive Defect
  /-- The lifetime of the signature ended. -/
  | signatureExpired
  /-- The lifetime of the signature has not begun. -/
  | signatureNotYetValid
  /-- The signature does not verify. -/
  | signatureInvalid
  /-- There is no signature. -/
  | signatureMissing
  /-- Another zone signed, or the label count exceeds the owner's. -/
  | signerScope
  /-- No key has the algorithm and tag. -/
  | dnskeyMissing
  /-- The key is not a zone key. -/
  | dnskeyFlags
  /-- The key has a wrong protocol. -/
  | dnskeyProtocol
  /-- The key does not have the digest. -/
  | dsMismatch
deriving DecidableEq, Repr

/-- `Failure`: a defect with the fingerprints of the records it concerns. -/
structure Failure where
  /-- What is wrong. -/
  defect : Defect
  /-- The fingerprint of the signature or DS record. -/
  record : Option String := none
  /-- The fingerprint of the key. -/
  key : Option String := none
deriving DecidableEq, Repr

/-- `VerifiedSignature`: a signature that verified under a key. -/
structure VerifiedSignature where
  /-- The signature. -/
  signature : Rrsig
  /-- The key. -/
  key : DnsKey
  /-- The records were expanded from a wildcard. -/
  wildcard : Bool
deriving DecidableEq, Repr

/-- `SignatureCheck`: everything observed while checking the signatures of an RRset. -/
structure SignatureCheck where
  /-- The paths that verified. -/
  verified : List VerifiedSignature := []
  /-- The paths that failed. -/
  failures : List Failure := []
  /-- The signatures of unsupported algorithms. -/
  unsupported : List String := []
  /-- The signatures this adapter cannot judge. -/
  limitations : List String := []
deriving DecidableEq, Repr

/-- `SignatureCheck.valid`: some path verified. -/
def SignatureCheck.valid (check : SignatureCheck) : Bool :=
  !check.verified.isEmpty

/-- The recurring test `any(not path.wildcard for path in checked.verified)`. -/
def SignatureCheck.verifiedExactly (check : SignatureCheck) : Bool :=
  check.verified.any fun path ↦ !path.wildcard

/-- A check with one more failure. -/
def SignatureCheck.fail (check : SignatureCheck) (failure : Failure) : SignatureCheck :=
  { check with failures := check.failures ++ [failure] }

@[simp] theorem SignatureCheck.verified_fail (check : SignatureCheck) (failure : Failure) :
    (check.fail failure).verified = check.verified :=
  rfl

/-- `DSCheck`: the keys that some DS record names, and what was observed on the way. -/
structure DsCheck where
  /-- The keys with a matching digest. -/
  matched : List DnsKey := []
  /-- The paths that failed. -/
  failures : List Failure := []
  /-- The DS records of unsupported algorithms or digests. -/
  unsupported : List String := []
  /-- The number of DS records of supported algorithm and digest. -/
  supportedPaths : ℕ := 0
deriving DecidableEq, Repr

/-- How the library judges one signature under one key. -/
inductive Judgement
  /-- The signature verifies. -/
  | verified
  /-- The library has no implementation of the algorithm. -/
  | unsupportedAlgorithm
  /-- The signature does not verify. -/
  | invalid
deriving DecidableEq, Repr

/-- The functions of dnspython and hashlib that the checks call. -/
structure DnsLibrary where
  /-- `Rdata.to_wire`. -/
  toWire : Rdata → Bytes
  /-- `hashlib.sha256(...).hexdigest`. -/
  sha256Hex : Bytes → String
  /-- `dns.dnssec.key_id`. -/
  keyId : DnsKey → ℕ
  /-- `_algorithm_supported`: the registry has the algorithm and the default policy allows it. -/
  algorithmSupported : ℕ → Bool
  /-- `default_policy.ok_to_validate_ds`. -/
  okToValidateDs : ℕ → Bool
  /-- `dns.dnssec.validate_rrsig` under the key set of one zone with one key, at a given time. -/
  validateRrsig : RRset → Rrsig → Name → DnsKey → ℚ → Judgement
  /-- `_verify_ineligible_signature`, whose success is never accepted. -/
  verifyIneligibleSignature : RRset → Rrsig → DnsKey → Judgement
  /-- `dns.dnssec.make_ds` with `validating=True`. -/
  makeDs : Name → DnsKey → ℕ → Ds

/-- `Name.to_wire`, by its length. -/
def nameWireLength (name : Name) : ℕ :=
  (name.labels.map fun label ↦ label.length + 1).sum

/-- `fingerprint`. -/
def fingerprint (library : DnsLibrary) (record : Rdata) : String :=
  library.sha256Hex (library.toWire record)

/-- The running total of `_bounded` never passes the wire limit. -/
def withinWireLimit (library : DnsLibrary) (owner : ℕ) : ℕ → List Rdata → Bool
  | _, [] => true
  | total, record :: rest =>
    let total := total + owner + (library.toWire record).length + 10
    if total > 65535 then false else withinWireLimit library owner total rest

/-- `_bounded`. -/
def bounded (library : DnsLibrary) (rrset : RRset) (maximum : ℕ) : BudgetM Unit := do
  raiseIf (¬ rrset.name.isAbsolute ∨ rrset.rdclass ≠ 1 ∨ rrset.records.length > maximum)
    (.requestDenied "dnssec_evidence_scope_or_limit")
  raiseIf (¬ withinWireLimit library (nameWireLength rrset.name) 0 rrset.records)
    (.requestDenied "dnssec_evidence_wire_limit")

/-- A key that may sign zone data: a zone key of the only protocol. -/
def EligibleKey (key : DnsKey) : Prop :=
  key.flags &&& 256 ≠ 0 ∧ key.protocol = 3

instance decidableEligibleKey (key : DnsKey) : Decidable (EligibleKey key) :=
  inferInstanceAs (Decidable (_ ∧ _))

/-- The eligibility defects of a candidate key. -/
def reportEligibility (signatureId keyId : String) (key : DnsKey) (check : SignatureCheck) :
    SignatureCheck :=
  let check :=
    if key.flags &&& 256 = 0 then check.fail ⟨.dnskeyFlags, some signatureId, some keyId⟩
    else check
  if key.protocol ≠ 3 then check.fail ⟨.dnskeyProtocol, some signatureId, some keyId⟩ else check

/-- The lifetime defects of a signature at a clock reading. -/
def reportLifetime (signatureId : String) (now : ℚ) (signature : Rrsig) (check : SignatureCheck) :
    SignatureCheck :=
  let check :=
    if (signature.expiration : ℚ) < now then
      check.fail ⟨.signatureExpired, some signatureId, none⟩
    else check
  if (signature.inception : ℚ) > now then
    check.fail ⟨.signatureNotYetValid, some signatureId, none⟩
  else check

/-- The verdict on a signature under a candidate key. An ineligible key is only diagnosed, and the
signature is verified at the moment of its lifetime closest to the clock reading. -/
def judge (library : DnsLibrary) (records : RRset) (zone : Name) (now : ℚ) (signature : Rrsig)
    (key : DnsKey) : Judgement :=
  if EligibleKey key then
    library.validateRrsig records signature zone key
      (max (signature.inception : ℚ) (min now signature.expiration))
  else library.verifyIneligibleSignature records signature key

/-- The records were expanded from a wildcard: the signature covers fewer labels than the owner
has, and the owner is not the wildcard itself. -/
def expanded (records : RRset) (signature : Rrsig) : Bool :=
  let ownerLabels := records.name.labels.length - 1
  decide (signature.labels < ownerLabels) &&
    !(records.name.labels.head? == some (ascii "*") && signature.labels == ownerLabels - 1)

/-- One round of the inner loop of `check_signatures`: one signature under one candidate key. -/
def checkCandidate (library : DnsLibrary) (records : RRset) (zone : Name) (now : ℚ)
    (signature : Rrsig) (check : SignatureCheck) (key : DnsKey) : BudgetM SignatureCheck := do
  let signatureId := fingerprint library (.rrsig signature)
  let keyId := fingerprint library (.dnskey key)
  let check := reportEligibility signatureId keyId key check
  CryptoBudget.consume 1
  match judge library records zone now signature key with
  | .unsupportedAlgorithm =>
    return { check with limitations := check.limitations ++ [signatureId] }
  | .invalid => return check.fail ⟨.signatureInvalid, some signatureId, some keyId⟩
  | .verified =>
    if EligibleKey key ∧ (signature.inception : ℚ) ≤ now ∧ now ≤ signature.expiration then
      return { check with
        verified := check.verified ++ [⟨signature, key, expanded records signature⟩] }
    else return check

/-- The keys a signature may have been made with: those of its algorithm and key tag. -/
def candidateKeys (library : DnsLibrary) (keys : RRset) (algorithm keyTag : ℕ) : List DnsKey :=
  keys.keys.filter fun key ↦ key.algorithm == algorithm && library.keyId key == keyTag

/-- One round of the outer loop of `check_signatures`: one signature. -/
def checkSignature (library : DnsLibrary) (records keys : RRset) (now : ℚ)
    (check : SignatureCheck) (signature : Rrsig) : BudgetM SignatureCheck := do
  let signatureId := fingerprint library (.rrsig signature)
  if signature.signer ≠ keys.name ∨ signature.labels > records.name.labels.length - 1 then
    return check.fail ⟨.signerScope, some signatureId, none⟩
  if ¬ library.algorithmSupported signature.algorithm then
    return { check with unsupported := check.unsupported ++ [signatureId] }
  if signature.expiration < signature.inception ∨
      signature.expiration - signature.inception ≥ 2 ^ 31 then
    return { check with limitations := check.limitations ++ [signatureId] }
  let check := reportLifetime signatureId now signature check
  let candidates := candidateKeys library keys signature.algorithm signature.keyTag
  if candidates.isEmpty then return check.fail ⟨.dnskeyMissing, some signatureId, none⟩
  candidates.foldlM (checkCandidate library records keys.name now signature) check

/-- `check_signatures`. -/
def checkSignatures (library : DnsLibrary) (records : RRset) (signatures : Option RRset)
    (keys : RRset) (now : ℚ) : BudgetM SignatureCheck := do
  bounded library records 128
  bounded library keys 64
  raiseIf (¬ (0 ≤ now ∧ now < 2 ^ 32) ∨ records.records.isEmpty ∨
      keys.rdtype ≠ RdataType.dnskey ∨ ¬ records.name.IsSubdomain keys.name ∨
      keys.keys.length ≠ keys.records.length)
    (.requestDenied "dnssec_verification_inputs")
  match signatures with
  | none => return { failures := [⟨.signatureMissing, none, none⟩] }
  | some signatures =>
    if signatures.records.isEmpty then
      return { failures := [⟨.signatureMissing, none, none⟩] }
    bounded library signatures 64
    raiseIf (signatures.name ≠ records.name ∨ signatures.rdtype ≠ RdataType.rrsig ∨
        signatures.covers ≠ records.rdtype ∨
        signatures.signatures.length ≠ signatures.records.length)
      (.requestDenied "dnssec_signature_scope")
    signatures.signatures.foldlM (checkSignature library records keys now) {}

/-- One round of the inner loop of `check_ds`: one DS record against one candidate key. -/
def checkDsCandidate (library : DnsLibrary) (zone : Name) (delegation : Ds) (check : DsCheck)
    (key : DnsKey) : BudgetM DsCheck := do
  CryptoBudget.consume 1
  let delegationId := fingerprint library (.ds delegation)
  let keyId := fingerprint library (.dnskey key)
  let failures := check.failures ++
    (if key.flags &&& 256 = 0 then [⟨.dnskeyFlags, some delegationId, some keyId⟩] else []) ++
    (if key.protocol ≠ 3 then [⟨.dnskeyProtocol, some delegationId, some keyId⟩] else [])
  if library.makeDs zone key delegation.digestType ≠ delegation then
    return { check with failures := failures ++ [⟨.dsMismatch, some delegationId, some keyId⟩] }
  else if key ∉ check.matched then
    return { check with failures := failures, matched := check.matched ++ [key] }
  else return { check with failures := failures }

/-- One round of the outer loop of `check_ds`: one DS record. -/
def checkDelegation (library : DnsLibrary) (keys : RRset) (check : DsCheck) (delegation : Ds) :
    BudgetM DsCheck := do
  let delegationId := fingerprint library (.ds delegation)
  if ¬ library.algorithmSupported delegation.algorithm ∨ delegation.digestType ∉ [1, 2, 4] ∨
      ¬ library.okToValidateDs delegation.digestType then
    return { check with unsupported := check.unsupported ++ [delegationId] }
  let check := { check with supportedPaths := check.supportedPaths + 1 }
  let candidates := candidateKeys library keys delegation.algorithm delegation.keyTag
  let check :=
    if candidates.isEmpty then
      { check with failures := check.failures ++ [⟨.dnskeyMissing, some delegationId, none⟩] }
    else check
  candidates.foldlM (checkDsCandidate library keys.name delegation) check

/-- `check_ds`. -/
def checkDs (library : DnsLibrary) (delegation keys : RRset) : BudgetM DsCheck := do
  bounded library delegation 64
  bounded library keys 64
  raiseIf (delegation.records.isEmpty ∨ delegation.rdtype ≠ RdataType.ds ∨
      keys.rdtype ≠ RdataType.dnskey ∨ delegation.name ≠ keys.name ∨
      delegation.delegations.length ≠ delegation.records.length ∨
      keys.keys.length ≠ keys.records.length)
    (.requestDenied "dnssec_delegation_inputs")
  delegation.delegations.foldlM (checkDelegation library keys) {}

/-! ### What a check tells its caller -/

/-- A path that a check may report as verified: the signature and the key come from the checked
sets, the signer is the zone of the keys, the key is eligible, and the library accepted the one
under the other at a clock reading within the lifetime of the signature. -/
structure IsVerifiedPath (library : DnsLibrary) (records signatures keys : RRset) (now : ℚ)
    (path : VerifiedSignature) : Prop where
  /-- The signature belongs to the signature set. -/
  signature_mem : path.signature ∈ signatures.signatures
  /-- The key belongs to the key set. -/
  key_mem : path.key ∈ keys.keys
  /-- The signer is the zone of the keys. -/
  signer_eq : path.signature.signer = keys.name
  /-- The key may sign zone data. -/
  eligible : EligibleKey path.key
  /-- The signature has begun. -/
  inception_le : (path.signature.inception : ℚ) ≤ now
  /-- The signature has not ended. -/
  le_expiration : now ≤ path.signature.expiration
  /-- The library accepted the signature under the key. -/
  accepted : library.validateRrsig records path.signature keys.name path.key now = .verified
  /-- The path is marked as expanded exactly when the label counts say so. -/
  wildcard_eq : path.wildcard = expanded records path.signature

@[simp] theorem verified_reportEligibility (signatureId keyId : String) (key : DnsKey)
    (check : SignatureCheck) :
    (reportEligibility signatureId keyId key check).verified = check.verified := by
  unfold reportEligibility
  split_ifs <;> rfl

@[simp] theorem verified_reportLifetime (signatureId : String) (now : ℚ) (signature : Rrsig)
    (check : SignatureCheck) :
    (reportLifetime signatureId now signature check).verified = check.verified := by
  unfold reportLifetime
  split_ifs <;> rfl

section Verified

variable {library : DnsLibrary} {records keys : RRset} {now : ℚ} {check result : SignatureCheck}
  {budget final : CryptoBudget}

/-- A candidate key adds at most the path of the signature under this key, and only if the path is
a verified one. -/
theorem checkCandidate_verified {signatures : RRset} {signature : Rrsig} {key : DnsKey}
    (hsignature : signature ∈ signatures.signatures) (hkey : key ∈ keys.keys)
    (hsigner : signature.signer = keys.name)
    (hcheck : ∀ path ∈ check.verified, IsVerifiedPath library records signatures keys now path)
    (hrun : checkCandidate library records keys.name now signature check key budget =
      .ok (result, final)) :
    ∀ path ∈ result.verified, IsVerifiedPath library records signatures keys now path := by
  unfold checkCandidate at hrun
  obtain ⟨_, between, -, hrun⟩ := bind_eq_ok.mp hrun
  cases hjudge : judge library records keys.name now signature key with
  | unsupportedAlgorithm =>
    rw [hjudge] at hrun
    obtain ⟨rfl, -⟩ := pure_eq_ok.mp hrun
    simpa using hcheck
  | invalid =>
    rw [hjudge] at hrun
    obtain ⟨rfl, -⟩ := pure_eq_ok.mp hrun
    simpa using hcheck
  | verified =>
    rw [hjudge] at hrun
    by_cases haccept : EligibleKey key ∧ (signature.inception : ℚ) ≤ now ∧
        now ≤ signature.expiration
    · obtain ⟨heligible, hinception, hexpiration⟩ := haccept
      simp only [heligible, hinception, hexpiration, and_self, if_true] at hrun
      obtain ⟨rfl, -⟩ := pure_eq_ok.mp hrun
      have haccepted : library.validateRrsig records signature keys.name key now = .verified := by
        rw [judge, if_pos heligible, min_eq_left hexpiration, max_eq_right hinception] at hjudge
        exact hjudge
      intro path hpath
      rcases List.mem_append.mp hpath with hold | hnew
      · exact hcheck path (by simpa using hold)
      · obtain rfl := List.mem_singleton.mp hnew
        exact ⟨hsignature, hkey, hsigner, heligible, hinception, hexpiration, haccepted, rfl⟩
    · simp only [haccept, if_false] at hrun
      obtain ⟨rfl, -⟩ := pure_eq_ok.mp hrun
      simpa using hcheck

/-- A signature adds only verified paths. -/
theorem checkSignature_verified {signatures : RRset} {signature : Rrsig}
    (hsignature : signature ∈ signatures.signatures)
    (hcheck : ∀ path ∈ check.verified, IsVerifiedPath library records signatures keys now path)
    (hrun : checkSignature library records keys now check signature budget =
      .ok (result, final)) :
    ∀ path ∈ result.verified, IsVerifiedPath library records signatures keys now path := by
  unfold checkSignature at hrun
  by_cases hscope : signature.signer ≠ keys.name ∨
      signature.labels > records.name.labels.length - 1
  · rw [if_pos hscope] at hrun
    obtain ⟨rfl, -⟩ := pure_eq_ok.mp hrun
    simpa using hcheck
  rw [if_neg hscope] at hrun
  split at hrun
  · obtain ⟨rfl, -⟩ := pure_eq_ok.mp hrun
    exact hcheck
  split at hrun
  · obtain ⟨rfl, -⟩ := pure_eq_ok.mp hrun
    exact hcheck
  dsimp only at hrun
  split at hrun
  · obtain ⟨rfl, -⟩ := pure_eq_ok.mp hrun
    simpa using hcheck
  · have hsigner : signature.signer = keys.name := not_not.mp fun hne ↦ hscope (Or.inl hne)
    refine foldlM_induction
      (fun check ↦ ∀ path ∈ check.verified, IsVerifiedPath library records signatures keys now path)
      (fun accumulated key state next final hkey haccumulated hstep ↦
        checkCandidate_verified hsignature (List.mem_filter.mp hkey).1 hsigner haccumulated hstep)
      ?_ hrun
    simpa using hcheck

/-- Every verified path of `check_signatures` is one. -/
theorem checkSignatures_verified {signatures : Option RRset}
    (hrun : checkSignatures library records signatures keys now budget = .ok (result, final))
    {path : VerifiedSignature} (hpath : path ∈ result.verified) :
    ∃ set ∈ signatures, set.name = records.name ∧ set.covers = records.rdtype ∧
      IsVerifiedPath library records set keys now path := by
  unfold checkSignatures at hrun
  obtain ⟨_, _, -, hrun⟩ := bind_eq_ok.mp hrun
  obtain ⟨_, _, -, hrun⟩ := bind_eq_ok.mp hrun
  obtain ⟨_, _, -, hrun⟩ := bind_eq_ok.mp hrun
  cases signatures with
  | none =>
    obtain ⟨rfl, -⟩ := pure_eq_ok.mp hrun
    cases hpath
  | some set =>
    by_cases hempty : set.records.isEmpty
    · simp only [hempty, if_true] at hrun
      obtain ⟨rfl, -⟩ := pure_eq_ok.mp hrun
      cases hpath
    · simp only [hempty] at hrun
      obtain ⟨_, _, -, hrun⟩ := bind_eq_ok.mp hrun
      obtain ⟨_, _, hscope, hrun⟩ := bind_eq_ok.mp hrun
      obtain ⟨hscope, -⟩ := raiseIf_eq_ok.mp hscope
      simp only [not_or, not_not] at hscope
      refine ⟨set, rfl, hscope.1, hscope.2.2.1, ?_⟩
      exact foldlM_induction
        (fun check ↦ ∀ path ∈ check.verified, IsVerifiedPath library records set keys now path)
        (fun accumulated signature state next final hsignature haccumulated hstep ↦
          checkSignature_verified hsignature haccumulated hstep)
        (by simp) hrun path hpath

end Verified

section Matched

variable {library : DnsLibrary} {keys : RRset} {check result : DsCheck}
  {budget final : CryptoBudget}

/-- A candidate key is matched only by its digest. -/
theorem checkDsCandidate_matched {delegation : Ds} {key : DnsKey} {delegations : List Ds}
    (hdelegation : delegation ∈ delegations) (hkey : key ∈ keys.keys)
    (hcheck : ∀ matched ∈ check.matched, matched ∈ keys.keys ∧
      ∃ record ∈ delegations, library.makeDs keys.name matched record.digestType = record)
    (hrun : checkDsCandidate library keys.name delegation check key budget = .ok (result, final)) :
    ∀ matched ∈ result.matched, matched ∈ keys.keys ∧
      ∃ record ∈ delegations, library.makeDs keys.name matched record.digestType = record := by
  unfold checkDsCandidate at hrun
  obtain ⟨_, _, -, hrun⟩ := bind_eq_ok.mp hrun
  by_cases hdigest : library.makeDs keys.name key delegation.digestType ≠ delegation
  · rw [if_pos hdigest] at hrun
    obtain ⟨rfl, -⟩ := pure_eq_ok.mp hrun
    exact hcheck
  · rw [if_neg hdigest] at hrun
    split at hrun
    · obtain ⟨rfl, -⟩ := pure_eq_ok.mp hrun
      intro matched hmatched
      rcases List.mem_append.mp hmatched with hold | hnew
      · exact hcheck matched hold
      · obtain rfl := List.mem_singleton.mp hnew
        exact ⟨hkey, delegation, hdelegation, not_not.mp hdigest⟩
    · obtain ⟨rfl, -⟩ := pure_eq_ok.mp hrun
      exact hcheck

/-- Every matched key of `check_ds` belongs to the key set and has the digest of one of the DS
records. -/
theorem checkDs_matched {delegation : RRset}
    (hrun : checkDs library delegation keys budget = .ok (result, final)) :
    ∀ matched ∈ result.matched, matched ∈ keys.keys ∧ ∃ record ∈ delegation.delegations,
      library.makeDs keys.name matched record.digestType = record := by
  unfold checkDs at hrun
  obtain ⟨_, _, -, hrun⟩ := bind_eq_ok.mp hrun
  obtain ⟨_, _, -, hrun⟩ := bind_eq_ok.mp hrun
  obtain ⟨_, _, -, hrun⟩ := bind_eq_ok.mp hrun
  refine foldlM_induction
    (fun check ↦ ∀ matched ∈ check.matched, matched ∈ keys.keys ∧
      ∃ record ∈ delegation.delegations,
        library.makeDs keys.name matched record.digestType = record)
    (fun accumulated record state next final hrecord haccumulated hstep ↦ ?_) (by simp) hrun
  unfold checkDelegation at hstep
  split at hstep
  · obtain ⟨rfl, -⟩ := pure_eq_ok.mp hstep
    exact haccumulated
  · refine foldlM_induction
      (fun check ↦ ∀ matched ∈ check.matched, matched ∈ keys.keys ∧
        ∃ record ∈ delegation.delegations,
          library.makeDs keys.name matched record.digestType = record)
      (fun inner key state next final hkey hinner hcandidate ↦
        checkDsCandidate_matched hrecord (List.mem_filter.mp hkey).1 hinner hcandidate) ?_ hstep
    intro matched hmatched
    refine haccumulated matched ?_
    split at hmatched <;> exact hmatched

end Matched

end Ads.SandboxEgress
