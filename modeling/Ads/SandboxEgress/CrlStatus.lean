import Mathlib
import Ads.Dns.Name
import Ads.Foundation.StateExcept
import Ads.Python.Text

/-!
# Certificate status from CRLs

The model of `crl_set_revoked`: CRLs are loaded and authenticated, the base CRLs in the scope of a
certificate are brought up to date by their newest deltas, and the certificate is looked up in each.
Certificates are parsed. Parsing of CRLs and signatures are those of `Cryptography`, and times are
microseconds since the epoch.
-/

set_option autoImplicit false
set_option relaxedAutoImplicit false

namespace Ads.SandboxEgress.CrlStatus

open Dns Foundation.StateExcept Python

/-! ### Certificates and CRLs -/

/-- A `RelativeDistinguishedName`, by its encoding. -/
abbrev RelativeName := Bytes

/-- A `Name`. -/
abbrev DirectoryName := List RelativeName

/-- A `GeneralName`. -/
inductive GeneralName where
  | directory (name : DirectoryName)
  | other (encoding : Bytes)
  deriving DecidableEq

/-- `ReasonFlags`. -/
inductive ReasonFlag where
  | unspecified
  | keyCompromise
  | caCompromise
  | affiliationChanged
  | superseded
  | cessationOfOperation
  | certificateHold
  | privilegeWithdrawn
  | aaCompromise
  | removeFromCrl
  deriving DecidableEq

/-- `_REASONS`. -/
def reasonFlags : Finset ReasonFlag :=
  {.keyCompromise, .caCompromise, .affiliationChanged, .superseded, .cessationOfOperation,
    .certificateHold, .privilegeWithdrawn, .aaCompromise}

/-- A `DistributionPoint` of a certificate. -/
structure DistributionPoint where
  fullName : Option (List GeneralName)
  relativeName : Option RelativeName
  reasons : Option (Finset ReasonFlag)
  crlIssuer : Option (List GeneralName)
  deriving DecidableEq

/-- `IssuingDistributionPoint`. -/
structure IssuingDistributionPoint where
  fullName : Option (List GeneralName)
  relativeName : Option RelativeName
  onlyContainsUserCerts : Bool
  onlyContainsCaCerts : Bool
  onlySomeReasons : Option (Finset ReasonFlag)
  indirectCrl : Bool
  onlyContainsAttributeCerts : Bool
  deriving DecidableEq

/-- `AuthorityKeyIdentifier`. -/
structure AuthorityKeyIdentifier where
  keyIdentifier : Option Bytes
  authorityCertIssuer : Option (List GeneralName)
  authorityCertSerialNumber : Option ℤ
  deriving DecidableEq

/-- What is read of a certificate. A key that signs no CRLs is none, and so is a missing extension. -/
structure Certificate where
  encoding : Bytes
  subject : DirectoryName
  issuer : DirectoryName
  serialNumber : ℤ
  publicKey : Option Bytes
  notValidBefore : ℤ
  notValidAfter : ℤ
  basicConstraintsCa : Option Bool
  keyUsageCrlSign : Option Bool
  subjectKeyIdentifier : Option Bytes
  crlDistributionPoints : Option (List DistributionPoint)
  deriving DecidableEq

/-- The extensions of an entry of a CRL. -/
structure EntryExtensions where
  certificateIssuer : Option (List GeneralName)
  reason : Option ReasonFlag
  /-- The identifiers of the critical ones. -/
  critical : List Text
  deriving DecidableEq

/-- A `RevokedCertificate`. Extensions that do not parse are none. -/
structure Entry where
  serialNumber : ℤ
  revocationDate : ℤ
  extensions : Option EntryExtensions
  deriving DecidableEq

/-- A `CertificateRevocationList`. -/
structure Crl where
  encoding : Bytes
  issuer : DirectoryName
  lastUpdate : ℤ
  nextUpdate : Option ℤ
  entries : List Entry
  /-- The identifiers of the critical extensions. -/
  critical : List Text
  authorityKeyIdentifier : Option AuthorityKeyIdentifier
  crlNumber : Option ℤ
  deltaCrlIndicator : Option ℤ
  issuingDistributionPoint : Option IssuingDistributionPoint
  deriving DecidableEq

/-- The cryptography. -/
structure Cryptography where
  /-- `load_der_x509_crl`, none where it raises. -/
  load : Bytes → Option Crl
  isSignatureValid : Crl → Bytes → Bool
  /-- `SubjectKeyIdentifier.from_public_key`. -/
  keyDigest : Bytes → Bytes
  /-- `verify_directly_issued_by`. -/
  isDirectlyIssuedBy : Certificate → Certificate → Bool

/-- The `ValueError`s, and the others that are caught with them. -/
inductive StatusFailure where
  | valueError (message : String)
  | invalidSignature
  deriving DecidableEq

/-- `_KNOWN`. -/
def knownExtensions : List Text :=
  ["2.5.29.35", "2.5.29.20", "2.5.29.27", "2.5.29.28", "2.5.29.46"].map String.toList

/-- The extension `CertificateIssuer`. -/
def certificateIssuerOid : Text :=
  "2.5.29.29".toList

/-- The extensions of an entry that may be critical. -/
def knownEntryExtensions : List Text :=
  ["2.5.29.21".toList, "2.5.29.24".toList, certificateIssuerOid]

/-! ### Authentication -/

section Authentication

variable (cryptography : Cryptography)

/-- What `_load` requires of the authority key of a CRL. -/
def checkAuthority (crl : Crl) (issuer : Certificate) (key : Bytes) :
    Except StatusFailure Unit := do
  match crl.authorityKeyIdentifier with
  | none => return ()
  | some authority =>
    let expected := issuer.subjectKeyIdentifier.getD (cryptography.keyDigest key)
    failIf (authority.keyIdentifier ≠ none ∧ authority.keyIdentifier ≠ some expected)
      (.valueError "CRL authority key")
    failIf (authority.authorityCertSerialNumber ≠ none ∧
        (authority.authorityCertSerialNumber ≠ some issuer.serialNumber ∨
          .directory issuer.issuer ∉ authority.authorityCertIssuer.getD []))
      (.valueError "CRL authority certificate")

/-- What `_load` requires of a CRL, without the authority key. -/
def isAuthentic (crl : Crl) (issuer : Certificate) (now : ℤ) : Bool :=
  issuer.publicKey.any (cryptography.isSignatureValid crl) && crl.issuer = issuer.subject &&
    crl.nextUpdate.any (fun nextUpdate ↦ decide (crl.lastUpdate ≤ now ∧ now < nextUpdate)) &&
    crl.entries.length ≤ 100000

/-- `_load`. -/
def load (wire : Bytes) (issuer : Certificate) (now : ℤ) : Except StatusFailure Crl := do
  failIf (¬ (1 ≤ wire.length ∧ wire.length ≤ 2 * 1024 ^ 2)) (.valueError "CRL byte budget")
  match cryptography.load wire with
  | none => throw (.valueError "error parsing asn1 value")
  | some crl =>
    failIf (isAuthentic cryptography crl issuer now = false)
      (.valueError "CRL authentication or freshness")
    failIf (issuer.keyUsageCrlSign ≠ some true) (.valueError "CRL signing usage")
    failIf (∃ identifier ∈ crl.critical, identifier ∉ knownExtensions)
      (.valueError "unknown critical CRL extension")
    checkAuthority cryptography crl issuer (issuer.publicKey.getD [])
    return crl

/-- The signers of a CRL: the certificates of its issuer among the issuer and the others. -/
def candidates (issuer : Certificate) (untrusted : Crl) (now : ℤ) :
    List Certificate → List Certificate → Except StatusFailure (List Certificate)
  | [], found => return found
  | signer :: rest, found => do
    if signer.subject ≠ untrusted.issuer ∨ signer ∈ found then
      candidates issuer untrusted now rest found
    else do
      if signer ≠ issuer then
        failIf (cryptography.isDirectlyIssuedBy signer issuer = false) .invalidSignature
        failIf (¬ (signer.notValidBefore ≤ now ∧ now ≤ signer.notValidAfter))
          (.valueError "indirect signer validity")
      candidates issuer untrusted now rest (found ++ [signer])

/-- A CRL of the set, authenticated. -/
def authenticate (issuer : Certificate) (signers : List Certificate) (now : ℤ) (wire : Bytes) :
    Except StatusFailure Crl := do
  failIf (wire.length > 2 * 1024 ^ 2) (.valueError "CRL byte budget")
  match cryptography.load wire with
  | none => throw (.valueError "error parsing asn1 value")
  | some untrusted =>
    match ← candidates cryptography issuer untrusted now (issuer :: signers) [] with
    | [signer] => load cryptography wire signer now
    | _ => throw (.valueError "CRL signer unavailable or ambiguous")

end Authentication

/-! ### Scope -/

/-- `_names`. -/
def names (full : Option (List GeneralName)) (relative : Option RelativeName)
    (issuer : DirectoryName) : Finset GeneralName :=
  match full with
  | some full => full.toFinset
  | none =>
    match relative with
    | some relative => {.directory (issuer ++ [relative])}
    | none => ∅

/-- `reasons or _REASONS`. -/
def reasonsOr (reasons : Option (Finset ReasonFlag)) : Finset ReasonFlag :=
  match reasons with
  | none => reasonFlags
  | some reasons => if reasons = ∅ then reasonFlags else reasons

/-- The certificate is one of an authority. -/
def isCa (certificate : Certificate) : Bool :=
  certificate.basicConstraintsCa = some true

/-- The issuing distribution point excludes the certificate. -/
def excludes (point : IssuingDistributionPoint) (certificate : Certificate) : Bool :=
  point.onlyContainsAttributeCerts || (point.onlyContainsCaCerts && !isCa certificate) ||
    (point.onlyContainsUserCerts && isCa certificate)

/-- The reasons and the names of the scope of a CRL. -/
def crlScope (crl : Crl) : Finset ReasonFlag × Finset GeneralName :=
  match crl.issuingDistributionPoint with
  | none => (reasonFlags, ∅)
  | some point =>
    (reasonFlags ∩ reasonsOr point.onlySomeReasons,
      names point.fullName point.relativeName crl.issuer)

/-- The CRL is of the issuer that a distribution point of the certificate names. -/
def isOfIssuer (crl : Crl) (certificate : Certificate) (point : DistributionPoint) : Bool :=
  match point.crlIssuer with
  | some issuers =>
    crl.issuingDistributionPoint.any IssuingDistributionPoint.indirectCrl &&
      decide (.directory crl.issuer ∈ issuers)
  | none => crl.issuer = certificate.issuer

/-- What a distribution point of the certificate adds to the scope. -/
def pointScope (crl : Crl) (certificate : Certificate) (point : DistributionPoint) :
    Finset ReasonFlag :=
  let (reasons, crlNames) := crlScope crl
  if isOfIssuer crl certificate point = false then ∅
  else if crlNames ≠ ∅ ∧
      crlNames ∩ names point.fullName point.relativeName certificate.issuer = ∅ then ∅
  else reasons ∩ reasonsOr point.reasons

/-- `_scope`. -/
def scope (crl : Crl) (certificate : Certificate) : Finset ReasonFlag :=
  if crl.issuingDistributionPoint.any (excludes · certificate) then ∅
  else
    let (reasons, crlNames) := crlScope crl
    match certificate.crlDistributionPoints with
    | none => if crlNames ≠ ∅ ∨ crl.issuer ≠ certificate.issuer then ∅ else reasons
    | some points =>
      points.foldl (fun covered point ↦ covered ∪ pointScope crl certificate point) ∅

/-! ### Entries -/

/-- The issuer and the serial number of a certificate. -/
abbrev Identity := DirectoryName × ℤ

/-- The directory names among general names. -/
def directoryNames (names : List GeneralName) : List DirectoryName :=
  names.filterMap fun
    | .directory name => some name
    | .other _ => none

/-- The issuer of an entry, after the one of the entry before. -/
def entryIssuer (crl : Crl) (current : DirectoryName) (extensions : EntryExtensions) :
    Except StatusFailure DirectoryName :=
  match extensions.certificateIssuer with
  | none => return current
  | some issuers => do
    let found := directoryNames issuers
    failIf (crl.issuingDistributionPoint.any IssuingDistributionPoint.indirectCrl = false ∨
      found.length ≠ 1) (.valueError "indirect entry issuer")
    failIf (certificateIssuerOid ∉ extensions.critical) (.valueError "noncritical indirect issuer")
    return found.headD []

/-- One round of `_entries`. -/
def takeEntry (crl : Crl) (now : ℤ) (state : DirectoryName × List (Identity × ReasonFlag))
    (entry : Entry) : Except StatusFailure (DirectoryName × List (Identity × ReasonFlag)) :=
  match entry.extensions with
  | none => throw (.valueError "error parsing asn1 value")
  | some extensions => do
    let issuer ← entryIssuer crl state.1 extensions
    let identity := (issuer, entry.serialNumber)
    failIf (identity ∈ state.2.map Prod.fst ∨ entry.revocationDate > now)
      (.valueError "CRL duplicate or future entry")
    failIf (∃ identifier ∈ extensions.critical, identifier ∉ knownEntryExtensions)
      (.valueError "CRL entry issuer or critical extension")
    let reason := extensions.reason.getD .unspecified
    failIf (reason = .removeFromCrl ∧ crl.deltaCrlIndicator = none)
      (.valueError "removeFromCRL without delta")
    return (issuer, state.2 ++ [(identity, reason)])

/-- `_entries`. -/
def entries (crl : Crl) (now : ℤ) : Except StatusFailure (List (Identity × ReasonFlag)) := do
  let (_, result) ← crl.entries.foldlM (takeEntry crl now) (crl.issuer, [])
  return result

/-! ### The set -/

/-- A delta applies to a base. -/
def isApplicable (base delta : Crl) : Bool :=
  (match delta.deltaCrlIndicator, base.crlNumber, delta.crlNumber with
    | some minimum, some number, some deltaNumber =>
      decide (minimum ≤ number ∧ number < deltaNumber)
    | _, _, _ => false) &&
    delta.issuingDistributionPoint = base.issuingDistributionPoint &&
    delta.authorityKeyIdentifier = base.authorityKeyIdentifier && delta.issuer = base.issuer &&
    base.lastUpdate ≤ delta.lastUpdate

/-- The delta of the greatest number, the first of them. -/
def newest : List Crl → Option Crl
  | [] => none
  | delta :: rest =>
    match newest rest with
    | none => some delta
    | some other =>
      if other.crlNumber.getD 0 ≤ delta.crlNumber.getD 0 then some delta else some other

/-- `entries.get`. -/
def reasonOf (listed : List (Identity × ReasonFlag)) (identity : Identity) : Option ReasonFlag :=
  (listed.find? fun entry ↦ entry.1 = identity).map Prod.snd

/-- The entries without one. -/
def without (listed : List (Identity × ReasonFlag)) (identity : Identity) :
    List (Identity × ReasonFlag) :=
  listed.filter fun entry ↦ entry.1 ≠ identity

/-- An entry of a delta is applied. -/
def applyEntry (listed : List (Identity × ReasonFlag)) (entry : Identity × ReasonFlag) :
    Except StatusFailure (List (Identity × ReasonFlag)) := do
  if entry.2 = .removeFromCrl then
    failIf (reasonOf listed entry.1 ≠ none ∧ reasonOf listed entry.1 ≠ some .certificateHold)
      (.valueError "delta removes permanent revocation")
    return without listed entry.1
  else return without listed entry.1 ++ [entry]

/-- The entries of a base with those of its newest delta. -/
def updatedEntries (base : Crl) (matching : List Crl) (now : ℤ) :
    Except StatusFailure (List (Identity × ReasonFlag)) := do
  let listed ← entries base now
  match newest matching with
  | none => return listed
  | some latest =>
    failIf (¬ (matching.map Crl.crlNumber).Nodup) (.valueError "conflicting delta generations")
    (← entries latest now).foldlM applyEntry listed

/-- What the loop over the bases keeps. -/
structure Judgement where
  /-- The indices of the deltas that applied. -/
  used : Finset ℕ := ∅
  covered : Finset ReasonFlag := ∅
  revoked : Bool := false

/-- One round of the loop over the bases. -/
def judgeBase (deltas : List Crl) (certificate : Certificate) (now : ℤ) (judgement : Judgement)
    (base : Crl) : Except StatusFailure Judgement := do
  let reasons := scope base certificate
  if reasons = ∅ then return judgement
  else
    let indexed := deltas.zipIdx.filter fun item ↦ isApplicable base item.1
    let listed ← updatedEntries base (indexed.map Prod.fst) now
    let used := judgement.used ∪ (indexed.map Prod.snd).toFinset
    let covered := judgement.covered ∪ reasons
    match reasonOf listed (certificate.issuer, certificate.serialNumber) with
    | none => return ⟨used, covered, judgement.revoked⟩
    | some selected =>
      failIf (selected ≠ .unspecified ∧ selected ∉ reasons)
        (.valueError "revocation outside authenticated reason scope")
      return ⟨used, covered, true⟩

/-- The CRLs that are no deltas. -/
def bases (crls : List Crl) : List Crl :=
  crls.filter fun crl ↦ crl.deltaCrlIndicator = none

/-- The CRLs that are deltas. -/
def deltas (crls : List Crl) : List Crl :=
  crls.filter fun crl ↦ crl.deltaCrlIndicator ≠ none

/-- The body of `crl_set_revoked`. -/
def judge (cryptography : Cryptography) (wires : List Bytes) (certificate issuer : Certificate)
    (now : ℤ) (signers : List Certificate) : Except StatusFailure Bool := do
  failIf (¬ (1 ≤ wires.length ∧ wires.length ≤ 16) ∨
    (wires.map List.length).sum > 16 * 1024 ^ 2) (.valueError "CRL set budget")
  failIf (signers.length > 16) (.valueError "CRL signer bound")
  let crls ← wires.mapM (authenticate cryptography issuer signers now)
  let judgement ← (bases crls).foldlM (judgeBase (deltas crls) certificate now) {}
  failIf (judgement.used.card ≠ (deltas crls).length ∨ bases crls = [] ∨
      (judgement.revoked = false ∧ judgement.covered ≠ reasonFlags))
    (.valueError "incomplete CRL scope or missing delta base")
  return judgement.revoked

/-- What `crl_set_revoked` raises: `UNAVAILABLE_STATUS`. -/
inductive Unmappable where
  | unavailableStatus
  deriving DecidableEq

/-- `crl_set_revoked`. -/
def crlSetRevoked (cryptography : Cryptography) (wires : List Bytes)
    (certificate issuer : Certificate) (now : ℤ) (signers : List Certificate) :
    Except Unmappable Bool :=
  (judge cryptography wires certificate issuer now signers).mapError fun _ ↦ .unavailableStatus

end Ads.SandboxEgress.CrlStatus
