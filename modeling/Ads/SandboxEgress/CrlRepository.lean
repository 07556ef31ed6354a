import Mathlib.Data.Rat.Floor
import Ads.SandboxEgress.IdentityMoves

/-!
# The local CRLs

The model of `CRLRepository`: the CRL of an egress authority is read from its newest generation in
the identity store, checked, and replaced by one with the next number that lists what it lists and
the certificate to revoke. Signatures and the encoding of certificates, CRLs and records are those
of `X509`, and a record that is encoded reads back. Times are seconds since the epoch.
-/

set_option autoImplicit false
set_option relaxedAutoImplicit false

namespace Ads.SandboxEgress.Crl

open Dns Foundation Foundation.StateExcept Foundation.Interrupted IdentityStore Python

/-! ### Certificates and CRLs -/

/-- What the repository reads of a certificate. A missing extension is none, and so is a public key
that is not on an elliptic curve. -/
structure Certificate where
  fingerprint : Text
  subject : Bytes
  serialNumber : ℕ
  publicKey : Option Bytes
  basicConstraintsCa : Option Bool
  keyUsageCrlSign : Option Bool
  notValidBefore : ℤ
  notValidAfter : ℤ
  deriving DecidableEq

/-- An entry of a CRL. -/
structure RevokedCertificate where
  serialNumber : ℕ
  revocationDate : ℤ
  deriving DecidableEq

/-- What the signature of a CRL is over. -/
structure CrlContent where
  issuer : Bytes
  crlNumber : Option ℕ
  lastUpdate : ℤ
  nextUpdate : Option ℤ
  authorityKey : Bytes
  entries : List RevokedCertificate
  deriving DecidableEq

/-- A `CertificateRevocationList`. -/
structure RevocationList extends CrlContent where
  signature : Bytes
  deriving DecidableEq

/-- The record that `publish` stores. -/
structure CrlRecord where
  issuer : Certificate
  crl : RevocationList
  deriving DecidableEq

/-- The cryptography of the repository. -/
structure X509 where
  publicKeyOf : Bytes → Bytes
  sign : Bytes → CrlContent → Bytes
  isSignatureValid : RevocationList → Bytes → Bool
  /-- `verify_directly_issued_by`. -/
  isDirectlyIssuedBy : Certificate → Certificate → Bool
  /-- `json.dumps` of the PEM certificate and the CRL in base64. -/
  encode : CrlRecord → Bytes
  decode : Bytes → Option CrlRecord
  decode_encode : ∀ record, decode (encode record) = some record

/-- `CRLAuthority`. -/
structure CrlAuthority (x509 : X509) where
  certificate : Certificate
  privateKey : Bytes
  publicKey_eq : certificate.publicKey = some (x509.publicKeyOf privateKey)
  ca : certificate.basicConstraintsCa = some true
  crlSign : certificate.keyUsageCrlSign = some true

/-- `identity`. -/
def CrlAuthority.identity {x509 : X509} (authority : CrlAuthority x509) : Text :=
  authority.certificate.fingerprint

/-- `PublishedCRL`. -/
structure PublishedCrl where
  issuer : Text
  number : ℕ
  certificate : Certificate
  crl : RevocationList
  deriving DecidableEq

/-- What the repository raises. -/
inductive CrlRaised where
  /-- What the store raises, or a `ValueError`. -/
  | store (raised : StoreRaised)
  /-- `CRLUnavailable`. -/
  | crlUnavailable (reason : String)
  deriving DecidableEq, Repr

/-- A `datetime`, in microseconds, and whether it is in UTC. -/
structure DateTime where
  microseconds : ℤ
  isUtc : Bool

/-- `_clock`: the whole seconds. -/
def clock (now : DateTime) : Except CrlRaised ℤ := do
  failIf (now.isUtc = false) (.store (.valueError "UTC CRL clock required"))
  return now.microseconds / 1000000

/-- `CRLRepository`. -/
structure CrlRepository where
  custody : Custody
  x509 : X509
  lifetimeSeconds : ℤ
  lifetimeSeconds_bounds : 60 ≤ lifetimeSeconds ∧ lifetimeSeconds ≤ 3600

namespace CrlRepository

variable (repository : CrlRepository)

/-! ### Reading -/

/-- What `_head` requires of the newest generation. -/
def isHead (identity : Text) (number : ℕ) (retainUntil : ℚ) (record : CrlRecord) : Bool :=
  record.issuer.fingerprint = identity &&
    record.issuer.publicKey.any (repository.x509.isSignatureValid record.crl) &&
    record.issuer.basicConstraintsCa = some true &&
    record.issuer.keyUsageCrlSign = some true &&
    record.crl.issuer = record.issuer.subject &&
    record.crl.crlNumber = some number &&
    record.crl.nextUpdate.any (fun nextUpdate ↦ decide ((nextUpdate : ℚ) = retainUntil ∧
      record.crl.lastUpdate < nextUpdate ∧ nextUpdate ≤ record.issuer.notValidAfter)) &&
    record.crl.entries.length ≤ 10000 &&
    (record.crl.entries.map RevokedCertificate.serialNumber).Nodup

/-- `_head`. -/
def head (tables : IdentityTables) (identity : Text) :
    Except StoreRaised (Option PublishedCrl) := do
  match ← crlHead repository.custody tables identity with
  | none => return none
  | some (number, row) =>
    match repository.x509.decode row.content with
    | none => throw (.stateUnavailable "invalid authenticated CRL publication")
    | some record =>
      failIf (repository.isHead identity number row.retainUntil record = false)
        (.stateUnavailable "invalid authenticated CRL publication")
      return some ⟨identity, number, record.issuer, record.crl⟩

/-- What `get` requires of the newest generation at a time. -/
def isCurrent (published : PublishedCrl) (now : ℤ) : Bool :=
  published.certificate.notValidBefore ≤ now && now < published.certificate.notValidAfter &&
    published.crl.lastUpdate ≤ now && published.crl.nextUpdate.any (now < ·)

/-- `get`, at whole seconds. -/
def get (tables : IdentityTables) (identity : Text) (now : ℤ) : Except CrlRaised PublishedCrl := do
  match ← (repository.head tables identity).mapError .store with
  | none => throw (.crlUnavailable "unknown_crl")
  | some published =>
    failIf (isCurrent published now = false) (.crlUnavailable "crl_not_current")
    return published

/-! ### Publishing -/

/-- The entries of a CRL, none without one. -/
def entriesOf (previous : Option PublishedCrl) : List RevokedCertificate :=
  (previous.map fun published ↦ published.crl.entries).getD []

/-- The serial number that a revocation adds. -/
def newRevocation (previous : Option PublishedCrl) (revoke : Option Certificate) : Option ℕ :=
  match revoke with
  | none => none
  | some target =>
    if target.serialNumber ∈ (entriesOf previous).map RevokedCertificate.serialNumber then none
    else some target.serialNumber

/-- The previous CRL is fresh enough to be returned again. -/
def isFresh (previous : Option PublishedCrl) (now : ℤ) : Bool :=
  previous.any fun published ↦ published.crl.nextUpdate.any fun nextUpdate ↦
    repository.lifetimeSeconds < 2 * (nextUpdate - now)

/-- The record of the next CRL of an authority. -/
def record (authority : CrlAuthority repository.x509) (now : ℤ) (previous : Option PublishedCrl)
    (revoked : List RevokedCertificate) : CrlRecord :=
  let content : CrlContent :=
    { issuer := authority.certificate.subject
      crlNumber := some ((previous.map PublishedCrl.number).getD 0 + 1)
      lastUpdate := now
      nextUpdate := some (min (now + repository.lifetimeSeconds) authority.certificate.notValidAfter)
      authorityKey := repository.x509.publicKeyOf authority.privateKey
      entries := revoked.insertionSort fun first second ↦ first.serialNumber ≤ second.serialNumber }
  ⟨authority.certificate, ⟨content, repository.x509.sign authority.privateKey content⟩⟩

/-- What `publish` decides before it writes: the record to commit, or none where the previous CRL is
returned again. -/
def nextRecord (authority : CrlAuthority repository.x509) (now : ℤ) (revoke : Option Certificate)
    (previous : Option PublishedCrl) : Except CrlRaised (Option CrlRecord) := do
  failIf (∃ published ∈ previous, now < published.crl.lastUpdate)
    (.crlUnavailable "crl_clock_rollback")
  failIf (∃ target ∈ revoke,
      repository.x509.isDirectlyIssuedBy target authority.certificate = false)
    (.store (.valueError "revocation target must be issued by this local authority"))
  match newRevocation previous revoke with
  | none =>
    if repository.isFresh previous now then return none
    else return some (repository.record authority now previous (entriesOf previous))
  | some serialNumber =>
    failIf (10000 ≤ (entriesOf previous).length) (.crlUnavailable "crl_entry_limit")
    return some (repository.record authority now previous
      (⟨serialNumber, now⟩ :: entriesOf previous))

/-- What `publish` writes: the next generation, between two prunings. -/
def commitRecord (authority : CrlAuthority repository.x509) (now : ℤ)
    (previous : Option PublishedCrl) (record : CrlRecord) : StoreM Unit := do
  let expiry := min (now + repository.lifetimeSeconds) authority.certificate.notValidAfter
  pruneCrls repository.custody authority.identity (some now)
  let _ ← commitCrl repository.custody authority.identity
    ((previous.map PublishedCrl.number).getD 0) (repository.x509.encode record) (some expiry)
  pruneCrls repository.custody authority.identity (some now)

/-- `publish`. -/
def publish (authority : CrlAuthority repository.x509) (now : DateTime)
    (revoke : Option Certificate) : Program Store CrlRaised PublishedCrl := do
  let now ← Program.evaluate (clock now)
  Program.evaluate (failIf (¬ (authority.certificate.notValidBefore ≤ now ∧
    now < authority.certificate.notValidAfter)) (.crlUnavailable "crl_authority_not_current"))
  let store ← Program.current
  let previous ← Program.evaluate
    ((repository.head store.tables authority.identity).mapError .store)
  match ← Program.evaluate (repository.nextRecord authority now revoke previous) with
  | none => Program.evaluate (repository.get store.tables authority.identity now)
  | some record =>
    Program.withError .store (repository.commitRecord authority now previous record)
    let store ← Program.current
    Program.evaluate (repository.get store.tables authority.identity now)

end CrlRepository

end Ads.SandboxEgress.Crl
