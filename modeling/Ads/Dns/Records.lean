import Mathlib.Data.Finset.Basic
import Ads.Dns.Name

/-!
# Resource records of the DNSSEC modules

The record data that `dnssec_denial.py`, `dnssec_validation.py` and `dnssec_chain.py` read, with
dnspython's field names. A record of a type these modules do not look into keeps its wire form
only. `hasType` is the reading of an NSEC or NSEC3 type bitmap.
-/

set_option autoImplicit false
set_option relaxedAutoImplicit false

namespace Ads.Dns

/-- A record type, by its 16-bit number. -/
abbrev RdataType := ℕ

namespace RdataType

/-- The null type, the value of `covers` outside a signature set. -/
def none : RdataType := 0
/-- A name server: a delegation, away from the apex. -/
def ns : RdataType := 2
/-- An alias. -/
def cname : RdataType := 5
/-- The start of authority, at the apex only. -/
def soa : RdataType := 6
/-- A redirection of the names below the owner. -/
def dname : RdataType := 39
/-- A delegation signer. -/
def ds : RdataType := 43
/-- A signature. -/
def rrsig : RdataType := 46
/-- A denial record over names. -/
def nsec : RdataType := 47
/-- A zone key. -/
def dnskey : RdataType := 48
/-- A denial record over hashed names. -/
def nsec3 : RdataType := 50
/-- The question type that asks for every type. -/
def any : RdataType := 255

end RdataType

/-- The type bitmap of a denial record: window numbers with their octets. -/
abbrev Windows := List (ℕ × Bytes)

/-- An NSEC record. -/
structure Nsec where
  /-- The next owner name of the chain. -/
  next : Name
  /-- The type bitmap. -/
  windows : Windows
deriving DecidableEq, Repr

/-- An NSEC3 record. -/
structure Nsec3 where
  /-- The hash algorithm. -/
  algorithm : ℕ
  /-- The flags; bit 0 is Opt-Out. -/
  flags : ℕ
  /-- The extra hash rounds. -/
  iterations : ℕ
  /-- The salt. -/
  salt : Bytes
  /-- The next hashed owner of the chain. -/
  next : Bytes
  /-- The type bitmap. -/
  windows : Windows
deriving DecidableEq, Repr

/-- A zone key. -/
structure DnsKey where
  /-- The flags; 256 marks a zone key. -/
  flags : ℕ
  /-- The protocol, always 3. -/
  protocol : ℕ
  /-- The signature algorithm. -/
  algorithm : ℕ
  /-- The public key. -/
  key : Bytes
deriving DecidableEq, Repr

/-- A delegation signer record. -/
structure Ds where
  /-- The short tag of the key. -/
  keyTag : ℕ
  /-- The key's algorithm. -/
  algorithm : ℕ
  /-- The digest algorithm. -/
  digestType : ℕ
  /-- The digest of the key. -/
  digest : Bytes
deriving DecidableEq, Repr

/-- A signature record. -/
structure Rrsig where
  /-- The type of the records it signs. -/
  typeCovered : RdataType
  /-- The signature algorithm. -/
  algorithm : ℕ
  /-- The number of labels of the signed owner, without root and wildcard label. -/
  labels : ℕ
  /-- The TTL the signature was made with. -/
  originalTtl : ℕ
  /-- The end of validity. -/
  expiration : ℕ
  /-- The start of validity. -/
  inception : ℕ
  /-- The short tag of the signing key. -/
  keyTag : ℕ
  /-- The zone that signed. -/
  signer : Name
  /-- The signature. -/
  signature : Bytes
deriving DecidableEq, Repr

/-- The data of one record. -/
inductive Rdata
  /-- A denial record over names. -/
  | nsec (record : Nsec)
  /-- A denial record over hashed names. -/
  | nsec3 (record : Nsec3)
  /-- A zone key. -/
  | dnskey (record : DnsKey)
  /-- A delegation signer. -/
  | ds (record : Ds)
  /-- A signature. -/
  | rrsig (record : Rrsig)
  /-- Any other data, by its wire form. -/
  | other (wire : Bytes)
deriving DecidableEq, Repr

/-- A set of records of one owner and type. -/
structure RRset where
  /-- The owner. -/
  name : Name
  /-- The class. -/
  rdclass : ℕ
  /-- The record type. -/
  rdtype : RdataType
  /-- For a signature set the type it covers. -/
  covers : RdataType
  /-- The time to live. -/
  ttl : ℕ
  /-- The records. -/
  records : List Rdata
deriving DecidableEq, Repr

/-- The keys of an RRset. -/
def RRset.keys (rrset : RRset) : List DnsKey :=
  rrset.records.filterMap fun
    | .dnskey key => some key
    | _ => none

/-- The keys are records. -/
theorem RRset.mem_records_of_mem_keys {rrset : RRset} {key : DnsKey} (hkey : key ∈ rrset.keys) :
    .dnskey key ∈ rrset.records := by
  obtain ⟨record, hrecord, hsome⟩ := List.mem_filterMap.mp hkey
  cases record <;> simp at hsome
  exact hsome ▸ hrecord

/-- The signatures of an RRset. -/
def RRset.signatures (rrset : RRset) : List Rrsig :=
  rrset.records.filterMap fun
    | .rrsig signature => some signature
    | _ => none

/-- The DS records of an RRset. -/
def RRset.delegations (rrset : RRset) : List Ds :=
  rrset.records.filterMap fun
    | .ds delegation => some delegation
    | _ => none

/-- `has_type`: the bitmap sets the bit of a type. -/
def hasType (windows : Windows) (kind : RdataType) : Bool :=
  let window := kind / 256
  let offset := kind % 256
  let octet := offset / 8
  let bit := offset % 8
  windows.any fun (number, bitmap) ↦
    number == window && decide (octet < bitmap.length) &&
      ((bitmap.getD octet 0).val &&& (0x80 >>> bit)) != 0

/-- A bitmap with no window sets no bit. -/
@[simp] theorem hasType_nil (kind : RdataType) : hasType [] kind = false :=
  rfl

/-- A bitmap lists exactly the types of a set. -/
def Represents (windows : Windows) (types : Finset RdataType) : Prop :=
  ∀ kind, hasType windows kind = true ↔ kind ∈ types

end Ads.Dns
