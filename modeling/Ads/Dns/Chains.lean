import Ads.Dns.Zone
import Ads.Python.Base32

/-!
# The denial chains a zone publishes

The NSEC chain of a zone has a record for each owner, with the owner's types and the next owner in
the canonical order, the last one pointing at the first. The NSEC3 chain has a record for each name
that exists, empty non-terminals included, in the order of their hashes. `Publishes` says that an
RRset is one of the chain's.
-/

set_option autoImplicit false
set_option relaxedAutoImplicit false

namespace Ads.Dns

open Foundation.CircularChain Python

/-- The genuine NSEC chain of a zone. -/
structure NsecChain (zone : Zone) where
  /-- The next owner of each owner. -/
  next : Name → Name
  /-- The type bitmap of each owner. -/
  windows : Name → Windows
  /-- The chain follows the canonical order of the owners and wraps around. -/
  isSuccessor : ∀ owner ∈ zone.owners, IsSuccessor (zone.owners : Set Name) owner (next owner)
  /-- The bitmaps are exact. -/
  represents : ∀ owner ∈ zone.owners, Represents (windows owner) (zone.types owner)

namespace NsecChain

variable {zone : Zone} (chain : NsecChain zone)

/-- The record at an owner. -/
def record (owner : Name) : Nsec :=
  ⟨chain.next owner, chain.windows owner⟩

/-- The RRset at an owner. -/
def rrset (owner : Name) : RRset :=
  { name := owner, rdclass := 1, rdtype := RdataType.nsec, covers := RdataType.none, ttl := 3600,
    records := [.nsec (chain.record owner)] }

/-- The RRset is one of the chain's, whatever its remaining time to live. -/
def Publishes (rrset : RRset) : Prop :=
  rrset.name ∈ zone.owners ∧ rrset.records = [.nsec (chain.record rrset.name)]

instance decidablePublishes (rrset : RRset) : Decidable (chain.Publishes rrset) :=
  inferInstanceAs (Decidable (_ ∧ _))

end NsecChain

/-- The genuine NSEC3 chain of a zone: SHA-1, one set of parameters, no Opt-Out. -/
structure Nsec3Chain (zone : Zone) where
  /-- The extra hash rounds. -/
  iterations : ℕ
  /-- The salt. -/
  salt : Bytes
  /-- The hash of each name. -/
  hash : Name → Bytes
  /-- The next hash of each existing name. -/
  next : Name → Bytes
  /-- The type bitmap of each existing name. -/
  windows : Name → Windows
  /-- The chain follows the order of the hashes of the existing names and wraps around. -/
  isSuccessor : ∀ name, zone.Exists name →
    IsSuccessor (hash '' {name | zone.Exists name}) (hash name) (next name)
  /-- The bitmaps are exact. -/
  represents : ∀ name, zone.Exists name → Represents (windows name) (zone.types name)

namespace Nsec3Chain

variable {zone : Zone} (chain : Nsec3Chain zone)

/-- The record of an existing name. -/
def record (name : Name) : Nsec3 :=
  { algorithm := 1, flags := 0, iterations := chain.iterations, salt := chain.salt,
    next := chain.next name, windows := chain.windows name }

/-- The RRset is one of the chain's: its first label is the text of the hash of an existing name. -/
def Publishes (rrset : RRset) : Prop :=
  ∃ name label, zone.Exists name ∧ rrset.name = ⟨label :: zone.apex.labels⟩ ∧
    b32hexdecode (upper label) = some (chain.hash name) ∧ rrset.records = [.nsec3 (chain.record name)]

end Nsec3Chain

/-! ### A small zone -/

namespace Example

/-- The zone `z.`. -/
def apex : Name := .ofTexts ["z"]

/-- Its wildcard. -/
def star : Name := .ofTexts ["*", "z"]

/-- An owner below the empty non-terminal `b.z.`. -/
def leaf : Name := .ofTexts ["a", "b", "z"]

/-- The types at a name: those of an apex, or an address. -/
def types (name : Name) : Finset RdataType :=
  if name = apex then {RdataType.ns, RdataType.soa}
  else if name = star ∨ name = leaf then {1} else ∅

/-- The zone with an apex, a wildcard and an owner below an empty non-terminal. -/
def zone : Zone where
  apex := apex
  owners := {apex, star, leaf}
  types := types
  isAbsolute_apex := by decide
  apex_mem := by decide
  isSubdomain_apex := by decide
  soa_iff := by decide
  types_eq_empty := by
    intro name hname
    simp only [Finset.mem_insert, Finset.mem_singleton, not_or] at hname
    simp [types, hname.1, hname.2.1, hname.2.2]
  not_isBelow_cut := by decide

end Example

/-- A bitmap of one octet sets the bits of that octet. -/
theorem hasType_octet {octet : Octet} {kind : ℕ} :
    hasType [(0, [octet])] kind = true ↔ kind < 8 ∧ octet.val &&& (0x80 >>> kind) ≠ 0 := by
  by_cases hkind : kind < 8
  · have hwindow : kind / 256 = 0 := by omega
    have hoctet : kind % 256 / 8 = 0 := by omega
    have hbit : kind % 256 % 8 = kind := by omega
    simp [hasType, hwindow, hoctet, hbit, hkind]
  · have houtside : 0 = kind / 256 → ¬ kind % 256 / 8 < 1 := by omega
    simp only [hasType, List.any_cons, List.any_nil, Bool.or_false, Bool.and_eq_true, beq_iff_eq,
      decide_eq_true_eq, List.length_singleton, hkind, false_and, iff_false]
    exact fun h ↦ houtside h.1.1 h.1.2

/-- A bitmap of one octet lists the small types whose bits it sets. -/
theorem represents_octet {octet : Octet} {types : Finset RdataType}
    (hsmall : ∀ kind ∈ types, kind < 8)
    (hbits : ∀ kind < 8, octet.val &&& (0x80 >>> kind) ≠ 0 ↔ kind ∈ types) :
    Represents [(0, [octet])] types := by
  intro kind
  rw [hasType_octet]
  exact ⟨fun h ↦ (hbits kind h.1).mp h.2,
    fun h ↦ ⟨hsmall kind h, (hbits kind (hsmall kind h)).mpr h⟩⟩

namespace Example

/-- The chain of the zone. -/
def chain : NsecChain zone where
  next owner := if owner = apex then star else if owner = star then leaf else apex
  windows owner := if owner = apex then [(0, [34])] else [(0, [64])]
  isSuccessor := by decide
  represents := by
    intro owner howner
    simp only [zone, Finset.mem_insert, Finset.mem_singleton] at howner
    rcases howner with rfl | rfl | rfl
    · exact represents_octet (by decide) (by decide)
    · exact represents_octet (by decide) (by decide)
    · exact represents_octet (by decide) (by decide)

end Example

end Ads.Dns
