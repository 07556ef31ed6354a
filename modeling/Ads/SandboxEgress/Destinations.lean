import Ads.SandboxEgress.Policy

/-!
# Destinations

The model of the address part of `destinations.py`: the addresses that traffic may be sent to are
those outside the translations, the infrastructure and the special-purpose registry. Beside it, the
names that may be asked for.
-/

set_option autoImplicit false
set_option relaxedAutoImplicit false

namespace Ads.SandboxEgress

open Foundation.StateExcept Python

/-- `SPECIAL_PREFIXES`. -/
def specialPrefixes : List String :=
  ["0.0.0.0/8", "10.0.0.0/8", "100.64.0.0/10", "127.0.0.0/8", "169.254.0.0/16", "172.16.0.0/12",
    "192.0.0.0/24", "192.0.2.0/24", "192.31.196.0/24", "192.52.193.0/24", "192.88.99.0/24",
    "192.168.0.0/16", "192.175.48.0/24", "198.18.0.0/15", "198.51.100.0/24", "203.0.113.0/24",
    "224.0.0.0/4", "240.0.0.0/4", "::/128", "::1/128", "::ffff:0:0/96", "64:ff9b::/96",
    "64:ff9b:1::/48", "100::/64", "100:0:0:1::/64", "2001::/23", "2001:db8::/32", "2002::/16",
    "2620:4f:8000::/48", "3fff::/20", "5f00::/16", "fc00::/7", "fe80::/10", "ff00::/8"]

/-- `_SPECIAL`. -/
def specialNetworks : List IpNetwork :=
  specialPrefixes.filterMap fun text ↦ ipNetwork text.toList

/-- Every special prefix is a network. -/
example : ∀ text ∈ specialPrefixes, (ipNetwork text.toList).isSome := by decide +kernel

/-- `_V6_CANDIDATE`. -/
def v6Candidate : IpNetwork :=
  .v6 (BitVec.ofNat 128 (0x2000 * 2 ^ 112)) 3

/-- `parse_address`. -/
def parseAddress (value : Text) (socketPeer : Bool) : Except Raised IpAddress :=
  if '%' ∈ value then throw (.requestDenied "malformed_address")
  else
    match ipAddress value with
    | none => throw (.requestDenied "malformed_address")
    | some (.v4 address) => return .v4 address
    | some (.v6 address scope) =>
      match ipv4Mapped address with
      | none => return .v6 address scope
      | some mapped =>
        if socketPeer then return .v4 mapped else throw (.requestDenied "mapped_dns_address")

/-- `DestinationBoundary`. -/
structure DestinationBoundary where
  /-- The networks of the infrastructure. -/
  infrastructure : List IpNetwork
  /-- The networks that are translated. -/
  translations : List IpNetwork
  /-- The version of the inventory. -/
  inventoryVersion : Text
  /-- The inventory is not empty. -/
  infrastructure_ne_nil : infrastructure ≠ []
  /-- The inventory is bounded. -/
  length_le : infrastructure.length + translations.length ≤ 4096
  /-- The version is given and bounded. -/
  version_length : 1 ≤ inventoryVersion.length ∧ inventoryVersion.length ≤ 128

/-- `require_public`. -/
def DestinationBoundary.requirePublic (boundary : DestinationBoundary) (value : Text)
    (socketPeer : Bool := false) : Except Raised IpAddress := do
  let address ← parseAddress value socketPeer
  failIf (boundary.translations.any (·.contains address)) (.requestDenied "translation")
  failIf (boundary.infrastructure.any (·.contains address)) (.requestDenied "infrastructure")
  failIf (specialNetworks.any (·.contains address)) (.requestDenied "special_purpose")
  match address with
  | .v4 _ => return address
  | .v6 _ _ =>
    if v6Candidate.contains address then return address
    else throw (.requestDenied "unsupported_address_family_range")

/-- `str.lower`. Of the other characters, only the Kelvin sign has an ASCII letter for it. -/
def lowerDnsChar (char : Char) : Char :=
  if char.toNat = 0x212A then 'k' else lowerChar char

/-- A character of a label in `dns_name`. -/
def isDnsChar (char : Char) : Bool :=
  isDigit char || (97 ≤ char.toNat && char.toNat ≤ 122) || char == '_' || char == '-'

/-- `dns_name`. -/
def dnsName (value : Text) : Except Raised Text :=
  if value = ".".toList then return ".".toList
  else
    let name := removeSuffixChar '.' (value.map lowerDnsChar)
    let isLabel := fun (index : ℕ) (label : Text) ↦
      1 ≤ label.length && label.length ≤ 63 &&
        ((index == 0 && label == "*".toList) || label.all isDnsChar)
    if ¬ isAscii name ∨ 253 < name.length ∨
        ¬ (name.splitOn '.').zipIdx.all fun label ↦ isLabel label.2 label.1 then
      throw (.requestDenied "invalid_dns_name")
    else return name

end Ads.SandboxEgress
