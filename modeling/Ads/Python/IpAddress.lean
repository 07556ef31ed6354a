import Ads.Python.Text
import Mathlib.Algebra.Group.Nat.Defs

/-!
# The module `ipaddress`

Addresses, their texts and networks as the standard library reads and writes them. `none` stands
for `ValueError`.
-/

set_option autoImplicit false
set_option relaxedAutoImplicit false

namespace Ads.Python

/-- `IPv4Address` or `IPv6Address`. -/
inductive IpAddress
  /-- An address of 32 bits. -/
  | v4 (value : BitVec 32)
  /-- An address of 128 bits with its scope. -/
  | v6 (value : BitVec 128) (scope : Option Text)
deriving DecidableEq

/-- `_BaseV4._parse_octet`. -/
def parseOctet (text : Text) : Option ℕ :=
  if text = [] ∨ ¬ text.all isDigit ∨ text.length > 3 ∨
      (text ≠ ['0'] ∧ text.head? = some '0') ∨ decimalValue text > 255 then none
  else some (decimalValue text)

/-- `IPv4Address` of a text. -/
def ipv4Value (text : Text) : Option (BitVec 32) :=
  if '/' ∈ text ∨ text = [] then none
  else
    match text.splitOn '.' with
    | [first, second, third, fourth] => do
      let octets ← [first, second, third, fourth].mapM parseOctet
      return BitVec.ofNat 32 (octets.foldl (fun value octet ↦ value * 256 + octet) 0)
    | _ => none

/-- The value of a hexadecimal digit. -/
def hexDigit (char : Char) : Option ℕ :=
  let code := char.toNat
  if 48 ≤ code ∧ code ≤ 57 then some (code - 48)
  else if 65 ≤ code ∧ code ≤ 70 then some (code - 55)
  else if 97 ≤ code ∧ code ≤ 102 then some (code - 87)
  else none

/-- `_BaseV6._parse_hextet`. -/
def parseHextet (text : Text) : Option ℕ :=
  if text = [] ∨ text.length > 4 then none
  else text.foldlM (fun value char ↦ (hexDigit char).map fun digit ↦ value * 16 + digit) 0

/-- The hexadecimal text of a number. -/
def hexText (value : ℕ) : Text :=
  Nat.toDigits 16 value

/-- The parts of an IPv6 text with an IPv4 suffix written as two hextets. -/
def expandSuffix (parts : List Text) : Option (List Text) :=
  match parts.getLast? with
  | none => some parts
  | some last =>
    if '.' ∈ last then do
      let value ← ipv4Value last
      return parts.dropLast ++ [hexText (value.toNat / 65536), hexText (value.toNat % 65536)]
    else some parts

/-- How many parts stand before and after the skipped zeros, and how many are skipped. -/
def hextetCounts (parts : List Text) : Option (ℕ × ℕ × ℕ) :=
  let first := parts.headD []
  let last := parts.getLastD []
  match (List.range parts.length).filter fun index ↦
      1 ≤ index && index + 1 < parts.length && (parts.getD index []).isEmpty with
  | [] =>
    if parts.length ≠ 8 ∨ first = [] ∨ last = [] then none else some (parts.length, 0, 0)
  | [skip] =>
    let high := if first = [] then skip - 1 else skip
    let low := if last = [] then parts.length - skip - 2 else parts.length - skip - 1
    if (first = [] ∧ high ≠ 0) ∨ (last = [] ∧ low ≠ 0) ∨ high + low > 7 then none
    else some (high, low, 8 - (high + low))
  | _ => none

/-- `_BaseV6._ip_int_from_string`. -/
def ipv6Value (text : Text) : Option (BitVec 128) := do
  let parts := text.splitOn ':'
  if text = [] ∨ parts.length < 3 then none
  let parts ← expandSuffix parts
  if parts.length > 9 then none
  let (high, low, skipped) ← hextetCounts parts
  let before ← (parts.take high).mapM parseHextet
  let after ← (parts.drop (parts.length - low)).mapM parseHextet
  return BitVec.ofNat 128
    ((before ++ List.replicate skipped 0 ++ after).foldl (fun value hextet ↦ value * 65536 + hextet) 0)

/-- `IPv6Address` of a text. -/
def ipv6Address (text : Text) : Option IpAddress :=
  if '/' ∈ text then none
  else
    match partitionChar '%' text with
    | (address, false, _) => (ipv6Value address).map fun value ↦ .v6 value none
    | (address, true, scope) =>
      if scope = [] ∨ '%' ∈ scope then none
      else (ipv6Value address).map fun value ↦ .v6 value (some scope)

/-- `ip_address` of a text. -/
def ipAddress (text : Text) : Option IpAddress :=
  match ipv4Value text with
  | some value => some (.v4 value)
  | none => ipv6Address text

/-- The eight hextets of an IPv6 address. -/
def hextets (value : BitVec 128) : List ℕ :=
  [7, 6, 5, 4, 3, 2, 1, 0].map fun place ↦ value.toNat / 65536 ^ place % 65536

/-- The length of the run of zeros at the start of a list. -/
def zeroRun (values : List ℕ) : ℕ :=
  (values.takeWhile (· == 0)).length

/-- The start and length of the first longest run of zeros. -/
def longestZeroRun (values : List ℕ) : ℕ × ℕ :=
  (List.range values.length).foldl
    (fun best start ↦
      let length := zeroRun (values.drop start)
      if length > best.2 then (start, length) else best)
    (0, 0)

/-- `_BaseV6._string_from_ip_int`. -/
def ipv6Text (value : BitVec 128) : Text :=
  let values := hextets value
  let texts := values.map hexText
  let (start, length) := longestZeroRun values
  if length > 1 then
    List.intercalate [':'] (texts.take start) ++ [':', ':'] ++
      List.intercalate [':'] (texts.drop (start + length))
  else List.intercalate [':'] texts

/-- `str` of an address. -/
def IpAddress.text : IpAddress → Text
  | .v4 value => List.intercalate ['.']
      ([3, 2, 1, 0].map fun place ↦ Nat.toDigits 10 (value.toNat / 256 ^ place % 256))
  | .v6 value none => ipv6Text value
  | .v6 value (some scope) => ipv6Text value ++ ['%'] ++ scope

/-- `IPv6Address.ipv4_mapped`. -/
def ipv4Mapped (value : BitVec 128) : Option (BitVec 32) :=
  if value.toNat / 2 ^ 32 = 0xFFFF then some (BitVec.ofNat 32 value.toNat) else none

/-- `IPv4Network` or `IPv6Network`. -/
inductive IpNetwork
  /-- The addresses that share a prefix of 32 bits. -/
  | v4 (address : BitVec 32) (prefixLength : ℕ)
  /-- The addresses that share a prefix of 128 bits. -/
  | v6 (address : BitVec 128) (prefixLength : ℕ)
deriving DecidableEq

/-- `address in network`, for an address of the same version. -/
def IpNetwork.contains : IpNetwork → IpAddress → Bool
  | .v4 network prefixLength, .v4 address =>
    address.toNat / 2 ^ (32 - prefixLength) == network.toNat / 2 ^ (32 - prefixLength)
  | .v6 network prefixLength, .v6 address _ =>
    address.toNat / 2 ^ (128 - prefixLength) == network.toNat / 2 ^ (128 - prefixLength)
  | _, _ => false

/-- `ip_network` of a text with a prefix length. -/
def ipNetwork (text : Text) : Option IpNetwork :=
  match text.splitOn '/' with
  | [address, digits] =>
    let length := decimalValue digits
    if digits = [] ∨ ¬ digits.all isDigit then none
    else
      match ipAddress address with
      | some (.v4 value) =>
        if length ≤ 32 ∧ value.toNat % 2 ^ (32 - length) = 0 then some (.v4 value length) else none
      | some (.v6 value none) =>
        if length ≤ 128 ∧ value.toNat % 2 ^ (128 - length) = 0 then some (.v6 value length) else none
      | _ => none
  | _ => none

/-- The compressed notation is read and written. -/
example : (ipAddress "2001:DB8::10.0.0.1".toList).map IpAddress.text =
    some "2001:db8::a00:1".toList := by decide

end Ads.Python
