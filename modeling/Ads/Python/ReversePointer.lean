import Ads.Python.Digits
import Ads.Python.IpAddressText
import Ads.Python.Values

/-!
# Reverse pointers

The pointer names of addresses. The name of an IPv4 address has its octets and the name of an IPv6
address all its hexadecimal digits, in both cases from the last one to the first. Eight groups of
four digits are read as the address that they are the digits of (`ipAddress_exploded`).
-/

set_option autoImplicit false
set_option relaxedAutoImplicit false

namespace Ads.Python

/-- The labels of a pointer name before those of its zone. -/
def pointerLabels : IpAddress → List Text
  | .v4 value => [0, 1, 2, 3].map fun place ↦ Nat.toDigits 10 (value.toNat / 256 ^ place % 256)
  | .v6 value _ => (paddedHex 32 value.toNat).reverse.map fun digit ↦ [digit]

/-- The labels of the zone of a pointer name. -/
def pointerZone : IpAddress → List Text
  | .v4 _ => ["in-addr".toList, "arpa".toList]
  | .v6 _ _ => ["ip6".toList, "arpa".toList]

/-- `reverse_pointer`. -/
def reversePointer (address : IpAddress) : Text :=
  List.intercalate ['.'] (pointerLabels address ++ pointerZone address)

/-- `exploded` of an IPv6 address: eight groups of four digits. -/
def exploded (digits : Text) : Text :=
  List.intercalate [':'] ((List.range 8).map fun index ↦ (digits.drop (4 * index)).take 4)

variable {value : ℕ}

/-! ### Digits with zeros in front -/

/-- The characters of padded digits are digits in lower case. -/
theorem mem_paddedHex {width : ℕ} {char : Char} (hchar : char ∈ paddedHex width value) :
    ∃ digit < 16, char = Nat.digitChar digit := by
  obtain ⟨place, -, rfl⟩ := List.mem_map.mp hchar
  exact ⟨_, Nat.mod_lt _ (by decide), rfl⟩

/-- Four digits are read as the hextet that they are the digits of. -/
theorem parseHextet_paddedHex {hextet : ℕ} (hhextet : hextet < 65536) :
    parseHextet (paddedHex 4 hextet) = some hextet := by
  have hdigit (place : ℕ) : hexDigit (Nat.digitChar (hextet / 16 ^ place % 16)) =
      some (hextet / 16 ^ place % 16) := hexDigit_digitChar (Nat.mod_lt _ (by decide))
  have hdigits : paddedHex 4 hextet =
      [3, 2, 1, 0].map fun place ↦ Nat.digitChar (hextet / 16 ^ place % 16) := rfl
  unfold parseHextet
  rw [if_neg (by simp [hdigits]), hdigits]
  simp only [List.map_cons, List.map_nil, List.foldlM_cons, List.foldlM_nil, hdigit,
    Option.map_some, Option.bind_eq_bind, Option.bind_some, Option.pure_def]
  congr 1
  omega

/-- A digit of a hextet is a digit of the value. -/
theorem digit_of_hextet (place : ℕ) {offset : ℕ} (hoffset : offset < 4) :
    value / 65536 ^ place % 65536 / 16 ^ offset % 16 = value / 16 ^ (4 * place + offset) % 16 := by
  have hpower : (65536 : ℕ) ^ place = 16 ^ (4 * place) := by
    rw [pow_mul]
    norm_num
  rw [hpower, pow_add, ← Nat.div_div_eq_div_mul]
  generalize value / 16 ^ (4 * place) = high
  interval_cases offset <;> omega

/-- The digits of a hextet are four digits of the value. -/
theorem paddedHex_hextet (place : ℕ) :
    paddedHex 4 (value / 65536 ^ place % 65536) =
      [3, 2, 1, 0].map fun offset ↦ Nat.digitChar (value / 16 ^ (4 * place + offset) % 16) := by
  have hdigits : paddedHex 4 (value / 65536 ^ place % 65536) =
      [3, 2, 1, 0].map fun offset ↦
        Nat.digitChar (value / 65536 ^ place % 65536 / 16 ^ offset % 16) := rfl
  rw [hdigits]
  refine List.map_congr_left fun offset hoffset ↦ ?_
  rw [digit_of_hextet place (by revert hoffset; revert offset; decide)]

/-- The groups of four digits are the digits of the hextets. -/
theorem groups_paddedHex (value : BitVec 128) :
    ((List.range 8).map fun index ↦ ((paddedHex 32 value.toNat).drop (4 * index)).take 4) =
      (hextets value).map (paddedHex 4) := by
  unfold hextets
  rw [List.map_map]
  simp only [List.map_cons, List.map_nil, Function.comp_apply, paddedHex_hextet]
  rfl

/-! ### Exploded addresses -/

/-- The groups are read as the hextets. -/
theorem mapM_parseHextet_paddedHex {values : List ℕ} (hvalues : ∀ hextet ∈ values, hextet < 65536) :
    (values.map (paddedHex 4)).mapM parseHextet = some values := by
  induction values with
  | nil => rfl
  | cons hextet rest ih =>
    rw [List.map_cons, List.mapM_cons, parseHextet_paddedHex (hvalues hextet List.mem_cons_self),
      ih fun other hother ↦ hvalues other (List.mem_cons_of_mem _ hother)]
    rfl

/-- A character that is no digit is not among padded digits. -/
theorem not_mem_paddedHex {width : ℕ} {char : Char}
    (hchar : ∀ digit < 16, char ≠ Nat.digitChar digit) : char ∉ paddedHex width value := by
  intro hmem
  obtain ⟨digit, hdigit, hsame⟩ := mem_paddedHex hmem
  exact hchar digit hdigit hsame

/-- The digits of an address in groups of four are read as the address. -/
theorem ipv6Value_exploded (value : BitVec 128) :
    ipv6Value (exploded (paddedHex 32 value.toNat)) = some value := by
  unfold exploded
  rw [groups_paddedHex]
  have hparts : ∀ part ∈ (hextets value).map (paddedHex 4), part ≠ [] ∧ ':' ∉ part ∧ '.' ∉ part := by
    intro part hpart
    obtain ⟨hextet, -, rfl⟩ := List.mem_map.mp hpart
    refine ⟨fun hnil ↦ ?_, not_mem_paddedHex (by decide), not_mem_paddedHex (by decide)⟩
    have hlength := congrArg List.length hnil
    simp at hlength
  have hlength : ((hextets value).map (paddedHex 4)).length = 8 := rfl
  refine @ipv6Value_of_parts _ (hextets value) [] value (fun part hpart ↦ (hparts part hpart).2)
    (by omega) (by omega) 0 (hextetCounts_of_length (fun part hpart ↦ (hparts part hpart).1) hlength)
    ?_ ?_ ?_
  · exact mapM_parseHextet_paddedHex fun _ ↦ lt_of_mem_hextets
  · rfl
  · simp

/-- The characters of an exploded address are digits and colons. -/
theorem not_mem_exploded {value : BitVec 128} {char : Char} (hcolon : char ≠ ':')
    (hdigit : ∀ digit < 16, char ≠ Nat.digitChar digit) :
    char ∉ exploded (paddedHex 32 value.toNat) := by
  unfold exploded
  rw [groups_paddedHex]
  intro hmem
  rcases mem_intercalate hmem with hsame | ⟨part, hpart, hpartMem⟩
  · exact hcolon hsame
  · obtain ⟨hextet, -, rfl⟩ := List.mem_map.mp hpart
    exact not_mem_paddedHex hdigit hpartMem

/-- The digits of an address in groups of four are read as the address without a scope. -/
theorem ipAddress_exploded (value : BitVec 128) :
    ipAddress (exploded (paddedHex 32 value.toNat)) = some (.v6 value none) := by
  have hnone : ipv4Value (exploded (paddedHex 32 value.toNat)) = none := by
    unfold ipv4Value
    rw [List.splitOn_eq_singleton (not_mem_exploded (by decide) (by decide))]
    split_ifs <;> rfl
  have hslash : '/' ∉ exploded (paddedHex 32 value.toNat) :=
    not_mem_exploded (by decide) (by decide)
  have hpercent : '%' ∉ exploded (paddedHex 32 value.toNat) :=
    not_mem_exploded (by decide) (by decide)
  unfold ipAddress
  rw [hnone]
  dsimp only
  unfold ipv6Address
  rw [if_neg hslash, partitionChar_of_not_mem hpercent]
  dsimp only
  rw [ipv6Value_exploded]
  rfl

/-! ### Pointer names -/

/-- The characters of a number are digits. -/
theorem mem_toDigits {number : ℕ} {char : Char} (hchar : char ∈ Nat.toDigits 10 number) :
    ∃ digit < 16, char = Nat.digitChar digit := by
  have hdigit := isDigit_of_mem_toDigits hchar
  simp only [isDigit, Bool.and_eq_true, decide_eq_true_eq] at hdigit
  have hdigits : ∀ digit < 10, Char.ofNat (48 + digit) = Nat.digitChar digit := by decide
  refine ⟨char.toNat - 48, by omega, ?_⟩
  rw [← hdigits _ (by omega), Nat.add_sub_cancel' hdigit.1, Char.ofNat_toNat]

/-- The labels of a pointer name are not empty, short, and of digits in lower case. -/
theorem pointerLabels_spec {address : IpAddress} {label : Text}
    (hlabel : label ∈ pointerLabels address) :
    1 ≤ label.length ∧ label.length ≤ 3 ∧ ∀ char ∈ label, ∃ digit < 16, char = Nat.digitChar digit := by
  cases address with
  | v4 value =>
    obtain ⟨place, -, rfl⟩ := List.mem_map.mp hlabel
    have hoctet : value.toNat / 256 ^ place % 256 < 256 := Nat.mod_lt _ (by decide)
    exact ⟨List.length_pos_iff.mpr Nat.toDigits_ne_nil,
      (Nat.length_toDigits_le_iff (by decide) (by decide)).mpr (hoctet.trans (by decide)),
      fun char ↦ mem_toDigits⟩
  | v6 value scope =>
    obtain ⟨digit, hdigit, rfl⟩ := List.mem_map.mp hlabel
    obtain ⟨value, hvalue, rfl⟩ := mem_paddedHex (List.mem_reverse.mp hdigit)
    exact ⟨by simp, by simp, fun char hchar ↦ ⟨value, hvalue, List.mem_singleton.mp hchar⟩⟩

end Ads.Python
