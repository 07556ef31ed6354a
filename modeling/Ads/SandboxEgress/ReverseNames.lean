import Ads.Python.ReversePointer
import Ads.SandboxEgress.Destinations

/-!
# Names that may be asked for

The model of `check_name` of `destinations.py`. A name is denied when it belongs to
the infrastructure, and a name that points back to an address is denied when the address is. The
two ways to an address agree: `check_name` on a pointer name reads the address that the name points
to, whatever the case of its letters and with or without a dot at its end (`checkName_reversePointer`).
-/

set_option autoImplicit false
set_option relaxedAutoImplicit false

namespace Ads.SandboxEgress

open Foundation.StateExcept Python

/-! ### Names -/

/-- `str.removesuffix` of a suffix that the text has. -/
def withoutSuffix (suffix text : Text) : Text :=
  text.take (text.length - suffix.length)

/-- `".in-addr.arpa"`. -/
def inAddrSuffix : Text :=
  ".in-addr.arpa".toList

/-- `".ip6.arpa"`. -/
def ip6Suffix : Text :=
  ".ip6.arpa".toList

/-- `"0123456789abcdef"`. -/
def nibbles : Text :=
  "0123456789abcdef".toList

/-- The text of the address that a name points back to. -/
def reverseOf (name : Text) : Option Text :=
  if inAddrSuffix.isSuffixOf name then
    let labels := (withoutSuffix inAddrSuffix name).splitOn '.'
    if labels.length = 4 then some (List.intercalate ['.'] labels.reverse) else none
  else if ip6Suffix.isSuffixOf name then
    let labels := (withoutSuffix ip6Suffix name).splitOn '.'
    if labels.length = 32 ∧ labels.all fun label ↦ label.length == 1 && label.all (nibbles.contains ·)
    then some (exploded labels.reverse.flatten)
    else none
  else none

/-- `ResolverBoundary`, as far as names are checked. -/
structure NameBoundary where
  /-- The zones of the infrastructure. -/
  zones : Finset Text
  /-- The single names of the infrastructure. -/
  exactNames : Finset Text
  /-- The addresses that may be used. -/
  addresses : DestinationBoundary

namespace NameBoundary

/-- The name is one of the infrastructure or in one of its zones. -/
def IsInfrastructure (boundary : NameBoundary) (name : Text) : Prop :=
  name ∈ boundary.exactNames ∨ ∃ zone ∈ boundary.zones, name = zone ∨ ('.' :: zone) <:+ name

instance (boundary : NameBoundary) (name : Text) : Decidable (boundary.IsInfrastructure name) :=
  inferInstanceAs (Decidable (_ ∨ ∃ zone ∈ boundary.zones, _))

/-- `check_name`. -/
def checkName (boundary : NameBoundary) (value : Text) : Except Raised Text := do
  let name ← dnsName value
  failIf (boundary.IsInfrastructure name) (.requestDenied "infrastructure_name")
  match reverseOf name with
  | none => return name
  | some reverse =>
    let _ ← boundary.addresses.requirePublic reverse
    return name

end NameBoundary

/-! ### Pointer names -/

/-- The text is the name in letters of any case, perhaps with a dot at its end. -/
def IsSpelling (value name : Text) : Prop :=
  value.map lowerDnsChar = name ∨ value.map lowerDnsChar = name ++ ['.']

instance (value name : Text) : Decidable (IsSpelling value name) :=
  inferInstanceAs (Decidable (_ ∨ _))

variable {address : IpAddress} {value : Text}

/-- The end of a pointer name. -/
def pointerSuffix : IpAddress → Text
  | .v4 _ => inAddrSuffix
  | .v6 _ _ => ip6Suffix

theorem pointerLabels_ne_nil : pointerLabels address ≠ [] := by
  intro hnil
  have hlength := congrArg List.length hnil
  cases address <;> simp [pointerLabels] at hlength

theorem reversePointer_eq :
    reversePointer address = List.intercalate ['.'] (pointerLabels address) ++ pointerSuffix address := by
  cases address with
  | v4 value => exact intercalate_append pointerLabels_ne_nil (List.cons_ne_nil _ _)
  | v6 value scope => exact intercalate_append pointerLabels_ne_nil (List.cons_ne_nil _ _)

theorem mem_pointerZone {label : Text} (hlabel : label ∈ pointerZone address) :
    label ∈ ["in-addr".toList, "ip6".toList, "arpa".toList] := by
  cases address with
  | v4 value => exact (List.sublist_cons_self _ _).cons_cons _ |>.subset hlabel
  | v6 value scope => exact List.mem_cons_of_mem _ hlabel

/-- What was checked of all characters of a text holds of each. -/
theorem forall_mem_of_all {holds : Char → Prop} [DecidablePred holds] {text : Text}
    (hall : text.all (fun char ↦ decide (holds char)) = true) : ∀ char ∈ text, holds char :=
  fun char hchar ↦ of_decide_eq_true (List.all_eq_true.mp hall char hchar)

/-- A character with a property that digits and the characters of both zones have. -/
theorem forall_label {holds : Char → Prop} (hdigits : ∀ digit < 16, holds (Nat.digitChar digit))
    (hzones : ∀ char ∈ "in-addrpa6".toList, holds char) :
    ∀ label ∈ pointerLabels address ++ pointerZone address,
      1 ≤ label.length ∧ label.length ≤ 7 ∧ ∀ char ∈ label, holds char := by
  intro label hlabel
  rcases List.mem_append.mp hlabel with hmem | hmem
  · obtain ⟨hpos, hshort, hchars⟩ := pointerLabels_spec hmem
    refine ⟨hpos, hshort.trans (by decide), fun char hchar ↦ ?_⟩
    obtain ⟨digit, hdigit, rfl⟩ := hchars char hchar
    exact hdigits digit hdigit
  · have hzone : ∀ label ∈ ["in-addr".toList, "ip6".toList, "arpa".toList],
        1 ≤ label.length ∧ label.length ≤ 7 ∧
          label.all (fun char ↦ decide (char ∈ "in-addrpa6".toList)) = true := by
      decide +kernel
    replace hzone := hzone label (mem_pointerZone hmem)
    exact ⟨hzone.1, hzone.2.1, fun char hchar ↦ hzones char (forall_mem_of_all hzone.2.2 char hchar)⟩

/-- A property that the dot, digits and the characters of both zones have. -/
theorem forall_reversePointer {holds : Char → Prop} (hdot : holds '.')
    (hdigits : ∀ digit < 16, holds (Nat.digitChar digit))
    (hzones : ∀ char ∈ "in-addrpa6".toList, holds char) :
    ∀ char ∈ reversePointer address, holds char := by
  intro char hchar
  rcases mem_intercalate hchar with rfl | ⟨label, hlabel, hmem⟩
  · exact hdot
  · exact (forall_label hdigits hzones label hlabel).2.2 char hmem

/-- A pointer name is written in lower case. -/
theorem isSpelling_self : IsSpelling (reversePointer address) (reversePointer address) := by
  have hlower : ∀ char ∈ reversePointer address, lowerDnsChar char = char :=
    forall_reversePointer (by decide) (by decide) (forall_mem_of_all (by decide))
  exact Or.inl ((List.map_congr_left hlower).trans (List.map_id _))

theorem splitOn_reversePointer :
    (reversePointer address).splitOn '.' = pointerLabels address ++ pointerZone address := by
  refine List.splitOn_intercalate '.' (fun label hlabel hdot ↦ ?_) ?_
  · exact (@forall_label address (· ≠ '.') (by decide) (forall_mem_of_all (by decide)) label hlabel).2.2 '.' hdot rfl
  · exact List.append_ne_nil_of_left_ne_nil pointerLabels_ne_nil _

/-- Parts that are short make a text that is short. -/
theorem length_intercalate_le {separator : Char} {parts : List Text} {bound : ℕ}
    (hparts : ∀ part ∈ parts, part.length ≤ bound) :
    (List.intercalate [separator] parts).length ≤ parts.length * (bound + 1) := by
  induction parts with
  | nil => simp
  | cons part rest ih =>
    have hpart := hparts part List.mem_cons_self
    have hrest := ih fun other hother ↦ hparts other (List.mem_cons_of_mem _ hother)
    by_cases hnil : rest = []
    · subst hnil
      rw [List.intercalate_singleton, List.length_singleton]
      omega
    · rw [List.intercalate_cons_of_ne_nil hnil, List.length_append, List.length_append,
        List.length_singleton, List.length_cons, Nat.add_mul]
      omega

theorem length_reversePointer : (reversePointer address).length ≤ 253 := by
  have hlabels : (List.intercalate ['.'] (pointerLabels address)).length ≤
      (pointerLabels address).length * 4 :=
    length_intercalate_le fun label hlabel ↦ (pointerLabels_spec hlabel).2.1
  have hmany : (pointerLabels address).length ≤ 32 := by
    cases address <;> simp [pointerLabels]
  have hsuffix : (pointerSuffix address).length ≤ 13 := by
    cases address with
    | v4 value => exact le_rfl
    | v6 value scope => exact (by decide : ip6Suffix.length ≤ 13)
  rw [reversePointer_eq, List.length_append]
  omega

/-- A spelling of a pointer name is read as the pointer name. -/
theorem dnsName_reversePointer (hvalue : IsSpelling value (reversePointer address)) :
    dnsName value = .ok (reversePointer address) := by
  have hlast : (reversePointer address).getLast? = some 'a' := by
    rw [reversePointer_eq, List.getLast?_append]
    cases address <;> rfl
  have hname : removeSuffixChar '.' (value.map lowerDnsChar) = reversePointer address := by
    rcases hvalue with hsame | hdotted
    · rw [hsame, removeSuffixChar, hlast]
      exact if_neg (by decide)
    · rw [hdotted, removeSuffixChar, List.getLast?_concat]
      simp
  have hroot : value ≠ ".".toList := by
    rintro rfl
    have hmapped : removeSuffixChar '.' (List.map lowerDnsChar ".".toList) = [] := by decide
    rw [hmapped] at hname
    rw [← hname] at hlast
    cases hlast
  have hascii : isAscii (reversePointer address) = true :=
    List.all_eq_true.mpr (@forall_reversePointer address
      (fun char ↦ decide (char.toNat < 128) = true) (by decide) (by decide)
      (forall_mem_of_all (by decide)))
  have howners : ((reversePointer address).splitOn '.').zipIdx.all (fun label ↦
      1 ≤ label.1.length && label.1.length ≤ 63 &&
        ((label.2 == 0 && label.1 == "*".toList) || label.1.all isDnsChar)) = true := by
    refine List.all_eq_true.mpr fun label hlabel ↦ ?_
    rw [splitOn_reversePointer] at hlabel
    obtain ⟨hpos, hshort, hchars⟩ := @forall_label address (isDnsChar · = true)
      (by decide) (forall_mem_of_all (by decide)) label.1 (List.fst_mem_of_mem_zipIdx hlabel)
    have hall : label.1.all isDnsChar = true := List.all_eq_true.mpr hchars
    simp only [hall, Bool.or_true, Bool.and_true, Bool.and_eq_true, decide_eq_true_eq]
    omega
  unfold dnsName
  dsimp only
  simp only [hroot, hname, hascii, howners, not_lt.mpr length_reversePointer, if_false, not_true,
    or_false]
  rfl

/-! ### The address of a name -/

/-- The text that `check_name` reads as the address of a pointer name. -/
def reverseText : IpAddress → Text
  | .v4 value => (IpAddress.v4 value).text
  | .v6 value _ => exploded (paddedHex 32 value.toNat)

theorem splitOn_labels :
    (List.intercalate ['.'] (pointerLabels address)).splitOn '.' = pointerLabels address := by
  refine List.splitOn_intercalate '.' (fun label hlabel hdot ↦ ?_) pointerLabels_ne_nil
  obtain ⟨digit, hdigit, hsame⟩ := (pointerLabels_spec hlabel).2.2 '.' hdot
  revert hsame
  revert digit
  decide

/-- Without its end, a pointer name is made of its labels. -/
theorem withoutSuffix_reversePointer :
    withoutSuffix (pointerSuffix address) (reversePointer address) =
      List.intercalate ['.'] (pointerLabels address) := by
  rw [withoutSuffix, reversePointer_eq, List.length_append, Nat.add_sub_cancel, List.take_left]

theorem pointerSuffix_isSuffixOf (address : IpAddress) :
    (pointerSuffix address).isSuffixOf (reversePointer address) = true :=
  List.isSuffixOf_iff_suffix.mpr ⟨_, reversePointer_eq.symm⟩

/-- The two ends of pointer names are not ends of each other. -/
theorem not_inAddrSuffix_of_v6 {value : BitVec 128} {scope : Option Text} :
    ¬ inAddrSuffix.isSuffixOf (reversePointer (.v6 value scope)) = true := by
  intro hsuffix
  have hends : ip6Suffix <:+ inAddrSuffix :=
    List.suffix_of_suffix_length_le
      (List.isSuffixOf_iff_suffix.mp (pointerSuffix_isSuffixOf (.v6 value scope)))
      (List.isSuffixOf_iff_suffix.mp hsuffix) (by decide)
  revert hends
  decide

/-- A pointer name points back to the address. -/
theorem reverseOf_reversePointer :
    reverseOf (reversePointer address) = some (reverseText address) := by
  unfold reverseOf
  cases address with
  | v4 value =>
    have hsuffix : inAddrSuffix.isSuffixOf (reversePointer (.v4 value)) = true :=
      pointerSuffix_isSuffixOf (.v4 value)
    have hbase : withoutSuffix inAddrSuffix (reversePointer (.v4 value)) =
        List.intercalate ['.'] (pointerLabels (.v4 value)) := withoutSuffix_reversePointer
    rw [if_pos hsuffix, hbase, splitOn_labels]
    rfl
  | v6 value scope =>
    have hsuffix : ip6Suffix.isSuffixOf (reversePointer (.v6 value scope)) = true :=
      pointerSuffix_isSuffixOf (.v6 value scope)
    have hbase : withoutSuffix ip6Suffix (reversePointer (.v6 value scope)) =
        List.intercalate ['.'] (pointerLabels (.v6 value scope)) := withoutSuffix_reversePointer
    have hnibbles : ∀ label ∈ pointerLabels (.v6 value scope),
        (label.length == 1 && label.all (nibbles.contains ·)) = true := by
      intro label hlabel
      obtain ⟨digit, hdigit, rfl⟩ := List.mem_map.mp hlabel
      have hall : ∀ place < 16, ([Nat.digitChar place].length == 1 &&
          [Nat.digitChar place].all (nibbles.contains ·)) = true := by decide
      obtain ⟨place, hplace, rfl⟩ := mem_paddedHex (List.mem_reverse.mp hdigit)
      exact hall place hplace
    have hlength : (pointerLabels (.v6 value scope)).length = 32 := by
      simp [pointerLabels]
    have hdigits : (pointerLabels (.v6 value scope)).reverse.flatten = paddedHex 32 value.toNat := by
      simp [pointerLabels, List.map_reverse, ← List.flatMap_def]
    rw [if_neg not_inAddrSuffix_of_v6, if_pos hsuffix, hbase, splitOn_labels]
    dsimp only
    rw [if_pos ⟨hlength, List.all_eq_true.mpr hnibbles⟩, hdigits]
    rfl

/-! ### Both ways -/

/-- The same address is parsed of two texts that are read as it. -/
theorem parseAddress_congr {first second : Text} {socketPeer : Bool} (hfirst : '%' ∉ first)
    (hsecond : '%' ∉ second) (hsame : ipAddress first = ipAddress second) :
    parseAddress first socketPeer = parseAddress second socketPeer := by
  unfold parseAddress
  rw [if_neg hfirst, if_neg hsecond, hsame]

/-- The boundary decides of a pointer name what it decides of the address. -/
theorem requirePublic_reverseText {boundary : DestinationBoundary}
    (haddress : ∀ value scope, address ≠ .v6 value (some scope)) :
    boundary.requirePublic (reverseText address) = boundary.requirePublic address.text := by
  cases address with
  | v4 value => rfl
  | v6 value scope =>
    cases scope with
    | some scope => exact absurd rfl (haddress value scope)
    | none =>
      have hparsed : parseAddress (exploded (paddedHex 32 value.toNat)) false =
          parseAddress (IpAddress.v6 value none).text false := by
        refine parseAddress_congr (not_mem_exploded (by decide) (by decide))
          (not_mem_ipv6Text (by decide) (by decide)) ?_
        rw [ipAddress_exploded, ipAddress_text haddress]
      unfold DestinationBoundary.requirePublic reverseText
      rw [hparsed]

/-- What `check_name` makes of a spelling of a pointer name. -/
theorem checkName_eq {boundary : NameBoundary}
    (haddress : ∀ value scope, address ≠ .v6 value (some scope))
    (hvalue : IsSpelling value (reversePointer address)) :
    boundary.checkName value =
      if boundary.IsInfrastructure (reversePointer address) then
        .error (.requestDenied "infrastructure_name")
      else (boundary.addresses.requirePublic address.text).map fun _ ↦ reversePointer address := by
  have hname : boundary.checkName value = do
      failIf (boundary.IsInfrastructure (reversePointer address))
        (.requestDenied "infrastructure_name")
      let _ ← boundary.addresses.requirePublic address.text
      return reversePointer address := by
    unfold NameBoundary.checkName
    rw [dnsName_reversePointer hvalue, ← requirePublic_reverseText haddress]
    simp only [Except.bind, bind, reverseOf_reversePointer]
  rw [hname]
  unfold failIf
  split_ifs
  · rfl
  · cases boundary.addresses.requirePublic address.text <;> rfl

/-- For every boundary, every address without a scope and every spelling of its pointer name,
`check_name` gives the same for the spelling as for the pointer name. Unless the name is one of the
infrastructure, it denies exactly what `require_public` denies of the address, for the same
reason. -/
theorem checkName_reversePointer (boundary : NameBoundary)
    (haddress : ∀ value scope, address ≠ .v6 value (some scope))
    (hvalue : IsSpelling value (reversePointer address)) :
    boundary.checkName value = boundary.checkName (reversePointer address) ∧
      (boundary.IsInfrastructure (reversePointer address) →
        boundary.checkName value = .error (.requestDenied "infrastructure_name")) ∧
      (¬ boundary.IsInfrastructure (reversePointer address) → ∀ raised,
        boundary.checkName value = .error raised ↔
          boundary.addresses.requirePublic address.text = .error raised) := by
  refine ⟨?_, fun hzone ↦ ?_, fun hzone raised ↦ ?_⟩
  · rw [checkName_eq haddress hvalue, checkName_eq haddress isSpelling_self]
  · rw [checkName_eq haddress hvalue, if_pos hzone]
  · rw [checkName_eq haddress hvalue, if_neg hzone]
    cases boundary.addresses.requirePublic address.text with
    | error denied => simp [Except.map]
    | ok allowed => simp [Except.map]

/-- The pointer name of a private address, in capital letters and with a dot at its end, is denied
as the address is. -/
theorem checkName_reversePointer_private :
    let boundary : NameBoundary := ⟨{"cluster.local".toList}, ∅,
      ⟨[.v4 (BitVec.ofNat 32 0x0A600000) 12], [], "1".toList, by decide, by decide, by decide⟩⟩
    boundary.checkName "1.1.168.192.IN-ADDR.ARPA.".toList =
        .error (.requestDenied "special_purpose") ∧
      boundary.checkName "1.1.168.192.IN-ADDR.ARPA.".toList =
        boundary.checkName "1.1.168.192.in-addr.arpa".toList := by
  intro boundary
  obtain ⟨hsame, -, hdenied⟩ :=
    @checkName_reversePointer (.v4 (BitVec.ofNat 32 0xC0A80101))
      "1.1.168.192.IN-ADDR.ARPA.".toList boundary (fun _ _ hscope ↦ by cases hscope)
      (by decide +kernel)
  exact ⟨(hdenied (by decide +kernel) _).mpr (by decide +kernel), hsame⟩

end Ads.SandboxEgress
