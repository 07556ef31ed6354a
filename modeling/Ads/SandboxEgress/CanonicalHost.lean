import Ads.Python.IpAddressText
import Ads.SandboxEgress.Policy

/-!
# Canonical hosts and what an authority raises

`canonical_host` returns the text of an address or a lower-case name (`IsCanonical`), which it leaves
as it is (`canonicalHost_of_isCanonical`), and raises nothing but `RequestDenied`. So does
`authority`, except on a port of more than 4300 digits, which `int` does not convert
(`authority_denying_iff`); the host it returns is canonical, its port is in range, and the host that
is written again is read as it is (`authority_writtenHost`).
-/

set_option autoImplicit false
set_option relaxedAutoImplicit false

namespace Ads.SandboxEgress

open Foundation.StateExcept Python

/-! ### What is raised -/

/-- A computation raises nothing but `RequestDenied`. -/
def Denying {α : Type} (computation : Except Raised α) : Prop :=
  ∀ name, computation ≠ .error (.exception name)

/-- A value is returned. -/
theorem Denying.pure {α : Type} (value : α) : Denying (pure value : Except Raised α) :=
  fun _ ↦ nofun

/-- `RequestDenied` is raised. -/
theorem Denying.requestDenied {α : Type} (reason : String) :
    Denying (throw (.requestDenied reason) : Except Raised α) :=
  fun _ ↦ nofun

/-- `RequestDenied` is raised on a condition. -/
theorem Denying.failIf {condition : Prop} [Decidable condition] (reason : String) :
    Denying (failIf condition (.requestDenied reason)) := by
  unfold Foundation.StateExcept.failIf
  split_ifs
  · exact Denying.requestDenied reason
  · exact Denying.pure ()

/-- One computation after the other. -/
theorem Denying.bind {α β : Type} {first : Except Raised α} {second : α → Except Raised β}
    (hfirst : Denying first) (hsecond : ∀ middle, first = .ok middle → Denying (second middle)) :
    Denying (first >>= second) := by
  intro name hraised
  rcases except_bind_eq_error.mp hraised with hfailed | ⟨middle, hmiddle, hfailed⟩
  · exact hfirst name hfailed
  · exact hsecond middle hmiddle name hfailed

/-- What does not return a value and is denying raises `RequestDenied`. -/
theorem Denying.eq_requestDenied {α : Type} {computation : Except Raised α} {raised : Raised}
    (hdenying : Denying computation) (hraised : computation = .error raised) :
    ∃ reason, raised = .requestDenied reason := by
  cases raised with
  | requestDenied reason => exact ⟨reason, rfl⟩
  | exception name => exact absurd hraised (hdenying name)

/-! ### Canonical hosts -/

/-- A character of a canonical host. -/
def isHostChar (char : Char) : Bool :=
  isDigit char || (97 ≤ char.toNat && char.toNat ≤ 122) || char ∈ ['-', '.', ':']

/-- A host in canonical form: an address without a scope, or a name. -/
inductive IsCanonical : Text → Prop
  /-- The text of an address. -/
  | address (address : IpAddress) (hscope : ∀ value scope, address ≠ .v6 value (some scope)) :
    IsCanonical address.text
  /-- A name, which is no number. -/
  | name {host : Text} (hlength : host.length ≤ 253)
    (hlabels : (host.splitOn '.').all isLabel = true)
    (hnumber : ¬ host.all fun char ↦ isDigit char || char == '.') : IsCanonical host

/-- Characters of a canonical host are lower-case letters, digits and three others. -/
theorem isHostChar_spec {char : Char} (hchar : isHostChar char) :
    char.toNat < 128 ∧ lowerChar char = char ∧ isSpace char = false ∧
      char ∉ ['/', '\\', '@', '?', '#'] ∧ char ≠ '%' ∧ char ≠ '[' ∧ char ≠ ']' := by
  have hall : ∀ code < 128, isHostChar (Char.ofNat code) → lowerChar (Char.ofNat code) =
      Char.ofNat code ∧ isSpace (Char.ofNat code) = false ∧
        Char.ofNat code ∉ ['/', '\\', '@', '?', '#'] ∧ Char.ofNat code ≠ '%' ∧
          Char.ofNat code ≠ '[' ∧ Char.ofNat code ≠ ']' := by decide
  have hcode : char.toNat < 128 := by
    unfold isHostChar isDigit at hchar
    simp only [Bool.or_eq_true, Bool.and_eq_true, decide_eq_true_eq, List.mem_cons,
      List.not_mem_nil, or_false] at hchar
    rcases hchar with (⟨-, hdigit⟩ | ⟨-, hletter⟩) | rfl | rfl | rfl
    · omega
    · omega
    · decide
    · decide
    · decide
  have hspec := hall char.toNat hcode
  rw [Char.ofNat_toNat] at hspec
  exact ⟨hcode, hspec hchar⟩

/-- The characters of a text in parts, from those of the parts. -/
theorem mem_of_splitOn (separator : Char) {char : Char} {text : Text} (hchar : char ∈ text) :
    char = separator ∨ ∃ part ∈ text.splitOn separator, char ∈ part := by
  refine mem_intercalate ?_
  rwa [List.intercalate_splitOn]

/-- The characters of a label. -/
theorem isHostChar_of_isLabel {label : Text} {char : Char} (hlabel : isLabel label)
    (hchar : char ∈ label) : isHostChar char := by
  unfold isLabel at hlabel
  simp only [Bool.and_eq_true, List.all_eq_true] at hlabel
  have hplain := hlabel.1.1.2 char hchar
  unfold isHostChar
  simp only [Bool.or_eq_true, beq_iff_eq] at hplain ⊢
  rcases hplain with hplain | rfl
  · exact Or.inl hplain
  · exact Or.inr (by decide)

/-- The characters of a canonical host. -/
theorem IsCanonical.isHostChar {host : Text} (hhost : IsCanonical host) :
    ∀ char ∈ host, isHostChar char := by
  intro char hchar
  cases hhost with
  | name hlength hlabels hnumber =>
    rcases mem_of_splitOn '.' hchar with rfl | ⟨part, hpart, hmem⟩
    · decide
    · exact isHostChar_of_isLabel (List.all_eq_true.mp hlabels part hpart) hmem
  | address address hscope =>
    cases address with
    | v4 value =>
      rcases mem_text_v4 hchar with rfl | hdigit
      · decide
      · unfold Char.isDigit at hdigit
        simp only [Bool.and_eq_true, decide_eq_true_eq] at hdigit
        unfold SandboxEgress.isHostChar isDigit
        have hlower : 48 ≤ char.toNat := hdigit.1
        have hupper : char.toNat ≤ 57 := hdigit.2
        simp [hlower, hupper]
    | v6 value scope =>
      cases scope with
      | some scope => exact absurd rfl (hscope value scope)
      | none =>
        rcases mem_ipv6Text hchar with rfl | ⟨digit, hdigit, rfl⟩
        · decide
        · clear hchar
          revert digit
          decide

/-- Characters that do not occur in a canonical host. -/
theorem IsCanonical.not_mem {host : Text} {char : Char} (hhost : IsCanonical host)
    (hchar : SandboxEgress.isHostChar char = false) : char ∉ host := by
  intro hmem
  rw [hhost.isHostChar char hmem] at hchar
  cases hchar

/-- The empty text is no canonical host. -/
theorem IsCanonical.ne_nil {host : Text} (hhost : IsCanonical host) : host ≠ [] := by
  rintro rfl
  generalize hempty : ([] : Text) = empty at hhost
  cases hhost with
  | name hlength hlabels hnumber =>
    subst hempty
    exact hnumber rfl
  | address address hscope =>
    have hread := ipAddress_text hscope
    rw [← hempty] at hread
    cases hread

/-- Where a function is applied to all items, it has a value on each. -/
theorem exists_of_mapM {α β : Type} {action : α → Option β} {items : List α} {results : List β}
    (hrun : items.mapM action = some results) : ∀ item ∈ items, ∃ result, action item = some result := by
  induction items generalizing results with
  | nil => nofun
  | cons first rest ih =>
    rw [List.mapM_cons] at hrun
    obtain ⟨result, hfirst, hrun⟩ := Option.bind_eq_some_iff.mp hrun
    obtain ⟨others, hrest, -⟩ := Option.bind_eq_some_iff.mp hrun
    intro item hitem
    rcases List.mem_cons.mp hitem with rfl | hmem
    · exact ⟨result, hfirst⟩
    · exact ih hrest item hmem

/-- What is read as an IPv4 address is written with digits and dots. -/
theorem isDigit_of_ipv4Value {text : Text} {value : BitVec 32} (hread : ipv4Value text = some value) :
    (text.all fun char ↦ isDigit char || char == '.') = true := by
  unfold ipv4Value at hread
  split_ifs at hread
  split at hread
  · rename_i first second third fourth hparts
    obtain ⟨octets, hoctets, -⟩ := Option.bind_eq_some_iff.mp hread
    have hdigits : ∀ part ∈ text.splitOn '.', part.all isDigit := by
      rw [hparts]
      intro part hpart
      by_contra hother
      have hnone : parseOctet part = none := by
        unfold parseOctet
        rw [if_pos (Or.inr (Or.inl hother))]
      obtain ⟨octet, hoctet⟩ := exists_of_mapM hoctets part hpart
      rw [hnone] at hoctet
      cases hoctet
    refine List.all_eq_true.mpr fun char hchar ↦ ?_
    rcases mem_of_splitOn '.' hchar with rfl | ⟨part, hpart, hmem⟩
    · decide
    · rw [List.all_eq_true.mp (hdigits part hpart) char hmem]
      rfl
  · cases hread

/-- A name is no address. -/
theorem ipAddress_name {host : Text} (hcolon : ':' ∉ host) (hpercent : '%' ∉ host)
    (hnumber : ¬ host.all fun char ↦ isDigit char || char == '.') : ipAddress host = none := by
  unfold ipAddress
  cases hread : ipv4Value host with
  | some value => exact absurd (isDigit_of_ipv4Value hread) hnumber
  | none =>
    dsimp only
    unfold ipv6Address
    rw [partitionChar_of_not_mem hpercent]
    split_ifs
    · rfl
    · have hfew : host = [] ∨ (host.splitOn ':').length < 3 := by
        rw [List.splitOn_eq_singleton hcolon]
        exact Or.inr (show 1 < 3 by decide)
      have hnone : ipv6Value host = none := by
        unfold ipv6Value
        dsimp only
        rw [if_pos hfew]
        rfl
      dsimp only
      rw [hnone]
      rfl

/-- A name does not end in a dot. -/
theorem removeSuffixChar_name {host : Text} (hlabels : (host.splitOn '.').all isLabel = true) :
    removeSuffixChar '.' host = host := by
  unfold removeSuffixChar
  rw [if_neg]
  intro hlast
  obtain ⟨front, rfl⟩ := List.getLast?_eq_some_iff.mp hlast
  rw [List.splitOn_append_cons_self, List.splitOn_nil, List.all_append] at hlabels
  revert hlabels
  simp [isLabel]

/-- A scope is written after a percent sign. -/
theorem mem_of_ipAddress_scope {text scope : Text} {number : BitVec 128}
    (hread : ipAddress text = some (.v6 number (some scope))) : '%' ∈ text := by
  by_contra hmem
  unfold ipAddress at hread
  cases hfour : ipv4Value text with
  | some value =>
    rw [hfour] at hread
    cases hread
  | none =>
    rw [hfour] at hread
    dsimp only at hread
    unfold ipv6Address at hread
    rw [partitionChar_of_not_mem hmem] at hread
    split_ifs at hread
    obtain ⟨value, -, hvalue⟩ := Option.map_eq_some_iff.mp hread
    cases hvalue

/-- Only a percent sign is lowered to one. -/
theorem mem_of_mem_lowerText {text : Text} (hmem : '%' ∈ lowerText text) : '%' ∈ text := by
  obtain ⟨char, hchar, hlower⟩ := List.mem_map.mp hmem
  suffices hsame : char = '%' from hsame ▸ hchar
  unfold lowerChar at hlower
  split_ifs at hlower with hupper
  · have hletters : ∀ code < 91, 65 ≤ code → Char.ofNat (code + 32) ≠ '%' := by decide
    exact absurd hlower (hletters char.toNat (by omega) hupper.1)
  · exact hlower

/-- A name has no colon. -/
theorem colon_not_mem_name {host : Text} (hlabels : (host.splitOn '.').all isLabel = true) :
    ':' ∉ host := by
  intro hmem
  rcases mem_of_splitOn '.' hmem with hdot | ⟨part, hpart, hinside⟩
  · exact absurd hdot (by decide)
  · have hlabel := List.all_eq_true.mp hlabels part hpart
    unfold isLabel at hlabel
    simp only [Bool.and_eq_true, List.all_eq_true] at hlabel
    exact absurd (hlabel.1.1.2 ':' hinside) (by decide)

/-- `canonical_host` returns a canonical host. -/
theorem isCanonical_of_canonicalHost {value host : Text} (hvalue : canonicalHost value = .ok host) :
    IsCanonical host := by
  unfold canonicalHost at hvalue
  split_ifs at hvalue with hinvalid
  have hpercent : '%' ∉ value := fun hmem ↦ hinvalid (Or.inr (Or.inr hmem))
  cases hread : ipAddress (lowerText value) with
  | some address =>
    rw [hread] at hvalue
    obtain rfl := except_pure_eq_ok.mp hvalue
    refine .address address fun number scope hscoped ↦ hpercent (mem_of_mem_lowerText ?_)
    rw [hscoped] at hread
    exact mem_of_ipAddress_scope hread
  | none =>
    rw [hread] at hvalue
    dsimp only at hvalue
    unfold canonicalName at hvalue
    dsimp only at hvalue
    split_ifs at hvalue with hlabels hnumber
    obtain rfl := except_pure_eq_ok.mp hvalue
    obtain ⟨hlength, hlabels⟩ := not_or.mp hlabels
    exact .name (not_lt.mp hlength) (not_not.mp hlabels) hnumber

/-- A canonical host is left as it is. -/
theorem canonicalHost_of_isCanonical {host : Text} (hhost : IsCanonical host) :
    canonicalHost host = .ok host := by
  have hascii : isAscii host = true := List.all_eq_true.mpr fun char hchar ↦
    decide_eq_true (isHostChar_spec (hhost.isHostChar char hchar)).1
  have hlower : lowerText host = host := by
    unfold lowerText
    conv_rhs => rw [← List.map_id host]
    exact List.map_congr_left fun char hchar ↦
      (isHostChar_spec (hhost.isHostChar char hchar)).2.1
  have hpercent : '%' ∉ host := hhost.not_mem (by decide)
  unfold canonicalHost
  rw [if_neg (by simp [hhost.ne_nil, hascii, hpercent]), hlower]
  cases hhost with
  | address address hscope =>
    rw [ipAddress_text hscope]
    rfl
  | name hlength hlabels hnumber =>
    rw [ipAddress_name (colon_not_mem_name hlabels) hpercent hnumber]
    dsimp only
    unfold canonicalName
    dsimp only
    rw [removeSuffixChar_name hlabels, if_neg (not_or.mpr ⟨not_lt.mpr hlength, not_not.mpr hlabels⟩),
      if_neg hnumber]
    rfl

/-- `canonical_host` raises nothing but `RequestDenied`. -/
theorem canonicalHost_denying (value : Text) : Denying (canonicalHost value) := by
  unfold canonicalHost
  split_ifs
  · exact Denying.requestDenied _
  · cases ipAddress (lowerText value) with
    | some address => exact Denying.pure _
    | none =>
      unfold canonicalName
      dsimp only
      split_ifs
      · exact Denying.requestDenied _
      · exact Denying.requestDenied _
      · exact Denying.pure _

/-! ### Authorities -/

/-- The port of an authority is given by more than 4300 decimal digits. -/
def oversizedPort (value : Text) : Bool :=
  !value.any isSpace && !value.any (· ∈ ['/', '\\', '@', '?', '#']) &&
    match splitAuthority value with
    | .ok (_, ':' :: digits) => digits.all isDigit && decide (4300 < digits.length)
    | _ => false

/-- The division of an authority raises nothing but `RequestDenied`. -/
theorem splitAuthority_denying (value : Text) : Denying (splitAuthority value) := by
  unfold splitAuthority
  split
  · split
    · exact Denying.requestDenied _
    · split_ifs
      · exact Denying.requestDenied _
      · exact Denying.pure _
  · split_ifs
    · exact Denying.requestDenied _
    · split
      · exact Denying.pure _
      · exact Denying.pure _

/-- The port of an authority raises nothing but `RequestDenied`, where it has no more than 4300
digits. -/
theorem authorityPort_denying {suffix : Text} {defaultPort : ℕ}
    (hshort : ∀ digits, suffix = ':' :: digits → digits.all isDigit → digits.length ≤ 4300) :
    Denying (authorityPort suffix defaultPort) := by
  unfold authorityPort
  split
  · exact Denying.pure _
  · rename_i digits
    split_ifs with hinvalid hlong
    · exact Denying.requestDenied _
    · have hdigits : digits.all isDigit = true := not_not.mp (not_or.mp hinvalid).2
      exact absurd (hshort digits rfl hdigits) (not_le.mpr hlong)
    · exact Denying.pure _
  · exact Denying.requestDenied _

/-- `authority` raises nothing but `RequestDenied` if and only if the port is of no more than 4300
digits. -/
theorem authority_denying_iff (value : Text) (defaultPort : ℕ) :
    Denying (authority value defaultPort) ↔ oversizedPort value = false := by
  unfold authority oversizedPort
  by_cases hempty : value = []
  · subst hempty
    rw [if_pos rfl]
    exact ⟨fun _ ↦ rfl, fun _ ↦ Denying.pure _⟩
  rw [if_neg hempty]
  by_cases hinvalid : value.any isSpace ∨ value.any (· ∈ ['/', '\\', '@', '?', '#'])
  · rw [if_pos hinvalid]
    refine ⟨fun _ ↦ ?_, fun _ ↦ Denying.requestDenied _⟩
    rcases hinvalid with hspace | hreserved
    · rw [hspace]
      rfl
    · rw [hreserved]
      simp
  rw [if_neg hinvalid]
  obtain ⟨hspace, hreserved⟩ := not_or.mp hinvalid
  rw [Bool.not_eq_true] at hspace hreserved
  rw [hspace, hreserved]
  cases hsplit : splitAuthority value with
  | error raised =>
    obtain ⟨reason, rfl⟩ := (splitAuthority_denying value).eq_requestDenied hsplit
    exact ⟨fun _ ↦ rfl, fun _ ↦ Denying.requestDenied _⟩
  | ok parts =>
    obtain ⟨host, suffix⟩ := parts
    constructor
    · intro hdenying
      by_contra hlong
      rw [Bool.not_eq_false] at hlong
      split at hlong
      · rename_i digits hparts
        obtain ⟨rfl, rfl⟩ := Prod.mk.inj (Except.ok.inj hparts)
        simp only [Bool.not_false, Bool.true_and, Bool.and_eq_true, decide_eq_true_eq] at hlong
        obtain ⟨hdigits, hlength⟩ := hlong
        have hport : authorityPort (':' :: digits) defaultPort =
            throw (.exception "ValueError") := by
          have hnonempty : digits ≠ [] := by
            rintro rfl
            cases hlength
          show (if digits = [] ∨ ¬ digits.all isDigit then throw (.requestDenied "invalid_port")
            else if digits.length > 4300 then throw (.exception "ValueError")
            else pure (decimalValue digits) : Except Raised ℕ) = _
          rw [if_neg (not_or.mpr ⟨hnonempty, not_not.mpr hdigits⟩), if_pos hlength]
        refine hdenying "ValueError" ?_
        show (authorityPort (':' :: digits) defaultPort >>= _) = _
        rw [hport]
        rfl
      · cases hlong
    · intro hshort
      show Denying (authorityPort suffix defaultPort >>= _)
      refine Denying.bind (authorityPort_denying ?_) fun port _ ↦
        Denying.bind (Denying.failIf _) fun _ _ ↦
          Denying.bind (canonicalHost_denying host) fun _ _ ↦ Denying.pure _
      rintro digits rfl hdigits
      change (true && (digits.all isDigit && decide (4300 < digits.length))) = false at hshort
      rw [hdigits] at hshort
      simpa using hshort

/-- An authority has a canonical host and a port in range. -/
theorem authority_eq {value : Text} {defaultPort : ℕ} {found : Authority}
    (hvalue : authority value defaultPort = .ok (some found)) :
    IsCanonical found.host ∧ 1 ≤ found.port ∧ found.port ≤ 65535 := by
  unfold authority at hvalue
  split_ifs at hvalue
  · cases hvalue
  · obtain ⟨⟨host, suffix⟩, -, hvalue⟩ := except_bind_eq_ok.mp hvalue
    obtain ⟨port, -, hvalue⟩ := except_bind_eq_ok.mp hvalue
    obtain ⟨_, hrange, hvalue⟩ := except_bind_eq_ok.mp hvalue
    obtain ⟨canonical, hhost, hvalue⟩ := except_bind_eq_ok.mp hvalue
    obtain rfl := Option.some.inj (except_pure_eq_ok.mp hvalue)
    have hport := failIf_eq_ok.mp hrange
    obtain ⟨hlower, hupper⟩ := not_or.mp hport
    exact ⟨isCanonical_of_canonicalHost hhost, not_lt.mp hlower, not_lt.mp hupper⟩

/-- A host as it stands in an authority. -/
def writtenHost (host : Text) : Text :=
  if ':' ∈ host then '[' :: host ++ [']'] else host

/-- Only IPv6 addresses have colons. -/
theorem IsCanonical.ipv6Address_isSome {host : Text} (hhost : IsCanonical host)
    (hcolon : ':' ∈ host) : (ipv6Address host).isSome := by
  cases hhost with
  | name hlength hlabels hnumber => exact absurd hcolon (colon_not_mem_name hlabels)
  | address address hscope =>
    cases address with
    | v4 value =>
      rcases mem_text_v4 hcolon with hdot | hdigit
      · exact absurd hdot (by decide)
      · exact absurd hdigit (by decide)
    | v6 value scope =>
      cases scope with
      | some scope => exact absurd rfl (hscope value scope)
      | none =>
        show (ipv6Address (ipv6Text value)).isSome
        rw [ipv6Address_text]
        rfl

/-- A written host is divided again. -/
theorem splitAuthority_writtenHost {host : Text} (hhost : IsCanonical host) :
    splitAuthority (writtenHost host) = .ok (host, []) := by
  unfold writtenHost
  split_ifs with hcolon
  · have hbracket : ']' ∉ host := hhost.not_mem (by decide)
    have haddress : ¬ (ipv6Address host).isNone := by
      rw [Option.isNone_iff_eq_none, ← Option.not_isSome_iff_eq_none, not_not]
      exact hhost.ipv6Address_isSome hcolon
    rw [List.cons_append, splitAuthority]
    rw [partitionChar_append hbracket]
    dsimp only
    rw [if_neg haddress]
    rfl
  · have hbracket : '[' ∉ host := hhost.not_mem (by decide)
    unfold splitAuthority
    split
    · exact absurd List.mem_cons_self hbracket
    · rw [List.count_eq_zero.mpr hcolon, if_neg (by decide), partitionChar_of_not_mem hcolon]
      rfl

/-- The host of an authority is read as it is written. -/
theorem authority_writtenHost {host : Text} {port : ℕ} (hhost : IsCanonical host) (hlower : 1 ≤ port)
    (hupper : port ≤ 65535) : authority (writtenHost host) port = .ok (some ⟨host, port⟩) := by
  have hchars : ∀ char ∈ writtenHost host,
      isSpace char = false ∧ char ∉ ['/', '\\', '@', '?', '#'] := by
    intro char hchar
    have hor : char ∈ host ∨ char = '[' ∨ char = ']' := by
      unfold writtenHost at hchar
      split_ifs at hchar
      · simp only [List.cons_append, List.mem_cons, List.mem_append, List.not_mem_nil,
          or_false] at hchar
        rcases hchar with hopen | hinside | hclose
        · exact Or.inr (Or.inl hopen)
        · exact Or.inl hinside
        · exact Or.inr (Or.inr hclose)
      · exact Or.inl hchar
    rcases hor with hinside | rfl | rfl
    · obtain ⟨-, -, hspace, hreserved, -⟩ := isHostChar_spec (hhost.isHostChar char hinside)
      exact ⟨hspace, hreserved⟩
    · decide
    · decide
  have hnonempty : writtenHost host ≠ [] := by
    unfold writtenHost
    split_ifs
    · exact List.cons_ne_nil _ _
    · exact hhost.ne_nil
  have hvalid : ¬ ((writtenHost host).any isSpace ∨
      (writtenHost host).any (· ∈ ['/', '\\', '@', '?', '#'])) := by
    rintro (hspace | hreserved)
    · obtain ⟨char, hchar, hspace⟩ := List.any_eq_true.mp hspace
      rw [(hchars char hchar).1] at hspace
      cases hspace
    · obtain ⟨char, hchar, hreserved⟩ := List.any_eq_true.mp hreserved
      exact (hchars char hchar).2 (of_decide_eq_true hreserved)
  unfold authority
  rw [if_neg hnonempty, if_neg hvalid, splitAuthority_writtenHost hhost]
  show (failIf (port < 1 ∨ port > 65535) _ >>= fun _ ↦ canonicalHost host >>= _) = _
  have hrange : ¬ (port < 1 ∨ port > 65535) := by omega
  unfold failIf
  rw [if_neg hrange, canonicalHost_of_isCanonical hhost]
  rfl

end Ads.SandboxEgress
