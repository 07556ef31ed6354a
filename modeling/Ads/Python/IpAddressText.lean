import Ads.Python.IpAddress
import Mathlib.Data.List.GetD
import Mathlib.Data.List.TakeWhile
import Mathlib.Tactic

/-!
# Addresses are read as they are written

`ipAddress` reads the text that `str` writes of an address without a scope: `ipAddress_text`. The
hextets of an IPv6 text stand around the run of zeros that the text leaves out, so that its parts
are `pieces` of the texts before and after the run, with an empty part between.
-/

set_option autoImplicit false
set_option relaxedAutoImplicit false

namespace Ads.Python

/-! ### Digits -/

/-- A hexadecimal digit is read as it is written. -/
theorem hexDigit_digitChar {digit : ℕ} (hdigit : digit < 16) :
    hexDigit digit.digitChar = some digit := by
  revert digit
  decide

/-- A hexadecimal text is read from the left. -/
theorem foldlM_hexText (value : ℕ) :
    (hexText value).foldlM (fun value char ↦
      (hexDigit char).map fun digit ↦ value * 16 + digit) 0 = some value := by
  induction value using Nat.strong_induction_on with
  | _ value ih =>
    unfold hexText
    by_cases hsmall : value < 16
    · rw [Nat.toDigits_of_lt_base hsmall, List.foldlM_cons, hexDigit_digitChar hsmall]
      simp
    · rw [Nat.toDigits_of_base_le (by decide) (not_lt.mp hsmall), List.foldlM_append]
      have hleading := ih (value / 16) (Nat.div_lt_self (by omega) (by decide))
      unfold hexText at hleading
      rw [hleading]
      simp only [Option.bind_eq_bind, Option.bind_some, List.foldlM_cons, List.foldlM_nil,
        hexDigit_digitChar (Nat.mod_lt value (by decide))]
      simp [Nat.div_add_mod']

/-- A hextet is read as it is written. -/
theorem parseHextet_hexText {value : ℕ} (hvalue : value < 65536) :
    parseHextet (hexText value) = some value := by
  unfold parseHextet
  have hlength : (hexText value).length ≤ 4 :=
    (Nat.length_toDigits_le_iff (by decide) (by decide)).mpr hvalue
  have hnonempty : hexText value ≠ [] := Nat.toDigits_ne_nil
  rw [if_neg (not_or.mpr ⟨hnonempty, not_lt.mpr hlength⟩)]
  exact foldlM_hexText value

/-- The characters of a hexadecimal text are digits in lower case. -/
theorem mem_hexText {value : ℕ} {char : Char} (hchar : char ∈ hexText value) :
    ∃ digit < 16, char = Nat.digitChar digit := by
  induction value using Nat.strong_induction_on with
  | _ value ih =>
    unfold hexText at hchar
    by_cases hsmall : value < 16
    · rw [Nat.toDigits_of_lt_base hsmall] at hchar
      exact ⟨value, hsmall, List.mem_singleton.mp hchar⟩
    · rw [Nat.toDigits_of_base_le (by decide) (not_lt.mp hsmall)] at hchar
      rcases List.mem_append.mp hchar with hfirst | hlast
      · exact ih (value / 16) (Nat.div_lt_self (by omega) (by decide)) hfirst
      · exact ⟨value % 16, Nat.mod_lt value (by decide), List.mem_singleton.mp hlast⟩

/-- A character that is no digit is not in a hexadecimal text. -/
theorem not_mem_hexText {value : ℕ} {char : Char}
    (hchar : ∀ digit < 16, char ≠ Nat.digitChar digit) : char ∉ hexText value := by
  intro hmem
  obtain ⟨digit, hdigit, hsame⟩ := mem_hexText hmem
  exact hchar digit hdigit hsame

/-- The texts of numbers of a byte are read as they are written. -/
theorem parseOctet_toDigits : ∀ octet < 256, parseOctet (Nat.toDigits 10 octet) = some octet := by
  decide +kernel

/-! ### IPv4 -/

/-- The octets of an address. -/
theorem octets_value (value : BitVec 32) :
    BitVec.ofNat 32 (([3, 2, 1, 0].map fun place ↦ value.toNat / 256 ^ place % 256).foldl
      (fun value octet ↦ value * 256 + octet) 0) = value := by
  apply BitVec.eq_of_toNat_eq
  have hbound := value.isLt
  simp only [List.map_cons, List.map_nil, List.foldl_cons, List.foldl_nil, BitVec.toNat_ofNat]
  omega

/-- The characters of a text in parts. -/
theorem mem_intercalate {separator char : Char} {parts : List Text}
    (hchar : char ∈ List.intercalate [separator] parts) :
    char = separator ∨ ∃ part ∈ parts, char ∈ part := by
  induction parts with
  | nil => cases hchar
  | cons part rest ih =>
    by_cases hrest : rest = []
    · subst hrest
      rw [List.intercalate_singleton] at hchar
      exact Or.inr ⟨part, List.mem_cons_self, hchar⟩
    · rw [List.intercalate_cons_of_ne_nil hrest] at hchar
      rcases List.mem_append.mp hchar with hfirst | hlater
      · rcases List.mem_append.mp hfirst with hpart | hseparator
        · exact Or.inr ⟨part, List.mem_cons_self, hpart⟩
        · exact Or.inl (List.mem_singleton.mp hseparator)
      · rcases ih hlater with hseparator | ⟨other, hother, hmem⟩
        · exact Or.inl hseparator
        · exact Or.inr ⟨other, List.mem_cons_of_mem _ hother, hmem⟩

/-- The characters of the text of an IPv4 address are digits and dots. -/
theorem mem_text_v4 {value : BitVec 32} {char : Char}
    (hchar : char ∈ (IpAddress.v4 value).text) : char = '.' ∨ char.isDigit := by
  rcases mem_intercalate hchar with hdot | ⟨part, hpart, hmem⟩
  · exact Or.inl hdot
  · obtain ⟨place, -, rfl⟩ := List.mem_map.mp hpart
    exact Or.inr (Nat.isDigit_of_mem_toDigits (by decide) (by decide) hmem)

/-- An IPv4 address is read as it is written. -/
theorem ipv4Value_text (value : BitVec 32) : ipv4Value (IpAddress.v4 value).text = some value := by
  have hslash : '/' ∉ (IpAddress.v4 value).text := by
    intro hmem
    rcases mem_text_v4 hmem with hdot | hdigit
    · revert hdot
      decide
    · revert hdigit
      decide
  have hdots : ∀ part ∈ [3, 2, 1, 0].map fun place ↦
      Nat.toDigits 10 (value.toNat / 256 ^ place % 256), '.' ∉ part := by
    intro part hpart hmem
    obtain ⟨place, -, rfl⟩ := List.mem_map.mp hpart
    have hdigit := Nat.isDigit_of_mem_toDigits (by decide) (by decide) hmem
    revert hdigit
    decide
  have hsplit : (IpAddress.v4 value).text.splitOn '.' = [3, 2, 1, 0].map fun place ↦
      Nat.toDigits 10 (value.toNat / 256 ^ place % 256) :=
    List.splitOn_intercalate '.' hdots (by simp)
  have hnonempty : (IpAddress.v4 value).text ≠ [] := by
    intro hnil
    rw [hnil] at hsplit
    have hlengths := congrArg List.length hsplit
    simp at hlengths
  have hoctet : ∀ place, parseOctet (Nat.toDigits 10 (value.toNat / 256 ^ place % 256)) =
      some (value.toNat / 256 ^ place % 256) :=
    fun place ↦ parseOctet_toDigits _ (Nat.mod_lt _ (by decide))
  unfold ipv4Value
  rw [if_neg (not_or.mpr ⟨hslash, hnonempty⟩), hsplit]
  have hvalue := octets_value value
  simp only [List.map_cons, List.map_nil] at hvalue ⊢
  simp only [List.mapM_cons, List.mapM_nil, hoctet, Option.pure_def, Option.bind_eq_bind,
    Option.bind_some]
  rw [hvalue]

/-! ### IPv6 -/

/-- The hextets of an address. -/
theorem hextets_value (value : BitVec 128) :
    BitVec.ofNat 128 ((hextets value).foldl (fun value hextet ↦ value * 65536 + hextet) 0) =
      value := by
  apply BitVec.eq_of_toNat_eq
  have hbound := value.isLt
  simp only [hextets, List.map_cons, List.map_nil, List.foldl_cons, List.foldl_nil,
    BitVec.toNat_ofNat]
  omega

/-- Hextets are less than 65536. -/
theorem lt_of_mem_hextets {value : BitVec 128} {hextet : ℕ} (hmem : hextet ∈ hextets value) :
    hextet < 65536 := by
  obtain ⟨place, -, rfl⟩ := List.mem_map.mp hmem
  exact Nat.mod_lt _ (by decide)

/-- The hextets of a list are read as they are written. -/
theorem mapM_parseHextet {values : List ℕ} (hvalues : ∀ value ∈ values, value < 65536) :
    (values.map hexText).mapM parseHextet = some values := by
  induction values with
  | nil => rfl
  | cons value rest ih =>
    rw [List.map_cons, List.mapM_cons, parseHextet_hexText (hvalues value List.mem_cons_self),
      ih fun other hother ↦ hvalues other (List.mem_cons_of_mem _ hother)]
    rfl

/-- The parts of a text that may have no parts. -/
def pieces (texts : List Text) : List Text :=
  if texts = [] then [[]] else texts

/-- There is a part. -/
theorem pieces_ne_nil {texts : List Text} : pieces texts ≠ [] := by
  unfold pieces
  split_ifs with hnil
  · exact List.cons_ne_nil _ _
  · exact hnil

/-- A part is empty or one of the texts. -/
theorem mem_pieces {texts : List Text} {part : Text} (hpart : part ∈ pieces texts) :
    part = [] ∨ part ∈ texts := by
  unfold pieces at hpart
  split_ifs at hpart
  · exact Or.inl (List.mem_singleton.mp hpart)
  · exact Or.inr hpart

/-- The number of parts. -/
theorem length_pieces (texts : List Text) : (pieces texts).length = max 1 texts.length := by
  unfold pieces
  split_ifs with hnil
  · rw [hnil]
    rfl
  · have hpos := List.length_pos_iff.mpr hnil
    omega

/-- The texts are the first parts. -/
theorem take_pieces (texts rest : List Text) :
    (pieces texts ++ rest).take texts.length = texts := by
  cases texts with
  | nil => rfl
  | cons text others => exact List.take_left

/-- The texts are the last parts. -/
theorem drop_pieces (front texts : List Text) :
    (front ++ pieces texts).drop ((front ++ pieces texts).length - texts.length) = texts := by
  cases texts with
  | nil => exact List.drop_length
  | cons text others =>
    rw [List.length_append, length_pieces]
    have hlength : front.length + max 1 (text :: others).length - (text :: others).length =
        front.length := by
      rw [List.length_cons]
      omega
    rw [hlength]
    exact List.drop_left

/-- The text of the parts. -/
theorem intercalate_pieces {texts : List Text} :
    List.intercalate [':'] (pieces texts) = List.intercalate [':'] texts := by
  unfold pieces
  split_ifs with hnil
  · rw [hnil]
    rfl
  · rfl

/-- A text of parts in two. -/
theorem intercalate_append {separator : Char} {first second : List Text} (hfirst : first ≠ [])
    (hsecond : second ≠ []) : List.intercalate [separator] (first ++ second) =
      List.intercalate [separator] first ++ separator :: List.intercalate [separator] second := by
  induction first with
  | nil => exact absurd rfl hfirst
  | cons part rest ih =>
    by_cases hrest : rest = []
    · subst hrest
      rw [List.singleton_append, List.intercalate_cons_of_ne_nil hsecond,
        List.intercalate_singleton, List.append_assoc]
      rfl
    · rw [List.cons_append, List.intercalate_cons_of_ne_nil (by simp [hrest]), ih hrest,
        List.intercalate_cons_of_ne_nil hrest, List.append_assoc, List.append_assoc,
        List.append_assoc]

/-- The text that leaves out a run of zeros, in parts. -/
theorem compressed_eq {first second : List Text} :
    List.intercalate [':'] first ++ [':', ':'] ++ List.intercalate [':'] second =
      List.intercalate [':'] (pieces first ++ [] :: pieces second) := by
  rw [intercalate_append pieces_ne_nil (List.cons_ne_nil _ _),
    List.intercalate_cons_of_ne_nil pieces_ne_nil, intercalate_pieces, intercalate_pieces,
    List.append_assoc]
  rfl

/-- The only index of a kind. -/
theorem filter_range_eq_singleton {length index : ℕ} {keeps : ℕ → Bool} (hindex : index < length)
    (hkeeps : ∀ other < length, keeps other = true ↔ other = index) :
    (List.range length).filter keeps = [index] := by
  have hcongr : (List.range length).filter keeps = (List.range length).filter (· == index) := by
    refine List.filter_congr fun other hother ↦ Bool.eq_iff_iff.mpr ?_
    rw [hkeeps other (List.mem_range.mp hother), beq_iff_eq]
  rw [hcongr, List.filter_beq,
    List.count_eq_one_of_mem List.nodup_range (List.mem_range.mpr hindex)]
  rfl

/-- A part between the first and the last is one of the texts. -/
theorem getD_pieces {texts : List Text} {index : ℕ} (htexts : ∀ text ∈ texts, text ≠ [])
    (hlength : texts = [] → 1 ≤ index) (hindex : index < (pieces texts).length) :
    (pieces texts).getD index [] ≠ [] := by
  unfold pieces at hindex ⊢
  split_ifs at hindex ⊢ with hnil
  · have hpos := hlength hnil
    simp only [List.length_singleton] at hindex
    omega
  · rw [List.getD_eq_getElem _ _ hindex]
    exact htexts _ (List.getElem_mem hindex)

/-- The counts of a text that leaves out a run of zeros. -/
theorem hextetCounts_pieces {first second : List Text} (hfirst : ∀ text ∈ first, text ≠ [])
    (hsecond : ∀ text ∈ second, text ≠ []) (hlength : first.length + second.length ≤ 7) :
    hextetCounts (pieces first ++ [] :: pieces second) =
      some (first.length, second.length, 8 - (first.length + second.length)) := by
  have hbefore := length_pieces first
  have hafter := length_pieces second
  have htotal : (pieces first ++ [] :: pieces second).length =
      (pieces first).length + 1 + (pieces second).length := by
    rw [List.length_append, List.length_cons]
    omega
  have hindexes : ((List.range (pieces first ++ [] :: pieces second).length).filter fun index ↦
      1 ≤ index && index + 1 < (pieces first ++ [] :: pieces second).length &&
        ((pieces first ++ [] :: pieces second).getD index []).isEmpty) =
      [(pieces first).length] := by
    refine filter_range_eq_singleton (by omega) fun index hindex ↦ ?_
    simp only [Bool.and_eq_true, decide_eq_true_eq, List.isEmpty_iff]
    constructor
    · rintro ⟨⟨hlower, hupper⟩, hempty⟩
      by_contra hne
      rcases Nat.lt_or_gt_of_ne hne with hless | hmore
      · rw [List.getD_append _ _ _ _ hless] at hempty
        exact getD_pieces hfirst (fun _ ↦ hlower) hless hempty
      · obtain ⟨offset, rfl⟩ := Nat.exists_eq_add_of_lt hmore
        rw [List.getD_append_right _ _ _ _ (by omega),
          show (pieces first).length + offset + 1 - (pieces first).length = offset + 1 by omega,
          List.getD_cons_succ] at hempty
        refine getD_pieces hsecond (fun hnil ↦ ?_) (by omega) hempty
        have hone : (pieces second).length = 1 := by
          rw [hnil]
          rfl
        omega
    · rintro rfl
      refine ⟨⟨by omega, by omega⟩, ?_⟩
      rw [List.getD_append_right _ _ _ _ le_rfl, Nat.sub_self]
      rfl
  have hhead : (pieces first ++ [] :: pieces second).headD [] = [] ↔ first = [] := by
    cases first with
    | nil => exact ⟨fun _ ↦ rfl, fun _ ↦ rfl⟩
    | cons text rest =>
      exact ⟨fun hempty ↦ absurd hempty (hfirst text List.mem_cons_self), nofun⟩
  have hlast : (pieces first ++ [] :: pieces second).getLastD [] = [] ↔ second = [] := by
    rw [List.getLastD_eq_getLast?, List.getLast?_append_of_ne_nil _ (List.cons_ne_nil _ _),
      List.getLast?_cons_of_ne_nil pieces_ne_nil]
    rcases List.eq_nil_or_concat second with rfl | ⟨rest, text, rfl⟩
    · exact ⟨fun _ ↦ rfl, fun _ ↦ rfl⟩
    · have hpieces : pieces (rest.concat text) = rest ++ [text] := by
        simp [pieces]
      rw [hpieces, List.getLast?_append_of_ne_nil _ (List.cons_ne_nil _ _)]
      have hnonempty := hsecond text (by simp)
      exact ⟨fun hempty ↦ absurd hempty hnonempty, fun hnil ↦ absurd hnil (by simp)⟩
  unfold hextetCounts
  rw [hindexes]
  have hhigh : (if (pieces first ++ [] :: pieces second).headD [] = [] then
      (pieces first).length - 1 else (pieces first).length) = first.length := by
    split_ifs with hempty
    · rw [hhead.mp hempty]
      rfl
    · have hpos : 0 < first.length := List.length_pos_iff.mpr fun hnil ↦ hempty (hhead.mpr hnil)
      omega
  have hlow : (if (pieces first ++ [] :: pieces second).getLastD [] = [] then
      (pieces first ++ [] :: pieces second).length - (pieces first).length - 2
      else (pieces first ++ [] :: pieces second).length - (pieces first).length - 1) =
        second.length := by
    split_ifs with hempty
    · have hnil := hlast.mp hempty
      have hone : (pieces second).length = 1 := by
        rw [hnil]
        rfl
      have hzero : second.length = 0 := by
        rw [hnil]
        rfl
      omega
    · have hpos : 0 < second.length := List.length_pos_iff.mpr fun hnil ↦ hempty (hlast.mpr hnil)
      omega
  dsimp only
  rw [hhigh, hlow, if_neg]
  rintro (⟨hnil, hne⟩ | ⟨hnil, hne⟩ | hmany)
  · exact hne (by rw [hhead.mp hnil]; rfl)
  · exact hne (by rw [hlast.mp hnil]; rfl)
  · omega

/-- The counts of a text that leaves out nothing. -/
theorem hextetCounts_of_length {texts : List Text} (htexts : ∀ text ∈ texts, text ≠ [])
    (hlength : texts.length = 8) : hextetCounts texts = some (8, 0, 0) := by
  have hindexes : ((List.range texts.length).filter fun index ↦
      1 ≤ index && index + 1 < texts.length && (texts.getD index []).isEmpty) = [] := by
    refine List.filter_eq_nil_iff.mpr fun index hindex hkept ↦ ?_
    simp only [Bool.and_eq_true, List.isEmpty_iff] at hkept
    rw [List.getD_eq_getElem _ _ (List.mem_range.mp hindex)] at hkept
    exact htexts _ (List.getElem_mem _) hkept.2
  unfold hextetCounts
  rw [hindexes]
  have hnonempty : texts ≠ [] := by
    rintro rfl
    cases hlength
  obtain ⟨text, rest, rfl⟩ := List.exists_cons_of_ne_nil hnonempty
  have hlast : (text :: rest).getLastD [] ≠ [] := by
    rw [List.getLastD_eq_getLast?, List.getLast?_eq_some_getLast (List.cons_ne_nil _ _)]
    exact htexts _ (List.getLast_mem _)
  dsimp only
  rw [if_neg, hlength]
  rintro (hne | hnil | hnil)
  · exact hne hlength
  · exact htexts text List.mem_cons_self hnil
  · exact hlast hnil

/-! ### The run of zeros -/

/-- The run at the start of a list is zeros. -/
theorem take_zeroRun (values : List ℕ) :
    values.take (zeroRun values) = List.replicate (zeroRun values) 0 := by
  refine List.eq_replicate_iff.mpr ⟨?_, fun value hvalue ↦ ?_⟩
  · rw [List.length_take]
    exact min_eq_left (List.takeWhile_prefix _).length_le
  · unfold zeroRun at hvalue
    rw [← List.prefix_iff_eq_take.mp (List.takeWhile_prefix (· == 0))] at hvalue
    simpa using List.mem_takeWhile_imp hvalue

/-- The run that is left out is zeros. -/
theorem longestZeroRun_spec (values : List ℕ) :
    (values.drop (longestZeroRun values).1).take (longestZeroRun values).2 =
        List.replicate (longestZeroRun values).2 0 ∧
      (longestZeroRun values).1 + (longestZeroRun values).2 ≤ values.length := by
  unfold longestZeroRun
  refine List.foldlRecOn (motive := fun best : ℕ × ℕ ↦
    (values.drop best.1).take best.2 = List.replicate best.2 0 ∧
      best.1 + best.2 ≤ values.length) _ _ ⟨rfl, Nat.zero_le _⟩ fun best hbest start hstart ↦ ?_
  dsimp only
  split_ifs
  · refine ⟨take_zeroRun _, ?_⟩
    have hrun : zeroRun (values.drop start) ≤ (values.drop start).length :=
      (List.takeWhile_prefix _).length_le
    rw [List.length_drop] at hrun
    have hlower := List.mem_range.mp hstart
    dsimp only
    omega
  · exact hbest

/-! ### Round trips -/

/-- The text of the parts is that of the address whose hextets stand in them. -/
theorem ipv6Value_of_parts {parts : List Text} {first second : List ℕ} {value : BitVec 128}
    (hparts : ∀ part ∈ parts, ':' ∉ part ∧ '.' ∉ part) (hmany : 3 ≤ parts.length)
    (hfew : parts.length ≤ 9) {skipped : ℕ}
    (hcounts : hextetCounts parts = some (first.length, second.length, skipped))
    (hfirst : (parts.take first.length).mapM parseHextet = some first)
    (hsecond : (parts.drop (parts.length - second.length)).mapM parseHextet = some second)
    (hvalue : first ++ List.replicate skipped 0 ++ second = hextets value) :
    ipv6Value (List.intercalate [':'] parts) = some value := by
  have hnonempty : parts ≠ [] := by
    rintro rfl
    cases hmany
  have hsplit : (List.intercalate [':'] parts).splitOn ':' = parts :=
    List.splitOn_intercalate ':' (fun part hpart ↦ (hparts part hpart).1) hnonempty
  have htext : List.intercalate [':'] parts ≠ [] := by
    intro hnil
    rw [hnil] at hsplit
    rw [← hsplit] at hmany
    simp at hmany
  have hexpand : expandSuffix parts = some parts := by
    unfold expandSuffix
    rw [List.getLast?_eq_some_getLast hnonempty]
    exact if_neg (hparts _ (List.getLast_mem hnonempty)).2
  unfold ipv6Value
  simp only [hsplit, hexpand, htext, hcounts, hfirst, hsecond, hvalue, hextets_value,
    not_lt.mpr hmany, not_lt.mpr hfew, false_or, if_false, Option.bind_eq_bind, Option.bind_some,
    Option.pure_def]

/-- The text of hextets in their shortest form is that of the address. -/
theorem ipv6Value_intercalate {parts : List Text} {first second : List ℕ} {value : BitVec 128}
    (hfirst : ∀ hextet ∈ first, hextet < 65536) (hsecond : ∀ hextet ∈ second, hextet < 65536)
    (hparts : ∀ part ∈ parts, ':' ∉ part ∧ '.' ∉ part) (hmany : 3 ≤ parts.length)
    (hfew : parts.length ≤ 9) {skipped : ℕ}
    (hcounts : hextetCounts parts = some (first.length, second.length, skipped))
    (htake : parts.take first.length = first.map hexText)
    (hdrop : parts.drop (parts.length - second.length) = second.map hexText)
    (hvalue : first ++ List.replicate skipped 0 ++ second = hextets value) :
    ipv6Value (List.intercalate [':'] parts) = some value := by
  refine ipv6Value_of_parts hparts hmany hfew hcounts ?_ ?_ hvalue
  · rw [htake, mapM_parseHextet hfirst]
  · rw [hdrop, mapM_parseHextet hsecond]

/-- The texts of hextets. -/
theorem hexText_part (values : List ℕ) :
    ∀ part ∈ values.map hexText, part ≠ [] ∧ ':' ∉ part ∧ '.' ∉ part := by
  intro part hpart
  obtain ⟨value, -, rfl⟩ := List.mem_map.mp hpart
  have hnonempty : hexText value ≠ [] := Nat.toDigits_ne_nil
  exact ⟨hnonempty, not_mem_hexText (by decide), not_mem_hexText (by decide)⟩

/-- An IPv6 address is read as it is written. -/
theorem ipv6Value_text (value : BitVec 128) : ipv6Value (ipv6Text value) = some value := by
  have hlength : (hextets value).length = 8 := rfl
  obtain ⟨hzeros, hend⟩ := longestZeroRun_spec (hextets value)
  obtain ⟨⟨start, length⟩, hrun⟩ : ∃ run, longestZeroRun (hextets value) = run := ⟨_, rfl⟩
  unfold ipv6Text
  dsimp only
  rw [hrun] at hzeros hend ⊢
  rw [hlength] at hend
  dsimp only at hzeros hend ⊢
  split_ifs with hlong
  · -- The run of zeros is left out.
    have hbound : ∀ hextet ∈ (hextets value).take start, hextet < 65536 :=
      fun hextet hmem ↦ lt_of_mem_hextets (List.mem_of_mem_take hmem)
    have hbound' : ∀ hextet ∈ (hextets value).drop (start + length), hextet < 65536 :=
      fun hextet hmem ↦ lt_of_mem_hextets (List.mem_of_mem_drop hmem)
    have hfirst : ((hextets value).take start).length = start := by
      rw [List.length_take, hlength]
      omega
    have hsecond : ((hextets value).drop (start + length)).length = 8 - (start + length) := by
      rw [List.length_drop, hlength]
    rw [compressed_eq, ← List.map_take, ← List.map_drop]
    have hbefore := length_pieces (((hextets value).take start).map hexText)
    have hafter := length_pieces (((hextets value).drop (start + length)).map hexText)
    rw [List.length_map, hfirst] at hbefore
    rw [List.length_map, hsecond] at hafter
    have htotal : (pieces (((hextets value).take start).map hexText) ++
        [] :: pieces (((hextets value).drop (start + length)).map hexText)).length =
          max 1 start + (max 1 (8 - (start + length)) + 1) := by
      rw [List.length_append, List.length_cons, hbefore, hafter]
    have hcounts := hextetCounts_pieces
      (fun part hpart ↦ (hexText_part ((hextets value).take start) part hpart).1)
      (fun part hpart ↦ (hexText_part ((hextets value).drop (start + length)) part hpart).1)
      (by rw [List.length_map, List.length_map, hfirst, hsecond]; omega)
    rw [List.length_map, List.length_map] at hcounts
    refine ipv6Value_intercalate hbound hbound' ?_ ?_ ?_ hcounts ?_ ?_ ?_
    · intro part hpart
      rcases List.mem_append.mp hpart with hmem | hmem
      · rcases mem_pieces hmem with rfl | hmem
        · exact ⟨List.not_mem_nil, List.not_mem_nil⟩
        · exact (hexText_part _ part hmem).2
      · rcases List.mem_cons.mp hmem with rfl | hmem
        · exact ⟨List.not_mem_nil, List.not_mem_nil⟩
        · rcases mem_pieces hmem with rfl | hmem
          · exact ⟨List.not_mem_nil, List.not_mem_nil⟩
          · exact (hexText_part _ part hmem).2
    · omega
    · omega
    · have htake := take_pieces (((hextets value).take start).map hexText)
        ([] :: pieces (((hextets value).drop (start + length)).map hexText))
      rwa [List.length_map] at htake
    · have hdrop := drop_pieces (pieces (((hextets value).take start).map hexText) ++ [[]])
        (((hextets value).drop (start + length)).map hexText)
      rwa [List.append_assoc, List.singleton_append, List.length_map] at hdrop
    · have hskipped : 8 - (((hextets value).take start).length +
          ((hextets value).drop (start + length)).length) = length := by omega
      rw [hskipped, ← hzeros, ← List.drop_drop, List.append_assoc, List.take_append_drop,
        List.take_append_drop]
  · -- Nothing is left out.
    have hall : ∀ hextet ∈ hextets value, hextet < 65536 := fun _ ↦ lt_of_mem_hextets
    have hparts : ((hextets value).map hexText).length = 8 := rfl
    have hnone : ∀ hextet ∈ ([] : List ℕ), hextet < 65536 := nofun
    refine ipv6Value_intercalate hall hnone (fun part hpart ↦ (hexText_part _ part hpart).2)
      (by omega) (by omega) (hextetCounts_of_length (fun part hpart ↦ (hexText_part _ part hpart).1)
        hparts) ?_ ?_ ?_
    · rfl
    · rfl
    · simp

/-- The characters of an IPv6 text are digits and colons. -/
theorem mem_ipv6Text {value : BitVec 128} {char : Char} (hchar : char ∈ ipv6Text value) :
    char = ':' ∨ ∃ digit < 16, char = Nat.digitChar digit := by
  have hparts : ∀ parts : List Text, (∀ part ∈ parts, part ∈ (hextets value).map hexText) →
      char ∈ List.intercalate [':'] parts →
        char = ':' ∨ ∃ digit < 16, char = Nat.digitChar digit := by
    intro parts hall hmem
    rcases mem_intercalate hmem with hcolon | ⟨part, hpart, hdigit⟩
    · exact Or.inl hcolon
    · obtain ⟨hextet, -, rfl⟩ := List.mem_map.mp (hall part hpart)
      exact Or.inr (mem_hexText hdigit)
  unfold ipv6Text at hchar
  dsimp only at hchar
  split_ifs at hchar
  · rcases List.mem_append.mp hchar with hbefore | hafter
    · rcases List.mem_append.mp hbefore with hfirst | hcolons
      · exact hparts _ (fun part ↦ List.mem_of_mem_take) hfirst
      · exact Or.inl (by simpa using hcolons)
    · exact hparts _ (fun part ↦ List.mem_of_mem_drop) hafter
  · exact hparts _ (fun part hpart ↦ hpart) hchar

/-- A character that is no digit is not in an IPv6 text. -/
theorem not_mem_ipv6Text {value : BitVec 128} {char : Char} (hcolon : char ≠ ':')
    (hdigit : ∀ digit < 16, char ≠ Nat.digitChar digit) : char ∉ ipv6Text value := by
  intro hmem
  rcases mem_ipv6Text hmem with hsame | ⟨digit, hsmall, hsame⟩
  · exact hcolon hsame
  · exact hdigit digit hsmall hsame

/-- A character that does not occur does not divide a text. -/
theorem partitionChar_of_not_mem {separator : Char} {text : Text} (hmem : separator ∉ text) :
    partitionChar separator text = (text, false, []) := by
  have hall : text.takeWhile (· != separator) = text := by
    refine List.takeWhile_eq_self_iff.mpr fun char hchar ↦ bne_iff_ne.mpr fun hsame ↦ hmem ?_
    exact hsame ▸ hchar
  unfold partitionChar
  rw [hall]
  dsimp only
  rw [List.drop_length]

/-- A text is divided where the character first occurs. -/
theorem partitionChar_append {separator : Char} {text rest : Text} (hmem : separator ∉ text) :
    partitionChar separator (text ++ separator :: rest) = (text, true, rest) := by
  have hall : ∀ char ∈ text, (char != separator) = true :=
    fun char hchar ↦ bne_iff_ne.mpr fun hsame ↦ hmem (hsame ▸ hchar)
  have hbefore : (text ++ separator :: rest).takeWhile (· != separator) = text := by
    rw [List.takeWhile_append_of_pos hall, List.takeWhile_cons_of_neg (by simp), List.append_nil]
  unfold partitionChar
  rw [hbefore]
  dsimp only
  rw [List.drop_left]

/-- An IPv6 text is that of the address. -/
theorem ipv6Address_text (value : BitVec 128) :
    ipv6Address (ipv6Text value) = some (.v6 value none) := by
  have hslash : '/' ∉ ipv6Text value := not_mem_ipv6Text (by decide) (by decide)
  have hpercent : '%' ∉ ipv6Text value := not_mem_ipv6Text (by decide) (by decide)
  unfold ipv6Address
  rw [if_neg hslash, partitionChar_of_not_mem hpercent]
  dsimp only
  rw [ipv6Value_text]
  rfl

/-- An address without a scope is read as it is written. -/
theorem ipAddress_text : ∀ {address : IpAddress},
    (∀ value scope, address ≠ .v6 value (some scope)) → ipAddress address.text = some address
  | .v4 value, _ => by
    unfold ipAddress
    rw [ipv4Value_text]
  | .v6 value none, _ => by
    have hdot : '.' ∉ ipv6Text value := not_mem_ipv6Text (by decide) (by decide)
    have hnone : ipv4Value (ipv6Text value) = none := by
      unfold ipv4Value
      rw [List.splitOn_eq_singleton hdot]
      split_ifs <;> rfl
    have htext : (IpAddress.v6 value none).text = ipv6Text value := rfl
    unfold ipAddress
    rw [htext, hnone]
    exact ipv6Address_text value
  | .v6 value (some scope), hscope => absurd rfl (hscope value scope)

end Ads.Python
