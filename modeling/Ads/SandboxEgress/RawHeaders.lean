import Ads.SandboxEgress.Framing

/-!
# The grammar of raw header blocks

What `raw_http1_headers` accepts: a start line and fields, each on a line of its own, with names
that are tokens, values without control characters and one way of framing the body at most
(`StrictBlock`). `rawHttp1Headers_eq_ok` says that it accepts these and no other blocks, and
`rawHttp1Headers_strict` what follows for the accepted fields: they are free of line ends, and read
back from the block they are written to.
-/

set_option autoImplicit false
set_option relaxedAutoImplicit false

namespace Ads.SandboxEgress

open Dns Foundation.Cutting Foundation.StateExcept Python

/-! ### Fields -/

/-- A byte that no value has: a control character but the tab. -/
def isControl (char : Octet) : Bool :=
  (char.val < 32 && char.val != 9) || char.val == 127

/-- A field with a name and a value as they are allowed. -/
structure FieldFits (header : Bytes × Bytes) : Prop where
  name : isToken header.1 = true
  value : ∀ char ∈ header.2, isControl char = false
  nameLength : header.1.length ≤ 256
  valueLength : header.2.length ≤ 16384

/-- What a field counts against the limit of all. -/
def fieldSize (header : Bytes × Bytes) : ℕ :=
  header.1.length + header.2.length + 4

/-- The fields with their names in lower case. -/
def lowered (headers : Headers) : Headers :=
  headers.map fun header ↦ (lowerBytes header.1, header.2)

/-- The body is framed in one way at most. -/
structure FramingFits (headers : Headers) : Prop where
  single : (valuesOf "content-length" headers).length ≤ 1
  exclusive : valuesOf "content-length" headers = [] ∨ valuesOf "transfer-encoding" headers = []
  lengths : ∀ value ∈ valuesOf "content-length" headers,
    1 ≤ value.length ∧ value.length ≤ 19 ∧ (∀ digit ∈ value, 48 ≤ digit.val ∧ digit.val ≤ 57) ∧
      decimalBytes value ≤ 2 ^ 63 - 1
  chunked : valuesOf "transfer-encoding" headers ≠ [] →
    ∃ value, valuesOf "transfer-encoding" headers = [value] ∧ lowerBytes value = ascii "chunked"

/-- Fields as they are allowed together. -/
structure FieldsFit (headers : Headers) : Prop where
  fields : ∀ header ∈ headers, FieldFits header
  count : headers.length ≤ 128
  size : (headers.map fieldSize).sum ≤ 65536
  framing : FramingFits (lowered headers)

variable {headers result : Headers} {header : Bytes × Bytes} {gate next : HeaderGate} {name : Bytes}

/-- A byte in lower case is a byte of a token as before. -/
theorem isTokenByte_lower (byte : Octet) : isTokenByte
    (if 65 ≤ byte.val ∧ byte.val ≤ 90 then Fin.ofNat 256 (byte.val + 32) else byte) =
      isTokenByte byte := by
  revert byte
  decide +kernel

/-- A name in lower case is a token as before. -/
@[simp] theorem isToken_lowerBytes : isToken (lowerBytes name) = isToken name := by
  have hall : (lowerBytes name).all isTokenByte = name.all isTokenByte := by
    rw [lowerBytes, List.all_map]
    exact congrArg name.all (funext isTokenByte_lower)
  have hempty : lowerBytes name = [] ↔ name = [] := by simp [lowerBytes]
  simp [isToken, hall, hempty]

/-- A token is no name of a pseudo-header. -/
theorem isPseudo_of_isToken (hname : isToken name = true) : isPseudo name = false := by
  cases name with
  | nil => rfl
  | cons first rest =>
    simp only [isToken, List.all_cons, Bool.and_eq_true, decide_eq_true_eq] at hname
    have hfirst : first ≠ 58 := by
      rintro rfl
      exact absurd hname.2.1 (by decide)
    simpa [isPseudo] using hfirst

/-- A token is not empty. -/
theorem ne_nil_of_isToken (hname : isToken name = true) : name ≠ [] := by
  rintro rfl
  exact absurd hname (by decide)

/-- What a round of `validate_headers` takes in. -/
theorem take_eq_ok : gate.take false header = .ok next ↔
    gate.result.length < 128 ∧ gate.total + fieldSize header ≤ 65536 ∧ FieldFits header ∧
      next = ⟨gate.result ++ [(lowerBytes header.1, header.2)], gate.total + fieldSize header, true,
        gate.pseudo⟩ := by
  have hvalue : (header.2.any fun char ↦ (char.val < 32 && char.val != 9) || char.val == 127) = true ↔
      ¬ ∀ char ∈ header.2, isControl char = false := by
    simp only [List.any_eq_true, not_forall, Bool.not_eq_false]
    simp only [isControl, exists_prop]
  have hsize : gate.total + header.1.length + header.2.length + 4 = gate.total + fieldSize header := by
    simp only [fieldSize]
    omega
  unfold HeaderGate.take
  simp only [hvalue, hsize, isToken_lowerBytes, Bool.false_eq_true, not_false_eq_true, true_or,
    and_true, false_and, ↓reduceIte]
  by_cases hpseudo : isPseudo (lowerBytes header.1) = true
  · have hname : ¬ FieldFits header := fun hfits ↦ by
      have hnot := @isPseudo_of_isToken (lowerBytes header.1) (by simp [hfits.name])
      simp [hnot] at hpseudo
    split_ifs
    all_goals simp [hname]
  · by_cases hname : isToken header.1 = true
    · simp only [hpseudo, hname, not_true_eq_false, and_false, ↓reduceIte]
      split_ifs with hlimit hcontrol hnever
      · simp only [false_iff]
        rintro ⟨hcount, htotal, hfits, -⟩
        have hlength := hfits.nameLength
        have hvalueLength := hfits.valueLength
        omega
      · simp only [false_iff]
        rintro ⟨-, -, hfits, -⟩
        rcases hcontrol with hempty | hcontrol
        · exact ne_nil_of_isToken hfits.name hempty
        · exact hcontrol hfits.value
      · exact hnever.elim
      · simp only [not_or, not_lt, ge_iff_le, gt_iff_lt, not_le, not_not] at hlimit hcontrol
        have hfits : FieldFits header := ⟨hname, hcontrol.2, hlimit.2.2.1, hlimit.2.2.2⟩
        simp only [except_pure_eq_ok, hlimit.1, hlimit.2.1, hfits, true_and, Bool.not_false, Bool.or_true]
        exact eq_comm
    · have hfits : ¬ FieldFits header := fun hfits ↦ hname hfits.name
      simp only [hpseudo, hname, and_self]
      split_ifs
      all_goals simp [hfits]

/-- What the rounds of `validate_headers` take in. -/
theorem foldlM_take_eq_ok (hcount : gate.result.length ≤ 128) (htotal : gate.total ≤ 65536) :
    headers.foldlM (HeaderGate.take false) gate = .ok next ↔
      gate.result.length + headers.length ≤ 128 ∧
        gate.total + (headers.map fieldSize).sum ≤ 65536 ∧ (∀ header ∈ headers, FieldFits header) ∧
          next = ⟨gate.result ++ lowered headers, gate.total + (headers.map fieldSize).sum,
            gate.regularSeen || !headers.isEmpty, gate.pseudo⟩ := by
  induction headers generalizing gate with
  | nil =>
    simp only [List.foldlM_nil, except_pure_eq_ok, List.length_nil, List.map_nil, List.sum_nil,
      lowered, List.append_nil, List.isEmpty_nil, Bool.not_true, Bool.or_false, Nat.add_zero, hcount,
      htotal, List.not_mem_nil, IsEmpty.forall_iff, implies_true, true_and]
    exact eq_comm
  | cons header rest ih =>
    simp only [List.foldlM_cons, except_bind_eq_ok, take_eq_ok, List.length_cons, List.map_cons,
      List.sum_cons, List.forall_mem_cons]
    constructor
    · rintro ⟨_, ⟨hfirst, hsize, hfits, rfl⟩, hrest⟩
      rw [ih (by simpa using hfirst) hsize] at hrest
      obtain ⟨hlength, hsum, hothers, rfl⟩ := hrest
      simp only [List.length_append, List.length_singleton] at hlength hsum
      refine ⟨by omega, by omega, ⟨hfits, hothers⟩, ?_⟩
      simp [lowered, Nat.add_assoc]
    · rintro ⟨hlength, hsum, ⟨hfits, hothers⟩, rfl⟩
      refine ⟨_, ⟨by omega, by omega, hfits, rfl⟩, ?_⟩
      rw [ih (by simp; omega) (by simp; omega)]
      refine ⟨by simp; omega, by simp; omega, hothers, ?_⟩
      simp [lowered, Nat.add_assoc]

/-- A length is given in bounds. -/
theorem isLength_iff {value : Bytes} : (!(1 ≤ value.length && value.length ≤ 19 &&
      value.all (fun digit ↦ 48 ≤ digit.val && digit.val ≤ 57)) ||
        decimalBytes value > 2 ^ 63 - 1) = false ↔
    1 ≤ value.length ∧ value.length ≤ 19 ∧ (∀ digit ∈ value, 48 ≤ digit.val ∧ digit.val ≤ 57) ∧
      decimalBytes value ≤ 2 ^ 63 - 1 := by
  simp only [Bool.or_eq_false_iff, Bool.not_eq_false', Bool.and_eq_true, decide_eq_true_eq,
    decide_eq_false_iff_not, List.all_eq_true, not_lt, gt_iff_lt, and_assoc]

/-- What `validate_headers` requires of the headers together. -/
theorem checkFraming_eq_ok : checkFraming headers = .ok () ↔ FramingFits headers := by
  unfold checkFraming
  dsimp only
  split_ifs with hsingle hdigits hchunked
  · refine iff_of_false not_false fun hfits ↦ ?_
    rcases hsingle with hmore | ⟨hlength, htransfer⟩
    · exact absurd hfits.single (not_le.mpr hmore)
    · exact hfits.exclusive.elim hlength htransfer
  · refine iff_of_false not_false fun hfits ↦ ?_
    obtain ⟨value, hvalue, hwrong⟩ := List.any_eq_true.mp hdigits
    rw [isLength_iff.mpr (hfits.lengths value hvalue)] at hwrong
    cases hwrong
  · refine iff_of_false not_false fun hfits ↦ ?_
    obtain ⟨value, hvalue, hcoding⟩ := hfits.chunked hchunked.1
    simp [hvalue, hcoding] at hchunked
  · refine iff_of_true rfl ?_
    rw [Bool.not_eq_true, List.any_eq_false] at hdigits
    simp only [not_or, not_and_or, not_not, gt_iff_lt, not_lt] at hsingle hchunked
    refine ⟨hsingle.1, hsingle.2, fun value hvalue ↦ isLength_iff.mp ?_, fun htransfer ↦ ?_⟩
    · exact Bool.eq_false_iff.mpr (hdigits value hvalue)
    · rcases hchunked with hnone | ⟨hlength, hcoding⟩
      · exact absurd hnone htransfer
      · obtain ⟨value, hvalue⟩ := List.length_eq_one_iff.mp hlength
        exact ⟨value, hvalue, by simpa [hvalue] using hcoding⟩

/-- **What `validate_headers` accepts.** -/
theorem validateHeaders_eq_ok : validateHeaders headers = .ok result ↔
    FieldsFit headers ∧ result = lowered headers := by
  simp only [validateHeaders, except_bind_eq_ok, except_pure_eq_ok,
    @foldlM_take_eq_ok headers {} _ (by simp) (by simp)]
  constructor
  · rintro ⟨_, ⟨hcount, hsize, hfields, rfl⟩, _, hframing, rfl⟩
    rw [checkFraming_eq_ok] at hframing
    simp only [List.nil_append] at hframing ⊢
    exact ⟨⟨hfields, by simpa using hcount, by simpa using hsize, hframing⟩, trivial⟩
  · rintro ⟨hfit, rfl⟩
    refine ⟨_, ⟨by simpa using hfit.count, by simpa using hfit.size, hfit.fields, rfl⟩, (), ?_, ?_⟩
    · rw [checkFraming_eq_ok]
      simpa using hfit.framing
    · simp

/-! ### Blocks -/

/-- The end of a line. -/
abbrev lineEnd : Bytes := [13, 10]

/-- A space or a tab. -/
def isBlank (byte : Octet) : Bool :=
  byte.val == 32 || byte.val == 9

/-- A line with a field: its name, a colon, and its value, with blanks around it. -/
structure IsField (line : Bytes) (header : Bytes × Bytes) : Prop where
  line_eq : ∃ before after : Bytes, before.all isBlank = true ∧ after.all isBlank = true ∧
    line = header.1 ++ 58 :: (before ++ header.2 ++ after)
  first : ∀ byte ∈ header.2.head?, isBlank byte = false
  last : ∀ byte ∈ header.2.getLast?, isBlank byte = false

/-- A start line and fields, each on a line of its own, within their limits. -/
structure StrictBlock (block start : Bytes) (headers : Headers) : Prop where
  block_eq : ∃ lines : List Bytes, List.Forall₂ IsField lines headers ∧
    block = start ++ lineEnd ++ joinLines lineEnd lines ++ lineEnd
  length : block.length ≤ 65536
  start_ne : start ≠ []
  start_line : 10 ∉ start ∧ 13 ∉ start
  start_length : start.length ≤ 16384
  fits : FieldsFit headers

variable {line block start : Bytes} {lines : List Bytes} {fields : Headers}

/-- A colon is no byte of a token. -/
theorem colon_not_mem (hname : isToken name = true) : 58 ∉ name := by
  simp only [isToken, decide_eq_true_eq] at hname
  intro hmem
  exact absurd (List.all_eq_true.mp hname.2 _ hmem) (by decide)

/-- What is read from a line. -/
theorem rawHeader_eq_ok : rawHeader line = .ok header ↔
    isToken header.1 = true ∧ IsField line header := by
  unfold rawHeader
  cases hcut : cutAt 58 line with
  | mk name parts =>
    obtain ⟨colon, value⟩ := parts
    simp only [except_bind_eq_ok, failIf_eq_ok, not_or, Bool.not_eq_false, except_pure_eq_ok,
      exists_and_left, exists_const]
    constructor
    · rintro ⟨⟨rfl, hname⟩, rfl⟩
      obtain ⟨rfl, -⟩ := cutAt_eq_true.mp hcut
      obtain ⟨hfirst, hlast, before, after, hbefore, hafter, hvalue⟩ :=
        trimmed_eq_iff.mp (rfl : trimmed isBlank value = stripBlanks value)
      exact ⟨hname, ⟨before, after, hbefore, hafter, congrArg (name ++ 58 :: ·) hvalue⟩, hfirst, hlast⟩
    · rintro ⟨hname, ⟨before, after, hbefore, hafter, rfl⟩, hfirst, hlast⟩
      have hparts := hcut.symm.trans (cutAt_eq_true.mpr ⟨rfl, colon_not_mem hname⟩)
      obtain ⟨rfl, rfl, rfl⟩ : name = header.1 ∧ colon = true ∧ value = before ++ header.2 ++ after := by
        simpa using hparts
      have hstrip : stripBlanks (before ++ header.2 ++ after) = header.2 :=
        trimmed_eq_iff.mpr ⟨hfirst, hlast, before, after, hbefore, hafter, rfl⟩
      exact ⟨⟨rfl, hname⟩, by rw [hstrip]⟩

/-- A byte of a line with a field that fits is no line end. -/
theorem not_mem_of_isField (hfield : IsField line header) (hfits : FieldFits header) {byte : Octet}
    (hbyte : byte = 13 ∨ byte = 10) : byte ∉ line := by
  have hcontrol : isControl byte = true := by rcases hbyte with rfl | rfl <;> decide
  have hblank : isBlank byte = false := by rcases hbyte with rfl | rfl <;> decide
  have htoken : isTokenByte byte = false := by rcases hbyte with rfl | rfl <;> decide
  have hcolon : byte ≠ 58 := by rcases hbyte with rfl | rfl <;> decide
  obtain ⟨before, after, hbefore, hafter, rfl⟩ := hfield.line_eq
  have hname := hfits.name
  simp only [isToken, decide_eq_true_eq] at hname
  simp only [List.mem_append, List.mem_cons, not_or]
  refine ⟨fun hmem ↦ ?_, hcolon, ⟨fun hmem ↦ ?_, fun hmem ↦ ?_⟩, fun hmem ↦ ?_⟩
  · have h := List.all_eq_true.mp hname.2 byte hmem
    rw [htoken] at h
    cases h
  · have h := List.all_eq_true.mp hbefore byte hmem
    rw [hblank] at h
    cases h
  · have h := hfits.value byte hmem
    rw [hcontrol] at h
    cases h
  · have h := List.all_eq_true.mp hafter byte hmem
    rw [hblank] at h
    cases h

/-- The lines of fields that fit have no line end in them. -/
theorem not_mem_of_forall₂ (hlines : List.Forall₂ IsField lines headers)
    (hfits : ∀ header ∈ headers, FieldFits header) : ∀ line ∈ lines, 13 ∉ line := by
  induction hlines with
  | nil => exact fun _ h ↦ absurd h List.not_mem_nil
  | cons hfield _ ih =>
    simp only [List.forall_mem_cons] at hfits ⊢
    exact ⟨not_mem_of_isField hfield hfits.1 (Or.inl rfl), ih hfits.2⟩

/-- The lines of fields that fit are read. -/
theorem forall₂_rawHeader (hlines : List.Forall₂ IsField lines headers)
    (hfits : ∀ header ∈ headers, FieldFits header) :
    List.Forall₂ (fun line header ↦ rawHeader line = .ok header) lines headers := by
  induction hlines with
  | nil => exact List.Forall₂.nil
  | cons hfield _ ih =>
    rw [List.forall_mem_cons] at hfits
    exact List.Forall₂.cons (rawHeader_eq_ok.mpr ⟨hfits.1.name, hfield⟩) (ih hfits.2)

/-- A field that fits has no line end and no zero byte. -/
theorem clean_of_fits (hfits : FieldFits header) {byte : Octet} (hbyte : byte ∈ header.1 ++ header.2) :
    byte ≠ 13 ∧ byte ≠ 10 ∧ byte ≠ 0 := by
  have hclean : isTokenByte byte = true ∨ isControl byte = false := by
    rcases List.mem_append.mp hbyte with hname | hvalue
    · have htoken := hfits.name
      simp only [isToken, decide_eq_true_eq] at htoken
      exact Or.inl (List.all_eq_true.mp htoken.2 byte hname)
    · exact Or.inr (hfits.value byte hvalue)
  clear hbyte
  revert byte
  decide +kernel

/-- The body is framed in one way at most. -/
theorem framings_le (hframing : FramingFits headers) :
    (valuesOf "content-length" headers).length + (valuesOf "transfer-encoding" headers).length ≤ 1 := by
  rcases hframing.exclusive with hlength | htransfer
  · rw [hlength, List.length_nil, Nat.zero_add]
    by_cases hnone : valuesOf "transfer-encoding" headers = []
    · simp [hnone]
    · obtain ⟨value, hvalue, -⟩ := hframing.chunked hnone
      simp [hvalue]
  · rw [htransfer, List.length_nil, Nat.add_zero]
    exact hframing.single

/-- A block ends with an empty line. -/
theorem take_of_suffix (hsuffix : [13, 10, 13, 10] <:+ block) :
    block.take (block.length - 4) ++ lineEnd ++ lineEnd = block := by
  obtain ⟨rest, rfl⟩ := hsuffix
  simp

/-- **What `raw_http1_headers` accepts.** -/
theorem rawHttp1Headers_eq_ok : rawHttp1Headers block = .ok (start, fields) ↔
    ∃ headers, StrictBlock block start headers ∧ fields = lowered headers := by
  simp only [rawHttp1Headers, except_bind_eq_ok, failIf_eq_ok, not_or, not_not, gt_iff_lt, not_lt,
    except_pure_eq_ok, except_mapM_eq_ok, validateHeaders_eq_ok, exists_and_left, exists_const]
  constructor
  · rintro ⟨⟨hlength, hsuffix⟩, ⟨hne, hfeed, hreturn, hshort⟩, headers, hlines, fields, ⟨hfits, rfl⟩, hresult⟩
    obtain ⟨rfl, rfl⟩ := Prod.mk.inj hresult
    refine ⟨headers, ⟨⟨_, hlines.imp fun line header hheader ↦ (rawHeader_eq_ok.mp hheader).2, ?_⟩,
      hlength, hne, ⟨hfeed, hreturn⟩, hshort, hfits⟩, rfl⟩
    have hblock := take_of_suffix hsuffix
    cases hcut : cutLines 13 10 (block.take (block.length - 4)) with
    | nil => exact absurd hcut cutLines_ne_nil
    | cons first rest =>
      have hjoin := @joinLines_cutLines _ _ (block.take (block.length - 4)) 13 10
      rw [hcut, joinLines_cons] at hjoin
      rw [← hjoin] at hblock
      exact hblock.symm
  · rintro ⟨headers, hstrict, rfl⟩
    obtain ⟨lines, hlines, hblock⟩ := hstrict.block_eq
    obtain ⟨word, hword⟩ := @exists_joinLines _ (start :: lines) lineEnd (by simp)
    rw [joinLines_cons] at hword
    have hends : block = word ++ [13, 10, 13, 10] := by
      rw [hblock, ← hword]
      simp
    have htake : block.take (block.length - 4) = word := by simp [hends]
    have hclean : ∀ line ∈ start :: lines, 13 ∉ line :=
      List.forall_mem_cons.mpr ⟨hstrict.start_line.2, not_mem_of_forall₂ hlines hstrict.fits.fields⟩
    have hcut : cutLines 13 10 word = start :: lines :=
      cutLines_eq_of_joinLines hclean (by simp) (by rw [hword, joinLines_cons])
    simp only [htake, hcut, List.headD_cons, List.tail_cons, Prod.mk.injEq, true_and]
    exact ⟨⟨hstrict.length, ⟨word, hends.symm⟩⟩, ⟨hstrict.start_ne, hstrict.start_line.1,
      hstrict.start_line.2, hstrict.start_length⟩, headers,
      forall₂_rawHeader hlines hstrict.fits.fields, lowered headers, ⟨hstrict.fits, rfl⟩, rfl⟩

/-! ### Written blocks -/

/-- A start line and fields as lines, without added blanks. -/
def writtenBlock (start : Bytes) (fields : Headers) : Bytes :=
  start ++ lineEnd ++ joinLines lineEnd (fields.map fun field ↦ field.1 ++ 58 :: field.2) ++ lineEnd

/-- The numbers of fields that frame the body. -/
def framings (fields : Headers) : ℕ :=
  (valuesOf "content-length" fields).length + (valuesOf "transfer-encoding" fields).length

/-- A byte in lower case stays. -/
theorem lowerBytes_lowerBytes : lowerBytes (lowerBytes name) = lowerBytes name := by
  have hbyte : ∀ byte : Octet, (fun byte : Octet ↦
      if 65 ≤ byte.val ∧ byte.val ≤ 90 then Fin.ofNat 256 (byte.val + 32) else byte)
        (if 65 ≤ byte.val ∧ byte.val ≤ 90 then Fin.ofNat 256 (byte.val + 32) else byte) =
      if 65 ≤ byte.val ∧ byte.val ≤ 90 then Fin.ofNat 256 (byte.val + 32) else byte := by
    decide +kernel
  rw [lowerBytes, lowerBytes, List.map_map]
  exact List.map_congr_left fun byte _ ↦ hbyte byte

/-- Fields in lower case stay. -/
theorem lowered_lowered : lowered (lowered headers) = lowered headers := by
  simp [lowered, Function.comp_def, lowerBytes_lowerBytes]

/-- Fields that fit do so in lower case. -/
theorem FieldsFit.toLower (hfits : FieldsFit headers) : FieldsFit (lowered headers) := by
  constructor
  case fields =>
    intro field hfield
    obtain ⟨header, hheader, rfl⟩ := List.mem_map.mp hfield
    obtain ⟨hname, hvalue, hnameLength, hvalueLength⟩ := hfits.fields header hheader
    exact ⟨by simpa using hname, hvalue, by simpa [lowerBytes] using hnameLength, hvalueLength⟩
  case count => simpa [lowered] using hfits.count
  case size =>
    have hsame : (lowered headers).map fieldSize = headers.map fieldSize := by
      simp [lowered, Function.comp_def, fieldSize, lowerBytes]
    exact hsame.symm ▸ hfits.size
  case framing => exact lowered_lowered.symm ▸ hfits.framing

/-- A field without blanks around its value. -/
theorem isField_written (hfield : IsField line header) :
    IsField (lowerBytes header.1 ++ 58 :: header.2) (lowerBytes header.1, header.2) :=
  ⟨⟨[], [], rfl, rfl, by simp⟩, hfield.first, hfield.last⟩

/-- The fields of a block, written without blanks around their values. -/
theorem forall₂_written (hlines : List.Forall₂ IsField lines headers) :
    List.Forall₂ IsField ((lowered headers).map fun field ↦ field.1 ++ 58 :: field.2)
      (lowered headers) := by
  induction hlines with
  | nil => exact List.Forall₂.nil
  | cons hfield _ ih => exact List.Forall₂.cons (isField_written hfield) ih

/-- Lines without blanks are no longer. -/
theorem length_written_le (hlines : List.Forall₂ IsField lines headers) :
    (joinLines lineEnd ((lowered headers).map fun field ↦ field.1 ++ 58 :: field.2)).length ≤
      (joinLines lineEnd lines).length := by
  induction hlines with
  | nil => exact le_rfl
  | cons hfield _ ih =>
    obtain ⟨before, after, -, -, rfl⟩ := hfield.line_eq
    simp [lowered, lowerBytes] at ih ⊢
    omega

/-- A block of what is accepted is accepted again. -/
theorem StrictBlock.written (hstrict : StrictBlock block start headers) :
    StrictBlock (writtenBlock start (lowered headers)) start (lowered headers) := by
  obtain ⟨lines, hlines, hblock⟩ := hstrict.block_eq
  refine ⟨⟨_, forall₂_written hlines, rfl⟩, ?_, hstrict.start_ne, hstrict.start_line,
    hstrict.start_length, hstrict.fits.toLower⟩
  have hlength := hstrict.length
  have hshorter := length_written_le hlines
  simp only [hblock, writtenBlock, List.length_append] at hlength ⊢
  omega

/-- **Raw header blocks are parsed strictly.** The accepted blocks are those of the grammar. No
accepted name or value has a line end or a zero byte, the body is framed in one way at most, and what
is accepted reads back from the block it is written to. -/
theorem rawHttp1Headers_strict (block : Bytes) :
    (∀ start fields, rawHttp1Headers block = .ok (start, fields) ↔
      ∃ headers, StrictBlock block start headers ∧ fields = lowered headers) ∧
    ∀ start fields, rawHttp1Headers block = .ok (start, fields) →
      (∀ field ∈ fields, ∀ byte ∈ field.1 ++ field.2, byte ≠ 13 ∧ byte ≠ 10 ∧ byte ≠ 0) ∧
      framings fields ≤ 1 ∧ rawHttp1Headers (writtenBlock start fields) = .ok (start, fields) := by
  refine ⟨fun _ _ ↦ rawHttp1Headers_eq_ok, fun start fields hparsed ↦ ?_⟩
  obtain ⟨headers, hstrict, rfl⟩ := rawHttp1Headers_eq_ok.mp hparsed
  refine ⟨fun field hfield byte hbyte ↦ ?_, ?_, ?_⟩
  · have hfits := hstrict.fits.toLower.fields field hfield
    exact clean_of_fits hfits hbyte
  · exact framings_le hstrict.fits.framing
  · exact rawHttp1Headers_eq_ok.mpr ⟨_, hstrict.written, lowered_lowered.symm⟩

/-- A request with a host and a length. -/
def hostBlock : Bytes :=
  ascii "POST / HTTP/1.1\r\nHost: \ta \r\nContent-Length: 3\r\n\r\n"

/-- Its fields. -/
def hostFields : Headers :=
  [(ascii "host", ascii "a"), (ascii "content-length", ascii "3")]

/-- The fields of a request are clean, and read back. -/
theorem rawHttp1Headers_strict_host :
    (∀ field ∈ hostFields, ∀ byte ∈ field.1 ++ field.2, byte ≠ 13 ∧ byte ≠ 10 ∧ byte ≠ 0) ∧
      framings hostFields ≤ 1 ∧ rawHttp1Headers (writtenBlock (ascii "POST / HTTP/1.1") hostFields) =
        .ok (ascii "POST / HTTP/1.1", hostFields) :=
  (rawHttp1Headers_strict hostBlock).2 (ascii "POST / HTTP/1.1") hostFields (by decide +kernel)

end Ads.SandboxEgress
