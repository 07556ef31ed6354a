import Ads.SandboxEgress.ChunkedWire

/-!
# The grammar of chunked bodies

A body is chunks, a last chunk without bytes and a trailer section (`IsChunkedBody`). The wire is
done exactly when some first bytes are a body (`chunkedWire_exact`): `consumed_byte` keeps account
of what the wire has observed, and `foldlM_byte_body` follows it through a body.
-/

set_option autoImplicit false
set_option relaxedAutoImplicit false

namespace Ads.SandboxEgress

open Dns Foundation.Alphabets Foundation.Cutting Foundation.StateExcept Python
open scoped Computability

/-! ### Chunk extensions -/

/-- Spaces and tabs. -/
def blankTexts : Language Octet :=
  wordsOf isBlank

/-- The tokens. -/
def tokens : Language Octet :=
  {bytes | isToken bytes = true}

/-- The quoted strings. -/
def quotedStrings : Language Octet :=
  {[34]} * (letterOf isQuotedByte + {[92]} * letterOf isEscapedByte)∗ * {[34]}

/-- A chunk extension: a name, and a value or none. -/
def extensionText : Language Octet :=
  tokens * (1 + blankTexts * {[61]} * blankTexts * (tokens + quotedStrings))

/-- Chunk extensions between semicolons. -/
def extensionTexts : Language Octet :=
  blankTexts * extensionText * (blankTexts * {[59]} * blankTexts * extensionText)∗ * blankTexts

theorem matches_byteClass {accepts : Octet → Bool} : (byteClass accepts).matches' = letterOf accepts :=
  matches_oneOf_filter List.mem_finRange

theorem matches_blanksPattern : blanksPattern.matches' = blankTexts := by
  rw [blanksPattern, RegularExpression.matches'_star, matches_byteClass, kstar_letterOf]
  rfl

/-- A token is a byte of tokens and more of them. -/
theorem matches_tokenPattern : tokenPattern.matches' = tokens := by
  rw [tokenPattern, RegularExpression.matches'_mul, RegularExpression.matches'_star,
    matches_byteClass, kstar_letterOf]
  ext bytes
  rw [Language.mem_mul]
  constructor
  · rintro ⟨_, ⟨first, hfirst, rfl⟩, rest, hrest, rfl⟩
    have hall : rest.all isTokenByte = true := hrest
    have htoken : isToken ([first] ++ rest) = true := by simp [isToken, hfirst, hall]
    exact htoken
  · intro hbytes
    have htoken : isToken bytes = true := hbytes
    cases bytes with
    | nil => exact absurd htoken (by decide)
    | cons first rest =>
      simp only [isToken, List.all_cons, Bool.and_eq_true, decide_eq_true_eq] at htoken
      exact ⟨[first], ⟨first, htoken.2.1, rfl⟩, rest, htoken.2.2, rfl⟩

/-- The regular expression of the extensions stands for them. -/
theorem rmatch_extensionsPattern {bytes : Bytes} :
    extensionsPattern.rmatch bytes = true ↔ bytes ∈ extensionTexts := by
  have hmatches : extensionsPattern.matches' = extensionTexts := by
    simp only [extensionsPattern, extensionPattern, quotedPattern, RegularExpression.matches'_mul,
      RegularExpression.matches'_add, RegularExpression.matches'_star,
      RegularExpression.matches'_epsilon, RegularExpression.matches'_char, matches_byteClass,
      matches_blanksPattern, matches_tokenPattern]
    rfl
  rw [RegularExpression.rmatch_iff_matches', hmatches]

/-- Extensions have no line end. -/
theorem extensionTexts_le_avoiding : extensionTexts ≤ avoiding 10 := by
  have hblanks : blankTexts ≤ avoiding 10 := wordsOf_le_avoiding rfl
  have htokens : tokens ≤ avoiding 10 := by
    intro bytes hbytes hmem
    have htoken : isToken bytes = true := hbytes
    simp only [isToken, decide_eq_true_eq] at htoken
    exact absurd (List.all_eq_true.mp htoken.2 _ hmem) (by decide)
  have hsingle : ∀ byte : Octet, byte ≠ 10 → ({[byte]} : Language Octet) ≤ avoiding 10 :=
    fun byte hbyte ↦ singleton_le_avoiding hbyte
  have hquoted : quotedStrings ≤ avoiding 10 :=
    mul_le_avoiding (mul_le_avoiding (hsingle 34 (by decide)) (kstar_le_avoiding
      (add_le_avoiding (letterOf_le_avoiding rfl)
        (mul_le_avoiding (hsingle 92 (by decide)) (letterOf_le_avoiding rfl))))) (hsingle 34 (by decide))
  have hextension : extensionText ≤ avoiding 10 :=
    mul_le_avoiding htokens (add_le_avoiding one_le_avoiding (mul_le_avoiding (mul_le_avoiding
      (mul_le_avoiding hblanks (hsingle 61 (by decide))) hblanks) (add_le_avoiding htokens hquoted)))
  exact mul_le_avoiding (mul_le_avoiding (mul_le_avoiding hblanks hextension) (kstar_le_avoiding
    (mul_le_avoiding (mul_le_avoiding (mul_le_avoiding hblanks (hsingle 59 (by decide))) hblanks)
      hextension))) hblanks

/-! ### Chunks -/

/-- The digits of the size of a chunk. -/
structure IsChunkSize (digits : Bytes) (size : ℕ) : Prop where
  length : 1 ≤ digits.length ∧ digits.length ≤ 16
  hex : digits.all isHexByte = true
  value : hexBytes digits = size
  bound : size ≤ 2 ^ 63 - 1

/-- The line before a chunk: its size, and extensions or none. -/
structure IsChunkLine (line : Bytes) (size : ℕ) : Prop where
  parts : ∃ digits, IsChunkSize digits size ∧ (line = digits ∨ ∃ blanks ∈ blankTexts,
    ∃ extensions ∈ extensionTexts, line = digits ++ blanks ++ 59 :: extensions)
  length : line.length ≤ 8190

/-- A chunk: its line, and bytes as many as it says. -/
def IsChunk (bytes : Bytes) : Prop :=
  ∃ line size content, IsChunkLine line size ∧ 0 < size ∧ content.length = size ∧
    bytes = line ++ lineEnd ++ content ++ lineEnd

variable {line digits bytes content : Bytes} {size : ℕ}

/-- Digits have no byte that is no digit. -/
theorem not_mem_of_isHex {byte : Octet} (hdigits : digits.all isHexByte = true)
    (hbyte : isHexByte byte = false) : byte ∉ digits := by
  intro hmem
  have h := List.all_eq_true.mp hdigits byte hmem
  rw [hbyte] at h
  cases h

/-- What is left of the line end. -/
theorem stripRight_eq_iff {value kept : Bytes} : stripRight value = kept ↔
    (∀ byte ∈ kept.getLast?, isBlank byte = false) ∧
      ∃ blanks ∈ blankTexts, value = kept ++ blanks := by
  constructor
  · rintro rfl
    refine ⟨fun byte hbyte ↦ ?_, (value.reverse.takeWhile isBlank).reverse, ?_, ?_⟩
    · rw [stripRight, List.getLast?_reverse] at hbyte
      exact head_dropWhile byte hbyte
    · have hall : (value.reverse.takeWhile isBlank).reverse.all isBlank = true := by
        rw [List.all_reverse]
        exact List.all_takeWhile
      exact hall
    · rw [stripRight, ← List.reverse_append, List.takeWhile_append_dropWhile, List.reverse_reverse]
  · rintro ⟨hlast, blanks, hblanks, rfl⟩
    have hall : blanks.reverse.all isBlank = true := by
      rw [List.all_reverse]
      exact hblanks
    rw [stripRight, List.reverse_append, dropWhile_append_eq hall (by rwa [List.head?_reverse]),
      List.reverse_reverse]

/-- Digits have no blank at their end. -/
theorem getLast_of_isHex (hdigits : digits.all isHexByte = true) :
    ∀ byte ∈ digits.getLast?, isBlank byte = false := by
  intro byte hbyte
  have hdigit := List.all_eq_true.mp hdigits byte (List.mem_of_getLast? hbyte)
  clear hbyte
  revert byte
  decide +kernel

/-- What the wire reads from the line before a chunk. -/
theorem chunkSize_eq_ok : chunkSize line = .ok size ↔ ∃ digits, IsChunkSize digits size ∧
    (line = digits ∨ ∃ blanks ∈ blankTexts, ∃ extensions ∈ extensionTexts,
      line = digits ++ blanks ++ 59 :: extensions) := by
  unfold chunkSize
  cases hcut : cutAt 59 line with
  | mk before parts =>
    obtain ⟨separator, extensions⟩ := parts
    simp only [except_bind_eq_ok, failIf_eq_ok, not_not, gt_iff_lt, not_lt, except_pure_eq_ok,
      exists_and_left, exists_const]
    simp only [not_and, Bool.not_eq_false, rmatch_extensionsPattern]
    constructor
    · rintro ⟨⟨hfirst, hlast, hall⟩, hbound, hextensions, rfl⟩
      refine ⟨_, ⟨⟨hfirst, hlast⟩, hall, rfl, hbound⟩, ?_⟩
      cases separator with
      | false =>
        obtain ⟨rfl, -, -⟩ := cutAt_eq_false.mp hcut
        exact Or.inl rfl
      | true =>
        obtain ⟨rfl, -⟩ := cutAt_eq_true.mp hcut
        obtain ⟨-, blanks, hblanks, hbefore⟩ := stripRight_eq_iff.mp (rfl : stripRight before = _)
        exact Or.inr ⟨blanks, hblanks, extensions, hextensions rfl, congrArg (· ++ 59 :: extensions) hbefore⟩
    · rintro ⟨digits, ⟨hlength, hall, rfl, hbound⟩, rfl | ⟨blanks, hblanks, extension, hextension, rfl⟩⟩
      · have hparts := hcut.symm.trans
          (cutAt_eq_false.mpr ⟨rfl, not_mem_of_isHex hall (by decide), rfl⟩)
        obtain ⟨rfl, rfl, rfl⟩ : before = line ∧ separator = false ∧ extensions = [] := by
          simpa using hparts
        exact ⟨⟨hlength.1, hlength.2, hall⟩, hbound, by simp, rfl⟩
      · have hnot : 59 ∉ digits ++ blanks := by
          rw [List.mem_append, not_or]
          refine ⟨not_mem_of_isHex hall (by decide), fun hmem ↦ ?_⟩
          exact absurd (List.all_eq_true.mp hblanks _ hmem) (by decide)
        have hparts := hcut.symm.trans (cutAt_eq_true.mpr ⟨rfl, hnot⟩)
        obtain ⟨rfl, rfl, rfl⟩ : before = digits ++ blanks ∧ separator = true ∧
            extensions = extension := by simpa using hparts
        have hstrip : stripRight (digits ++ blanks) = digits :=
          stripRight_eq_iff.mpr ⟨getLast_of_isHex hall, blanks, hblanks, rfl⟩
        simp only [if_true, hstrip]
        exact ⟨⟨hlength.1, hlength.2, hall⟩, hbound, fun _ ↦ hextension, trivial⟩

/-- The line before a chunk has no line end. -/
theorem IsChunkLine.not_mem (hline : IsChunkLine line size) : 10 ∉ line := by
  obtain ⟨⟨digits, hsize, rfl | ⟨blanks, hblanks, extensions, hextensions, rfl⟩⟩, -⟩ := hline
  · exact not_mem_of_isHex hsize.hex (by decide)
  · simp only [List.mem_append, List.mem_cons, not_or]
    refine ⟨⟨not_mem_of_isHex hsize.hex (by decide), ?_⟩, by decide,
      extensionTexts_le_avoiding hextensions⟩
    exact fun hmem ↦ absurd (List.all_eq_true.mp hblanks _ hmem) (by decide)

/-! ### Trailers -/

/-- Trailers as they are allowed together. -/
structure TrailersFit (headers : Headers) : Prop where
  fields : ∀ header ∈ headers, FieldFits header
  count : headers.length ≤ 32
  size : (headers.map fun header ↦ header.1.length + header.2.length).sum ≤ 16384
  names : ∀ header ∈ headers, lowerBytes header.1 ∉ forbiddenTrailers

/-- A trailer section: trailers, each on a line of its own, and an empty line. -/
def IsTrailerSection (bytes : Bytes) : Prop :=
  ∃ lines headers, List.Forall₂ IsField lines headers ∧ (∀ line ∈ lines, line.length ≤ 8190) ∧
    TrailersFit headers ∧ bytes.length ≤ 16384 ∧ bytes = joinLines lineEnd lines ++ lineEnd

/-- A chunked body: chunks, the line of the last chunk, and a trailer section. -/
def IsChunkedBody (bytes : Bytes) : Prop :=
  ∃ (chunks : List Bytes) (last trailers : Bytes), (∀ chunk ∈ chunks, IsChunk chunk) ∧ IsChunkLine last 0 ∧
    IsTrailerSection trailers ∧ bytes = chunks.flatten ++ last ++ lineEnd ++ trailers

variable {headers : Headers} {result : Headers}

/-- Headers with other names only have no values under a name. -/
theorem valuesOf_eq_nil {name : String} (hnames : ∀ header ∈ headers, header.1 ≠ ascii name) :
    valuesOf name headers = [] := by
  rw [valuesOf, List.map_eq_nil_iff, List.filter_eq_nil_iff]
  exact fun header hheader ↦ by simpa using hnames header hheader

/-- Trailers that fit do not frame a body. -/
theorem TrailersFit.fieldsFit (hfit : TrailersFit headers) : FieldsFit headers := by
  have hnames : ∀ name, ascii name ∈ forbiddenTrailers → valuesOf name (lowered headers) = [] := by
    refine fun name hname ↦ valuesOf_eq_nil fun field hfield heq ↦ ?_
    obtain ⟨header, hheader, rfl⟩ := List.mem_map.mp hfield
    dsimp only at heq
    exact hfit.names header hheader (heq ▸ hname)
  have hlengths := hnames "content-length" (by decide +kernel)
  have htransfers := hnames "transfer-encoding" (by decide +kernel)
  refine ⟨hfit.fields, by have := hfit.count; omega, ?_, ?_⟩
  · have hsum : (headers.map fieldSize).sum =
        (headers.map fun header ↦ header.1.length + header.2.length).sum + headers.length * 4 := by
      unfold fieldSize
      simp [List.sum_map_add]
    have hcount := hfit.count
    have hsize := hfit.size
    omega
  · exact ⟨by simp [hlengths], Or.inl hlengths, by simp [hlengths], fun h ↦ absurd htransfers h⟩

/-- What `validate_trailers` accepts. -/
theorem validateTrailers_eq_ok : validateTrailers headers = .ok result ↔
    TrailersFit headers ∧ result = lowered headers := by
  have hsum : ((lowered headers).map fun header ↦ header.1.length + header.2.length).sum =
      (headers.map fun header ↦ header.1.length + header.2.length).sum := by
    simp [lowered, Function.comp_def, lowerBytes]
  have hcount : (lowered headers).length = headers.length := by simp [lowered]
  simp only [validateTrailers, except_bind_eq_ok, validateHeaders_eq_ok]
  constructor
  · rintro ⟨_, ⟨hfits, rfl⟩, hrest⟩
    split_ifs at hrest with hlimit hforbidden
    simp only [not_or, not_lt, gt_iff_lt, hcount, hsum] at hlimit
    refine ⟨⟨hfits.fields, hlimit.1, hlimit.2, fun header hheader hname ↦ hforbidden ?_⟩,
      (except_pure_eq_ok.mp hrest).symm⟩
    rw [List.any_eq_true]
    exact ⟨_, List.mem_map_of_mem hheader, by simp [hname]⟩
  · rintro ⟨hfit, rfl⟩
    refine ⟨_, ⟨hfit.fieldsFit, rfl⟩, ?_⟩
    rw [if_neg, if_neg]
    · rfl
    · intro hforbidden
      obtain ⟨field, hfield, hwrong⟩ := List.any_eq_true.mp hforbidden
      obtain ⟨header, hheader, rfl⟩ := List.mem_map.mp hfield
      have hpseudo : isPseudo (lowerBytes header.1) = false :=
        isPseudo_of_isToken (by simpa using (hfit.fields header hheader).name)
      simp only [hpseudo, Bool.false_or, decide_eq_true_eq] at hwrong
      exact hfit.names header hheader hwrong
    · have hshort := hfit.count
      have hsize := hfit.size
      rw [hcount, hsum]
      omega

/-! ### Lines of the wire -/

namespace ChunkedWire

variable {wire next : ChunkedWire} {char : Octet} {data chunk : Bytes} {lines chunks : List Bytes}

/-- A wire reads a line. -/
def ReadsLine (wire : ChunkedWire) : Prop :=
  wire.state ≠ .data ∧ wire.state ≠ .done

/-- A byte of a line is read as one. -/
theorem ReadsLine.byte_eq (hreads : wire.ReadsLine) : wire.byte char = wire.lineByte char := by
  unfold byte
  split
  · exact absurd ‹_› hreads.2
  · exact absurd ‹_› hreads.1
  · rfl
  · rfl
  · rfl

/-- What a byte of a line comes to. -/
theorem lineByte_eq_ok : wire.lineByte char = .ok next ↔ wire.line.length < 8192 ∧
    ((char ≠ 10 ∧ next = { wire with line := wire.line ++ [char] }) ∨
      (char = 10 ∧ ∃ line, wire.line = line ++ [13] ∧
        endLine { wire with line := [] } line = .ok next)) := by
  unfold lineByte
  simp only [except_bind_eq_ok, failIf_eq_ok, List.length_append, List.length_singleton, gt_iff_lt,
    not_lt, Nat.add_one_le_iff, exists_and_left, exists_const]
  refine and_congr_right fun _ ↦ ?_
  split_ifs with hchar
  · simp only [except_pure_eq_ok, hchar, ne_eq, not_false_eq_true, true_and, false_and, or_false]
    exact eq_comm
  · obtain rfl := not_not.mp hchar
    simp only [except_bind_eq_ok, failIf_eq_ok, not_or, not_lt, not_not, ne_eq, not_true_eq_false,
      false_and, true_and, false_or, exists_and_left, exists_const]
    rcases List.eq_nil_or_concat wire.line with hnil | ⟨start, last, hline⟩
    · simp [hnil]
    · rw [List.concat_eq_append] at hline
      rw [hline]
      have hdrop : (start ++ [last] ++ [10]).drop ((start ++ [last]).length + 1 - 2) = [last, 10] := by
        simp
      have htake : (start ++ [last] ++ [10]).take ((start ++ [last]).length + 1 - 2) = start := by
        simp
      rw [hdrop, htake]
      constructor
      · rintro ⟨⟨-, hend⟩, hrest⟩
        obtain rfl : last = 13 := by simpa using hend
        exact ⟨start, rfl, hrest⟩
      · rintro ⟨line, heq, hrest⟩
        obtain ⟨rfl, hlast⟩ := List.append_inj' heq rfl
        obtain rfl : last = 13 := by simpa using hlast
        exact ⟨⟨by simp, rfl⟩, hrest⟩

/-- What a line of the trailer section comes to. -/
theorem trailerLine_eq_ok : wire.trailerLine line = .ok next ↔
    wire.trailerBytes + line.length + 2 ≤ 16384 ∧
      ((line = [] ∧ TrailersFit wire.trailers ∧
        next = { wire with trailerBytes := wire.trailerBytes + 2, state := .done }) ∨
      (wire.trailers.length < 32 ∧ ∃ header, isToken header.1 = true ∧ IsField line header ∧
        next = { wire with
          trailerBytes := wire.trailerBytes + line.length + 2
          trailers := wire.trailers ++ [header] })) := by
  unfold trailerLine
  simp only [except_bind_eq_ok, failIf_eq_ok, gt_iff_lt, not_lt, exists_and_left, exists_const]
  refine and_congr_right fun _ ↦ ?_
  split_ifs with hline
  · subst hline
    simp only [except_bind_eq_ok, validateTrailers_eq_ok, except_pure_eq_ok, true_and]
    constructor
    · rintro ⟨_, ⟨hfit, -⟩, rfl⟩
      exact Or.inl ⟨hfit, rfl⟩
    · rintro (⟨hfit, rfl⟩ | ⟨-, header, -, hfield, -⟩)
      · exact ⟨_, ⟨hfit, rfl⟩, rfl⟩
      · obtain ⟨before, after, -, -, hempty⟩ := hfield.line_eq
        simp at hempty
  · cases hcut : cutAt 58 line with
    | mk name parts =>
      obtain ⟨colon, value⟩ := parts
      have hread : ∀ header, (isToken header.1 = true ∧ IsField line header) ↔
          (colon = true ∧ isToken name = true) ∧ (name, stripBlanks value) = header := by
        intro header
        rw [← rawHeader_eq_ok]
        simp only [rawHeader, hcut, except_bind_eq_ok, failIf_eq_ok, not_or, Bool.not_eq_false,
          except_pure_eq_ok, exists_and_left, exists_const]
      simp only [except_bind_eq_ok, failIf_eq_ok, not_or, Bool.not_eq_false, not_le, ge_iff_le,
        except_pure_eq_ok, hline, false_and, false_or, exists_and_left, exists_const]
      constructor
      · rintro ⟨⟨hcolon, hname, hcount⟩, rfl⟩
        obtain ⟨htoken, hfield⟩ := (hread _).mpr ⟨⟨hcolon, hname⟩, rfl⟩
        exact ⟨hcount, _, htoken, hfield, rfl⟩
      · rintro ⟨hcount, header, htoken, hfield, rfl⟩
        obtain ⟨⟨hcolon, hname⟩, rfl⟩ := (hread _).mp ⟨htoken, hfield⟩
        exact ⟨⟨hcolon, hname, hcount⟩, rfl⟩

/-! ### What has been observed -/

/-- The bytes that were observed, and the wire after them. -/
inductive Consumed : Bytes → ChunkedWire → Prop
  | size {chunks : List Bytes} {line : Bytes} (hchunks : ∀ chunk ∈ chunks, IsChunk chunk) :
    Consumed (chunks.flatten ++ line) { line := line }
  | data {chunks : List Bytes} {first content : Bytes} {size remaining : ℕ}
    (hchunks : ∀ chunk ∈ chunks, IsChunk chunk) (hfirst : IsChunkLine first size)
    (hremaining : 0 < remaining) (hcount : content.length + remaining = size) :
    Consumed (chunks.flatten ++ (first ++ lineEnd ++ content)) { state := .data, remaining := remaining }
  | dataEnd {chunks : List Bytes} {first content line : Bytes} {size : ℕ}
    (hchunks : ∀ chunk ∈ chunks, IsChunk chunk) (hfirst : IsChunkLine first size)
    (hsize : 0 < size) (hcount : content.length = size) :
    Consumed (chunks.flatten ++ (first ++ lineEnd ++ content ++ line))
      { state := .dataEnd, line := line }
  | trailers {chunks lines : List Bytes} {last line : Bytes} {headers : Headers}
    (hchunks : ∀ chunk ∈ chunks, IsChunk chunk) (hlast : IsChunkLine last 0)
    (hlines : List.Forall₂ IsField lines headers) (hlengths : ∀ line ∈ lines, line.length ≤ 8190) :
    Consumed (chunks.flatten ++ last ++ lineEnd ++ (joinLines lineEnd lines ++ line))
      { state := .trailers, line := line, trailers := headers,
        trailerBytes := (joinLines lineEnd lines).length }
  | done {body : Bytes} {wire : ChunkedWire} (hbody : IsChunkedBody body)
    (hstate : wire.state = .done) : Consumed body wire

/-- One more byte is accounted for. -/
theorem consumed_byte (hconsumed : Consumed bytes wire) (hstate : wire.state ≠ .done)
    (hbyte : wire.byte char = .ok next) : Consumed (bytes ++ [char]) next := by
  cases hconsumed with
  | @size chunks line hchunks =>
    rw [ReadsLine.byte_eq ⟨by simp, by simp⟩, lineByte_eq_ok] at hbyte
    obtain ⟨hshort, ⟨-, rfl⟩ | ⟨rfl, before, hline, hend⟩⟩ := hbyte
    · rw [List.append_assoc]
      exact .size hchunks
    · dsimp only at hshort hline
      subst hline
      simp only [endLine, except_bind_eq_ok, except_pure_eq_ok, chunkSize_eq_ok] at hend
      obtain ⟨size, hparts, rfl⟩ := hend
      have hfirst : IsChunkLine before size := ⟨hparts, by simp at hshort; omega⟩
      have hbytes : chunks.flatten ++ (before ++ [13]) ++ [10] =
          chunks.flatten ++ (before ++ lineEnd) := by simp
      rw [hbytes]
      split_ifs with hzero
      · subst hzero
        have htrailers := @Consumed.trailers chunks [] before [] [] hchunks hfirst .nil (by simp)
        simpa using htrailers
      · have hdata := @Consumed.data chunks before [] size size hchunks hfirst
          (Nat.pos_of_ne_zero hzero) (by simp)
        simpa using hdata
  | @data chunks first content size remaining hchunks hfirst hremaining hcount =>
    have htake : next = takeData { state := .data, remaining := remaining } 1 :=
      (except_pure_eq_ok.mp hbyte).symm
    subst htake
    have hbytes : chunks.flatten ++ (first ++ lineEnd ++ content) ++ [char] =
        chunks.flatten ++ (first ++ lineEnd ++ (content ++ [char])) := by simp
    rw [hbytes, takeData]
    dsimp only
    split_ifs with hzero
    · have hend := @Consumed.dataEnd chunks first (content ++ [char]) [] size hchunks hfirst
        (by omega) (by simp; omega)
      simpa [hzero] using hend
    · exact .data hchunks hfirst (Nat.pos_of_ne_zero hzero) (by simp; omega)
  | @dataEnd chunks first content line size hchunks hfirst hsize hcount =>
    rw [ReadsLine.byte_eq ⟨by simp, by simp⟩, lineByte_eq_ok] at hbyte
    obtain ⟨hshort, ⟨-, rfl⟩ | ⟨rfl, before, hline, hend⟩⟩ := hbyte
    · have hbytes : chunks.flatten ++ (first ++ lineEnd ++ content ++ line) ++ [char] =
          chunks.flatten ++ (first ++ lineEnd ++ content ++ (line ++ [char])) := by simp
      rw [hbytes]
      exact .dataEnd hchunks hfirst hsize hcount
    · dsimp only at hline
      subst hline
      simp only [endLine, except_bind_eq_ok, failIf_eq_ok, not_not, except_pure_eq_ok] at hend
      obtain ⟨_, rfl, rfl⟩ := hend
      have hchunk : IsChunk (first ++ lineEnd ++ content ++ lineEnd) :=
        ⟨first, size, content, hfirst, hsize, hcount, rfl⟩
      have hmore := @Consumed.size (chunks ++ [first ++ lineEnd ++ content ++ lineEnd]) []
        fun chunk hmem ↦ (List.mem_append.mp hmem).elim (hchunks chunk) fun hlast ↦
          List.mem_singleton.mp hlast ▸ hchunk
      simpa using hmore
  | @trailers chunks lines last line headers hchunks hlast hlines hlengths =>
    rw [ReadsLine.byte_eq ⟨by simp, by simp⟩, lineByte_eq_ok] at hbyte
    obtain ⟨hshort, ⟨-, rfl⟩ | ⟨rfl, before, hline, hend⟩⟩ := hbyte
    · have hbytes : chunks.flatten ++ last ++ lineEnd ++ (joinLines lineEnd lines ++ line) ++ [char] =
          chunks.flatten ++ last ++ lineEnd ++ (joinLines lineEnd lines ++ (line ++ [char])) := by simp
      rw [hbytes]
      exact .trailers hchunks hlast hlines hlengths
    · dsimp only at hshort hline
      subst hline
      simp only [endLine, trailerLine_eq_ok] at hend
      obtain ⟨hbound, ⟨rfl, hfit, rfl⟩ | ⟨-, header, -, hfield, rfl⟩⟩ := hend
      · refine .done ⟨chunks, last, joinLines lineEnd lines ++ lineEnd, hchunks, hlast,
          ⟨lines, headers, hlines, hlengths, hfit, ?_, rfl⟩, by simp⟩ rfl
        simpa using hbound
      · have hmore := @Consumed.trailers chunks (lines ++ [before]) last [] (headers ++ [header])
          hchunks hlast (List.rel_append hlines (.cons hfield .nil))
          (by simp at hshort; simpa [or_imp, forall_and] using ⟨hlengths, by omega⟩)
        simpa [joinLines, Nat.add_assoc] using hmore
  | done _ hdone => exact absurd hdone hstate

/-- The bytes until a wire is done are a body. -/
theorem body_of_foldlM (hrun : data.foldlM byte wire = .ok next) (hdone : next.state = .done)
    (hconsumed : Consumed bytes wire) :
    ∃ body rest, bytes ++ data = body ++ rest ∧ IsChunkedBody body := by
  induction data generalizing wire bytes with
  | nil =>
    obtain rfl : wire = next := Except.ok.inj hrun
    cases hconsumed with
    | size => cases hdone
    | data => cases hdone
    | dataEnd => cases hdone
    | trailers => cases hdone
    | done hbody _ => exact ⟨bytes, [], rfl, hbody⟩
  | cons char rest ih =>
    by_cases hstate : wire.state = .done
    · cases hconsumed with
      | size => cases hstate
      | data => cases hstate
      | dataEnd => cases hstate
      | trailers => cases hstate
      | done hbody _ => exact ⟨bytes, char :: rest, rfl, hbody⟩
    · rw [List.foldlM_cons] at hrun
      obtain ⟨middle, hbyte, hrest⟩ := except_bind_eq_ok.mp hrun
      have hmore := ih hrest (consumed_byte hconsumed hstate hbyte)
      rwa [List.append_assoc, List.singleton_append] at hmore

/-! ### The wire along a body -/

/-- More bytes are observed by the wire after those before them. -/
theorem foldlM_byte_append {before after : Bytes} {middle : ChunkedWire}
    (hrun : before.foldlM byte wire = .ok middle) :
    (before ++ after).foldlM byte wire = after.foldlM byte middle := by
  rw [List.foldlM_append, hrun]
  rfl

/-- The bytes of a line that has not ended. -/
theorem foldlM_byte_line (hreads : wire.ReadsLine) (hline : 10 ∉ line)
    (hlength : wire.line.length + line.length ≤ 8192) :
    line.foldlM byte wire = .ok { wire with line := wire.line ++ line } := by
  induction line generalizing wire with
  | nil => simp
  | cons char rest ih =>
    simp only [List.mem_cons, not_or, List.length_cons] at hline hlength
    have hbyte : wire.byte char = .ok { wire with line := wire.line ++ [char] } := by
      rw [hreads.byte_eq, lineByte_eq_ok]
      exact ⟨by omega, Or.inl ⟨Ne.symm hline.1, rfl⟩⟩
    rw [List.foldlM_cons, hbyte]
    have hrest := @ih { wire with line := wire.line ++ [char] } hreads hline.2 (by simp; omega)
    simp only [List.append_assoc, List.singleton_append] at hrest
    exact hrest

/-- A line and the first byte of its end. -/
theorem foldlM_byte_return (hreads : wire.ReadsLine) (hempty : wire.line = []) (hline : 10 ∉ line)
    (hlength : line.length ≤ 8190) :
    (line ++ [13]).foldlM byte wire = .ok { wire with line := line ++ [13] } := by
  have hrun := @foldlM_byte_line (line ++ [13]) wire hreads (by simp [hline]) (by simp [hempty]; omega)
  rwa [hempty, List.nil_append] at hrun

/-- A line and its end. -/
theorem foldlM_byte_lineEnd (hreads : wire.ReadsLine) (hempty : wire.line = []) (hline : 10 ∉ line)
    (hlength : line.length ≤ 8190) (hend : wire.endLine line = .ok next) :
    (line ++ lineEnd).foldlM byte wire = .ok next := by
  have hsame : ({ wire with line := [] } : ChunkedWire) = wire := by
    rw [← hempty]
  have hbyte : ({ wire with line := line ++ [13] } : ChunkedWire).byte 10 = .ok next := by
    have hsplit : ({ wire with line := line ++ [13] } : ChunkedWire).ReadsLine := hreads
    rw [hsplit.byte_eq, lineByte_eq_ok]
    refine ⟨by simp; omega, Or.inr ⟨rfl, line, rfl, ?_⟩⟩
    dsimp only
    rwa [hsame]
  have hsplit : line ++ lineEnd = (line ++ [13]) ++ [10] := by simp
  rw [hsplit, foldlM_byte_append (foldlM_byte_return hreads hempty hline hlength)]
  rw [List.foldlM_cons, hbyte]
  rfl

/-- The line before a chunk. -/
theorem foldlM_byte_chunkLine (hline : IsChunkLine line size) :
    (line ++ lineEnd).foldlM byte {} =
      .ok { state := if size = 0 then .trailers else .data, remaining := size } := by
  refine foldlM_byte_lineEnd ⟨by simp, by simp⟩ rfl hline.not_mem hline.length ?_
  simp only [endLine, except_bind_eq_ok, except_pure_eq_ok, chunkSize_eq_ok]
  exact ⟨size, hline.parts, rfl⟩

/-- A chunk. -/
theorem foldlM_byte_chunk (hchunk : IsChunk chunk) : chunk.foldlM byte {} = .ok {} := by
  obtain ⟨line, size, content, hline, hsize, hcount, rfl⟩ := hchunk
  have hne : content ≠ [] := List.ne_nil_of_length_pos (by omega)
  have hdata := @foldlM_byte_data { state := .data, remaining := size } content rfl hne hcount.le
  have htake : ({ state := .data, remaining := size } : ChunkedWire).takeData content.length =
      { state := .dataEnd } := by
    simp [takeData, hcount]
  have hend : (lineEnd : Bytes).foldlM byte { state := .dataEnd } = .ok {} := by
    have hrun := @foldlM_byte_lineEnd [] { state := .dataEnd } {} ⟨by simp, by simp⟩ rfl (by simp)
      (by simp) rfl
    simpa using hrun
  have hopened := foldlM_byte_chunkLine hline
  rw [if_neg (by omega)] at hopened
  rw [List.append_assoc, foldlM_byte_append hopened, foldlM_byte_append hdata, htake]
  exact hend

/-- Chunks. -/
theorem foldlM_byte_chunks (hchunks : ∀ chunk ∈ chunks, IsChunk chunk) :
    chunks.flatten.foldlM byte {} = .ok {} := by
  induction chunks with
  | nil => rfl
  | cons chunk rest ih =>
    rw [List.forall_mem_cons] at hchunks
    rw [List.flatten_cons, foldlM_byte_append (foldlM_byte_chunk hchunks.1)]
    exact ih hchunks.2

/-- The lines of trailers. -/
theorem foldlM_byte_trailers (hlines : List.Forall₂ IsField lines headers) {taken : Headers} {count : ℕ}
    (hlengths : ∀ line ∈ lines, line.length ≤ 8190) (hfits : ∀ header ∈ headers, FieldFits header)
    (hcount : taken.length + headers.length ≤ 32)
    (hbytes : count + (joinLines lineEnd lines).length ≤ 16384) :
    (joinLines lineEnd lines).foldlM byte
        { state := .trailers, trailers := taken, trailerBytes := count } =
      .ok { state := .trailers, trailers := taken ++ headers,
            trailerBytes := count + (joinLines lineEnd lines).length } := by
  induction hlines generalizing taken count with
  | nil => simp
  | @cons line header lines headers hfield hrest ih =>
    rw [List.forall_mem_cons] at hlengths hfits
    simp only [joinLines_cons, List.length_append, List.length_cons, List.length_nil] at hcount hbytes ⊢
    have hline : (line ++ lineEnd).foldlM byte
        { state := .trailers, trailers := taken, trailerBytes := count } =
        .ok { state := .trailers, trailers := taken ++ [header],
              trailerBytes := count + line.length + 2 } := by
      refine foldlM_byte_lineEnd ⟨by simp, by simp⟩ rfl
        (not_mem_of_isField hfield hfits.1 (Or.inr rfl)) hlengths.1 ?_
      simp only [endLine, trailerLine_eq_ok]
      exact ⟨by omega, Or.inr ⟨by omega, header, hfits.1.name, hfield, rfl⟩⟩
    have hothers := @ih (taken ++ [header]) (count + line.length + 2) hlengths.2 hfits.2
      (by simp; omega) (by omega)
    rw [foldlM_byte_append hline]
    refine hothers.trans ?_
    simp [Nat.add_assoc, Nat.add_comm 2]

/-- A body ends with the byte that makes the wire done. -/
theorem foldlM_byte_body {body : Bytes} (hbody : IsChunkedBody body) :
    ∃ start before final, body = start ++ [10] ∧ start.foldlM byte {} = .ok before ∧
      before.state ≠ .done ∧ body.foldlM byte {} = .ok final ∧ final.state = .done := by
  obtain ⟨chunks, last, trailers, hchunks, hlast, ⟨lines, headers, hlines, hlengths, hfit, hshort, rfl⟩,
    rfl⟩ := hbody
  simp only [List.length_append, List.length_cons, List.length_nil] at hshort
  let opened : ChunkedWire := { state := .trailers }
  let read : ChunkedWire := {
    state := .trailers
    trailers := headers
    trailerBytes := (joinLines lineEnd lines).length }
  have hopened : (chunks.flatten ++ (last ++ lineEnd)).foldlM byte {} = .ok opened := by
    rw [foldlM_byte_append (foldlM_byte_chunks hchunks)]
    exact foldlM_byte_chunkLine hlast
  have hread : (chunks.flatten ++ (last ++ lineEnd) ++ joinLines lineEnd lines).foldlM byte {} =
      .ok read := by
    rw [foldlM_byte_append hopened]
    have hrun := @foldlM_byte_trailers headers lines hlines [] 0 hlengths hfit.fields
      (by simpa using hfit.count) (by omega)
    simpa using hrun
  have hreads : read.ReadsLine := ⟨by simp [read], by simp [read]⟩
  refine ⟨chunks.flatten ++ (last ++ lineEnd) ++ joinLines lineEnd lines ++ [13],
    { read with line := [13] },
    { read with trailerBytes := read.trailerBytes + 2, state := .done }, by simp, ?_, by simp [read],
    ?_, rfl⟩
  · rw [foldlM_byte_append hread]
    have hrun := @foldlM_byte_return [] read hreads rfl (by simp) (by simp)
    simpa using hrun
  · have hsplit : chunks.flatten ++ last ++ lineEnd ++ (joinLines lineEnd lines ++ lineEnd) =
        chunks.flatten ++ (last ++ lineEnd) ++ joinLines lineEnd lines ++ lineEnd := by simp
    rw [hsplit, foldlM_byte_append hread]
    have hend : read.endLine [] = .ok { read with trailerBytes := read.trailerBytes + 2, state := .done } := by
      simp only [endLine, read, trailerLine_eq_ok]
      exact ⟨by simp; omega, Or.inl ⟨trivial, hfit, trivial⟩⟩
    have hrun := @foldlM_byte_lineEnd [] read _ hreads rfl (by simp) (by simp) hend
    simpa using hrun

/-- A wire that is new is sound. -/
theorem sound_new : ({} : ChunkedWire).Sound := by
  intro hdata
  cases hdata

/-- A body does not go on. -/
theorem eq_of_isChunkedBody {body other rest more : Bytes} (hbody : IsChunkedBody body)
    (hother : IsChunkedBody other) (hsplit : body ++ rest = other ++ more)
    (hlength : body.length ≤ other.length) : other = body := by
  obtain ⟨-, -, final, -, -, -, hfinal, hdone⟩ := foldlM_byte_body hbody
  obtain ⟨start, before, -, rfl, hstart, hnot, -, -⟩ := foldlM_byte_body hother
  obtain ⟨tail, htail⟩ : body <+: start ++ [10] :=
    List.prefix_of_prefix_length_le ⟨rest, hsplit⟩ (List.prefix_append _ _) hlength
  rcases List.eq_nil_or_concat tail with rfl | ⟨middle, letter, rfl⟩
  · rw [← htail, List.append_nil]
  · -- The body is a part of what leaves the wire undone.
    rw [List.concat_eq_append, ← List.append_assoc] at htail
    obtain ⟨hstartEq, -⟩ := List.append_inj' htail rfl
    rw [← hstartEq, foldlM_byte_append hfinal, foldlM_byte_done hdone] at hstart
    exact absurd (Except.ok.inj hstart ▸ hdone) hnot

end ChunkedWire

open ChunkedWire

/-- **The chunked wire observes the grammar.** Pieces are observed as the whole is. The wire is done
exactly when some first bytes are a body, and takes those bytes and no others for it. -/
theorem chunkedWire_exact :
    (∀ pieces : List Bytes, pieces.foldlM feed {} = feed {} pieces.flatten) ∧
    (∀ data, (∃ wire, feed {} data = .ok wire ∧ wire.state = .done) ↔
      ∃ body rest, data = body ++ rest ∧ IsChunkedBody body) ∧
    ∀ body rest, IsChunkedBody body → feed {} (body ++ rest) = feed {} body ∧
      ∀ other more, body ++ rest = other ++ more → IsChunkedBody other → other = body := by
  have hrest : ∀ body rest, IsChunkedBody body → ∃ final, feed {} (body ++ rest) = .ok final ∧
      feed {} body = .ok final ∧ final.state = .done := by
    intro body rest hbody
    obtain ⟨-, -, final, -, -, -, hfinal, hdone⟩ := foldlM_byte_body hbody
    refine ⟨final, ?_, by rw [feed_eq_foldlM sound_new, hfinal], hdone⟩
    rw [feed_eq_foldlM sound_new, foldlM_byte_append hfinal, foldlM_byte_done hdone]
  refine ⟨foldlM_feed sound_new, fun data ↦ ⟨?_, ?_⟩, fun body rest hbody ↦ ⟨?_, ?_⟩⟩
  · rintro ⟨wire, hrun, hdone⟩
    rw [feed_eq_foldlM sound_new] at hrun
    have hnew : Consumed [] {} := @Consumed.size [] [] fun _ h ↦ absurd h List.not_mem_nil
    exact body_of_foldlM hrun hdone hnew
  · rintro ⟨body, rest, rfl, hbody⟩
    obtain ⟨final, hwhole, -, hdone⟩ := hrest body rest hbody
    exact ⟨final, hwhole, hdone⟩
  · obtain ⟨final, hwhole, hbodyRun, -⟩ := hrest body rest hbody
    rw [hwhole, hbodyRun]
  · intro other more hsplit hother
    rcases le_total body.length other.length with hshorter | hlonger
    · exact eq_of_isChunkedBody hbody hother hsplit hshorter
    · exact (eq_of_isChunkedBody hother hbody hsplit.symm hlonger).symm

end Ads.SandboxEgress
