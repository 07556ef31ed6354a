import Ads.Foundation.Alphabets
import Ads.SandboxEgress.RawHeaders

/-!
# The chunked wire

The model of `ChunkedWire`: it observes the bytes of a chunked body, one piece after the other, and
raises where the framing is not that of the grammar. A wire that has raised is not fed again.
`feed_eq_foldlM` says that it observes byte after byte, whatever the pieces.
-/

set_option autoImplicit false
set_option relaxedAutoImplicit false

namespace Ads.SandboxEgress

open Dns Foundation.Alphabets Foundation.Cutting Foundation.StateExcept Python RegularExpression

/-! ### Chunk lines -/

/-- A hexadecimal digit. -/
def isHexByte (byte : Octet) : Bool :=
  (48 ≤ byte.val && byte.val ≤ 57) || (65 ≤ byte.val && byte.val ≤ 70) ||
    (97 ≤ byte.val && byte.val ≤ 102)

/-- The value of a hexadecimal digit. -/
def hexDigit (byte : Octet) : ℕ :=
  if byte.val ≤ 57 then byte.val - 48 else if byte.val ≤ 70 then byte.val - 55 else byte.val - 87

/-- `int(size, 16)`. -/
def hexBytes (digits : Bytes) : ℕ :=
  digits.foldl (fun value digit ↦ value * 16 + hexDigit digit) 0

/-- A byte of a quoted string that stands for itself. -/
def isQuotedByte (byte : Octet) : Bool :=
  byte.val == 9 || byte.val == 32 || byte.val == 33 || (35 ≤ byte.val && byte.val ≤ 91) ||
    (93 ≤ byte.val && byte.val ≤ 126) || 128 ≤ byte.val

/-- A byte of a quoted string after a backslash. -/
def isEscapedByte (byte : Octet) : Bool :=
  byte.val == 9 || byte.val == 32 || (33 ≤ byte.val && byte.val ≤ 126) || 128 ≤ byte.val

/-- The regular expression of a class of bytes. -/
def byteClass (accepts : Octet → Bool) : RegularExpression Octet :=
  oneOf ((List.finRange 256).filter accepts)

/-- `[ \t]*`. -/
def blanksPattern : RegularExpression Octet :=
  (byteClass isBlank).star

/-- `token`. -/
def tokenPattern : RegularExpression Octet :=
  byteClass isTokenByte * (byteClass isTokenByte).star

/-- `quoted`. -/
def quotedPattern : RegularExpression Octet :=
  char 34 * (byteClass isQuotedByte + char 92 * byteClass isEscapedByte).star * char 34

/-- `extension`. -/
def extensionPattern : RegularExpression Octet :=
  tokenPattern * (1 + blanksPattern * char 61 * blanksPattern * (tokenPattern + quotedPattern))

/-- The regular expression of the extensions of a chunk. -/
def extensionsPattern : RegularExpression Octet :=
  blanksPattern * extensionPattern *
    (blanksPattern * char 59 * blanksPattern * extensionPattern).star * blanksPattern

/-- `bytes.rstrip(b" \t")`. -/
def stripRight (value : Bytes) : Bytes :=
  (value.reverse.dropWhile isBlank).reverse

/-- What a line of the state `size` says: the number of bytes of the chunk. -/
def chunkSize (line : Bytes) : Except Raised ℕ := do
  let (size, separator, extensions) := cutAt 59 line
  let size := if separator then stripRight size else size
  failIf (¬ (1 ≤ size.length ∧ size.length ≤ 16 ∧ size.all isHexByte = true))
    (.requestDenied "invalid_chunk_size")
  failIf (hexBytes size > 2 ^ 63 - 1) (.requestDenied "chunk_size_limit")
  failIf (separator = true ∧ extensionsPattern.rmatch extensions = false)
    (.requestDenied "invalid_chunk_extension")
  return hexBytes size

/-! ### The wire -/

/-- What the wire reads next. -/
inductive ChunkState
  | size
  | data
  | dataEnd
  | trailers
  | done
  deriving DecidableEq, Repr

/-- `ChunkedWire`. -/
structure ChunkedWire where
  state : ChunkState := .size
  remaining : ℕ := 0
  line : Bytes := []
  trailers : Headers := []
  trailerBytes : ℕ := 0
  deriving DecidableEq

namespace ChunkedWire

/-- What a line of the state `trailers` comes to. -/
def trailerLine (wire : ChunkedWire) (line : Bytes) : Except Raised ChunkedWire := do
  let trailerBytes := wire.trailerBytes + line.length + 2
  failIf (trailerBytes > 16384) (.requestDenied "trailer_limit")
  if line = [] then
    let _ ← validateTrailers wire.trailers
    return { wire with trailerBytes, state := .done }
  else
    let (name, colon, value) := cutAt 58 line
    failIf (colon = false ∨ isToken name = false ∨ wire.trailers.length ≥ 32)
      (.requestDenied "invalid_trailer_line")
    return { wire with trailerBytes, trailers := wire.trailers ++ [(name, stripBlanks value)] }

/-- What a line comes to. -/
def endLine (wire : ChunkedWire) (line : Bytes) : Except Raised ChunkedWire :=
  match wire.state with
  | .dataEnd => do
    failIf (line ≠ []) (.requestDenied "invalid_chunk_terminator")
    return { wire with state := .size }
  | .size => do
    let remaining ← chunkSize line
    return { wire with remaining, state := if remaining = 0 then .trailers else .data }
  | .trailers => wire.trailerLine line
  | .data | .done => return wire

/-- What a byte of a line comes to. -/
def lineByte (wire : ChunkedWire) (char : Octet) : Except Raised ChunkedWire := do
  let line := wire.line ++ [char]
  failIf (line.length > 8192) (.requestDenied "chunk_line_limit")
  if char ≠ 10 then return { wire with line }
  else
    failIf (line.length < 2 ∨ line.drop (line.length - 2) ≠ lineEnd)
      (.requestDenied "invalid_chunk_line")
    endLine { wire with line := [] } (line.take (line.length - 2))

/-- The wire with some bytes of a chunk taken. -/
def takeData (wire : ChunkedWire) (consumed : ℕ) : ChunkedWire :=
  let remaining := wire.remaining - consumed
  { wire with remaining, state := if remaining = 0 then .dataEnd else .data }

/-- `feed`. -/
def feed (wire : ChunkedWire) (data : Bytes) : Except Raised ChunkedWire :=
  if _hend : data = [] ∨ wire.state = .done then return wire
  else if _hdata : wire.state = .data then
    let consumed := min wire.remaining data.length
    feed (wire.takeData consumed) (data.drop consumed)
  else do
    let wire ← wire.lineByte (data.headD 0)
    feed wire data.tail
termination_by (data.length, if wire.state = .data then 1 else 0)
decreasing_by
  · have hne : 0 < data.length := List.length_pos_iff.mpr fun hempty ↦ _hend (Or.inl hempty)
    rw [List.length_drop, Prod.lex_def]
    by_cases hzero : wire.remaining = 0
    · exact Or.inr ⟨by simp [hzero], by simp [takeData, hzero, _hdata]⟩
    · left
      simp only
      omega
  · have hne : 0 < data.length := List.length_pos_iff.mpr fun hempty ↦ _hend (Or.inl hempty)
    rw [List.length_tail, Prod.lex_def]
    left
    simp only
    omega

/-! ### Byte after byte -/

/-- What a byte comes to. -/
def byte (wire : ChunkedWire) (char : Octet) : Except Raised ChunkedWire :=
  match wire.state with
  | .done => return wire
  | .data => return wire.takeData 1
  | .size | .dataEnd | .trailers => wire.lineByte char

/-- A chunk that is read has bytes to come. -/
def Sound (wire : ChunkedWire) : Prop :=
  wire.state = .data → 0 < wire.remaining

variable {wire next : ChunkedWire} {data line : Bytes} {char : Octet}

/-- What a line of the state `trailers` leads to. -/
theorem state_trailerLine (hstate : wire.state = .trailers)
    (hline : wire.trailerLine line = .ok next) : next.state ≠ .data := by
  unfold trailerLine at hline
  obtain ⟨_, -, hline⟩ := except_bind_eq_ok.mp hline
  split_ifs at hline
  · obtain ⟨_, -, hline⟩ := except_bind_eq_ok.mp hline
    rw [← except_pure_eq_ok.mp hline]
    simp
  · obtain ⟨_, -, hline⟩ := except_bind_eq_ok.mp hline
    rw [← except_pure_eq_ok.mp hline]
    simp [hstate]

/-- A line leads to a sound wire. -/
theorem sound_endLine (hdata : wire.state ≠ .data) (hline : wire.endLine line = .ok next) :
    next.Sound := by
  intro hnext
  unfold endLine at hline
  split at hline
  · obtain ⟨_, -, hline⟩ := except_bind_eq_ok.mp hline
    rw [← except_pure_eq_ok.mp hline] at hnext
    cases hnext
  · obtain ⟨remaining, -, hline⟩ := except_bind_eq_ok.mp hline
    rw [← except_pure_eq_ok.mp hline] at hnext ⊢
    simp only at hnext ⊢
    split_ifs at hnext with hzero
    exact Nat.pos_of_ne_zero hzero
  · exact absurd hnext (state_trailerLine ‹_› hline)
  · exact absurd ‹_› hdata
  · rw [← except_pure_eq_ok.mp hline] at hnext
    exact absurd hnext hdata

/-- A byte of a line leads to a sound wire. -/
theorem sound_lineByte (hdata : wire.state ≠ .data) (hbyte : wire.lineByte char = .ok next) :
    next.Sound := by
  unfold lineByte at hbyte
  obtain ⟨_, -, hbyte⟩ := except_bind_eq_ok.mp hbyte
  split_ifs at hbyte
  · rw [← except_pure_eq_ok.mp hbyte]
    exact fun hnext ↦ absurd hnext hdata
  · obtain ⟨_, -, hbyte⟩ := except_bind_eq_ok.mp hbyte
    have hstate : ({ wire with line := [] } : ChunkedWire).state ≠ .data := hdata
    exact sound_endLine hstate hbyte

/-- Some bytes of a chunk leave a sound wire. -/
theorem sound_takeData (consumed : ℕ) : (wire.takeData consumed).Sound := by
  intro hnext
  simp only [takeData] at hnext ⊢
  split_ifs at hnext with hzero
  exact Nat.pos_of_ne_zero hzero

/-- A byte leads to a sound wire. -/
theorem sound_byte (hsound : wire.Sound) (hbyte : wire.byte char = .ok next) : next.Sound := by
  unfold byte at hbyte
  split at hbyte
  · rwa [← except_pure_eq_ok.mp hbyte]
  · rw [← except_pure_eq_ok.mp hbyte]
    exact sound_takeData 1
  · exact sound_lineByte (by simp [*]) hbyte
  · exact sound_lineByte (by simp [*]) hbyte
  · exact sound_lineByte (by simp [*]) hbyte

/-- Bytes lead to a sound wire. -/
theorem sound_foldlM (hsound : wire.Sound) (hrun : data.foldlM byte wire = .ok next) :
    next.Sound := by
  induction data generalizing wire with
  | nil =>
    obtain rfl : wire = next := Except.ok.inj hrun
    exact hsound
  | cons char rest ih =>
    rw [List.foldlM_cons] at hrun
    obtain ⟨middle, hbyte, hrest⟩ := except_bind_eq_ok.mp hrun
    exact ih (sound_byte hsound hbyte) hrest

/-- A wire that is done observes nothing more. -/
theorem foldlM_byte_done (hdone : wire.state = .done) : data.foldlM byte wire = .ok wire := by
  induction data with
  | nil => rfl
  | cons char rest ih =>
    have hbyte : wire.byte char = .ok wire := by
      unfold byte
      rw [hdone]
      rfl
    rw [List.foldlM_cons, hbyte]
    exact ih

/-- The bytes of a chunk, one after the other. -/
theorem foldlM_byte_data (hstate : wire.state = .data) (hne : data ≠ [])
    (hlength : data.length ≤ wire.remaining) :
    data.foldlM byte wire = .ok (wire.takeData data.length) := by
  induction data generalizing wire with
  | nil => exact absurd rfl hne
  | cons char rest ih =>
    have hbyte : wire.byte char = .ok (wire.takeData 1) := by
      unfold byte
      rw [hstate]
      rfl
    rw [List.foldlM_cons, hbyte]
    simp only [List.length_cons] at hlength ⊢
    by_cases hrest : rest = []
    · subst hrest
      rfl
    · have hpos : 0 < rest.length := List.length_pos_iff.mpr hrest
      have hmore : wire.remaining - 1 ≠ 0 := by omega
      have htake : (wire.takeData 1).takeData rest.length = wire.takeData (rest.length + 1) := by
        simp [takeData, Nat.sub_sub, Nat.add_comm]
      rw [← htake]
      exact ih (by simp [takeData, hmore]) hrest (by simp [takeData]; omega)

/-- The wire observes byte after byte. -/
theorem feed_eq_foldlM (hsound : wire.Sound) : wire.feed data = data.foldlM byte wire := by
  fun_induction feed wire data with
  | case1 wire data hend =>
    rcases hend with rfl | hdone
    · rfl
    · exact (foldlM_byte_done hdone).symm
  | case2 wire data hend hdata consumed ih =>
    have hpos := hsound hdata
    have hne : data ≠ [] := fun hempty ↦ hend (Or.inl hempty)
    have hlength : 0 < data.length := List.length_pos_iff.mpr hne
    rw [ih (sound_takeData consumed)]
    conv_rhs => rw [← List.take_append_drop consumed data, List.foldlM_append]
    have htake : (data.take consumed).foldlM byte wire = .ok (wire.takeData consumed) := by
      have hcount : (data.take consumed).length = consumed := by
        rw [List.length_take]
        omega
      have hrun := @foldlM_byte_data wire (data.take consumed) hdata
        (by rw [← List.length_pos_iff, hcount]; omega) (by rw [hcount]; omega)
      rwa [hcount] at hrun
    rw [htake]
    rfl
  | case3 wire data hend hdata ih =>
    cases data with
    | nil => exact absurd (Or.inl rfl) hend
    | cons char rest =>
      have hbyte : wire.byte char = wire.lineByte char := by
        unfold byte
        split
        · exact absurd (Or.inr ‹_›) hend
        · exact absurd ‹_› hdata
        · rfl
        · rfl
        · rfl
      rw [List.foldlM_cons, hbyte, List.headD_cons, List.tail_cons]
      cases hline : wire.lineByte char with
      | error failure => rfl
      | ok next => exact ih next (sound_lineByte hdata hline)

/-- **The cuts do not matter.** Pieces are observed as the whole is. -/
theorem foldlM_feed (hsound : wire.Sound) (pieces : List Bytes) :
    pieces.foldlM feed wire = wire.feed pieces.flatten := by
  induction pieces generalizing wire with
  | nil =>
    rw [feed_eq_foldlM hsound]
    rfl
  | cons piece rest ih =>
    rw [List.foldlM_cons, List.flatten_cons, feed_eq_foldlM hsound, feed_eq_foldlM hsound,
      List.foldlM_append]
    cases hpiece : piece.foldlM byte wire with
    | error failure => rfl
    | ok next =>
      have hnext := sound_foldlM hsound hpiece
      exact (ih hnext).trans (feed_eq_foldlM hnext)

end ChunkedWire

end Ads.SandboxEgress
