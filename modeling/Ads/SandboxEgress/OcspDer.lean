import Mathlib.Data.List.Induction
import Mathlib.Data.Nat.Size
import Mathlib.Tactic
import Ads.Foundation.StateExcept
import Ads.Dns.Name

/-!
# The envelopes of OCSP responses

The model of `ocsp_der.py`: a reader and a writer of DER elements, and `preserve_fields`, which puts
the fields of a source response into a regenerated one. The reader accepts one encoding of each
length only, so that it reads back what the writer writes (`parse_written`) and the writer gives back
what was read (`written_parse`).
-/

set_option autoImplicit false
set_option relaxedAutoImplicit false

namespace Ads.SandboxEgress.OcspDer

open Dns Foundation.StateExcept

/-- What the module raises. -/
inductive Raised
  /-- `ValueError` with its text. -/
  | valueError (text : String)
  /-- `IndexError`. -/
  | indexError
deriving DecidableEq, Repr

/-! ### Numbers as bytes -/

/-- `int.from_bytes(bytes, "big")`. -/
def fromBytes (bytes : Bytes) : ℕ :=
  bytes.foldl (fun value byte ↦ value * 256 + byte.val) 0

/-- `value.to_bytes(length, "big")`, of a value that fits. -/
def toBytes (length value : ℕ) : Bytes :=
  (List.range length).reverse.map fun place ↦ Fin.ofNat 256 (value / 256 ^ place)

/-- `(value.bit_length() + 7) // 8`. -/
def byteLength (value : ℕ) : ℕ :=
  (value.size + 7) / 8

/-! ### Elements -/

/-- `DER`. -/
structure DER where
  tag : Octet
  value : Bytes
deriving DecidableEq, Repr

/-- The length of an element, in one byte or with a byte that counts its bytes. -/
def lengthBytes (size : ℕ) : Bytes :=
  let encoded := toBytes (max 1 (byteLength size)) size
  if size < 128 then [Fin.ofNat 256 size] else Fin.ofNat 256 (128 + encoded.length) :: encoded

/-- `wire` of an element. -/
def DER.wire (element : DER) : Bytes :=
  element.tag :: lengthBytes element.value.length ++ element.value

/-- The elements one after the other. -/
def written (elements : List DER) : Bytes :=
  elements.flatMap DER.wire

/-- The length in the bytes after the tag and the first byte of the length, with the bytes after
it. -/
def readLength (size : Octet) (rest : Bytes) : Except Raised (ℕ × Bytes) :=
  if size.val < 128 then return (size.val, rest)
  else do
    let count := size.val - 128
    failIf (¬ (1 ≤ count ∧ count ≤ 3) ∨ rest.length < count ∨ rest.head? = some 0)
      (.valueError "noncanonical OCSP DER length")
    let value := fromBytes (rest.take count)
    failIf (value < 128) (.valueError "nonminimal OCSP DER length")
    return (value, rest.drop count)

/-- An element at the start of some bytes, with the bytes after it. -/
def readElement : Bytes → Except Raised (DER × Bytes)
  | tag :: size :: rest => do
    failIf (tag.val % 32 = 31) (.valueError "OCSP high tag unsupported")
    let (size, rest) ← readLength size rest
    failIf (rest.length < size) (.valueError "truncated OCSP DER")
    return (⟨tag, rest.take size⟩, rest.drop size)
  | _ => throw (.valueError "OCSP DER envelope bound")

/-- The loop of `parse`, which reads so many elements more. -/
def readElements : ℕ → Bytes → Except Raised (List DER)
  | _, [] => return []
  | 0, _ => throw (.valueError "OCSP DER envelope bound")
  | budget + 1, wire => do
    let (element, rest) ← readElement wire
    let others ← readElements budget rest
    return element :: others

/-- `parse`. -/
def parse (wire : Bytes) : Except Raised (List DER) := do
  failIf (65536 < wire.length) (.valueError "OCSP DER budget")
  readElements 256 wire

/-- `children`. -/
def DER.children (element : DER) (tag : Octet) : Except Raised (List DER) := do
  failIf (element.tag ≠ tag) (.valueError "unexpected OCSP envelope")
  parse element.value

/-- `sequence`. -/
def sequence (tag : Octet) (children : List DER) : DER :=
  ⟨tag, written children⟩

/-! ### Reading what is written -/

variable {element : DER} {elements : List DER} {wire rest : Bytes} {size value : ℕ}

@[simp] theorem length_toBytes {length : ℕ} : (toBytes length value).length = length := by
  simp [toBytes]

/-- The first byte counts for a power of 256. -/
theorem fromBytes_cons (byte : Octet) (bytes : Bytes) :
    fromBytes (byte :: bytes) = byte.val * 256 ^ bytes.length + fromBytes bytes := by
  induction bytes using List.reverseRecOn with
  | nil => simp [fromBytes]
  | append_singleton bytes last ih =>
    have hsnoc (start : Bytes) : fromBytes (start ++ [last]) = fromBytes start * 256 + last.val := by
      simp [fromBytes]
    rw [← List.cons_append, hsnoc, ih, hsnoc, List.length_append, List.length_singleton, pow_succ]
    ring

theorem fromBytes_lt (bytes : Bytes) : fromBytes bytes < 256 ^ bytes.length := by
  induction bytes with
  | nil => simp [fromBytes]
  | cons byte rest ih =>
    rw [fromBytes_cons, List.length_cons, pow_succ]
    have hbyte := byte.isLt
    nlinarith [Nat.mul_le_mul_right (256 ^ rest.length) (Nat.le_pred_of_lt hbyte)]

/-- The bytes of a number are one byte more in front. -/
theorem toBytes_succ (length value : ℕ) :
    toBytes (length + 1) value = Fin.ofNat 256 (value / 256 ^ length) :: toBytes length value := by
  simp [toBytes, List.range_succ]

/-- The bytes of a number are read as the number. -/
theorem fromBytes_toBytes (length value : ℕ) : fromBytes (toBytes length value) = value % 256 ^ length := by
  induction length with
  | zero => simp [toBytes, fromBytes, Nat.mod_one]
  | succ length ih =>
    rw [toBytes_succ, fromBytes_cons, ih, length_toBytes, pow_succ, Nat.mod_mul]
    simp only [Fin.ofNat]
    ring

/-- Bytes of one length that are read as one number are the same. -/
theorem eq_of_fromBytes_eq {first second : Bytes} (hlength : first.length = second.length)
    (hvalue : fromBytes first = fromBytes second) : first = second := by
  induction first generalizing second with
  | nil => exact (List.length_eq_zero_iff.mp hlength.symm).symm
  | cons byte rest ih =>
    cases second with
    | nil => cases hlength
    | cons other others =>
      have hrest : rest.length = others.length := Nat.succ.inj hlength
      rw [fromBytes_cons, fromBytes_cons, hrest] at hvalue
      have hlow := fromBytes_lt rest
      have hhigh := fromBytes_lt others
      rw [hrest] at hlow
      have hbyte : byte.val = other.val := by
        have hdiv := congrArg (· / 256 ^ others.length) hvalue
        simpa [Nat.mul_comm _ (256 ^ others.length), Nat.mul_add_div (Nat.pow_pos (n := others.length)
          (by decide : 0 < 256)), Nat.div_eq_of_lt hlow, Nat.div_eq_of_lt hhigh] using hdiv
      have hothers : fromBytes rest = fromBytes others := by
        rw [hbyte] at hvalue
        exact Nat.add_left_cancel hvalue
      rw [Fin.ext hbyte, ih hrest hothers]

/-- The bytes that are read as a number are those of the number. -/
theorem toBytes_fromBytes (bytes : Bytes) : toBytes bytes.length (fromBytes bytes) = bytes := by
  refine eq_of_fromBytes_eq length_toBytes ?_
  rw [fromBytes_toBytes, Nat.mod_eq_of_lt (fromBytes_lt bytes)]

theorem byteLength_eq {places : ℕ} (hlow : 256 ^ places ≤ value) (hhigh : value < 256 ^ (places + 1)) :
    byteLength value = places + 1 := by
  have hlower : 8 * places < value.size := Nat.lt_size.mpr (by rwa [pow_mul])
  have hupper : value.size ≤ 8 * (places + 1) := Nat.size_le.mpr (by rwa [pow_mul])
  unfold byteLength
  omega

/-- A number of so many bytes without a zero in front has this length. -/
theorem byteLength_fromBytes {byte : Octet} {bytes : Bytes} (hbyte : byte ≠ 0) :
    byteLength (fromBytes (byte :: bytes)) = bytes.length + 1 := by
  have hpos : 1 ≤ byte.val := Nat.one_le_iff_ne_zero.mpr fun hzero ↦ hbyte (Fin.ext hzero)
  refine byteLength_eq ?_ (fromBytes_lt (byte :: bytes))
  rw [fromBytes_cons]
  exact (Nat.le_mul_of_pos_left _ hpos).trans (Nat.le_add_right _ _)

/-- A number above zero fits in its length and in no shorter one. -/
theorem exists_byteLength_eq (hvalue : 0 < value) :
    ∃ places, byteLength value = places + 1 ∧ 256 ^ places ≤ value ∧ value < 256 ^ (places + 1) := by
  have hsize := Nat.size_pos.mpr hvalue
  have hlow : 256 ^ ((value.size - 1) / 8) ≤ value := by
    have hlt : 8 * ((value.size - 1) / 8) < value.size := by omega
    rw [Nat.lt_size, pow_mul] at hlt
    exact hlt
  have hhigh : value < 256 ^ ((value.size - 1) / 8 + 1) := by
    have hle : value.size ≤ 8 * ((value.size - 1) / 8 + 1) := by omega
    rw [Nat.size_le, pow_mul] at hle
    exact hle
  exact ⟨_, byteLength_eq hlow hhigh, hlow, hhigh⟩

theorem val_ofNat (hvalue : value < 256) : (Fin.ofNat 256 value : Octet).val = value :=
  Nat.mod_eq_of_lt hvalue

/-- A length below 2²⁴ is read as it is written. -/
theorem readLength_lengthBytes (hsize : size < 2 ^ 24) :
    ∃ first others, lengthBytes size = first :: others ∧
      readLength first (others ++ rest) = .ok (size, rest) := by
  unfold lengthBytes
  dsimp only
  split_ifs with hsmall
  · refine ⟨_, [], rfl, ?_⟩
    rw [readLength, val_ofNat (by omega), if_pos hsmall]
    rfl
  · obtain ⟨places, hplaces, hlow, hhigh⟩ := exists_byteLength_eq (by omega : 0 < size)
    have hfew : places < 3 :=
      (Nat.pow_lt_pow_iff_right (by decide : 1 < 256)).mp (hlow.trans_lt (hsize.trans_eq (by norm_num)))
    have hencoded : toBytes (max 1 (byteLength size)) size = toBytes (places + 1) size := by
      rw [hplaces, Nat.max_eq_right (Nat.le_add_left 1 places)]
    have hhead : (toBytes (places + 1) size ++ rest).head? ≠ some 0 := by
      rw [toBytes_succ]
      intro hzero
      have hval := congrArg Fin.val (Option.some.inj hzero)
      have hpos : 1 ≤ size / 256 ^ places := (Nat.one_le_div_iff (by positivity)).mpr hlow
      have hlt : size / 256 ^ places < 256 := by
        rw [pow_succ] at hhigh
        exact Nat.div_lt_of_lt_mul hhigh
      rw [val_ofNat hlt] at hval
      exact absurd hval (by omega)
    refine ⟨_, _, rfl, ?_⟩
    rw [hencoded, length_toBytes, readLength, val_ofNat (by omega), if_neg (by omega)]
    have hcount : 128 + (places + 1) - 128 = places + 1 := by omega
    have htake : (toBytes (places + 1) size ++ rest).take (places + 1) = toBytes (places + 1) size :=
      List.take_left' length_toBytes
    have hdrop : (toBytes (places + 1) size ++ rest).drop (places + 1) = rest :=
      List.drop_left' length_toBytes
    dsimp only
    rw [hcount, htake, hdrop, fromBytes_toBytes, Nat.mod_eq_of_lt hhigh]
    have hlong : ¬ (toBytes (places + 1) size ++ rest).length < places + 1 := by
      rw [List.length_append, length_toBytes]
      omega
    have hcounts : ¬ (¬ (1 ≤ places + 1 ∧ places + 1 ≤ 3) ∨
        (toBytes (places + 1) size ++ rest).length < places + 1 ∨
          (toBytes (places + 1) size ++ rest).head? = some 0) := by
      rintro (hbounds | hshort | hzero)
      · exact hbounds ⟨by omega, by omega⟩
      · exact hlong hshort
      · exact hhead hzero
    unfold failIf
    rw [if_neg hcounts, if_neg hsmall]
    rfl

/-- An element that the reader may read. -/
structure DER.IsReadable (element : DER) : Prop where
  tag : element.tag.val % 32 ≠ 31
  size : element.value.length < 2 ^ 24

/-- An element is read as it is written. -/
theorem readElement_wire (helement : element.IsReadable) :
    readElement (element.wire ++ rest) = .ok (element, rest) := by
  obtain ⟨first, others, hlength, hread⟩ :=
    @readLength_lengthBytes (element.value ++ rest) _ helement.size
  have hwire : element.wire ++ rest = element.tag :: first :: (others ++ (element.value ++ rest)) := by
    simp [DER.wire, hlength]
  rw [hwire, readElement, hread]
  have hlong : ¬ (element.value ++ rest).length < element.value.length := by
    rw [List.length_append]
    omega
  unfold failIf
  rw [if_neg helement.tag]
  simp only [bind, Except.bind, pure, Except.pure, hlong, if_false, List.take_left, List.drop_left]

/-- A length that is read was written so. -/
theorem lengthBytes_of_readLength {first : Octet} {bytes : Bytes}
    (hread : readLength first bytes = .ok (size, rest)) :
    first :: bytes = lengthBytes size ++ rest ∧ size < 2 ^ 24 := by
  unfold readLength at hread
  split_ifs at hread with hsmall
  · obtain ⟨rfl, rfl⟩ := Prod.mk.inj (Except.ok.inj hread)
    have hbytes : lengthBytes first.val = [first] := by
      unfold lengthBytes
      dsimp only
      rw [if_pos hsmall]
      exact congrArg (fun byte ↦ [byte]) (Fin.ext (val_ofNat first.isLt))
    rw [hbytes]
    exact ⟨rfl, by omega⟩
  · obtain ⟨_, hcounts, hread⟩ := except_bind_eq_ok.mp hread
    obtain ⟨_, hlarge, hread⟩ := except_bind_eq_ok.mp hread
    rw [failIf_eq_ok, not_or, not_or, not_not] at hcounts
    rw [failIf_eq_ok] at hlarge
    obtain ⟨⟨hone, hthree⟩, hlong, hhead⟩ := hcounts
    obtain ⟨rfl, rfl⟩ := Prod.mk.inj (Except.ok.inj hread)
    have hlength : (bytes.take (first.val - 128)).length = first.val - 128 :=
      List.length_take_of_le (not_lt.mp hlong)
    obtain ⟨byte, others, htake⟩ : ∃ byte others, bytes.take (first.val - 128) = byte :: others :=
      List.exists_cons_of_length_pos (by omega)
    have hbyte : byte ≠ 0 := by
      rintro rfl
      refine hhead ?_
      rw [← List.take_append_drop (first.val - 128) bytes, htake]
      rfl
    have hplaces : byteLength (fromBytes (bytes.take (first.val - 128))) = first.val - 128 := by
      rw [htake, byteLength_fromBytes hbyte, ← List.length_cons, ← htake, hlength]
    have hencoded : toBytes (first.val - 128) (fromBytes (bytes.take (first.val - 128))) =
        bytes.take (first.val - 128) := by
      have hsame := toBytes_fromBytes (bytes.take (first.val - 128))
      rwa [hlength] at hsame
    have hfirst : (Fin.ofNat 256 (128 + (first.val - 128)) : Octet) = first :=
      Fin.ext ((val_ofNat (by have := first.isLt; omega)).trans (by omega))
    refine ⟨?_, ?_⟩
    · unfold lengthBytes
      dsimp only
      rw [if_neg hlarge, hplaces, Nat.max_eq_right hone, hencoded, hlength, hfirst, List.cons_append,
        List.take_append_drop]
    · refine (fromBytes_lt _).trans_le ?_
      rw [hlength]
      exact (Nat.pow_le_pow_right (by decide) hthree).trans (by norm_num)

/-- An element that is read was written so. -/
theorem wire_of_readElement (hread : readElement wire = .ok (element, rest)) :
    wire = element.wire ++ rest ∧ element.IsReadable := by
  unfold readElement at hread
  split at hread
  · rename_i tag first bytes
    obtain ⟨_, htag, hread⟩ := except_bind_eq_ok.mp hread
    obtain ⟨⟨size, after⟩, hlength, hread⟩ := except_bind_eq_ok.mp hread
    obtain ⟨_, hlong, hread⟩ := except_bind_eq_ok.mp hread
    rw [failIf_eq_ok] at htag hlong
    obtain ⟨rfl, rfl⟩ := Prod.mk.inj (Except.ok.inj hread)
    obtain ⟨hbytes, hsize⟩ := lengthBytes_of_readLength hlength
    have hvalue : (after.take size).length = size := List.length_take_of_le (not_lt.mp hlong)
    refine ⟨?_, htag, hvalue.trans_lt hsize⟩
    rw [DER.wire, hvalue, hbytes, List.append_assoc, List.take_append_drop, List.cons_append]
  · cases hread

/-! ### Round trips -/

theorem length_wire_pos : 0 < element.wire.length := by
  simp [DER.wire]

/-- What the loop reads is written as it was. -/
theorem written_readElements {budget : ℕ} (hread : readElements budget wire = .ok elements) :
    written elements = wire ∧ elements.length ≤ budget ∧ ∀ element ∈ elements, element.IsReadable := by
  induction budget generalizing wire elements with
  | zero =>
    cases wire with
    | nil =>
      obtain rfl := Except.ok.inj hread
      simp [written]
    | cons byte rest => cases hread
  | succ budget ih =>
    cases wire with
    | nil =>
      obtain rfl := Except.ok.inj hread
      simp [written]
    | cons byte rest =>
      obtain ⟨⟨element, after⟩, helement, hread⟩ := except_bind_eq_ok.mp hread
      obtain ⟨others, hothers, hread⟩ := except_bind_eq_ok.mp hread
      obtain rfl := Except.ok.inj hread
      obtain ⟨hwire, hreadable⟩ := wire_of_readElement helement
      obtain ⟨hwritten, hlength, hall⟩ := ih hothers
      refine ⟨?_, Nat.succ_le_succ hlength, List.forall_mem_cons.mpr ⟨hreadable, hall⟩⟩
      rw [hwire, ← hwritten]
      rfl

/-- What is parsed is written as it was. -/
theorem written_parse (hparse : parse wire = .ok elements) :
    written elements = wire ∧ elements.length ≤ 256 ∧ (∀ element ∈ elements, element.IsReadable) ∧
      wire.length ≤ 65536 := by
  obtain ⟨_, hlength, hread⟩ := except_bind_eq_ok.mp hparse
  rw [failIf_eq_ok] at hlength
  obtain ⟨hwritten, hmany, hall⟩ := written_readElements hread
  exact ⟨hwritten, hmany, hall, not_lt.mp hlength⟩

/-- The loop reads what is written. -/
theorem readElements_written {budget : ℕ} (hlength : elements.length ≤ budget)
    (hall : ∀ element ∈ elements, element.IsReadable) :
    readElements budget (written elements) = .ok elements := by
  induction elements generalizing budget with
  | nil => cases budget <;> rfl
  | cons element others ih =>
    obtain ⟨helement, hothers⟩ := List.forall_mem_cons.mp hall
    cases budget with
    | zero => cases hlength
    | succ budget =>
      have hread := @readElement_wire element (written others) helement
      have hrest := ih (Nat.le_of_succ_le_succ hlength) hothers
      change readElements (budget + 1) (element.wire ++ written others) = _
      obtain ⟨byte, bytes, hbytes⟩ : ∃ byte bytes, element.wire ++ written others = byte :: bytes :=
        ⟨_, _, rfl⟩
      rw [hbytes] at hread ⊢
      rw [readElements.eq_3 _ _ (List.cons_ne_nil _ _), hread]
      change (do
        let others ← readElements budget (written others)
        return element :: others) = _
      rw [hrest]
      rfl

/-- The value of a written element is no longer than what is written. -/
theorem length_value_le (helement : element ∈ elements) :
    element.value.length ≤ (written elements).length := by
  obtain ⟨before, after, rfl⟩ := List.append_of_mem helement
  simp only [written, List.flatMap_append, List.flatMap_cons, DER.wire, List.length_append,
    List.length_cons]
  omega

/-- What is written within the bounds is parsed as it is. -/
theorem parse_written (hlength : elements.length ≤ 256)
    (htags : ∀ element ∈ elements, element.tag.val % 32 ≠ 31)
    (hbytes : (written elements).length ≤ 65536) : parse (written elements) = .ok elements := by
  have hall : ∀ element ∈ elements, element.IsReadable := fun element helement ↦
    ⟨htags element helement,
      ((length_value_le helement).trans hbytes).trans_lt (by norm_num)⟩
  unfold parse failIf
  rw [if_neg (not_lt.mpr hbytes)]
  exact readElements_written hlength hall

end Ads.SandboxEgress.OcspDer
