import Mathlib.Tactic
import Ads.Dns.Name
import Ads.Foundation.PrefixCodes
import Ads.Python.Digits
import Ads.Python.Values

/-!
# Encodings of values

The UTF-8 encoding of a text, the bytes of a number, and the hexadecimal text of a float. Each of
them tells its value.
-/

set_option autoImplicit false
set_option relaxedAutoImplicit false

namespace Ads.Python

open Dns Foundation.PrefixCodes

/-! ### Texts -/

/-- The UTF-8 encoding tells the text. -/
theorem encodeUtf8_injective : Function.Injective encodeUtf8 := by
  intro first second heq
  unfold encodeUtf8 at heq
  rw [← List.map_flatMap, ← List.map_flatMap] at heq
  have hbyte : Function.Injective fun byte : UInt8 ↦ (Fin.ofNat 256 byte.toNat : Fin 256) := by
    intro byte other hsame
    have hvalues := congrArg Fin.val hsame
    simp only [Fin.val_ofNat] at hvalues
    rw [Nat.mod_eq_of_lt byte.toNat_lt, Nat.mod_eq_of_lt other.toNat_lt] at hvalues
    exact UInt8.toNat_inj.mp hvalues
  have hbytes := (List.map_injective_iff.mpr hbyte) heq
  have hstrings : String.ofList first = String.ofList second := by
    apply String.toByteArray_inj.mp
    simp only [String.toByteArray_ofList, List.utf8Encode]
    rw [hbytes]
  simpa using congrArg String.toList hstrings

/-! ### Numbers -/

/-- `int.to_bytes(8, "big")` of a number that fits. -/
def toBytes8 (value : ℕ) : Bytes :=
  fixedDigits 256 (Fin.ofNat 256) 8 value

/-- Eight bytes tell a number that fits. -/
theorem eq_of_toBytes8 {value other : ℕ} (hvalue : value < 256 ^ 8) (hother : other < 256 ^ 8)
    (heq : toBytes8 value = toBytes8 other) : value = other := by
  have hdigit : ∀ first < 256, ∀ second < 256,
      Fin.ofNat 256 first = Fin.ofNat 256 second → first = second := by
    intro first hfirst second hsecond hsame
    have hvalues := congrArg Fin.val hsame
    rwa [Fin.val_ofNat, Fin.val_ofNat, Nat.mod_eq_of_lt hfirst, Nat.mod_eq_of_lt hsecond]
      at hvalues
  have hpositive : 0 < 256 := by norm_num
  have hmod := mod_eq_of_fixedDigits hdigit hpositive heq
  rwa [Nat.mod_eq_of_lt hvalue, Nat.mod_eq_of_lt hother] at hmod

/-- Hexadecimal digits tell a number that fits. -/
theorem eq_of_paddedHex {width value other : ℕ} (hvalue : value < 16 ^ width)
    (hother : other < 16 ^ width) (heq : paddedHex width value = paddedHex width other) :
    value = other := by
  have hdigit : ∀ first < 16, ∀ second < 16,
      Nat.digitChar first = Nat.digitChar second → first = second := by decide
  have hpositive : 0 < 16 := by norm_num
  have hmod := mod_eq_of_fixedDigits hdigit hpositive heq
  rwa [Nat.mod_eq_of_lt hvalue, Nat.mod_eq_of_lt hother] at hmod

/-- `%+d` of a number. -/
def signedText (value : ℤ) : Text :=
  (if value < 0 then '-' else '+') :: Nat.toDigits 10 value.natAbs

/-- The decimal text tells the number. -/
theorem signedText_injective : Function.Injective signedText := by
  intro first second heq
  unfold signedText at heq
  obtain ⟨hsign, hdigits⟩ := List.cons.inj heq
  have habs : first.natAbs = second.natAbs := by
    have hfirst := @Nat.ofDigitChars_ten_toDigits first.natAbs
    rw [hdigits, Nat.ofDigitChars_ten_toDigits] at hfirst
    exact hfirst.symm
  split_ifs at hsign <;> first | omega | exact absurd hsign (by decide)

/-! ### Floats -/

/-- There is an exponent. -/
instance neZeroExponent : @NeZero ℕ Zero.ofOfNat0 2048 :=
  ⟨by decide⟩

/-- There is a fraction. -/
instance neZeroFraction : @NeZero ℕ Zero.ofOfNat0 (2 ^ 52) :=
  ⟨by decide⟩

/-- A float of 64 bits that is a number or an infinity, by its sign, exponent and fraction. -/
structure Real64 where
  isNegative : Bool
  exponent : Fin 2048
  fraction : Fin (2 ^ 52)
  isNumber : exponent = 2047 → fraction = 0
  deriving DecidableEq

/-- `float.hex` without its sign. -/
def Real64.magnitudeHex (value : Real64) : Text :=
  if value.exponent = 2047 then "inf".toList
  else if value.exponent = 0 then
    if value.fraction = 0 then "0x0.0p+0".toList
    else "0x0.".toList ++ paddedHex 13 value.fraction ++ "p-1022".toList
  else "0x1.".toList ++ paddedHex 13 value.fraction ++ 'p' :: signedText (value.exponent - 1023 : ℤ)

/-- `float.hex`. -/
def Real64.hex (value : Real64) : Text :=
  if value.isNegative then '-' :: value.magnitudeHex else value.magnitudeHex

/-- The text of the fraction tells it. -/
theorem eq_of_fractionHex {first second : Fin (2 ^ 52)}
    (heq : paddedHex 13 first = paddedHex 13 second) : first = second := by
  have hfits : ∀ value : Fin (2 ^ 52), (value : ℕ) < 16 ^ 13 := fun value ↦ by
    have hlt := value.isLt
    norm_num at hlt ⊢
    exact hlt
  exact Fin.ext (eq_of_paddedHex (hfits first) (hfits second) heq)

/-- The ways to write a float without its sign. -/
theorem Real64.magnitudeHex_cases (value : Real64) :
    value.magnitudeHex = "inf".toList ∧ value.exponent = 2047 ∧ value.fraction = 0 ∨
    value.magnitudeHex = "0x0.0p+0".toList ∧ value.exponent = 0 ∧ value.fraction = 0 ∨
    value.magnitudeHex = "0x0.".toList ++ paddedHex 13 value.fraction ++ "p-1022".toList ∧
      value.exponent = 0 ∨
    value.magnitudeHex = "0x1.".toList ++ paddedHex 13 value.fraction ++
      'p' :: signedText (value.exponent - 1023 : ℤ) := by
  unfold magnitudeHex
  split_ifs with hinfinite hzero hnone
  · exact .inl ⟨rfl, hinfinite, value.isNumber hinfinite⟩
  · exact .inr (.inl ⟨rfl, hzero, hnone⟩)
  · exact .inr (.inr (.inl ⟨rfl, hzero⟩))
  · exact .inr (.inr (.inr rfl))

/-- A float without its sign is told by its text. -/
theorem Real64.eq_of_magnitudeHex {first second : Real64}
    (heq : first.magnitudeHex = second.magnitudeHex) :
    first.exponent = second.exponent ∧ first.fraction = second.fraction := by
  -- two ways to write a float differ in their first letter, their third one or their length
  have hhead := congrArg List.head? heq
  have hthird := congrArg (fun text ↦ text[2]?) heq
  have hlength := congrArg List.length heq
  obtain ⟨hfirst, hexponent, hfraction⟩ | ⟨hfirst, hexponent, hfraction⟩ | ⟨hfirst, hexponent⟩ |
    hfirst := first.magnitudeHex_cases <;>
  obtain ⟨hsecond, hexponent', hfraction'⟩ | ⟨hsecond, hexponent', hfraction'⟩ |
    ⟨hsecond, hexponent'⟩ | hsecond := second.magnitudeHex_cases
  case inl.inl | inr.inl.inr.inl =>
    exact ⟨hexponent.trans hexponent'.symm, hfraction.trans hfraction'.symm⟩
  case inr.inr.inl.inr.inr.inl =>
    rw [hfirst, hsecond] at heq
    have hdigits := List.append_cancel_left (List.append_cancel_right heq)
    exact ⟨hexponent.trans hexponent'.symm, eq_of_fractionHex hdigits⟩
  case inr.inr.inr.inr.inr.inr =>
    rw [hfirst, hsecond, List.append_assoc, List.append_assoc] at heq
    obtain ⟨hdigits, hrest⟩ := List.append_inj (List.append_cancel_left heq) (by simp)
    have hexponent := signedText_injective (List.cons.inj hrest).2
    exact ⟨Fin.ext (by omega), eq_of_fractionHex hdigits⟩
  all_goals simp [hfirst, hsecond] at hhead hthird hlength

/-- A float is told by its text. -/
theorem Real64.hex_injective : Function.Injective Real64.hex := by
  intro first second heq
  have hunsigned : ∀ value : Real64, value.magnitudeHex.head? ≠ some '-' := by
    intro value
    unfold magnitudeHex
    split_ifs <;> simp
  have hsame : first.isNegative = second.isNegative ∧
      first.magnitudeHex = second.magnitudeHex := by
    unfold hex at heq
    split_ifs at heq with hfirst hsecond hsecond
    · exact ⟨hfirst.trans hsecond.symm, (List.cons.inj heq).2⟩
    · exact absurd (heq ▸ rfl) (hunsigned second)
    · exact absurd (heq ▸ rfl) (hunsigned first)
    · exact ⟨by simp_all, heq⟩
  obtain ⟨hsign, hmagnitude⟩ := hsame
  obtain ⟨hexponent, hfraction⟩ := eq_of_magnitudeHex hmagnitude
  cases first
  cases second
  simp_all

end Ads.Python
