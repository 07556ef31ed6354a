import Mathlib.Data.Char
import Mathlib.Data.List.Lex
import Mathlib.Tactic.Linarith
import Mathlib.Tactic.Ring
import Ads.Python.Text

/-!
# Decimal digits

A number written with zeros in front up to a width reads back as itself (`decimalValue_zeroPadded`),
and texts of digits of one length are in the order of their values (`lt_of_decimalValue_lt`).
-/

set_option autoImplicit false
set_option relaxedAutoImplicit false

namespace Ads.Python

variable {text first second : Text} {width value : ℕ}

/-! ### Reading -/

/-- The digits after the first ones count for their own value. -/
theorem foldl_decimal (start : ℕ) (text : Text) :
    text.foldl (fun value digit ↦ value * 10 + (digit.toNat - 48)) start =
      start * 10 ^ text.length + decimalValue text := by
  induction text generalizing start with
  | nil => simp [decimalValue]
  | cons digit rest ih =>
    rw [decimalValue, List.foldl_cons, List.foldl_cons, ih, ih (0 * 10 + _), List.length_cons]
    ring

/-- The first digit counts for a power of ten. -/
theorem decimalValue_cons (digit : Char) (text : Text) :
    decimalValue (digit :: text) = (digit.toNat - 48) * 10 ^ text.length + decimalValue text := by
  rw [decimalValue, List.foldl_cons, foldl_decimal]
  simp

/-- Digits have a value below the power of ten of their length. -/
theorem decimalValue_lt (hdigits : text.all isDigit = true) :
    decimalValue text < 10 ^ text.length := by
  induction text with
  | nil => simp [decimalValue]
  | cons digit rest ih =>
    simp only [List.all_cons, Bool.and_eq_true, isDigit, decide_eq_true_eq] at hdigits
    have hrest := ih hdigits.2
    rw [decimalValue_cons, List.length_cons, pow_succ]
    have hdigit : digit.toNat - 48 ≤ 9 := by omega
    nlinarith [Nat.mul_le_mul_right (10 ^ rest.length) hdigit]

/-- Digits of one length are in the order of their values. -/
theorem lt_of_decimalValue_lt (hfirst : first.all isDigit = true)
    (hsecond : second.all isDigit = true) (hlength : first.length = second.length)
    (hvalue : decimalValue first < decimalValue second) : first < second := by
  induction first generalizing second with
  | nil =>
    obtain rfl := List.length_eq_zero_iff.mp hlength.symm
    exact absurd hvalue (lt_irrefl _)
  | cons digit rest ih =>
    cases second with
    | nil => simp at hlength
    | cons other others =>
      simp only [List.all_cons, Bool.and_eq_true] at hfirst hsecond
      simp only [List.length_cons, Nat.add_right_cancel_iff] at hlength
      rw [decimalValue_cons, decimalValue_cons, hlength] at hvalue
      have hbound := decimalValue_lt hsecond.2
      rcases lt_trichotomy digit other with hlt | rfl | hgt
      · exact List.cons_lt_cons_iff.mpr (Or.inl hlt)
      · exact List.cons_lt_cons_iff.mpr (Or.inr ⟨rfl, ih hfirst.2 hsecond.2 hlength (by omega)⟩)
      · have hdigits : other.toNat - 48 + 1 ≤ digit.toNat - 48 := by
          have hnat : other.toNat < digit.toNat := hgt
          have hlow := hsecond.1
          simp only [isDigit, Bool.and_eq_true, decide_eq_true_eq] at hlow
          omega
        have hscaled := Nat.mul_le_mul_right (10 ^ others.length) hdigits
        rw [add_mul, one_mul] at hscaled
        omega

/-- Digits of one length and one value are the same. -/
theorem eq_of_decimalValue_eq (hfirst : first.all isDigit = true)
    (hsecond : second.all isDigit = true) (hlength : first.length = second.length)
    (hvalue : decimalValue first = decimalValue second) : first = second := by
  induction first generalizing second with
  | nil => exact (List.length_eq_zero_iff.mp hlength.symm).symm
  | cons digit rest ih =>
    cases second with
    | nil => simp at hlength
    | cons other others =>
      simp only [List.all_cons, Bool.and_eq_true, isDigit, decide_eq_true_eq] at hfirst hsecond
      simp only [List.length_cons, Nat.add_right_cancel_iff] at hlength
      rw [decimalValue_cons, decimalValue_cons, hlength] at hvalue
      have hrest := @decimalValue_lt rest hfirst.2
      have hothers := @decimalValue_lt others hsecond.2
      rw [hlength] at hrest
      have hdigits : digit.toNat - 48 = other.toNat - 48 := by
        have hfirstDigit := congrArg (· / 10 ^ others.length) hvalue
        simp only [Nat.add_comm (_ * _),
          Nat.add_mul_div_right _ _ (Nat.pow_pos (n := others.length) (Nat.zero_lt_succ 9)),
          Nat.div_eq_of_lt hrest, Nat.div_eq_of_lt hothers, Nat.zero_add] at hfirstDigit
        exact hfirstDigit
      have hchar : digit = other := by
        apply Char.toNat_inj.mp
        omega
      rw [hdigits] at hvalue
      rw [hchar, ih hfirst.2 hsecond.2 hlength (by omega)]

/-! ### Writing -/

/-- The digits of a number are digits. -/
theorem isDigit_of_mem_toDigits {char : Char} (hchar : char ∈ Nat.toDigits 10 value) :
    isDigit char = true := by
  have hdigit := Nat.isDigit_of_mem_toDigits (by norm_num) (by norm_num) hchar
  simp only [Char.isDigit, Bool.and_eq_true, decide_eq_true_eq] at hdigit
  simp only [isDigit, Bool.and_eq_true, decide_eq_true_eq]
  exact hdigit

/-- A padded number is made of digits. -/
theorem isDigit_zeroPadded : (zeroPadded width value).all isDigit = true := by
  rw [List.all_eq_true]
  intro char hchar
  rcases List.mem_append.mp hchar with hzero | hdigit
  · rw [List.eq_of_mem_replicate hzero]
    rfl
  · exact isDigit_of_mem_toDigits hdigit

/-- A number below the power of ten of the width takes the width. -/
theorem length_zeroPadded (hwidth : 0 < width) (hvalue : value < 10 ^ width) :
    (zeroPadded width value).length = width := by
  have hlength := (Nat.length_toDigits_le_iff (by norm_num) hwidth).mpr hvalue
  simp only [zeroPadded, List.length_append, List.length_replicate]
  omega

/-- A padded number reads back as itself. -/
@[simp] theorem decimalValue_zeroPadded : decimalValue (zeroPadded width value) = value := by
  have hzeros : ∀ count : ℕ, decimalValue (List.replicate count '0') = 0 := by
    intro count
    induction count with
    | zero => rfl
    | succ count ih => simp [List.replicate_succ, decimalValue_cons, ih]
  have hdigits := @Nat.ofDigitChars_ten_toDigits value
  rw [zeroPadded, decimalValue, List.foldl_append, ← decimalValue, hzeros]
  rw [Nat.ofDigitChars_eq_foldl] at hdigits
  simp only [Nat.mul_comm 10] at hdigits
  exact hdigits

/-- Digits that take the width are those of their value. -/
theorem zeroPadded_decimalValue (hwidth : 0 < width) (hdigits : text.all isDigit = true)
    (hlength : text.length = width) : zeroPadded width (decimalValue text) = text := by
  refine eq_of_decimalValue_eq isDigit_zeroPadded hdigits ?_ decimalValue_zeroPadded
  rw [hlength, length_zeroPadded hwidth]
  rw [← hlength]
  exact decimalValue_lt hdigits

end Ads.Python
