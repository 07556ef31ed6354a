import Ads.Dns.Name
import Mathlib.Algebra.Group.Nat.Defs

/-!
# `base64.b32hexdecode`

The standard library's decoder for the extended hexadecimal alphabet of base 32, without case
folding. `none` stands for `binascii.Error`.
-/

set_option autoImplicit false
set_option relaxedAutoImplicit false

namespace Ads.Python

open Dns

/-- The value of a digit of the alphabet `0-9A-V`. -/
def b32hexDigit (digit : Octet) : Option ℕ :=
  if 48 ≤ digit.val ∧ digit.val ≤ 57 then some (digit.val - 48)
  else if 65 ≤ digit.val ∧ digit.val ≤ 86 then some (digit.val - 55)
  else none

/-- The text in groups of eight digits; the last group may be shorter. -/
def b32Quanta : Bytes → List Bytes
  | a :: b :: c :: d :: e :: f :: g :: h :: rest => [a, b, c, d, e, f, g, h] :: b32Quanta rest
  | [] => []
  | short => [short]

/-- The number a group of digits spells. -/
def b32Value (quantum : Bytes) : Option ℕ :=
  quantum.foldlM (fun value digit ↦ (b32hexDigit digit).map fun next ↦ value * 32 + next) 0

/-- `int.to_bytes(5, "big")`. -/
def b32Bytes (value : ℕ) : Bytes :=
  [4, 3, 2, 1, 0].map fun place ↦ Fin.ofNat 256 (value / 256 ^ place)

/-- `base64.b32hexdecode`. -/
def b32hexdecode (text : Bytes) : Option Bytes :=
  if text.length % 8 ≠ 0 then none
  else
    let stripped := (text.reverse.dropWhile (· == Fin.ofNat 256 61)).reverse
    let padding := text.length - stripped.length
    match (b32Quanta stripped).mapM b32Value with
    | none => none
    | some values =>
      if padding ∉ [0, 1, 3, 4, 6] then none
      else
        let decoded := values.flatMap b32Bytes
        match padding, values.getLast? with
        | 0, _ => some decoded
        | _, none => some decoded
        | _, some last =>
          some (decoded.take (decoded.length - 5) ++
            (b32Bytes (last * 32 ^ padding)).take ((43 - 5 * padding) / 8))

/-- `bytes.upper`. -/
def upper (text : Bytes) : Bytes :=
  text.map fun byte ↦ if 97 ≤ byte.val ∧ byte.val ≤ 122 then Fin.ofNat 256 (byte.val - 32) else byte

/-- The first two digits of a padded text decode to one byte. -/
example : b32hexdecode (ascii "CO======") = some (ascii "f") := by decide

end Ads.Python
