import Ads.Dns.Name

/-!
# Strings and byte strings

The operations of `str` and `bytes` that the modelled services use. A `str` is the list of its
characters and a `bytes` the list of its bytes.
-/

set_option autoImplicit false
set_option relaxedAutoImplicit false

namespace Ads.Python

open Dns

/-- A `str`. -/
abbrev Text := List Char

/-- Texts that test equal are equal. -/
instance lawfulBEqText : LawfulBEq Text :=
  inferInstance

/-- `str.isascii`. -/
def isAscii (text : Text) : Bool :=
  text.all fun char ↦ char.toNat < 128

/-- `str.lower` on ASCII characters. -/
def lowerChar (char : Char) : Char :=
  if 65 ≤ char.toNat ∧ char.toNat ≤ 90 then Char.ofNat (char.toNat + 32) else char

/-- `str.lower` of an ASCII text. -/
def lowerText (text : Text) : Text :=
  text.map lowerChar

/-- `str.isspace` of one character. -/
def isSpace (char : Char) : Bool :=
  let code := char.toNat
  (9 ≤ code && code ≤ 13) || (28 ≤ code && code ≤ 32) || code == 0x85 || code == 0xA0 ||
    code == 0x1680 || (0x2000 ≤ code && code ≤ 0x200A) || code == 0x2028 || code == 0x2029 ||
    code == 0x202F || code == 0x205F || code == 0x3000

/-- An ASCII decimal digit. -/
def isDigit (char : Char) : Bool :=
  48 ≤ char.toNat && char.toNat ≤ 57

/-- `str.partition` at one character: what is before it, whether it occurs, and what is after. -/
def partitionChar (separator : Char) (text : Text) : Text × Bool × Text :=
  let before := text.takeWhile (· != separator)
  match text.drop before.length with
  | [] => (before, false, [])
  | _ :: after => (before, true, after)

/-- `str.removesuffix` of one character. -/
def removeSuffixChar (suffix : Char) (text : Text) : Text :=
  if text.getLast? = some suffix then text.dropLast else text

/-- `int` of a text of decimal digits. -/
def decimalValue (digits : Text) : ℕ :=
  digits.foldl (fun value digit ↦ value * 10 + (digit.toNat - 48)) 0

/-- A number with zeros in front up to a width. -/
def zeroPadded (width value : ℕ) : Text :=
  let digits := Nat.toDigits 10 value
  List.replicate (width - digits.length) '0' ++ digits

/-- `bytes.decode("ascii")`, or `none` where it raises. -/
def decodeAscii (bytes : Bytes) : Option Text :=
  if bytes.all fun byte ↦ byte.val < 128 then some (bytes.map fun byte ↦ Char.ofNat byte.val)
  else none

/-- `str.encode("utf-8")`. -/
def encodeUtf8 (text : Text) : Bytes :=
  text.flatMap fun char ↦ (String.utf8EncodeChar char).map fun byte ↦ Fin.ofNat 256 byte.toNat

/-- `bytes.lower`. -/
def lowerBytes (bytes : Bytes) : Bytes :=
  bytes.map fun byte ↦ if 65 ≤ byte.val ∧ byte.val ≤ 90 then Fin.ofNat 256 (byte.val + 32) else byte

/-- `bytes.isspace` of one byte. -/
def isSpaceByte (byte : Octet) : Bool :=
  (9 ≤ byte.val && byte.val ≤ 13) || byte.val == 32

/-- `bytes.strip`. -/
def stripBytes (bytes : Bytes) : Bytes :=
  ((bytes.dropWhile isSpaceByte).reverse.dropWhile isSpaceByte).reverse

end Ads.Python
