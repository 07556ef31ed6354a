import Ads.Python.Text
import Mathlib.Algebra.Group.Nat.Defs
import Mathlib.Data.Rat.Init

/-!
# Values on the wire

The JSON values that tool calls and their results carry as `Any`, and the identifiers of `uuid`.
-/

set_option autoImplicit false
set_option relaxedAutoImplicit false

namespace Ads.Python

/-- A `uuid.UUID`. -/
abbrev Uuid := BitVec 128

/-- Identifiers that test equal are equal. -/
instance lawfulBEqUuid : LawfulBEq Uuid :=
  inferInstance

/-- A number in base sixteen, with zeros in front. -/
def paddedHex (width value : ℕ) : Text :=
  (List.range width).reverse.map fun place ↦ Nat.digitChar (value / 16 ^ place % 16)

@[simp] theorem length_paddedHex {width value : ℕ} : (paddedHex width value).length = width := by
  simp [paddedHex]

/-- `str` of an identifier. -/
def uuidText (uuid : Uuid) : Text :=
  let digits := paddedHex 32 uuid.toNat
  digits.take 8 ++ '-' :: (digits.drop 8).take 4 ++ '-' :: (digits.drop 12).take 4 ++
    '-' :: (digits.drop 16).take 4 ++ '-' :: digits.drop 20

/-- A decoded JSON value. -/
inductive Json where
  | null
  | bool (value : Bool)
  | number (value : ℚ)
  | string (text : Text)
  | array (items : List Json)
  | object (fields : List (Text × Json))

/-- `text.strip()` is nonempty. -/
def IsVisible (text : Text) : Prop :=
  ∃ char ∈ text, isSpace char = false

instance (text : Text) : Decidable (IsVisible text) :=
  List.decidableBEx (isSpace · = false) text

/-- `str.strip`. -/
def stripText (text : Text) : Text :=
  ((text.dropWhile isSpace).reverse.dropWhile isSpace).reverse

end Ads.Python
