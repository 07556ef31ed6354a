import Mathlib.Data.Prod.Lex
import Mathlib.Order.Fin.Basic
import Ads.Foundation.PrefixOrder

/-!
# Domain names and the canonical DNS order

Names as dnspython keeps and compares them. A name is its tuple of labels, leftmost label first,
and an absolute name ends with the empty root label. Comparison and equality of the library ignore
the case of ASCII letters, so a label is kept in lower case and equality of names is equality of
label lists. The canonical order of RFC 4034 6.1 compares label by label from the root and puts a
name before its descendants. With labels read from the root it is the lexicographic order, so the
descendants of a name form an interval (`isSubdomain_of_le_of_le`).
-/

set_option autoImplicit false
set_option relaxedAutoImplicit false

namespace Ads.Dns

/-- One byte. -/
abbrev Octet := Fin 256

/-- There is a byte. -/
instance neZeroOctet : @NeZero ℕ Zero.ofOfNat0 256 :=
  ⟨by decide⟩

/-- Bytes that test equal are equal. -/
instance lawfulBEqOctet : LawfulBEq Octet :=
  inferInstance

/-- A byte string. -/
abbrev Bytes := List Octet

/-- Byte strings that test equal are equal. -/
instance lawfulBEqBytes : LawfulBEq Bytes :=
  inferInstance

/-- One label of a name, in lower case. -/
abbrev Label := Bytes

/-- The bytes of an ASCII text. -/
def ascii (text : String) : Bytes :=
  text.toList.map fun char ↦ Fin.ofNat 256 char.toNat

/-- A domain name: its labels from the leftmost one on. -/
@[ext] structure Name where
  /-- The labels, leftmost first. An absolute name ends with the empty root label. -/
  labels : List Label
deriving DecidableEq, Repr

namespace Name

/-- The name of an absolute dotted text: its labels and the empty root label. -/
def ofTexts (labels : List String) : Name :=
  ⟨labels.map ascii ++ [[]]⟩

/-- `Name.is_absolute`: the last label is the empty root label. -/
def isAbsolute (name : Name) : Bool :=
  name.labels.getLast? == some []

/-- The labels read from the root. -/
def path (name : Name) : List Label :=
  name.labels.reverse

/-- The key dnspython orders names by: relative names before absolute ones, then label by label
from the root. -/
def orderKey (name : Name) : Bool ×ₗ List Label :=
  toLex (name.isAbsolute, name.path)

theorem orderKey_injective : Function.Injective orderKey := by
  intro first second hkey
  have hpath : first.path = second.path := congrArg (fun key ↦ (ofLex key).2) hkey
  exact Name.ext (List.reverse_injective hpath)

/-- The canonical order of names. -/
instance linearOrder : LinearOrder Name :=
  LinearOrder.lift' orderKey orderKey_injective

/-- `Name.is_subdomain`: the name is `zone` or below it. -/
def IsSubdomain (name zone : Name) : Prop :=
  name.isAbsolute = zone.isAbsolute ∧ zone.labels <:+ name.labels

instance decidableIsSubdomain (name zone : Name) : Decidable (name.IsSubdomain zone) :=
  inferInstanceAs (Decidable (_ ∧ _))

/-- `Name.parent`: the name without its leftmost label. The root and the empty name have no parent;
no caller below asks for theirs. -/
def parent (name : Name) : Name :=
  ⟨name.labels.tail⟩

/-- The name strictly below another. -/
def IsBelow (name zone : Name) : Prop :=
  name.IsSubdomain zone ∧ name ≠ zone

instance decidableIsBelow (name zone : Name) : Decidable (name.IsBelow zone) :=
  inferInstanceAs (Decidable (_ ∧ _))

@[refl] theorem IsSubdomain.refl (name : Name) : name.IsSubdomain name :=
  ⟨rfl, List.suffix_refl _⟩

theorem IsSubdomain.trans {first second third : Name} (hfirst : first.IsSubdomain second)
    (hsecond : second.IsSubdomain third) : first.IsSubdomain third :=
  ⟨hfirst.1.trans hsecond.1, hsecond.2.trans hfirst.2⟩

theorem IsSubdomain.antisymm {first second : Name} (hfirst : first.IsSubdomain second)
    (hsecond : second.IsSubdomain first) : first = second :=
  Name.ext (hsecond.2.eq_of_length_le hfirst.2.length_le)

theorem IsSubdomain.length_le {name zone : Name} (hsub : name.IsSubdomain zone) :
    zone.labels.length ≤ name.labels.length :=
  hsub.2.length_le

theorem IsBelow.length_lt {name zone : Name} (hbelow : name.IsBelow zone) :
    zone.labels.length < name.labels.length := by
  refine lt_of_le_of_ne hbelow.1.length_le fun heq ↦ hbelow.2 ?_
  exact (Name.ext (hbelow.1.2.eq_of_length heq)).symm

/-- Of two names at or above a third, the one with fewer labels is at or above the other. -/
theorem isSubdomain_of_length_le {name first second : Name} (hfirst : name.IsSubdomain first)
    (hsecond : name.IsSubdomain second) (hlength : first.labels.length ≤ second.labels.length) :
    second.IsSubdomain first :=
  ⟨hsecond.1.symm.trans hfirst.1, List.suffix_of_suffix_length_le hfirst.2 hsecond.2 hlength⟩

/-- The names at or above a name are ordered by the subdomain relation. -/
theorem isSubdomain_total {name first second : Name} (hfirst : name.IsSubdomain first)
    (hsecond : name.IsSubdomain second) : second.IsSubdomain first ∨ first.IsSubdomain second :=
  (le_total first.labels.length second.labels.length).imp
    (isSubdomain_of_length_le hfirst hsecond) (isSubdomain_of_length_le hsecond hfirst)

theorem path_prefix_of_isSubdomain {name zone : Name} (hsub : name.IsSubdomain zone) : zone.path <+: name.path :=
  List.reverse_prefix.mpr hsub.2

theorem le_iff_of_isAbsolute_eq {first second : Name} (habsolute : first.isAbsolute = second.isAbsolute) :
    first ≤ second ↔ first.path ≤ second.path := by
  change orderKey first ≤ orderKey second ↔ _
  rw [orderKey, orderKey, Prod.Lex.toLex_le_toLex]
  simp [habsolute]

/-- A name is at or before its descendants in the canonical order. -/
theorem IsSubdomain.le {name zone : Name} (hsub : name.IsSubdomain zone) : zone ≤ name :=
  (le_iff_of_isAbsolute_eq hsub.1.symm).mpr
    (Foundation.PrefixOrder.le_of_prefix (path_prefix_of_isSubdomain hsub))

theorem IsBelow.lt {name zone : Name} (hbelow : name.IsBelow zone) : zone < name :=
  lt_of_le_of_ne hbelow.1.le hbelow.2.symm

/-- Everything between a name and one of its descendants is a descendant. -/
theorem isSubdomain_of_le_of_le {root middle leaf : Name} (hleaf : leaf.IsSubdomain root)
    (hroot : root ≤ middle) (hmiddle : middle ≤ leaf) : middle.IsSubdomain root := by
  have habsolute : middle.isAbsolute = root.isAbsolute := by
    have hlow : root.isAbsolute ≤ middle.isAbsolute := by
      have hkey : orderKey root ≤ orderKey middle := hroot
      exact (Prod.Lex.le_iff.mp hkey).elim le_of_lt fun heq ↦ le_of_eq heq.1
    have hhigh : middle.isAbsolute ≤ leaf.isAbsolute := by
      have hkey : orderKey middle ≤ orderKey leaf := hmiddle
      exact (Prod.Lex.le_iff.mp hkey).elim le_of_lt fun heq ↦ le_of_eq heq.1
    exact le_antisymm (hhigh.trans_eq hleaf.1) hlow
  have hinitial : root.path <+: middle.path :=
    Foundation.PrefixOrder.prefix_of_le_of_le (path_prefix_of_isSubdomain hleaf)
      ((le_iff_of_isAbsolute_eq habsolute.symm).mp hroot)
      ((le_iff_of_isAbsolute_eq (habsolute.trans hleaf.1.symm)).mp hmiddle)
  exact ⟨habsolute, List.reverse_prefix.mp hinitial⟩

end Name

end Ads.Dns
