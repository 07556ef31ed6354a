import Mathlib.Data.List.Lex
import Mathlib.Order.Lattice

/-!
# Prefixes in the lexicographic order

A tree of names read from its root is a set of lists, an ancestor is a prefix, and the
lexicographic order lists every node before its descendants. This module collects what that order
knows about prefixes: a list comes no later than its extensions (`le_of_prefix`), and the
extensions of a list form an interval (`prefix_of_le_of_le`).
-/

set_option autoImplicit false
set_option relaxedAutoImplicit false

namespace Ads.Foundation.PrefixOrder

variable {α : Type*} [LinearOrder α]

/-- Two nonempty lists compare by their heads, and by their tails when the heads agree. -/
theorem cons_le_cons_iff {head first : α} {tail others : List α} :
    head :: tail ≤ first :: others ↔ head < first ∨ head = first ∧ tail ≤ others := by
  constructor
  · intro hle
    rcases lt_trichotomy head first with hlt | heq | hgt
    · exact Or.inl hlt
    · subst heq
      refine Or.inr ⟨rfl, not_lt.mp fun hlt ↦ ?_⟩
      exact absurd hle (not_le.mpr (List.cons_lt_cons_iff.mpr (Or.inr ⟨rfl, hlt⟩)))
    · exact absurd hle (not_le.mpr (List.cons_lt_cons_iff.mpr (Or.inl hgt)))
  · rintro (hlt | ⟨rfl, hle⟩)
    · exact le_of_lt (List.cons_lt_cons_iff.mpr (Or.inl hlt))
    · exact List.cons_le_cons head hle

/-- A list comes no later than any list that extends it. -/
theorem le_of_prefix {root leaf : List α} (hinitial : root <+: leaf) : root ≤ leaf := by
  induction root generalizing leaf with
  | nil =>
    cases leaf with
    | nil => exact le_refl _
    | cons head tail => exact le_of_lt (List.nil_lt_cons head tail)
  | cons head tail ih =>
    obtain ⟨rest, rfl⟩ := hinitial
    exact cons_le_cons_iff.mpr (Or.inr ⟨rfl, ih (List.prefix_append tail rest)⟩)

/-- A list that lies between a list and one of its extensions is an extension itself. -/
theorem prefix_of_le_of_le {root middle leaf : List α} (hleaf : root <+: leaf)
    (hroot : root ≤ middle) (hmiddle : middle ≤ leaf) : root <+: middle := by
  induction root generalizing middle leaf with
  | nil => exact List.nil_prefix
  | cons head tail ih =>
    obtain ⟨rest, rfl⟩ := hleaf
    cases middle with
    | nil => exact absurd hroot (not_le.mpr (List.nil_lt_cons head tail))
    | cons first others =>
      have hbelow := cons_le_cons_iff.mp hroot
      have habove := cons_le_cons_iff.mp hmiddle
      rcases hbelow with hlt | ⟨rfl, htail⟩
      · rcases habove with hlt' | ⟨rfl, -⟩
        · exact absurd hlt (lt_asymm hlt')
        · exact absurd hlt (lt_irrefl _)
      · rcases habove with hlt' | ⟨-, hrest⟩
        · exact absurd hlt' (lt_irrefl _)
        · exact List.cons_prefix_cons.mpr ⟨rfl, ih (List.prefix_append tail rest) htail hrest⟩

end Ads.Foundation.PrefixOrder
