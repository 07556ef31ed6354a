import Mathlib.Order.Lattice
import Mathlib.Data.Finset.Max

/-!
# Successor chains that wrap around

A finite set of points of a linear order is published as a chain of links: every link names a point
and the next point of the set, and the link of the last point names the first. A link then testifies
that nothing between its two ends belongs to the set. `IsSuccessor` is a genuine link of a set,
`Covers` is the interval a link speaks about, across the wrap and for a chain with a single link
included. `not_mem_of_covers` is the soundness of such a testimony and `exists_covering_link` its
completeness: everything that is absent from a nonempty finite set is covered by one of its links.
-/

set_option autoImplicit false
set_option relaxedAutoImplicit false

namespace Ads.Foundation.CircularChain

variable {β : Type*} [LinearOrder β]

/-- `next` follows `point` in the circular order of the points: either it is the least point above
`point`, or `point` is the last point and `next` the first. -/
structure IsSuccessor (points : Set β) (point next : β) : Prop where
  /-- The link starts at a point of the set. -/
  mem : point ∈ points
  /-- The link ends at a point of the set. -/
  next_mem : next ∈ points
  /-- No point of the set lies beyond the start of the link and before its end. -/
  adjacent : (point < next ∧ ∀ other ∈ points, other ≤ point ∨ next ≤ other) ∨
    (next ≤ point ∧ ∀ other ∈ points, next ≤ other ∧ other ≤ point)

instance decidableIsSuccessor (points : Finset β) (point next : β) :
    Decidable (IsSuccessor (points : Set β) point next) :=
  decidable_of_iff (point ∈ points ∧ next ∈ points ∧
      ((point < next ∧ ∀ other ∈ points, other ≤ point ∨ next ≤ other) ∨
        (next ≤ point ∧ ∀ other ∈ points, next ≤ other ∧ other ≤ point)))
    ⟨fun h ↦ ⟨h.1, h.2.1, h.2.2⟩, fun h ↦ ⟨h.mem, h.next_mem, h.adjacent⟩⟩

/-- The open circular interval from `point` to `next`. A link from a point to itself goes all the
way round and covers everything else. -/
def Covers (point next value : β) : Prop :=
  value ≠ point ∧ value ≠ next ∧
    (point < value ∧ value < next ∨ next < point ∧ (point < value ∨ value < next) ∨ point = next)

instance decidableCovers (point next value : β) : Decidable (Covers point next value) :=
  inferInstanceAs (Decidable (_ ∧ _ ∧ _))

/-- A genuine link covers no point of its set. -/
theorem not_mem_of_covers {points : Set β} {point next value : β}
    (hlink : IsSuccessor points point next) (hcovers : Covers point next value) :
    value ∉ points := by
  intro hvalue
  obtain ⟨hpoint, hnext, hinterval⟩ := hcovers
  rcases hlink.adjacent with ⟨hlt, hgap⟩ | ⟨hle, hends⟩
  · rcases hinterval with ⟨hafter, hbefore⟩ | ⟨hwrap, -⟩ | heq
    · rcases hgap value hvalue with hlow | hhigh
      · exact absurd hafter (not_lt.mpr hlow)
      · exact absurd hbefore (not_lt.mpr hhigh)
    · exact absurd hwrap (lt_asymm hlt)
    · exact absurd heq (ne_of_lt hlt)
  · obtain ⟨hlow, hhigh⟩ := hends value hvalue
    rcases hinterval with ⟨hafter, -⟩ | ⟨-, hafter | hbefore⟩ | heq
    · exact absurd hafter (not_lt.mpr hhigh)
    · exact absurd hafter (not_lt.mpr hhigh)
    · exact absurd hbefore (not_lt.mpr hlow)
    · subst heq
      exact hpoint (le_antisymm hhigh hlow)

/-- A point has one successor. -/
theorem IsSuccessor.unique {points : Set β} {point first second : β}
    (hfirst : IsSuccessor points point first) (hsecond : IsSuccessor points point second) :
    first = second := by
  rcases hfirst.adjacent with ⟨hafter, hbetween⟩ | ⟨hback, hends⟩
  · rcases hsecond.adjacent with ⟨hafter', hbetween'⟩ | ⟨hback', hends'⟩
    · exact le_antisymm ((hbetween second hsecond.next_mem).resolve_left (not_le.mpr hafter'))
        ((hbetween' first hfirst.next_mem).resolve_left (not_le.mpr hafter))
    · exact absurd hafter (not_lt.mpr (hends' first hfirst.next_mem).2)
  · rcases hsecond.adjacent with ⟨hafter', hbetween'⟩ | ⟨hback', hends'⟩
    · exact absurd hafter' (not_lt.mpr (hends second hsecond.next_mem).2)
    · exact le_antisymm (hends second hsecond.next_mem).1 (hends' first hfirst.next_mem).1

/-- A value outside a finite set that has a point below it is covered by a genuine link whose start
is the greatest of the points below. -/
theorem exists_covering_link {points : Finset β} {value lower : β} (hlower : lower ∈ points)
    (hbelow : lower < value) (habsent : value ∉ points) :
    ∃ point next, IsSuccessor (points : Set β) point next ∧ Covers point next value ∧
      point < value := by
  have hne : (points.filter (· < value)).Nonempty :=
    ⟨lower, Finset.mem_filter.mpr ⟨hlower, hbelow⟩⟩
  obtain ⟨hpoint, hlt⟩ := Finset.mem_filter.mp (Finset.max'_mem _ hne)
  have hgreatest : ∀ other ∈ points, other < value →
      other ≤ (points.filter (· < value)).max' hne := fun other hother hless ↦
    Finset.le_max' _ _ (Finset.mem_filter.mpr ⟨hother, hless⟩)
  generalize (points.filter (· < value)).max' hne = point at hpoint hlt hgreatest
  by_cases habove : (points.filter (value < ·)).Nonempty
  · obtain ⟨hnext, hgt⟩ := Finset.mem_filter.mp (Finset.min'_mem _ habove)
    have hleast : ∀ other ∈ points, value < other →
        (points.filter (value < ·)).min' habove ≤ other := fun other hother hless ↦
      Finset.min'_le _ _ (Finset.mem_filter.mpr ⟨hother, hless⟩)
    generalize (points.filter (value < ·)).min' habove = next at hnext hgt hleast
    refine ⟨point, next, ⟨hpoint, hnext, Or.inl ⟨lt_trans hlt hgt, fun other hother ↦ ?_⟩⟩,
      ⟨ne_of_gt hlt, ne_of_lt hgt, Or.inl ⟨hlt, hgt⟩⟩, hlt⟩
    rcases lt_trichotomy other value with hless | heq | hmore
    · exact Or.inl (hgreatest other hother hless)
    · exact absurd (heq ▸ hother) habsent
    · exact Or.inr (hleast other hother hmore)
  · have hall : ∀ other ∈ points, other < value := fun other hother ↦ by
      rcases lt_trichotomy other value with hless | heq | hmore
      · exact hless
      · exact absurd (heq ▸ hother) habsent
      · exact absurd ⟨other, Finset.mem_filter.mpr ⟨hother, hmore⟩⟩ habove
    have hnonempty : points.Nonempty := ⟨lower, hlower⟩
    have hfirst : ∀ other ∈ points, points.min' hnonempty ≤ other := fun other hother ↦
      Finset.min'_le _ _ hother
    have hfirstMem := Finset.min'_mem points hnonempty
    generalize points.min' hnonempty = next at hfirst hfirstMem
    refine ⟨point, next, ⟨hpoint, hfirstMem, Or.inr ⟨hfirst point hpoint, fun other hother ↦
      ⟨hfirst other hother, hgreatest other hother (hall other hother)⟩⟩⟩, ?_, hlt⟩
    refine ⟨ne_of_gt hlt, (ne_of_gt (hall next hfirstMem)), Or.inr ?_⟩
    rcases lt_or_eq_of_le (hfirst point hpoint) with hwrap | heq
    · exact Or.inl ⟨hwrap, Or.inl hlt⟩
    · exact Or.inr heq.symm

end Ads.Foundation.CircularChain
