import Mathlib.Data.Finset.Basic
import Ads.Foundation.CircularChain
import Ads.Dns.Records

/-!
# Zones and what a denial claims about them

The abstract side of negative answers: a finite zone as its owner names with their types, the names
that exist in it, and the facts a resolver may be told about a name that has no data. A name exists
when it is an owner or has an owner below it, an empty non-terminal in the second case. Nothing is
owned below a delegation or a DNAME, so such an owner is a `IsCut`.

The section on the canonical chain is the argument that a link of the owners' chain supports.
`next_isSubdomain_of_covers` says that a name inside a gap exists only as an empty non-terminal
above the gap's end, and `point_eq_of_below_cut` that the gap that contains a name below a cut
starts at the cut.
-/

set_option autoImplicit false
set_option relaxedAutoImplicit false

namespace Ads.Dns

open Foundation.CircularChain

/-- The label of a wildcard owner. -/
def starLabel : Label := ascii "*"

/-- The wildcard name directly below a name. -/
def Name.wildcard (name : Name) : Name :=
  ⟨starLabel :: name.labels⟩

/-- The wildcard below a name is below it. -/
theorem Name.wildcard_isBelow {zone closest : Name} (habsolute : zone.isAbsolute = true)
    (hzone : closest.IsSubdomain zone) : closest.wildcard.IsBelow closest := by
  have hne : zone.labels ≠ [] := by
    intro hempty
    simp [Name.isAbsolute, hempty] at habsolute
  have hlength : closest.labels ≠ [] := by
    have hpositive := List.length_pos_of_ne_nil hne
    exact List.ne_nil_of_length_pos (lt_of_lt_of_le hpositive hzone.length_le)
  refine ⟨⟨?_, List.suffix_cons _ _⟩, fun heq ↦ ?_⟩
  · cases hlabels : closest.labels with
    | nil => exact absurd hlabels hlength
    | cons label rest => simp [Name.isAbsolute, Name.wildcard, hlabels]
  · have hlength := congrArg (fun name ↦ name.labels.length) heq
    simp [Name.wildcard] at hlength

/-- A finite zone: its owner names and their types. -/
structure Zone where
  /-- The zone's own name. -/
  apex : Name
  /-- The owner names, delegations and wildcards included. -/
  owners : Finset Name
  /-- The record types at each name. -/
  types : Name → Finset RdataType
  /-- The zone's name is a full name. -/
  isAbsolute_apex : apex.isAbsolute = true
  /-- The apex owns records. -/
  apex_mem : apex ∈ owners
  /-- Every owner is at or below the apex. -/
  isSubdomain_apex : ∀ owner ∈ owners, owner.IsSubdomain apex
  /-- The start of authority is at the apex and nowhere else. -/
  soa_iff : ∀ owner ∈ owners, RdataType.soa ∈ types owner ↔ owner = apex
  /-- Only owners have types. -/
  types_eq_empty : ∀ name, name ∉ owners → types name = ∅
  /-- Nothing is owned below a DNAME owner or a delegation. -/
  not_isBelow_cut : ∀ cut ∈ owners,
    (RdataType.dname ∈ types cut ∨ RdataType.ns ∈ types cut ∧ cut ≠ apex) →
      ∀ owner ∈ owners, ¬ owner.IsBelow cut

namespace Zone

variable (zone : Zone)

/-- The owner of a DNAME, or a delegation. -/
def IsCut (name : Name) : Prop :=
  name ∈ zone.owners ∧
    (RdataType.dname ∈ zone.types name ∨ RdataType.ns ∈ zone.types name ∧ name ≠ zone.apex)

/-- The name exists: it is in the zone and at or above an owner. -/
def Exists (name : Name) : Prop :=
  name.IsSubdomain zone.apex ∧ ∃ owner ∈ zone.owners, owner.IsSubdomain name

/-- The name exists without being an owner. -/
def IsEmptyNonTerminal (name : Name) : Prop :=
  zone.Exists name ∧ name ∉ zone.owners

/-- The longest existing name at or above a name. -/
def IsClosestEncloser (name closest : Name) : Prop :=
  zone.Exists closest ∧ name.IsSubdomain closest ∧
    ∀ other, zone.Exists other → name.IsSubdomain other → closest.IsSubdomain other

/-- A name error is true: the name does not exist, is not below a cut, and no wildcard exists at
its closest encloser. -/
def NameError (name : Name) : Prop :=
  ¬ zone.Exists name ∧ (∀ cut, zone.IsCut cut → ¬ name.IsBelow cut) ∧
    ∀ closest, zone.IsClosestEncloser name closest → closest.wildcard ∉ zone.owners

/-- The absence of data is true: the name exists, without the type and without an alias. A question
for every type is answered by no type at all. -/
def NoData (name : Name) (kind : RdataType) : Prop :=
  zone.Exists name ∧ (kind = RdataType.any → zone.types name = ∅) ∧ kind ∉ zone.types name ∧
    RdataType.cname ∉ zone.types name

/-- The absence of data at a wildcard is true: the name does not exist and is not below a cut, and
the wildcard at its closest encloser exists without the type and without an alias. -/
def WildcardNoData (name : Name) (kind : RdataType) : Prop :=
  ¬ zone.Exists name ∧ (∀ cut, zone.IsCut cut → ¬ name.IsBelow cut) ∧
    ∃ closest, zone.IsClosestEncloser name closest ∧ zone.NoData closest.wildcard kind

/-- The expansion of a wildcard is right: the name lies below the wildcard's parent, and nothing
between the two exists. -/
def IsExpansion (name source : Name) : Prop :=
  source.labels.head? = some starLabel ∧ name.IsBelow source.parent ∧
    ∀ other, name.IsSubdomain other → other.IsBelow source.parent → ¬ zone.Exists other

/-- The delegation without a delegation signer is there. -/
def UnsignedDelegation (name : Name) : Prop :=
  name ∈ zone.owners ∧ name ≠ zone.apex ∧ RdataType.ns ∈ zone.types name ∧
    RdataType.ds ∉ zone.types name

variable {zone}

theorem exists_of_mem_owners {name : Name} (howner : name ∈ zone.owners) : zone.Exists name :=
  ⟨zone.isSubdomain_apex name howner, name, howner, Name.IsSubdomain.refl name⟩

theorem exists_apex : zone.Exists zone.apex :=
  exists_of_mem_owners zone.apex_mem

/-- A name of the zone above an existing name exists. -/
theorem Exists.of_isSubdomain {name above : Name} (hname : zone.Exists name)
    (habove : name.IsSubdomain above) (hzone : above.IsSubdomain zone.apex) : zone.Exists above := by
  obtain ⟨-, owner, howner, hbelow⟩ := hname
  exact ⟨hzone, owner, howner, hbelow.trans habove⟩

/-- Nothing exists below a cut. -/
theorem isCut_not_exists_below {cut name : Name} (hcut : zone.IsCut cut) (hname : zone.Exists name) :
    ¬ name.IsBelow cut := by
  rintro ⟨hsub, hne⟩
  obtain ⟨-, owner, howner, hbelow⟩ := hname
  refine zone.not_isBelow_cut cut hcut.1 hcut.2 owner howner ⟨hbelow.trans hsub, ?_⟩
  rintro rfl
  exact hne (hsub.antisymm hbelow)

/-- The closest encloser is determined by the name. -/
theorem IsClosestEncloser.unique {name first second : Name}
    (hfirst : zone.IsClosestEncloser name first) (hsecond : zone.IsClosestEncloser name second) :
    first = second :=
  (hfirst.2.2 second hsecond.1 hsecond.2.1).antisymm (hsecond.2.2 first hfirst.1 hfirst.2.1)

/-! ### The canonical chain of owners -/

/-- A name in the gap of a link exists only as an empty non-terminal above the gap's end. -/
theorem next_isSubdomain_of_covers {point next name : Name}
    (hlink : IsSuccessor (zone.owners : Set Name) point next) (hcovers : Covers point next name)
    (hname : zone.Exists name) : next.IsSubdomain name := by
  obtain ⟨hzone, owner, howner, hbelow⟩ := hname
  have hapex : zone.apex ≤ name := hzone.le
  have hle : name ≤ owner := hbelow.le
  have hne : name ≠ owner := fun heq ↦ not_mem_of_covers hlink hcovers (heq ▸ howner)
  have hlt : name < owner := lt_of_le_of_ne hle hne
  rcases hlink.adjacent with ⟨hgt, hgap⟩ | ⟨hwrap, hends⟩
  · rcases hcovers.2.2 with ⟨hafter, hbefore⟩ | ⟨hback, -⟩ | heq
    · have hnext : next ≤ owner := (hgap owner howner).resolve_left fun hlow ↦
        absurd (lt_of_lt_of_le (lt_trans hafter hlt) hlow) (lt_irrefl _)
      exact Name.isSubdomain_of_le_of_le hbelow (le_of_lt hbefore) hnext
    · exact absurd hback (lt_asymm hgt)
    · exact absurd heq (ne_of_lt hgt)
  · have hfirst : next ≤ zone.apex := (hends zone.apex zone.apex_mem).1
    have hlast : owner ≤ point := (hends owner howner).2
    rcases hcovers.2.2 with ⟨hafter, -⟩ | ⟨-, hafter | hbefore⟩ | heq
    · exact absurd (lt_trans hafter hlt) (not_lt.mpr hlast)
    · exact absurd (lt_trans hafter hlt) (not_lt.mpr hlast)
    · exact absurd (lt_of_lt_of_le hbefore hfirst) (not_lt.mpr hapex)
    · have howner' : owner = next := le_antisymm (heq ▸ hlast) (hends owner howner).1
      exact howner' ▸ hbelow

/-- The gap that contains a name below a cut starts at the cut. -/
theorem point_eq_of_below_cut {point next name cut : Name}
    (hlink : IsSuccessor (zone.owners : Set Name) point next) (hcovers : Covers point next name)
    (hcut : zone.IsCut cut) (hname : name.IsBelow cut) : point = cut := by
  have hlt : cut < name := hname.lt
  have hzone : name.IsSubdomain zone.apex := hname.1.trans (zone.isSubdomain_apex cut hcut.1)
  by_contra hne
  have hbetween : cut ≤ point → point < name → False := fun hlow hhigh ↦
    zone.not_isBelow_cut cut hcut.1 hcut.2 point hlink.mem
      ⟨Name.isSubdomain_of_le_of_le hname.1 hlow (le_of_lt hhigh), hne⟩
  rcases hlink.adjacent with ⟨hgt, hgap⟩ | ⟨hwrap, hends⟩
  · rcases hcovers.2.2 with ⟨hafter, hbefore⟩ | ⟨hback, -⟩ | heq
    · rcases hgap cut hcut.1 with hlow | hhigh
      · exact hbetween hlow hafter
      · exact absurd (lt_of_le_of_lt hhigh hlt) (lt_asymm hbefore)
    · exact absurd hback (lt_asymm hgt)
    · exact absurd heq (ne_of_lt hgt)
  · have hfirst : next ≤ zone.apex := (hends zone.apex zone.apex_mem).1
    have hlast : cut ≤ point := (hends cut hcut.1).2
    rcases hcovers.2.2 with ⟨hafter, -⟩ | ⟨-, hafter | hbefore⟩ | heq
    · exact hbetween hlast hafter
    · exact hbetween hlast hafter
    · exact absurd (lt_of_lt_of_le hbefore hfirst) (not_lt.mpr hzone.le)
    · exact hne (le_antisymm (heq ▸ (hends cut hcut.1).1) hlast)

/-- A name of the zone that is no owner lies in the gap of a link that starts before it. -/
theorem exists_link_covers {name : Name} (hzone : name.IsSubdomain zone.apex)
    (habsent : name ∉ zone.owners) :
    ∃ point next, IsSuccessor (zone.owners : Set Name) point next ∧ Covers point next name ∧
      point < name := by
  refine exists_covering_link zone.apex_mem (lt_of_le_of_ne hzone.le ?_) habsent
  rintro rfl
  exact habsent zone.apex_mem

end Zone

end Ads.Dns
