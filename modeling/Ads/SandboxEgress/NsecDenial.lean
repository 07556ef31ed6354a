import Ads.Dns.Chains
import Ads.SandboxEgress.DnssecDenial

/-!
# Denial from NSEC records

What `validateDenial` proves from records of a zone's genuine NSEC chain. A covered name is no owner
and is below no cut, and if it exists then the covering record ends below it
(`exists_endpoint_of_covers`). The closest encloser is the first ancestor with an endpoint at or
below it, so the next closer name has none and does not exist (`isClosestEncloser_of_covers`). All
claims except the expansion of a wildcard follow (`validateDenial_nsec_sound`).
-/

set_option autoImplicit false
set_option relaxedAutoImplicit false

namespace Ads.SandboxEgress

open Dns Foundation.CircularChain Foundation.StateExcept

section Evidence

variable {zone : Zone} {chain : NsecChain zone} {hasher : Nsec3Hasher} {evidence : Evidence}
  {name closest : Name}

/-- The evidence consists of NSEC records of the chain. -/
structure IsNsecEvidence (chain : NsecChain zone) (evidence : Evidence) : Prop where
  /-- There are NSEC records. -/
  ne_nil : evidence.nsec ≠ []
  /-- Every record is the chain's at its owner. -/
  genuine : ∀ owner record, (owner, record) ∈ evidence.nsec →
    owner ∈ zone.owners ∧ record = chain.record owner

/-- The test of `covers` on a record of the chain: the gap contains the name, and the name is not
below a cut the record shows. -/
theorem nsecCovers_iff {owner : Name} (howner : owner ∈ zone.owners) :
    nsecCovers zone.apex name owner (chain.record owner) = true ↔
      Covers owner (chain.next owner) name ∧ ¬ (name.IsBelow owner ∧ zone.IsCut owner) := by
  have hauthoritative := authoritative_iff howner (chain.represents owner howner)
  have hwrap : owner = chain.next owner → chain.next owner = zone.apex := fun heq ↦ by
    have hapex := zone.apex_mem
    rcases (chain.isSuccessor owner howner).adjacent with ⟨hlt, -⟩ | ⟨-, hends⟩
    · exact absurd heq (ne_of_lt hlt)
    · have hboth := hends zone.apex hapex
      exact le_antisymm hboth.1 (heq ▸ hboth.2)
  unfold nsecCovers Covers Name.IsBelow NsecChain.record
  by_cases hend : name = owner ∨ name = chain.next owner
  · rw [if_pos hend]
    exact ⟨fun h ↦ absurd h Bool.false_ne_true, fun h ↦ (hend.elim h.1.1 h.1.2.1).elim⟩
  obtain ⟨hpoint, hnext⟩ := not_or.mp hend
  by_cases hcut : name.IsSubdomain owner ∧ name ≠ owner ∧
      ¬ authoritative (chain.windows owner) = true
  · rw [if_neg hend, if_pos hcut]
    refine ⟨fun h ↦ absurd h Bool.false_ne_true, fun h ↦ (h.2 ⟨⟨hcut.1, hcut.2.1⟩, ?_⟩).elim⟩
    exact not_not.mp fun hnot ↦ hcut.2.2 (hauthoritative.mpr hnot)
  · rw [if_neg hend, if_neg hcut, decide_eq_true_eq]
    have hvisible : ¬ ((name.IsSubdomain owner ∧ name ≠ owner) ∧ zone.IsCut owner) :=
      fun h ↦ hcut ⟨h.1.1, h.1.2, fun hshown ↦ hauthoritative.mp hshown h.2⟩
    constructor
    · rintro (hinside | hacross | hround)
      · exact ⟨⟨hpoint, hnext, Or.inl hinside⟩, hvisible⟩
      · exact ⟨⟨hpoint, hnext, Or.inr (Or.inl hacross)⟩, hvisible⟩
      · exact ⟨⟨hpoint, hnext, Or.inr (Or.inr hround.1)⟩, hvisible⟩
    · rintro ⟨⟨-, -, hinside | hacross | hround⟩, -⟩
      · exact Or.inl hinside
      · exact Or.inr (Or.inl hacross)
      · exact Or.inr (Or.inr ⟨hround, hwrap hround⟩)

/-- A match is the record of an owner. -/
theorem exactOf_nsec (hevidence : IsNsecEvidence chain evidence) {found : DenialRecord}
    (hexact : exactOf hasher evidence name = some found) :
    name ∈ zone.owners ∧ found = .nsec (chain.record name) := by
  rw [exactOf, if_pos hevidence.ne_nil] at hexact
  obtain ⟨record, hlookup, rfl⟩ := Option.map_eq_some_iff.mp hexact
  obtain ⟨howner, rfl⟩ := hevidence.genuine name record (mem_of_lookup hlookup)
  exact ⟨howner, rfl⟩

/-- A covered name lies in the gap of a record of the evidence. -/
theorem exists_record_of_coversOf (hevidence : IsNsecEvidence chain evidence)
    (hcovers : coversOf hasher zone.apex evidence name ≠ none) :
    ∃ owner, (owner, chain.record owner) ∈ evidence.nsec ∧
      IsSuccessor (zone.owners : Set Name) owner (chain.next owner) ∧
      Covers owner (chain.next owner) name ∧ ¬ (name.IsBelow owner ∧ zone.IsCut owner) := by
  obtain ⟨found, hfound⟩ := Option.ne_none_iff_exists'.mp hcovers
  rw [coversOf, if_pos hevidence.ne_nil] at hfound
  obtain ⟨⟨owner, record⟩, hfind, -⟩ := Option.map_eq_some_iff.mp hfound
  obtain ⟨howner, rfl⟩ := hevidence.genuine owner record (List.mem_of_find?_eq_some hfind)
  have htest := List.find?_some hfind
  exact ⟨owner, List.mem_of_find?_eq_some hfind, chain.isSuccessor owner howner,
    (nsecCovers_iff howner).mp htest⟩

/-- A covered name is no owner. -/
theorem not_mem_owners_of_coversOf (hevidence : IsNsecEvidence chain evidence)
    (hcovers : coversOf hasher zone.apex evidence name ≠ none) : name ∉ zone.owners := by
  obtain ⟨owner, -, hlink, hgap, -⟩ := exists_record_of_coversOf hevidence hcovers
  exact not_mem_of_covers hlink hgap

/-- A covered name is below no cut. -/
theorem not_isBelow_cut_of_coversOf (hevidence : IsNsecEvidence chain evidence)
    (hcovers : coversOf hasher zone.apex evidence name ≠ none) {cut : Name} (hcut : zone.IsCut cut) :
    ¬ name.IsBelow cut := by
  obtain ⟨owner, -, hlink, hgap, hvisible⟩ := exists_record_of_coversOf hevidence hcovers
  intro hbelow
  obtain rfl := Zone.point_eq_of_below_cut hlink hgap hcut hbelow
  exact hvisible ⟨hbelow, hcut⟩

/-- A covered name that exists has an endpoint of the evidence at or below it. -/
theorem exists_endpoint_of_covers (hevidence : IsNsecEvidence chain evidence)
    (hcovers : coversOf hasher zone.apex evidence name ≠ none) (hexists : zone.Exists name) :
    ∃ endpoint ∈ endpoints evidence, endpoint.IsSubdomain name := by
  obtain ⟨owner, hmem, hlink, hgap, -⟩ := exists_record_of_coversOf hevidence hcovers
  refine ⟨chain.next owner, ?_, Zone.next_isSubdomain_of_covers hlink hgap hexists⟩
  exact List.mem_append_right _ (List.mem_map.mpr ⟨_, hmem, rfl⟩)

/-- Every endpoint is an owner. -/
theorem mem_owners_of_mem_endpoints (hevidence : IsNsecEvidence chain evidence) {endpoint : Name}
    (hendpoint : endpoint ∈ endpoints evidence) : endpoint ∈ zone.owners := by
  rcases List.mem_append.mp hendpoint with hfirst | hsecond
  · obtain ⟨⟨owner, record⟩, hmem, rfl⟩ := List.mem_map.mp hfirst
    exact (hevidence.genuine owner record hmem).1
  · obtain ⟨⟨owner, record⟩, hmem, rfl⟩ := List.mem_map.mp hsecond
    obtain ⟨howner, rfl⟩ := hevidence.genuine owner record hmem
    exact (chain.isSuccessor owner howner).next_mem

/-- What the search for an endpoint finds exists. -/
theorem exists_of_closestEndpoint (hevidence : IsNsecEvidence chain evidence)
    (hname : name.IsSubdomain zone.apex)
    (hclosest : closestEndpoint evidence zone.apex name = some closest) :
    zone.Exists closest ∧ name.IsSubdomain closest := by
  obtain ⟨hbelow, habove⟩ := (mem_ancestors hname).mp (List.mem_of_find?_eq_some hclosest)
  have hany := List.find?_some hclosest
  simp only [List.any_eq_true, decide_eq_true_eq] at hany
  obtain ⟨endpoint, hendpoint, hsub⟩ := hany
  exact ⟨⟨habove, endpoint, mem_owners_of_mem_endpoints hevidence hendpoint, hsub⟩, hbelow⟩

/-- An ancestor with an endpoint at or below it is at or above what the search finds. -/
theorem isSubdomain_of_closestEndpoint (hname : name.IsSubdomain zone.apex)
    (hclosest : closestEndpoint evidence zone.apex name = some closest) {other endpoint : Name}
    (hother : name.IsSubdomain other) (hzone : other.IsSubdomain zone.apex)
    (hendpoint : endpoint ∈ endpoints evidence) (hsub : endpoint.IsSubdomain other) :
    closest.IsSubdomain other := by
  refine isSubdomain_of_find_ancestors hclosest ((mem_ancestors hname).mpr ⟨hother, hzone⟩) ?_
  exact List.any_eq_true.mpr ⟨endpoint, hendpoint, decide_eq_true hsub⟩

/-- The search finds the closest encloser if an endpoint is at or below it. -/
theorem closestEndpoint_eq (hevidence : IsNsecEvidence chain evidence)
    (hname : name.IsSubdomain zone.apex) (hencloser : zone.IsClosestEncloser name closest)
    {endpoint : Name} (hendpoint : endpoint ∈ endpoints evidence)
    (hsub : endpoint.IsSubdomain closest) :
    closestEndpoint evidence zone.apex name = some closest := by
  cases hfound : closestEndpoint evidence zone.apex name with
  | none =>
    have hmem : closest ∈ ancestors name zone.apex :=
      (mem_ancestors hname).mpr ⟨hencloser.2.1, hencloser.1.1⟩
    refine absurd ?_ (List.find?_eq_none.mp hfound closest hmem)
    exact List.any_eq_true.mpr ⟨endpoint, hendpoint, decide_eq_true hsub⟩
  | some found =>
    obtain ⟨hexists, hbelow⟩ := exists_of_closestEndpoint hevidence hname hfound
    have hupper : found.IsSubdomain closest := isSubdomain_of_closestEndpoint hname hfound
      hencloser.2.1 hencloser.1.1 hendpoint hsub
    exact congrArg some (hupper.antisymm (hencloser.2.2 found hexists hbelow))

end Evidence

/-! ### Soundness -/

section Soundness

variable {zone : Zone} {chain : NsecChain zone} {check : SignatureChecker} {hasher : Nsec3Hasher}
  {evidence : Evidence} {name closest : Name} {qtype : RdataType} {kind : Kind}
  {items : List (RRset × Option RRset)} {keys : RRset} {now : ℚ} {wildcard : Option Name}

/-- A covered next closer name below the closest ancestor with an endpoint does not exist. -/
theorem not_exists_nextCloser (hevidence : IsNsecEvidence chain evidence)
    (hname : name.IsSubdomain zone.apex)
    (hclosest : closestEndpoint evidence zone.apex name = some closest) (hbelow : name.IsBelow closest)
    (hcovers : coversOf hasher zone.apex evidence (nextCloser name closest) ≠ none) :
    ¬ zone.Exists (nextCloser name closest) := by
  intro hexists
  obtain ⟨endpoint, hendpoint, hsub⟩ := exists_endpoint_of_covers hevidence hcovers hexists
  have hupper : closest.IsSubdomain (nextCloser name closest) :=
    isSubdomain_of_closestEndpoint hname hclosest (isSubdomain_nextCloser hbelow) hexists.1
      hendpoint hsub
  exact (nextCloser_isBelow hbelow).2 ((nextCloser_isBelow hbelow).1.antisymm hupper)

/-- The evidence of a valid denial from a zone that publishes an NSEC chain. -/
theorem isNsecEvidence_of_valid {closest : Option Name}
    (honly : AcceptsOnly check keys now chain.Publishes)
    (hvalid : IsValidDenial check hasher name qtype kind items keys now wildcard closest evidence) :
    IsNsecEvidence chain evidence := by
  have hgenuine : ∀ rrset, Accepted check keys now items rrset → chain.Publishes rrset := by
    rintro rrset ⟨htype, signatures, budget, checked, final, -, hcheck, hexact⟩
    exact honly rrset signatures budget checked final htype hcheck hexact
  have hnsec3 : evidence.nsec3 = [] := by
    refine List.eq_nil_iff_forall_not_mem.mpr fun ⟨owner, record⟩ hmem ↦ ?_
    obtain ⟨-, rrset, haccepted, -, hrecords⟩ := hvalid.gathered.nsec3 owner record hmem
    have hpublished := (hgenuine rrset haccepted).2
    rw [hrecords] at hpublished
    simp at hpublished
  refine ⟨hvalid.nonempty.resolve_right (not_not.mpr hnsec3), fun owner record hmem ↦ ?_⟩
  obtain ⟨rrset, haccepted, rfl, hrecords⟩ := hvalid.gathered.nsec owner record hmem
  obtain ⟨howner, hpublished⟩ := hgenuine rrset haccepted
  rw [hrecords] at hpublished
  exact ⟨howner, by simpa using hpublished⟩

/-- A closest encloser proof from the endpoints of the evidence. -/
theorem isClosestEncloser_of_covers (hevidence : IsNsecEvidence chain evidence)
    (hname : name.IsSubdomain zone.apex)
    (hclosest : closestEndpoint evidence zone.apex name = some closest) {covering : DenialRecord}
    (hproof : IsEncloserProof hasher evidence zone.apex name closest covering) :
    zone.IsClosestEncloser name closest ∧ ¬ zone.Exists name ∧
      ∀ cut, zone.IsCut cut → ¬ name.IsBelow cut := by
  obtain ⟨hexists, hsub⟩ := exists_of_closestEndpoint hevidence hname hclosest
  have hbelow : name.IsBelow closest := ⟨hsub, hproof.ne.symm⟩
  have hcovers : coversOf hasher zone.apex evidence (nextCloser name closest) ≠ none := by
    simp [hproof.covers]
  have habsent := not_exists_nextCloser hevidence hname hclosest hbelow hcovers
  obtain ⟨hencloser, hdenied⟩ := isClosestEncloser_of_not_exists hexists hbelow habsent
  refine ⟨hencloser, hdenied, fun cut hcut ↦ ?_⟩
  exact not_isBelow_cut_of_nextCloser hbelow hexists.1 habsent
    (not_isBelow_cut_of_coversOf hevidence hcovers hcut) hcut

/-- Every valid proof from genuine NSEC records other than the expansion of a wildcard is right. -/
theorem validateDenial_nsec_sound {budget final : CryptoBudget} {proof : DenialProof}
    (hkeys : keys.name = zone.apex) (honly : AcceptsOnly check keys now chain.Publishes)
    (hkind : kind ≠ .wildcard)
    (hrun : validateDenial check hasher name qtype kind items keys now wildcard budget =
      .ok (proof, final))
    (hvalid : proof.valid = true) : Claim zone name qtype wildcard kind := by
  obtain ⟨evidence, hproof⟩ := validateDenial_valid hrun hvalid
  have hevidence := isNsecEvidence_of_valid honly hproof
  have hname : name.IsSubdomain zone.apex := hkeys ▸ hproof.isSubdomain
  have hnsec3 : evidence.nsec3 = [] := hproof.unmixed.resolve_left hevidence.ne_nil
  have hproven := hproof.proven
  rw [hkeys] at hproven
  generalize proof.closestEncloser = reported at hproven
  cases hproven with
  | delegation record hdelegation hexact hshown =>
    obtain ⟨howner, rfl⟩ := exactOf_nsec hevidence hexact
    subst hdelegation
    exact unsignedDelegation_of_delegation (chain.represents name howner) hshown
  | nodata record hnodata hexact hshown =>
    obtain ⟨howner, rfl⟩ := exactOf_nsec hevidence hexact
    subst hnodata
    exact noData_of_nodata (Zone.exists_of_mem_owners howner) (chain.represents name howner) hshown
  | emptyNonTerminal hnodata hnsec hself hcovers =>
    subst hnodata
    have htypes := zone.types_eq_empty name (not_mem_owners_of_coversOf hevidence hcovers)
    have hexists := (exists_of_closestEndpoint hevidence hname hself).1
    exact ⟨hexists, fun _ ↦ htypes, by simp [htypes], by simp [htypes]⟩
  | encloser closest covering hfound hencloser hconcluded =>
    cases hfound with
    | scope source hwildcard => exact absurd hwildcard hkind
    | matching closest _ hnil => exact absurd hnil hevidence.ne_nil
    | endpoint closest _ _ hclosest =>
      obtain ⟨hencloses, habsent, hcuts⟩ :=
        isClosestEncloser_of_covers hevidence hname hclosest hencloser
      cases kind with
      | wildcard => exact absurd rfl hkind
      | unsignedDelegation => exact absurd hnsec3 hconcluded.1
      | nodata => exact absurd hnsec3 hconcluded.2.1
      | nxdomain =>
        refine ⟨habsent, hcuts, fun other hother ↦ ?_⟩
        rw [hother.unique hencloses]
        exact not_mem_owners_of_coversOf hevidence hconcluded
      | wildcardNodata =>
        obtain ⟨record, hexact, hshown⟩ := hconcluded
        obtain ⟨howner, rfl⟩ := exactOf_nsec hevidence hexact
        refine ⟨habsent, hcuts, closest, hencloses, ?_⟩
        exact noData_of_nodata (Zone.exists_of_mem_owners howner) (chain.represents _ howner) hshown

end Soundness

namespace Example

open Dns.Example

/-- A path that stands for any accepted signature. -/
def path : VerifiedSignature where
  signature :=
    { typeCovered := RdataType.nsec, algorithm := 13, labels := 1, originalTtl := 3600,
      expiration := 2, inception := 0, keyTag := 7, signer := apex, signature := [] }
  key := { flags := 256, protocol := 3, algorithm := 13, key := [] }
  wildcard := false

/-- The check of a correct signer of the small zone. -/
def check : SignatureChecker := fun rrset _ _ _ ↦ do
  CryptoBudget.consume 1
  return if chain.Publishes rrset then { verified := [path] } else {}

/-- The keys of the small zone. -/
def keys : RRset :=
  { name := apex, rdclass := 1, rdtype := RdataType.dnskey, covers := RdataType.none, ttl := 3600,
    records := [.dnskey path.key] }

/-- The signer accepts the chain only. -/
theorem acceptsOnly_check (now : ℚ) : AcceptsOnly check keys now chain.Publishes := by
  intro rrset signatures budget checked final _ hrun hexact
  obtain ⟨_, between, -, hrun⟩ := bind_eq_ok.mp hrun
  obtain ⟨rfl, -⟩ := pure_eq_ok.mp hrun
  by_contra hnot
  simp [hnot, SignatureCheck.verifiedExactly] at hexact

end Example

/-- A name below the last owner of the small zone is denied by the record that closes the chain. -/
theorem validateDenial_nsec_sound_example :
    Dns.Example.zone.NameError (.ofTexts ["c", "a", "b", "z"]) := by
  have hrun : ∃ pair, validateDenial Example.check (fun _ _ _ ↦ [])
      (.ofTexts ["c", "a", "b", "z"]) 1 .nxdomain [(Dns.Example.chain.rrset Dns.Example.leaf, none)]
      Example.keys 1 none {} = .ok pair ∧ pair.1.valid = true := ⟨_, rfl, rfl⟩
  obtain ⟨⟨proof, final⟩, hrun, hvalid⟩ := hrun
  exact validateDenial_nsec_sound rfl (Example.acceptsOnly_check 1) (by decide) hrun hvalid

end Ads.SandboxEgress
