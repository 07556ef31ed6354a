import Ads.SandboxEgress.NsecDenial

/-!
# Empty non-terminals in the NSEC proofs about wildcards

The expansion of a wildcard takes its closest encloser from the wildcard and the name error tests
the wildcard itself, both by a covering record alone. Such a record says nothing about an empty
non-terminal. `validateDenial_nsec_wildcard_iff` is the exact condition under which no replay of
genuine records is accepted: `accepts_wildcard` and `accepts_nxdomain` build the evidence that is
accepted where the condition fails.
-/

set_option autoImplicit false
set_option relaxedAutoImplicit false

namespace Ads.SandboxEgress

open Dns Foundation.CircularChain Foundation.StateExcept

/-- The check is that of a correct signer: it accepts the chain's RRsets only, and every RRset of the
chain with its signatures, for one unit of the budget. -/
structure IsCorrectSigner {zone : Zone} (chain : NsecChain zone) (signatures : Name → RRset)
    (check : SignatureChecker) (keys : RRset) (now : ℚ) : Prop where
  /-- Nothing else is accepted. -/
  only : AcceptsOnly check keys now chain.Publishes
  /-- The chain is accepted. -/
  accepts : ∀ owner ∈ zone.owners, ∀ budget : CryptoBudget, 0 < budget.remaining →
    ∃ checked final, check (chain.rrset owner) (some (signatures owner)) keys now budget =
      .ok (checked, final) ∧ checked.verifiedExactly = true ∧ budget.remaining ≤ final.remaining + 1

/-- No evidence from the chain makes `validateDenial` accept the expansion of a wildcard above an
existing name, or a name error where the wildcard of the closest encloser exists. -/
def RespectsEmptyNonTerminals {zone : Zone} (chain : NsecChain zone) (signatures : Name → RRset)
    (check : SignatureChecker) (hasher : Nsec3Hasher) (keys : RRset) (now : ℚ) (name : Name)
    (qtype : RdataType) : Prop :=
  ∀ items : List (RRset × Option RRset),
    (∀ item ∈ items, ∃ owner ∈ zone.owners, item = (chain.rrset owner, some (signatures owner))) →
    ∀ (budget final : CryptoBudget) (proof : DenialProof), proof.valid = true → ∀ closest,
      (closest.wildcard ∈ zone.owners →
        validateDenial check hasher name qtype .wildcard items keys now (some closest.wildcard)
          budget = .ok (proof, final) →
        zone.IsClosestEncloser name closest ∧
          ∀ other, name.IsSubdomain other → other.IsBelow closest → ¬ zone.Exists other) ∧
      (∀ wildcard, validateDenial check hasher name qtype .nxdomain items keys now wildcard budget =
          .ok (proof, final) →
        proof.closestEncloser = some closest → ¬ zone.Exists closest.wildcard)

/-- No empty non-terminal is at a next closer name below a wildcard's parent, or at the wildcard of
the closest encloser of a name that does not exist. -/
def NoHiddenEmptyNonTerminal (zone : Zone) (name : Name) : Prop :=
  (∀ closest, closest.wildcard ∈ zone.owners → name.IsBelow closest → name ≠ closest.wildcard →
    ¬ zone.IsEmptyNonTerminal (nextCloser name closest)) ∧
  ∀ closest, zone.IsClosestEncloser name closest → ¬ zone.Exists name →
    ¬ zone.IsEmptyNonTerminal closest.wildcard

section Replays

variable {zone : Zone} {chain : NsecChain zone} {signatures : Name → RRset}
  {check : SignatureChecker} {hasher : Nsec3Hasher} {evidence : Evidence} {name closest : Name}
  {qtype : RdataType} {keys : RRset} {now : ℚ}

/-- With NSEC evidence `exact` reads the record without hashing. -/
theorem exact_of_nsec (hnsec : evidence.nsec ≠ []) :
    exact hasher evidence name = pure (exactOf hasher evidence name) := by
  rw [exact, exactOf, if_pos hnsec, if_pos hnsec]

/-- With NSEC evidence `covers` reads the record without hashing. -/
theorem covers_of_nsec (hnsec : evidence.nsec ≠ []) :
    covers hasher zone.apex evidence name = pure (coversOf hasher zone.apex evidence name) := by
  rw [covers, coversOf, if_pos hnsec, if_pos hnsec]

/-- The evidence with the records of some owners of the chain. -/
def nsecEvidence (chain : NsecChain zone) (evidence : Evidence) (owners : List Name)
    (checks : List SignatureCheck) : Evidence :=
  { evidence with
    checks := checks
    nsec := evidence.nsec ++ owners.map fun owner ↦ (owner, chain.record owner) }

/-- The loop takes in the records of different owners of the chain. -/
theorem collect_chain (evidence : Evidence) (hkeys : keys.name = zone.apex)
    (hsigner : IsCorrectSigner chain signatures check keys now) {owners : List Name}
    (hnodup : owners.Nodup) (howners : ∀ owner ∈ owners, owner ∈ zone.owners)
    (hfresh : ∀ owner ∈ owners, owner ∉ evidence.nsec.map Prod.fst) {budget : CryptoBudget}
    (hbudget : owners.length ≤ budget.remaining) :
    ∃ checks final, (owners.map fun owner ↦ (chain.rrset owner, some (signatures owner))).foldlM
      (collectItem check keys now) evidence budget =
        .ok (nsecEvidence chain evidence owners checks, final) := by
  induction owners generalizing evidence budget with
  | nil => exact ⟨evidence.checks, budget, pure_eq_ok.mpr ⟨by simp [nsecEvidence], rfl⟩⟩
  | cons owner rest ih =>
    have howner : owner ∈ zone.owners := howners owner List.mem_cons_self
    have hnext : (chain.next owner).IsSubdomain keys.name := by
      rw [hkeys]
      exact zone.isSubdomain_apex _ (chain.isSuccessor owner howner).next_mem
    have hnew : owner ∉ evidence.nsec.map Prod.fst := hfresh owner List.mem_cons_self
    simp only [List.length_cons] at hbudget
    obtain ⟨checked, between, hcheck, hexact, hspent⟩ :=
      hsigner.accepts owner howner budget (by omega)
    have hitem : collectItem check keys now evidence (chain.rrset owner, some (signatures owner))
        budget = .ok (nsecEvidence chain evidence [owner] (evidence.checks ++ [checked]),
          between) := by
      refine bind_eq_ok.mpr ⟨(), budget, raiseIf_eq_ok.mpr ⟨by simp [NsecChain.rrset], rfl⟩, ?_⟩
      refine bind_eq_ok.mpr ⟨checked, between, hcheck, pure_eq_ok.mpr ⟨?_, rfl⟩⟩
      rw [if_pos hexact]
      simp only [Evidence.take, NsecChain.rrset, NsecChain.record, hnext, hnew, not_true, or_self,
        if_false, nsecEvidence, List.map_cons, List.map_nil]
    obtain ⟨checks, final, hrest⟩ := ih
      (nsecEvidence chain evidence [owner] (evidence.checks ++ [checked]))
      (List.nodup_cons.mp hnodup).2 (fun other hother ↦ howners other (List.mem_cons_of_mem _ hother))
      (fun other hother ↦ by
        have hne : other ≠ owner := fun heq ↦ (List.nodup_cons.mp hnodup).1 (heq ▸ hother)
        simpa [nsecEvidence, hne] using hfresh other (List.mem_cons_of_mem _ hother))
      (show rest.length ≤ between.remaining by omega)
    refine ⟨checks, final, ?_⟩
    rw [List.map_cons, List.foldlM_cons]
    refine bind_eq_ok.mpr ⟨_, between, hitem, ?_⟩
    rw [hrest]
    simp [nsecEvidence]

/-- With NSEC evidence a closest encloser proof leads to the test of the kind. -/
theorem conclude_of_nsec {kind : Kind} {covering : DenialRecord} (hnsec : evidence.nsec ≠ [])
    (hproof : IsEncloserProof hasher evidence zone.apex name closest covering) :
    concludeFrom hasher evidence zone.apex name qtype kind (some closest) =
      concludeCovered hasher evidence zone.apex qtype kind closest covering := by
  have hcut : ¬ ((exactOf hasher evidence closest).any fun record ↦
      !authoritative record.windows) = true := by
    rw [Option.any_eq_true]
    rintro ⟨record, hexact, hcut⟩
    simp [hproof.authoritative record hexact] at hcut
  rw [concludeFrom, if_neg hproof.ne, conclude, exact_of_nsec hnsec, covers_of_nsec hnsec, pure_bind, if_neg hcut,
    pure_bind, hproof.covers]

/-- With NSEC evidence the expansion of a wildcard needs a closest encloser proof only. -/
theorem proveDenial_wildcard {covering : DenialRecord} (hnsec : evidence.nsec ≠ [])
    (habsent : exactOf hasher evidence name = none)
    (hscope : WildcardInScope zone.apex name closest.wildcard)
    (hproof : IsEncloserProof hasher evidence zone.apex name closest covering) :
    ∃ proof, proveDenial hasher evidence zone.apex name qtype .wildcard (some closest.wildcard) =
      pure proof ∧ proof.valid = true ∧ proof.closestEncloser = some closest := by
  refine ⟨{ valid := true, optOut := covering.optOut, checks := evidence.checks,
            closestEncloser := closest }, ?_, rfl, rfl⟩
  rw [proveDenial, exact_of_nsec hnsec, pure_bind, habsent]
  dsimp only
  rw [if_pos rfl, if_pos hscope]
  exact conclude_of_nsec hnsec hproof

/-- With NSEC evidence a name error needs a closest encloser proof from the endpoints and a record
that covers the wildcard. -/
theorem proveDenial_nxdomain {covering : DenialRecord} {wildcard : Option Name}
    (hnsec : evidence.nsec ≠ []) (habsent : exactOf hasher evidence name = none)
    (hclosest : closestEndpoint evidence zone.apex name = some closest)
    (hproof : IsEncloserProof hasher evidence zone.apex name closest covering)
    (hstar : coversOf hasher zone.apex evidence closest.wildcard ≠ none) :
    ∃ proof, proveDenial hasher evidence zone.apex name qtype .nxdomain wildcard = pure proof ∧
      proof.valid = true ∧ proof.closestEncloser = some closest := by
  refine ⟨{ valid := (coversOf hasher zone.apex evidence closest.wildcard).isSome,
            optOut := covering.optOut, checks := evidence.checks, closestEncloser := closest }, ?_,
    Option.isSome_iff_ne_none.mpr hstar, rfl⟩
  have hself : ¬ closestEndpoint evidence zone.apex name = some name := fun heq ↦
    hproof.ne (Option.some.inj (hclosest.symm.trans heq))
  unfold proveDenial
  rw [exact_of_nsec hnsec, pure_bind, habsent]
  dsimp only
  rw [if_neg (by decide), if_pos hnsec, if_neg hself, hclosest, conclude_of_nsec hnsec hproof,
    concludeCovered, covers_of_nsec hnsec, pure_bind]

/-- Owners of the chain whose records prove a claim make `validateDenial` accept it. -/
theorem validateDenial_of_chain (hasher : Nsec3Hasher) (qtype : RdataType) (kind : Kind)
    (wildcard : Option Name) (closest : Name) (hkeys : keys.name = zone.apex)
    (hsigner : IsCorrectSigner chain signatures check keys now) (hname : name.IsSubdomain zone.apex)
    {owners : List Name} (hnodup : owners.Nodup) (howners : ∀ owner ∈ owners, owner ∈ zone.owners)
    (hne : owners ≠ []) (hlimit : owners.length ≤ 64) (hkind : kind ≠ .unsignedDelegation)
    (hprove : ∀ checks, ∃ proof, proveDenial hasher (nsecEvidence chain {} owners checks) zone.apex
      name qtype kind wildcard = pure proof ∧ proof.valid = true ∧
        proof.closestEncloser = some closest) :
    ∃ budget final proof, proof.valid = true ∧ proof.closestEncloser = some closest ∧
      validateDenial check hasher name qtype kind
        (owners.map fun owner ↦ (chain.rrset owner, some (signatures owner))) keys now wildcard
          budget = .ok (proof, final) := by
  have hbudget : owners.length ≤ (CryptoBudget.mk owners.length).remaining := le_refl _
  obtain ⟨checks, final, hcollect⟩ := collect_chain {} hkeys hsigner hnodup howners
    (fun _ _ ↦ by simp) hbudget
  obtain ⟨proof, hproof, hvalid, hclosest⟩ := hprove checks
  refine ⟨CryptoBudget.mk owners.length, final, proof, hvalid, hclosest, ?_⟩
  have habsolute : name.isAbsolute = true := hname.1.trans zone.isAbsolute_apex
  have hnsec : (nsecEvidence chain {} owners checks).nsec ≠ [] := by simp [nsecEvidence, hne]
  have hscope : ¬ (¬ name.isAbsolute = true ∨ ¬ name.IsSubdomain keys.name ∨
      (owners.map fun owner ↦ (chain.rrset owner, some (signatures owner))).length > 64 ∨
      kind = .unsignedDelegation ∧ (qtype ≠ RdataType.ds ∨ name = keys.name)) := by
    simp [habsolute, hkeys, hname, hkind, hlimit]
  refine bind_eq_ok.mpr ⟨(), _, raiseIf_eq_ok.mpr ⟨hscope, rfl⟩, ?_⟩
  refine bind_eq_ok.mpr ⟨_, _, hcollect, ?_⟩
  rw [if_neg (by simp [nsecEvidence]), if_neg (fun h ↦ hnsec h.1)]
  refine bind_eq_ok.mpr ⟨_, _, get_eq_ok.mpr ⟨rfl, rfl⟩, ?_⟩
  rw [hkeys, hproof]
  rfl

/-- A record of the evidence whose gap contains a visible name covers it. -/
theorem coversOf_ne_none (hasher : Nsec3Hasher) (checks : List SignatureCheck) {owners : List Name}
    {owner : Name}
    (hmem : owner ∈ owners) (howner : owner ∈ zone.owners)
    (hgap : Covers owner (chain.next owner) name) (hvisible : ¬ (name.IsBelow owner ∧ zone.IsCut owner)) :
    coversOf hasher zone.apex (nsecEvidence chain {} owners checks) name ≠ none := by
  have hnsec : (nsecEvidence chain {} owners checks).nsec ≠ [] := by
    simp [nsecEvidence, List.ne_nil_of_mem hmem]
  rw [coversOf, if_pos hnsec]
  simp only [ne_eq, Option.map_eq_none_iff, List.find?_eq_none, not_forall, not_not]
  refine ⟨(owner, chain.record owner), ?_, (nsecCovers_iff howner).mpr ⟨hgap, hvisible⟩⟩
  exact List.mem_append_right _ (List.mem_map.mpr ⟨owner, hmem, rfl⟩)

/-- Records of owners of the chain are evidence from the chain. -/
theorem isNsecEvidence_of_owners (chain : NsecChain zone) (checks : List SignatureCheck)
    {owners : List Name} (hne : owners ≠ []) (howners : ∀ owner ∈ owners, owner ∈ zone.owners) :
    IsNsecEvidence chain (nsecEvidence chain {} owners checks) := by
  refine ⟨by simp [nsecEvidence, hne], fun owner record hmem ↦ ?_⟩
  simp only [nsecEvidence, List.nil_append, List.mem_map, Prod.mk.injEq] at hmem
  obtain ⟨other, hother, rfl, rfl⟩ := hmem
  exact ⟨howners other hother, rfl⟩

/-- The link of the chain whose gap contains a name of the zone that is no owner. -/
theorem exists_owner_covers (chain : NsecChain zone) (hname : name.IsSubdomain zone.apex) (habsent : name ∉ zone.owners) :
    ∃ owner ∈ zone.owners, Covers owner (chain.next owner) name ∧ owner < name := by
  obtain ⟨owner, next, hlink, hgap, hlt⟩ := Zone.exists_link_covers hname habsent
  have hsame : chain.next owner = next := (chain.isSuccessor owner hlink.mem).unique hlink
  exact ⟨owner, hlink.mem, hsame ▸ hgap, hlt⟩

/-- Evidence from the chain accepts the expansion of a wildcard around an empty non-terminal at the
next closer name. -/
theorem accepts_wildcard (hasher : Nsec3Hasher) (qtype : RdataType) (hkeys : keys.name = zone.apex)
    (hsigner : IsCorrectSigner chain signatures check keys now)
    (hwildcard : closest.wildcard ∈ zone.owners) (hbelow : name.IsBelow closest)
    (hne : name ≠ closest.wildcard) (hempty : zone.IsEmptyNonTerminal (nextCloser name closest))
    (hname : name.IsSubdomain zone.apex) :
    ∃ owner ∈ zone.owners, ∃ budget final proof, proof.valid = true ∧
      validateDenial check hasher name qtype .wildcard
        [(chain.rrset owner, some (signatures owner))] keys now (some closest.wildcard) budget =
          .ok (proof, final) := by
  obtain ⟨owner, howner, hgap, hlt⟩ :=
    exists_owner_covers chain hempty.1.1 hempty.2
  have howners : ∀ other ∈ [owner], other ∈ zone.owners := by simpa using howner
  obtain ⟨budget, final, proof, hvalid, -, hrun⟩ := validateDenial_of_chain hasher qtype
    .wildcard (some closest.wildcard) closest hkeys hsigner hname (List.nodup_singleton owner) howners (by simp) (by simp) (by decide)
    fun checks ↦ by
      have hevidence := isNsecEvidence_of_owners chain checks
        (List.cons_ne_nil owner []) howners
      obtain ⟨covering, hcovers⟩ := Option.ne_none_iff_exists'.mp
        (coversOf_ne_none hasher checks List.mem_cons_self howner hgap
          fun h ↦ Zone.isCut_not_exists_below h.2 hempty.1 h.1)
      refine proveDenial_wildcard hevidence.ne_nil ?_ ?_ ⟨hbelow.2.symm, ?_, hcovers⟩
      · have hother : owner ≠ name :=
          ne_of_lt (lt_of_lt_of_le hlt (isSubdomain_nextCloser hbelow).le)
        simp [exactOf, nsecEvidence, List.lookup, beq_eq_false_iff_ne.mpr hother.symm]
      · exact ⟨rfl, zone.isSubdomain_apex _ hwildcard, hne, hbelow.1⟩
      · intro record hexact
        obtain ⟨hclosest, rfl⟩ := exactOf_nsec hevidence hexact
        refine (authoritative_iff hclosest (chain.represents closest hclosest)).mpr fun hcut ↦ ?_
        exact Zone.isCut_not_exists_below hcut (Zone.exists_of_mem_owners hwildcard)
          (Name.wildcard_isBelow zone.isAbsolute_apex (zone.isSubdomain_apex closest hclosest))
  exact ⟨owner, howner, budget, final, proof, hvalid, hrun⟩

/-- Evidence from the chain accepts a name error at a wildcard that is an empty non-terminal. -/
theorem accepts_nxdomain (hasher : Nsec3Hasher) (qtype : RdataType) (hkeys : keys.name = zone.apex)
    (hsigner : IsCorrectSigner chain signatures check keys now)
    (hencloser : zone.IsClosestEncloser name closest) (habsent : ¬ zone.Exists name)
    (hempty : zone.IsEmptyNonTerminal closest.wildcard) (hname : name.IsSubdomain zone.apex) :
    ∃ owners : List Name, (∀ owner ∈ owners, owner ∈ zone.owners) ∧ ∃ budget final proof,
      proof.valid = true ∧ proof.closestEncloser = some closest ∧
        validateDenial check hasher name qtype .nxdomain
          (owners.map fun owner ↦ (chain.rrset owner, some (signatures owner))) keys now none budget =
            .ok (proof, final) := by
  have hne : closest ≠ name := fun heq ↦ habsent (heq ▸ hencloser.1)
  have hbelow : name.IsBelow closest := ⟨hencloser.2.1, hne.symm⟩
  have hstarBelow : closest.wildcard.IsBelow closest :=
    Name.wildcard_isBelow zone.isAbsolute_apex hencloser.1.1
  have hclosestCut : ¬ zone.IsCut closest := fun hcut ↦
    Zone.isCut_not_exists_below hcut hempty.1 hstarBelow
  have hnextZone : (nextCloser name closest).IsSubdomain zone.apex :=
    (nextCloser_isBelow hbelow).1.trans hencloser.1.1
  have hnextAbsent : nextCloser name closest ∉ zone.owners := fun howner ↦
    (nextCloser_isBelow hbelow).2 ((nextCloser_isBelow hbelow).1.antisymm
      (hencloser.2.2 _ (Zone.exists_of_mem_owners howner) (isSubdomain_nextCloser hbelow)))
  obtain ⟨first, hfirst, hfirstGap, -⟩ := exists_owner_covers chain hnextZone hnextAbsent
  obtain ⟨second, hsecond, hsecondGap, -⟩ :=
    exists_owner_covers chain hempty.1.1 hempty.2
  have hvisible : ¬ ((nextCloser name closest).IsBelow first ∧ zone.IsCut first) := by
    rintro ⟨hlower, hcut⟩
    have hupper : closest.IsSubdomain first := hencloser.2.2 first
      (Zone.exists_of_mem_owners hfirst) ((isSubdomain_nextCloser hbelow).trans hlower.1)
    by_cases heq : closest = first
    · exact hclosestCut (heq ▸ hcut)
    · exact Zone.isCut_not_exists_below hcut hencloser.1 ⟨hupper, heq⟩
  have hmemFirst : first ∈ [first, second].dedup := by simp
  have hmemSecond : second ∈ [first, second].dedup := by simp
  have howners : ∀ owner ∈ [first, second].dedup, owner ∈ zone.owners := by
    intro owner howner
    rcases List.mem_pair.mp (List.mem_dedup.mp howner) with rfl | rfl
    · exact hfirst
    · exact hsecond
  have hnil : [first, second].dedup ≠ [] := List.ne_nil_of_mem hmemFirst
  have hlimit : [first, second].dedup.length ≤ 64 :=
    (List.dedup_sublist _).length_le.trans (by simp)
  obtain ⟨budget, final, proof, hvalid, hclosest, hrun⟩ := validateDenial_of_chain hasher qtype
    .nxdomain none closest hkeys hsigner hname (List.nodup_dedup _) howners hnil hlimit (by decide) fun checks ↦ by
      have hevidence := isNsecEvidence_of_owners chain checks hnil howners
      obtain ⟨covering, hcovers⟩ := Option.ne_none_iff_exists'.mp
        (coversOf_ne_none hasher checks hmemFirst hfirst hfirstGap hvisible)
      have hstar := coversOf_ne_none hasher checks hmemSecond hsecond
        hsecondGap fun h ↦ Zone.isCut_not_exists_below h.2 hempty.1 h.1
      refine proveDenial_nxdomain hevidence.ne_nil ?_ ?_ ⟨hne, ?_, hcovers⟩ hstar
      · refine Option.eq_none_iff_forall_ne_some.mpr fun record hexact ↦ ?_
        exact habsent (Zone.exists_of_mem_owners (exactOf_nsec hevidence hexact).1)
      · obtain ⟨endpoint, hendpoint, hsub⟩ := exists_endpoint_of_covers hevidence hstar hempty.1
        exact closestEndpoint_eq hevidence hname hencloser hendpoint (hsub.trans hstarBelow.1)
      · intro record hexact
        obtain ⟨hclosest, rfl⟩ := exactOf_nsec hevidence hexact
        exact (authoritative_iff hclosest (chain.represents closest hclosest)).mpr hclosestCut
  exact ⟨_, howners, budget, final, proof, hvalid, hclosest, hrun⟩

/-- An accepted expansion of a wildcard has a covered next closer name. -/
theorem IsValidDenial.wildcard_covers {items : List (RRset × Option RRset)} {reported : Option Name}
    (hproof : IsValidDenial check hasher name qtype .wildcard items keys now (some closest.wildcard)
      reported evidence) :
    name.IsBelow closest ∧ name ≠ closest.wildcard ∧
      coversOf hasher keys.name evidence (nextCloser name closest) ≠ none := by
  cases hproof.proven with
  | delegation record hkind => cases hkind
  | nodata record hkind => cases hkind
  | emptyNonTerminal hkind => cases hkind
  | encloser found covering hfound hencloser hconcluded =>
    cases hfound with
    | endpoint _ hkind => exact absurd rfl hkind
    | matching _ hkind => exact absurd rfl hkind
    | scope source _ hsource hscope =>
      obtain rfl := Option.some.inj hsource
      exact ⟨⟨hscope.2.2.2, hencloser.ne.symm⟩, hscope.2.2.1,
        Option.ne_none_iff_exists'.mpr ⟨covering, hencloser.covers⟩⟩

/-- An accepted name error has the closest encloser it reports, and a covered wildcard. -/
theorem IsValidDenial.nxdomain_covers {items : List (RRset × Option RRset)} {wildcard : Option Name}
    {reported : Option Name} (hkeys : keys.name = zone.apex)
    (hevidence : IsNsecEvidence chain evidence) (hname : name.IsSubdomain zone.apex)
    (hproof : IsValidDenial check hasher name qtype .nxdomain items keys now wildcard reported
      evidence) (hreported : reported = some closest) :
    zone.IsClosestEncloser name closest ∧ ¬ zone.Exists name ∧
      coversOf hasher zone.apex evidence closest.wildcard ≠ none := by
  have hproven := hproof.proven
  rw [hkeys] at hproven
  cases hproven with
  | delegation record hkind => cases hkind
  | nodata record hkind => cases hkind
  | emptyNonTerminal hkind => cases hkind
  | encloser found covering hfound hencloser hconcluded =>
    obtain rfl := Option.some.inj hreported
    cases hfound with
    | scope source hkind => cases hkind
    | matching _ _ hnil => exact absurd hnil hevidence.ne_nil
    | endpoint _ _ _ hclosest =>
      obtain ⟨hencloses, habsent, -⟩ := isClosestEncloser_of_covers hevidence hname hclosest hencloser
      exact ⟨hencloses, habsent, hconcluded⟩

/-- No genuine records are replayed against an empty non-terminal exactly where none hides at a next
closer name below a wildcard's parent or at the wildcard of the closest encloser. -/
theorem validateDenial_nsec_wildcard_iff (hkeys : keys.name = zone.apex)
    (hsigner : IsCorrectSigner chain signatures check keys now) :
    RespectsEmptyNonTerminals chain signatures check hasher keys now name qtype ↔
      NoHiddenEmptyNonTerminal zone name := by
  constructor
  · intro hrespects
    refine ⟨fun closest hwildcard hbelow hne hempty ↦ ?_, fun closest hencloser habsent hempty ↦ ?_⟩
    · have hname : name.IsSubdomain zone.apex :=
        (isSubdomain_nextCloser hbelow).trans hempty.1.1
      obtain ⟨owner, howner, budget, final, proof, hvalid, hrun⟩ := accepts_wildcard
        hasher qtype hkeys hsigner hwildcard hbelow hne hempty hname
      have hright := (hrespects _ (by simpa using ⟨owner, howner, rfl, rfl⟩) budget final proof hvalid
        closest).1 hwildcard hrun
      exact hright.2 _ (isSubdomain_nextCloser hbelow) (nextCloser_isBelow hbelow) hempty.1
    · have hname : name.IsSubdomain zone.apex := hencloser.2.1.trans hencloser.1.1
      obtain ⟨owners, howners, budget, final, proof, hvalid, hclosest, hrun⟩ := accepts_nxdomain
        hasher qtype hkeys hsigner hencloser habsent hempty hname
      refine (hrespects _ (fun item hitem ↦ ?_) budget final proof hvalid closest).2 none hrun hclosest
        hempty.1
      obtain ⟨owner, howner, rfl⟩ := List.mem_map.mp hitem
      exact ⟨owner, howners owner howner, rfl⟩
  · intro hcondition items hitems budget final proof hvalid closest
    refine ⟨fun hwildcard hrun ↦ ?_, fun wildcard hrun hclosest hexists ↦ ?_⟩
    · obtain ⟨evidence, hproof⟩ := validateDenial_valid hrun hvalid
      obtain ⟨hbelow, hne, hcovers⟩ := hproof.wildcard_covers
      have hname : name.IsSubdomain zone.apex := hkeys ▸ hproof.isSubdomain
      have hevidence := isNsecEvidence_of_valid hsigner.only hproof
      rw [hkeys] at hcovers
      have habsent := not_mem_owners_of_coversOf hevidence hcovers
      have hzone := isSubdomain_apex_of_wildcard hname hbelow (zone.isSubdomain_apex _ hwildcard)
        fun heq ↦ habsent (heq ▸ zone.apex_mem)
      have hnext : ¬ zone.Exists (nextCloser name closest) := fun hexists ↦
        hcondition.1 closest hwildcard hbelow hne ⟨hexists, habsent⟩
      have hexists : zone.Exists closest := (Zone.exists_of_mem_owners hwildcard).of_isSubdomain
        (Name.wildcard_isBelow zone.isAbsolute_apex hzone).1 hzone
      refine ⟨(isClosestEncloser_of_not_exists hexists hbelow hnext).1, fun other hother hlower hlives ↦ ?_⟩
      exact hnext (hlives.of_isSubdomain (nextCloser_isSubdomain hbelow hother hlower)
        ((nextCloser_isBelow hbelow).1.trans hzone))
    · obtain ⟨evidence, hproof⟩ := validateDenial_valid hrun hvalid
      have hname : name.IsSubdomain zone.apex := hkeys ▸ hproof.isSubdomain
      have hevidence := isNsecEvidence_of_valid hsigner.only hproof
      obtain ⟨hencloser, habsent, hstar⟩ := hproof.nxdomain_covers hkeys hevidence hname hclosest
      exact hcondition.2 closest hencloser habsent
        ⟨hexists, not_mem_owners_of_coversOf hevidence hstar⟩

end Replays

/-- The signer of the small zone is correct. -/
theorem Example.isCorrectSigner_check (now : ℚ) :
    IsCorrectSigner Dns.Example.chain (fun _ ↦ Example.keys) Example.check Example.keys now := by
  refine ⟨Example.acceptsOnly_check now, fun owner howner budget hbudget ↦ ?_⟩
  have hpublished : Dns.Example.chain.Publishes (Dns.Example.chain.rrset owner) := ⟨howner, rfl⟩
  refine ⟨{ verified := [Example.path] }, ⟨budget.remaining - 1⟩, ?_, rfl, by simp; omega⟩
  refine bind_eq_ok.mpr ⟨(), ⟨budget.remaining - 1⟩, ?_, ?_⟩
  · refine bind_eq_ok.mpr ⟨(), budget, raiseIf_eq_ok.mpr ⟨by decide, rfl⟩, ?_⟩
    refine bind_eq_ok.mpr ⟨budget, budget, get_eq_ok.mpr ⟨rfl, rfl⟩, ?_⟩
    refine bind_eq_ok.mpr ⟨(), budget, raiseIf_eq_ok.mpr ⟨by omega, rfl⟩, ?_⟩
    exact set_eq_ok.mpr rfl
  · rw [if_pos hpublished]
    exact pure_eq_ok.mpr ⟨rfl, rfl⟩

/-- In the small zone a wildcard answer is accepted although the empty non-terminal `b.z.` lies
between the question name and the wildcard. -/
theorem not_respectsEmptyNonTerminals_example :
    ¬ RespectsEmptyNonTerminals Dns.Example.chain (fun _ ↦ Example.keys) Example.check
      (fun _ _ _ ↦ []) Example.keys 1 (.ofTexts ["c", "b", "z"]) 1 := by
  intro hrespects
  have hright := (hrespects
    [(Dns.Example.chain.rrset Dns.Example.star, some Example.keys)]
    (fun item hitem ↦ ⟨Dns.Example.star, by decide, List.mem_singleton.mp hitem⟩) {} _ _ rfl
    Dns.Example.apex).1 (by decide) rfl
  refine hright.2 (.ofTexts ["b", "z"]) (by decide) (by decide) ⟨by decide, Dns.Example.leaf, ?_⟩
  decide

/-- In the small zone the question for `y.z.` is answered from its wildcard and nothing hides. -/
theorem validateDenial_nsec_wildcard_iff_example :
    RespectsEmptyNonTerminals Dns.Example.chain (fun _ ↦ Example.keys) Example.check
      (fun _ _ _ ↦ []) Example.keys 1 (.ofTexts ["y", "z"]) 1 ↔
        NoHiddenEmptyNonTerminal Dns.Example.zone (.ofTexts ["y", "z"]) :=
  validateDenial_nsec_wildcard_iff rfl (Example.isCorrectSigner_check 1)

end Ads.SandboxEgress
