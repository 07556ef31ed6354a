import Ads.SandboxEgress.NsecDenial

/-!
# Denial from NSEC3 records

What `validateDenial` proves from records of a zone's genuine NSEC3 chain without Opt-Out. A match
is the record of the name itself, as no two names that matter share a hash, and a covered name does
not exist (`not_exists_of_coversOf_nsec3`). The closest encloser has a match that shows no cut, so
the whole claim follows from the next closer name (`validateDenial_nsec3_sound`).
-/

set_option autoImplicit false
set_option relaxedAutoImplicit false

namespace Ads.SandboxEgress

open Dns Foundation.CircularChain Foundation.StateExcept Python

/-- The names a denial for a question name hashes or compares with: the names that exist, the
ancestors of the question name and their wildcards. -/
def Relevant (zone : Zone) (name : Name) : Set Name :=
  {other | other.IsSubdomain zone.apex ∧ (zone.Exists other ∨ name.IsSubdomain other ∨
    ∃ above, name.IsSubdomain above ∧ other = above.wildcard)}

section Evidence

variable {zone : Zone} {chain : Nsec3Chain zone} {check : SignatureChecker} {hasher : Nsec3Hasher}
  {evidence : Evidence} {name closest other : Name} {qtype : RdataType} {kind : Kind}
  {items : List (RRset × Option RRset)} {keys : RRset} {now : ℚ} {wildcard : Option Name}

/-- The hasher computes the texts of the chain's hashes. -/
def Computes (hasher : Nsec3Hasher) (chain : Nsec3Chain zone) : Prop :=
  ∀ name, b32hexdecode (hasher name chain.salt chain.iterations) = some (chain.hash name)

/-- The evidence consists of NSEC3 records of the chain. -/
structure IsNsec3Evidence (chain : Nsec3Chain zone) (evidence : Evidence) : Prop where
  /-- There are no NSEC records. -/
  nsec_eq_nil : evidence.nsec = []
  /-- The parameters are the chain's. -/
  parameters : evidence.parameters = some (chain.iterations, chain.salt)
  /-- Every record is the chain's at an existing name. -/
  genuine : ∀ owner record, (owner, record) ∈ evidence.nsec3 →
    ∃ existing, zone.Exists existing ∧ owner = chain.hash existing ∧ record = chain.record existing

/-- The evidence of a valid denial from a zone that publishes an NSEC3 chain. -/
theorem isNsec3Evidence_of_valid {reported : Option Name}
    (honly : AcceptsOnly check keys now chain.Publishes)
    (hvalid : IsValidDenial check hasher name qtype kind items keys now wildcard reported evidence) :
    IsNsec3Evidence chain evidence := by
  have hgenuine : ∀ rrset, Accepted check keys now items rrset → chain.Publishes rrset := by
    rintro rrset ⟨htype, signatures, budget, checked, final, -, hcheck, hexact⟩
    exact honly rrset signatures budget checked final htype hcheck hexact
  have hrecords : ∀ owner record, (owner, record) ∈ evidence.nsec3 →
      evidence.parameters = some (chain.iterations, chain.salt) ∧
        ∃ existing, zone.Exists existing ∧ owner = chain.hash existing ∧
          record = chain.record existing := by
    intro owner record hmem
    obtain ⟨hparameters, rrset, haccepted, howner, hrecords⟩ :=
      hvalid.gathered.nsec3 owner record hmem
    obtain ⟨existing, label, hexists, hname, hlabel, hpublished⟩ := hgenuine rrset haccepted
    rw [hrecords] at hpublished
    obtain rfl : record = chain.record existing := by simpa using hpublished
    refine ⟨hparameters, existing, hexists, ?_, rfl⟩
    rw [hname] at howner
    unfold nsec3Owner at howner
    dsimp only [List.headD_cons] at howner
    split_ifs at howner
    exact Option.some.inj (howner.symm.trans hlabel)
  have hnsec : evidence.nsec = [] := by
    refine List.eq_nil_iff_forall_not_mem.mpr fun ⟨owner, record⟩ hmem ↦ ?_
    obtain ⟨rrset, haccepted, -, hnsec⟩ := hvalid.gathered.nsec owner record hmem
    obtain ⟨existing, label, -, -, -, hpublished⟩ := hgenuine rrset haccepted
    rw [hnsec] at hpublished
    simp at hpublished
  have hnsec3 : evidence.nsec3 ≠ [] := hvalid.nonempty.resolve_left (not_not.mpr hnsec)
  obtain ⟨⟨owner, record⟩, hmem⟩ := List.exists_mem_of_ne_nil _ hnsec3
  exact ⟨hnsec, (hrecords owner record hmem).1, fun owner record hmem ↦ (hrecords owner record hmem).2⟩

/-- The hash of a name under the parameters of the evidence is the chain's. -/
theorem digestOf_nsec3 (hevidence : IsNsec3Evidence chain evidence) (hhasher : Computes hasher chain) :
    digestOf hasher evidence name = some (chain.hash name) := by
  simp [digestOf, hevidence.parameters, hhasher name]

/-- A match is the record of the name. -/
theorem exactOf_nsec3 (hevidence : IsNsec3Evidence chain evidence)
    (hhasher : Computes hasher chain) (hinjective : Set.InjOn chain.hash (Relevant zone name))
    (hother : other ∈ Relevant zone name) {found : DenialRecord}
    (hexact : exactOf hasher evidence other = some found) :
    zone.Exists other ∧ found = .nsec3 (chain.record other) := by
  rw [exactOf, if_neg (not_not.mpr hevidence.nsec_eq_nil), digestOf_nsec3 hevidence hhasher] at hexact
  obtain ⟨record, hlookup, rfl⟩ := Option.map_eq_some_iff.mp hexact
  obtain ⟨existing, hexists, hhash, rfl⟩ := hevidence.genuine _ record (mem_of_lookup hlookup)
  obtain rfl := hinjective hother ⟨hexists.1, Or.inl hexists⟩ hhash
  exact ⟨hexists, rfl⟩

/-- A covered name lies in the gap of a record without Opt-Out. -/
theorem exists_record_of_coversOf_nsec3 (hevidence : IsNsec3Evidence chain evidence)
    (hhasher : Computes hasher chain) {found : DenialRecord}
    (hcovers : coversOf hasher zone.apex evidence name = some found) :
    found.optOut = false ∧ ∃ existing, zone.Exists existing ∧
      Covers (chain.hash existing) (chain.next existing) (chain.hash name) := by
  rw [coversOf, if_neg (not_not.mpr hevidence.nsec_eq_nil), digestOf_nsec3 hevidence hhasher]
    at hcovers
  obtain ⟨⟨owner, record⟩, hfind, rfl⟩ := Option.map_eq_some_iff.mp hcovers
  obtain ⟨existing, hexists, rfl, rfl⟩ :=
    hevidence.genuine owner record (List.mem_of_find?_eq_some hfind)
  refine ⟨by simp [DenialRecord.optOut, Nsec3Chain.record], existing, hexists, ?_⟩
  have htest := List.find?_some hfind
  unfold nsec3Covers at htest
  split_ifs at htest with hend
  exact ⟨fun heq ↦ hend (Or.inl heq), fun heq ↦ hend (Or.inr heq), of_decide_eq_true htest⟩

/-- A covered name does not exist. -/
theorem not_exists_of_coversOf_nsec3 (hevidence : IsNsec3Evidence chain evidence)
    (hhasher : Computes hasher chain)
    (hcovers : coversOf hasher zone.apex evidence name ≠ none) : ¬ zone.Exists name := by
  intro hname
  obtain ⟨found, hfound⟩ := Option.ne_none_iff_exists'.mp hcovers
  obtain ⟨-, existing, hexists, hgap⟩ := exists_record_of_coversOf_nsec3 hevidence hhasher hfound
  exact not_mem_of_covers (chain.isSuccessor existing hexists) hgap ⟨name, hname, rfl⟩

/-- A match at a name of the zone shows no cut if it shows authority. -/
theorem not_isCut_of_authoritative (hauthoritative : authoritative (chain.windows name) = true) :
    ¬ zone.IsCut name := by
  intro hcut
  exact (authoritative_iff hcut.1 (chain.represents name (Zone.exists_of_mem_owners hcut.1))).mp
    hauthoritative hcut

/-- A closest encloser proof from a match. -/
theorem isClosestEncloser_of_match (hevidence : IsNsec3Evidence chain evidence)
    (hhasher : Computes hasher chain) (hinjective : Set.InjOn chain.hash (Relevant zone name))
    (hname : name.IsSubdomain zone.apex) (hmem : closest ∈ ancestors name zone.apex)
    (hmatch : exactOf hasher evidence closest ≠ none) {covering : DenialRecord}
    (hproof : IsEncloserProof hasher evidence zone.apex name closest covering) :
    zone.IsClosestEncloser name closest ∧ ¬ zone.Exists name ∧
      ∀ cut, zone.IsCut cut → ¬ name.IsBelow cut := by
  obtain ⟨hsub, hzone⟩ := (mem_ancestors hname).mp hmem
  obtain ⟨found, hexact⟩ := Option.ne_none_iff_exists'.mp hmatch
  obtain ⟨hexists, rfl⟩ :=
    exactOf_nsec3 hevidence hhasher hinjective ⟨hzone, Or.inr (Or.inl hsub)⟩ hexact
  have hbelow : name.IsBelow closest := ⟨hsub, hproof.ne.symm⟩
  have habsent : ¬ zone.Exists (nextCloser name closest) :=
    not_exists_of_coversOf_nsec3 hevidence hhasher (by simp [hproof.covers])
  obtain ⟨hencloser, hdenied⟩ := isClosestEncloser_of_not_exists hexists hbelow habsent
  refine ⟨hencloser, hdenied, fun cut hcut hcutBelow ↦ ?_⟩
  have hupper : closest.IsSubdomain cut :=
    hencloser.2.2 cut (Zone.exists_of_mem_owners hcut.1) hcutBelow.1
  by_cases heq : closest = cut
  · exact not_isCut_of_authoritative (hproof.authoritative _ hexact) (heq ▸ hcut)
  · exact Zone.isCut_not_exists_below hcut hexists ⟨hupper, heq⟩

/-- The expansion of a wildcard is right where the next closer name is covered. -/
theorem isExpansion_of_covers (hevidence : IsNsec3Evidence chain evidence)
    (hhasher : Computes hasher chain) (hname : name.IsSubdomain zone.apex) {source : Name}
    (hscope : WildcardInScope zone.apex name source) {covering : DenialRecord}
    (hproof : IsEncloserProof hasher evidence zone.apex name source.parent covering) :
    zone.IsExpansion name source := by
  obtain ⟨hstar, hzone, -, hsub⟩ := hscope
  have hbelow : name.IsBelow source.parent := ⟨hsub, hproof.ne.symm⟩
  have habsent : ¬ zone.Exists (nextCloser name source.parent) :=
    not_exists_of_coversOf_nsec3 hevidence hhasher (by simp [hproof.covers])
  have hsource : source.parent.wildcard = source := by
    refine Name.ext ?_
    obtain ⟨rest, hlabels⟩ := List.head?_eq_some_iff.mp hstar
    simp [Name.parent, Name.wildcard, hlabels]
  have hparent : source.parent.IsSubdomain zone.apex :=
    isSubdomain_apex_of_wildcard hname hbelow (hsource.symm ▸ hzone) fun heq ↦
      habsent (heq ▸ Zone.exists_apex)
  refine ⟨hstar, hbelow, fun other hother hlower hexists ↦ ?_⟩
  exact habsent (hexists.of_isSubdomain (nextCloser_isSubdomain hbelow hother hlower)
    ((nextCloser_isBelow hbelow).1.trans hparent))

end Evidence

/-- Every valid proof from genuine NSEC3 records without Opt-Out is right, and the closest encloser
it reports is the longest existing ancestor. For the expansion of a wildcard the source of the
closest encloser is the wildcard, whose parent exists if the wildcard does. -/
theorem validateDenial_nsec3_sound {zone : Zone} {chain : Nsec3Chain zone}
    {check : SignatureChecker} {hasher : Nsec3Hasher} {name : Name} {qtype : RdataType} {kind : Kind}
    {items : List (RRset × Option RRset)} {keys : RRset} {now : ℚ} {wildcard : Option Name}
    {budget final : CryptoBudget} {proof : DenialProof}
    (hkeys : keys.name = zone.apex) (honly : AcceptsOnly check keys now chain.Publishes)
    (hhasher : Computes hasher chain) (hinjective : Set.InjOn chain.hash (Relevant zone name))
    (hrun : validateDenial check hasher name qtype kind items keys now wildcard budget =
      .ok (proof, final))
    (hvalid : proof.valid = true) :
    Claim zone name qtype wildcard kind ∧ ∀ closest, proof.closestEncloser = some closest →
      (kind = .wildcard → zone.Exists closest) → zone.IsClosestEncloser name closest := by
  obtain ⟨evidence, hproof⟩ := validateDenial_valid hrun hvalid
  have hevidence := isNsec3Evidence_of_valid honly hproof
  have hname : name.IsSubdomain zone.apex := hkeys ▸ hproof.isSubdomain
  have hself : name ∈ Relevant zone name := ⟨hname, Or.inr (Or.inl (.refl _))⟩
  have hproven := hproof.proven
  rw [hkeys] at hproven
  generalize proof.closestEncloser = reported at hproven
  cases hproven with
  | delegation record hdelegation hexact hshown =>
    subst hdelegation
    obtain ⟨hexists, rfl⟩ := exactOf_nsec3 hevidence hhasher hinjective hself hexact
    exact ⟨unsignedDelegation_of_delegation (chain.represents name hexists) hshown, nofun⟩
  | nodata record hnodata hexact hshown =>
    subst hnodata
    obtain ⟨hexists, rfl⟩ := exactOf_nsec3 hevidence hhasher hinjective hself hexact
    exact ⟨noData_of_nodata hexists (chain.represents name hexists) hshown, nofun⟩
  | emptyNonTerminal _ hnsec => exact absurd hevidence.nsec_eq_nil hnsec
  | encloser closest covering hfound hencloser hconcluded =>
    obtain ⟨hoptOut, -⟩ := exists_record_of_coversOf_nsec3 hevidence hhasher hencloser.covers
    cases hfound with
    | endpoint _ _ hnsec => exact absurd hevidence.nsec_eq_nil hnsec
    | scope source hwildcard hsource hscope =>
      subst hwildcard
      have hexpansion := isExpansion_of_covers hevidence hhasher hname hscope hencloser
      refine ⟨⟨source, hsource, hexpansion⟩, fun closest hclosest hexists ↦ ?_⟩
      obtain rfl := Option.some.inj hclosest
      refine (isClosestEncloser_of_not_exists (hexists rfl) hexpansion.2.1 ?_).1
      exact hexpansion.2.2 _ (isSubdomain_nextCloser hexpansion.2.1)
        (nextCloser_isBelow hexpansion.2.1)
    | matching _ hkind _ hmem hmatch =>
      obtain ⟨hencloses, habsent, hcuts⟩ := isClosestEncloser_of_match hevidence hhasher hinjective
        hname hmem hmatch hencloser
      refine ⟨?_, fun other hother _ ↦ Option.some.inj hother ▸ hencloses⟩
      cases kind with
      | wildcard => exact absurd rfl hkind
      | unsignedDelegation => simp [hoptOut, Concluded] at hconcluded
      | nodata => simp [hoptOut, Concluded] at hconcluded
      | nxdomain =>
        refine ⟨habsent, hcuts, fun other hother howner ↦ ?_⟩
        rw [hother.unique hencloses] at howner
        exact not_exists_of_coversOf_nsec3 hevidence hhasher hconcluded
          (Zone.exists_of_mem_owners howner)
      | wildcardNodata =>
        obtain ⟨record, hexact, hshown⟩ := hconcluded
        have hstar : closest.wildcard ∈ Relevant zone name :=
          ⟨(Name.wildcard_isBelow zone.isAbsolute_apex hencloses.1.1).1.trans hencloses.1.1,
            Or.inr (Or.inr ⟨closest, hencloses.2.1, rfl⟩)⟩
        obtain ⟨hexists, rfl⟩ := exactOf_nsec3 hevidence hhasher hinjective hstar hexact
        exact ⟨habsent, hcuts, closest, hencloses,
          noData_of_nodata hexists (chain.represents _ hexists) hshown⟩

namespace Example

open Dns.Example

/-- The names that exist in the small zone. -/
def existing : List Name := [apex, star, .ofTexts ["b", "z"], leaf]

/-- The question name. -/
def question : Name := .ofTexts ["c", "a", "b", "z"]

/-- The names that matter for the question. -/
def relevant : List Name :=
  existing ++ [question, leaf.wildcard, Name.wildcard (.ofTexts ["b", "z"]), question.wildcard]

/-- The text of the hash of a name: its place among the names that matter. -/
def text (name : Name) : Bytes :=
  List.replicate 31 48 ++ [Fin.ofNat 256 (48 + relevant.idxOf name)]

/-- The hash of a name. -/
def hash (name : Name) : Bytes :=
  (b32hexdecode (text name)).getD []

/-- The existing names are the ancestors of the owners. -/
theorem exists_iff {name : Name} : zone.Exists name ↔ name ∈ existing := by
  have hlisted : ∀ owner ∈ zone.owners, ∀ other ∈ ancestors owner apex, other ∈ existing := by decide
  have howned : ∀ other ∈ existing, other.IsSubdomain apex ∧
      ∃ owner ∈ zone.owners, owner.IsSubdomain other := by decide
  refine ⟨fun ⟨hzone, owner, howner, hsub⟩ ↦ ?_, howned name⟩
  exact hlisted owner howner name
    ((mem_ancestors (zone.isSubdomain_apex owner howner)).mpr ⟨hsub, hzone⟩)

/-- The next name in the order of the hashes. -/
def following (name : Name) : Name :=
  existing.getD (existing.idxOf name + 1) apex

/-- The NSEC3 chain of the small zone. -/
def hashedChain : Nsec3Chain zone where
  iterations := 0
  salt := []
  hash := hash
  next name := hash (following name)
  windows name := if name = apex then [(0, [34])] else if name ∈ zone.owners then [(0, [64])] else []
  isSuccessor := by
    have himage : hash '' {name | zone.Exists name} = ((existing.map hash).toFinset : Set Bytes) := by
      ext digest
      simp [exists_iff]
    have hlinks : ∀ name ∈ existing, IsSuccessor ((existing.map hash).toFinset : Set Bytes)
        (hash name) (hash (following name)) := by decide
    intro name hname
    rw [himage]
    exact hlinks name (exists_iff.mp hname)
  represents := by
    intro name hname
    have hmem : name ∈ existing := exists_iff.mp hname
    simp only [existing, List.mem_cons, List.not_mem_nil, or_false] at hmem
    rcases hmem with rfl | rfl | rfl | rfl
    · exact represents_octet (by decide) (by decide)
    · exact represents_octet (by decide) (by decide)
    · have htypes : zone.types (.ofTexts ["b", "z"]) = ∅ := by decide
      have hwindows : (if Name.ofTexts ["b", "z"] = apex then [(0, [34])]
          else if Name.ofTexts ["b", "z"] ∈ zone.owners then [(0, [64])] else []) =
            ([] : Windows) := by decide
      intro kind
      rw [htypes, hwindows]
      simp
    · exact represents_octet (by decide) (by decide)

/-- The RRset of the chain at an existing name. -/
def hashedRrset (name : Name) : RRset :=
  { name := ⟨text name :: apex.labels⟩, rdclass := 1, rdtype := RdataType.nsec3,
    covers := RdataType.none, ttl := 3600, records := [.nsec3 (hashedChain.record name)] }

/-- The check of a correct signer of the chain. -/
def hashedCheck : SignatureChecker := fun rrset _ _ _ ↦ do
  CryptoBudget.consume 1
  return if rrset ∈ existing.map hashedRrset then { verified := [path] } else {}

/-- The signer accepts the chain only. -/
theorem acceptsOnly_hashedCheck (now : ℚ) :
    AcceptsOnly hashedCheck keys now hashedChain.Publishes := by
  have hlabels : ∀ name ∈ existing, b32hexdecode (upper (text name)) = some (hash name) := by decide
  intro rrset signatures budget checked final _ hrun hexact
  obtain ⟨_, between, -, hrun⟩ := bind_eq_ok.mp hrun
  obtain ⟨rfl, -⟩ := pure_eq_ok.mp hrun
  have hmem : rrset ∈ existing.map hashedRrset := by
    by_contra hnot
    simp [hnot, SignatureCheck.verifiedExactly] at hexact
  obtain ⟨name, hname, rfl⟩ := List.mem_map.mp hmem
  exact ⟨name, text name, exists_iff.mpr hname, rfl, hlabels name hname, rfl⟩

/-- The hasher computes the texts. -/
theorem computes_text : Computes (fun name _ _ ↦ text name) hashedChain := by
  have hdecodes : ∀ place < 9, (b32hexdecode
      (List.replicate 31 48 ++ [Fin.ofNat 256 (48 + place)])).isSome := by decide
  intro name
  have hplace : relevant.idxOf name < 9 := Nat.lt_succ_of_le List.idxOf_le_length
  obtain ⟨digest, hdigest⟩ := Option.isSome_iff_exists.mp (hdecodes _ hplace)
  change b32hexdecode (text name) = some ((b32hexdecode (text name)).getD [])
  rw [text, hdigest]
  rfl

/-- The names that matter for the question are the listed ones. -/
theorem mem_relevant {name : Name} (hname : name ∈ Relevant zone question) : name ∈ relevant := by
  have hancestors : ∀ other ∈ ancestors question apex,
      other ∈ relevant ∧ other.wildcard ∈ relevant := by decide
  have hquestion : question.IsSubdomain apex := by decide
  obtain ⟨hzone, hexists | habove | ⟨above, habove, rfl⟩⟩ := hname
  · exact List.mem_append_left _ (exists_iff.mp hexists)
  · exact (hancestors name ((mem_ancestors hquestion).mpr ⟨habove, hzone⟩)).1
  · have hne : above.wildcard ≠ apex := fun heq ↦ by
      have hlabel := congrArg (fun other ↦ other.labels.head?) heq
      exact absurd hlabel (by simp [Name.wildcard]; decide)
    have habove' : above.IsSubdomain apex := isSubdomain_tail hzone hne
    exact (hancestors above ((mem_ancestors hquestion).mpr ⟨habove, habove'⟩)).2

/-- The names that matter for the question have different hashes. -/
theorem injOn_hash : Set.InjOn hashedChain.hash (Relevant zone question) := by
  have hdifferent : ∀ first ∈ relevant, ∀ second ∈ relevant, hash first = hash second →
      first = second := by decide
  intro first hfirst second hsecond hhash
  exact hdifferent first (mem_relevant hfirst) second (mem_relevant hsecond) hhash

end Example

/-- A name below the last owner of the small zone is denied by the match at that owner, whose record
closes the chain. -/
theorem validateDenial_nsec3_sound_example :
    Dns.Example.zone.NameError Example.question := by
  have hrun : ∃ pair, validateDenial Example.hashedCheck (fun name _ _ ↦ Example.text name)
      Example.question 1 .nxdomain [(Example.hashedRrset Dns.Example.leaf, none)] Example.keys 1
      none {} = .ok pair ∧ pair.1.valid = true := ⟨_, rfl, rfl⟩
  obtain ⟨⟨proof, final⟩, hrun, hvalid⟩ := hrun
  exact (validateDenial_nsec3_sound rfl (Example.acceptsOnly_hashedCheck 1) Example.computes_text
    Example.injOn_hash hrun hvalid).1

end Ads.SandboxEgress
