import Ads.SandboxEgress.DnssecAnswer

/-!
# Secure answers

What `classify` calls secure is authentic: every RRset on the alias chain of the question is signed
by a zone that chains to an anchor (`Authentic`), or is the CNAME that an authentic DNAME on the
chain generates, and a negative end is denied by records of the authentic zone. Neither the
Additional section nor the AD flag has a part in the classification (`classify_sound`).
-/

set_option autoImplicit false
set_option relaxedAutoImplicit false

namespace Ads.SandboxEgress

open Dns Foundation.StateExcept Python

variable {World : Type} {context : AnswerContext World}

/-! ### Authentic records -/

/-- A claim is denied by records of a section that keys vouch for, none of them Opt-Out. -/
def Denied (context : AnswerContext World) (authority : List RRset) (name : Name)
    (qtype : RdataType) (kind : Kind) (keys : RRset) (wildcard : Option Name) : Prop :=
  ∃ items now evidence proof budget final, (∀ item ∈ items, item.1 ∈ authority) ∧
    validateDenial (checkSignatures context.library) context.hasher name qtype kind items keys now
      wildcard budget = .ok (proof, final) ∧
    proof.valid = true ∧ proof.optOut = false ∧
    IsValidDenial (checkSignatures context.library) context.hasher name qtype kind items keys now
      wildcard proof.closestEncloser evidence

/-- A zone that chains to an anchor has signed an RRset: the RRset itself, or the wildcard that it
was expanded from, where the name itself is denied. -/
inductive Authentic (context : AnswerContext World) (authority : List RRset) (rrset : RRset) : Prop
  /-- The RRset is signed. -/
  | exact (zone : Name) (keys signatures : RRset) (now : ℚ) :
      Secured context.toChainContext zone keys → rrset.name.IsSubdomain zone →
      Vouches context.library rrset signatures keys now → Authentic context authority rrset
  /-- The wildcard is signed. -/
  | expanded (zone : Name) (keys signatures : RRset) (now : ℚ) (path : VerifiedSignature) :
      Secured context.toChainContext zone keys → rrset.name.IsSubdomain zone →
      rrset.rdtype ≠ RdataType.dname →
      IsVerifiedPath context.library rrset signatures keys now path → path.wildcard = true →
      Denied context authority rrset.name rrset.rdtype .wildcard keys
        (some (wildcardOf rrset.name path.signature.labels)) →
      Authentic context authority rrset

/-- The zones in the memo have results, and the judged records are known. -/
structure Judged (context : AnswerContext World) (records : List RecordAuthentication)
    (state : AnswerState World) : Prop where
  /-- The records. -/
  records_eq : state.records = records
  /-- The zones. -/
  zones : ∀ name auth, (name, auth) ∈ state.zones → IsResultOf context.toChainContext name auth

variable {records : List RecordAuthentication}

/-! ### Zones -/

/-- Work on a chain keeps what was judged. -/
theorem judged_onChain {α : Type} {work : ChainM World α} {holds : α → Prop}
    (hwork : Keeps (MemoTrustworthy context.toChainContext) work holds) :
    Keeps (Judged context records) (onChain work) holds := by
  refine Keeps.get.bind fun state hstate ↦ ?_
  cases hrun : work { state.chain with memo := [] } with
  | error halted => exact Keeps.throw
  | ok pair =>
    obtain ⟨value, chain⟩ := pair
    refine (Keeps.set ⟨hstate.records_eq, hstate.zones⟩).bind fun _ _ ↦ Keeps.pure ?_
    exact (hwork _ value chain (fun _ _ hmem ↦ absurd hmem List.not_mem_nil) hrun).2

/-- A denial that is made. -/
theorem judged_denial (name : Name) (qtype : RdataType) (kind : Kind)
    (items : List (RRset × Option RRset)) (keys : RRset) (wildcard : Option Name) :
    Keeps (Judged context records) (denial context name qtype kind items keys wildcard)
      fun proof ↦ ∃ now budget final, validateDenial (checkSignatures context.library)
        context.hasher name qtype kind items keys now wildcard budget = .ok (proof, final) := by
  refine judged_onChain (keeps_readClock.bind fun now _ ↦ keeps_charge.mono ?_)
  rintro proof ⟨budget, final, hrun⟩
  exact ⟨now, budget, final, hrun⟩

/-- A signature check that is made. -/
theorem judged_signatureCheck (rrset : RRset) (signatures : Option RRset) (keys : RRset) :
    Keeps (Judged context records) (signatureCheck context rrset signatures keys)
      fun checked ↦ ∃ now budget final,
        checkSignatures context.library rrset signatures keys now budget =
          .ok (checked, final) := by
  refine judged_onChain (keeps_readClock.bind fun now _ ↦ keeps_charge.mono ?_)
  rintro checked ⟨budget, final, hrun⟩
  exact ⟨now, budget, final, hrun⟩

/-- An exchange. -/
theorem judged_discover (name : Name) (kind : RdataType) :
    Keeps (Judged context records) (discover context name kind) fun _ ↦ True := by
  refine (judged_onChain keeps_exchange).bind fun object _ ↦ Keeps.bind (Keeps.modify ?_) ?_
  · exact fun _ hstate ↦ ⟨hstate.records_eq, hstate.zones⟩
  · exact fun _ _ ↦ Keeps.pure trivial

/-- A denial that is kept. -/
theorem judged_discoveryDenial (name : Name) (kind : Kind) (items : List (RRset × Option RRset))
    (keys : RRset) :
    Keeps (Judged context records) (discoveryDenial context name kind items keys) fun _ ↦ True := by
  refine (judged_denial name _ kind items keys _).bind fun proof _ ↦ Keeps.bind (Keeps.modify ?_) ?_
  · exact fun _ hstate ↦ ⟨hstate.records_eq, hstate.zones⟩
  · exact fun _ _ ↦ judged_onChain keeps_identified

/-- The result of a zone. -/
theorem judged_zoneOf (name : Name) :
    Keeps (Judged context records) (zoneOf context name)
      (IsResultOf context.toChainContext name) := by
  refine Keeps.get.bind fun state hstate ↦ ?_
  cases hknown : state.zones.lookup name with
  | some known => exact Keeps.pure (hstate.zones name known (mem_of_lookup hknown))
  | none =>
    refine Keeps.raiseIf.bind fun _ _ ↦ (judged_onChain keeps_zoneFrom).bind fun auth hauth ↦ ?_
    refine Keeps.bind (Keeps.modify fun state hstate ↦ ⟨hstate.records_eq, ?_⟩) fun _ _ ↦
      Keeps.pure hauth
    intro other found hmem
    rcases List.mem_append.mp hmem with hold | hnew
    · exact hstate.zones other found hold
    · obtain ⟨rfl, rfl⟩ := Prod.mk.inj (List.mem_singleton.mp hnew)
      exact hauth

/-- The signatures of an RRset. -/
theorem judged_signaturesOf (rrset : RRset) (items : List RRset) :
    Keeps (Judged context records) (signaturesOf rrset items) fun _ ↦ True := by
  unfold signaturesOf
  split
  · exact Keeps.pure trivial
  · exact Keeps.pure trivial
  · exact Keeps.throw

/-- The denial records come from the section. -/
theorem judged_proofSets (authority : List RRset) (name : Name) :
    Keeps (Judged context records) (proofSets authority name)
      fun items ↦ ∀ item ∈ items, item.1 ∈ authority := by
  refine Keeps.mapM fun rrset hrrset ↦ ?_
  exact (judged_signaturesOf rrset authority).bind fun _ _ ↦
    Keeps.pure (List.mem_filter.mp hrrset).1

/-! ### Discovery -/

/-- A zone that is assigned. -/
theorem mem_assign {zones : List (Name × ZoneAuthentication)} {name other : Name}
    {auth found : ZoneAuthentication} (hmem : (other, found) ∈ assign zones name auth) :
    (other, found) = (name, auth) ∨ (other, found) ∈ zones := by
  unfold assign at hmem
  split_ifs at hmem
  · obtain ⟨entry, hentry, hsame⟩ := List.mem_map.mp hmem
    split_ifs at hsame
    · exact Or.inl hsame.symm
    · exact Or.inr (hsame ▸ hentry)
  · rcases List.mem_append.mp hmem with hold | hnew
    · exact Or.inr hold
    · exact Or.inl (List.mem_singleton.mp hnew)

/-- A round of `establish`. -/
theorem judged_establishAt (candidate : Name) (auth : ZoneAuthentication) :
    Keeps (Judged context records) (establishAt context candidate auth) fun _ ↦ True := by
  unfold establishAt
  split
  · refine (judged_discover candidate _).bind fun found _ ↦ ?_
    split_ifs
    · exact Keeps.pure trivial
    split
    · refine (judged_proofSets _ _).bind fun evidence _ ↦
        (judged_discoveryDenial _ _ _ _).bind fun unsigned _ ↦ ?_
      split_ifs
      · refine Keeps.bind (Keeps.modify fun state hstate ↦ ⟨hstate.records_eq, ?_⟩) fun _ _ ↦
          Keeps.pure trivial
        intro name found hmem
        rcases mem_assign hmem with hnew | hold
        · obtain ⟨rfl, rfl⟩ := Prod.mk.inj hnew
          exact ⟨rfl, nofun, fun h ↦ absurd rfl h⟩
        · exact hstate.zones name found hold
      · refine (judged_discoveryDenial _ _ _ _).bind fun absent _ ↦ ?_
        split_ifs
        · exact Keeps.pure trivial
        · exact Keeps.pure trivial
    · refine (judged_signaturesOf _ _).bind fun signatures _ ↦ ?_
      refine (judged_signatureCheck _ _ _).bind fun checked _ ↦ ?_
      split_ifs
      · exact (judged_zoneOf candidate).bind fun _ _ ↦ Keeps.pure trivial
      · exact Keeps.pure trivial
    · exact Keeps.pure trivial
  · exact Keeps.pure trivial

/-- The loop of `establish`. -/
theorem judged_establishFrom (candidates : List Name) (auth : ZoneAuthentication) :
    Keeps (Judged context records) (establishFrom context candidates auth) fun _ ↦ True := by
  induction candidates generalizing auth with
  | nil => exact Keeps.pure trivial
  | cons candidate rest ih =>
    unfold establishFrom
    refine (judged_establishAt candidate auth).bind fun outcome _ ↦ ?_
    cases outcome with
    | inl next => exact ih next
    | inr result => exact Keeps.pure trivial

/-- The zone of a name. -/
theorem judged_locate (name : Name) (found : Message) :
    Keeps (Judged context records) (locate context name found) fun _ ↦ True := by
  unfold locate
  split
  · split_ifs
    · exact (judged_zoneOf _).bind fun auth _ ↦
        Keeps.raiseIf.bind fun _ _ ↦ judged_establishFrom _ _
    · exact Keeps.pure trivial
  · exact Keeps.pure trivial

/-- The zone of an unsigned RRset. -/
theorem judged_discovered (name : Name) :
    Keeps (Judged context records) (discovered context name) fun _ ↦ True := by
  refine Keeps.get.bind fun state hstate ↦ ?_
  cases state.discovery.lookup name with
  | some known => exact Keeps.pure trivial
  | none =>
    refine (judged_discover name _).bind fun found _ ↦ (judged_locate name _).bind fun result _ ↦ ?_
    refine Keeps.bind (Keeps.modify fun state hstate ↦ ?_) fun _ _ ↦ Keeps.pure trivial
    exact ⟨hstate.records_eq, hstate.zones⟩

/-! ### The check of an RRset -/

/-- A judgement is of its RRset, and secure only if the RRset is authentic. -/
def Sound (context : AnswerContext World) (authority : List RRset) (rrset : RRset)
    (record : RecordAuthentication) : Prop :=
  record.records = rrset ∧ (record.state = .secure → Authentic context authority rrset)

/-- An RRset without signatures is not secure. -/
theorem judged_checkUnsigned (authority : List RRset) (rrset : RRset) :
    Keeps (Judged context records) (checkUnsigned context rrset)
      (Sound context authority rrset) := by
  unfold checkUnsigned
  refine (judged_discovered rrset.name).bind fun zone _ ↦ ?_
  cases zone with
  | none => exact Keeps.pure ⟨rfl, nofun⟩
  | some zone =>
    dsimp only
    split
    · exact Keeps.pure ⟨rfl, nofun⟩
    · split_ifs
      · exact Keeps.pure ⟨rfl, nofun⟩
      · exact (judged_signatureCheck _ _ _).bind fun checked _ ↦ Keeps.pure ⟨rfl, nofun⟩
    · exact Keeps.pure ⟨rfl, nofun⟩

/-- A valid verdict on some paths was valid before, or rests on the denial of a wildcard. -/
theorem judged_judgePaths (rrset : RRset) (authority : List RRset) (signer : Name) (keys : RRset)
    (paths : List VerifiedSignature) (verdict : PathVerdict) :
    Keeps (Judged context records) (judgePaths context rrset authority signer keys paths verdict)
      fun result ↦ result.valid = true → verdict.valid = true ∨ ∃ path ∈ paths,
        path.wildcard = true ∧ rrset.rdtype ≠ RdataType.dname ∧
          Denied context authority rrset.name rrset.rdtype .wildcard keys
            (some (wildcardOf rrset.name path.signature.labels)) := by
  induction paths generalizing verdict with
  | nil => exact Keeps.pure Or.inl
  | cons path rest ih =>
    -- What is valid in the rest is valid for the rest's paths or was valid before them.
    have hlater : ∀ next : PathVerdict, (next.valid = true → verdict.valid = true) →
        Keeps (Judged context records) (judgePaths context rrset authority signer keys rest next)
          fun result ↦ result.valid = true → verdict.valid = true ∨ ∃ path' ∈ path :: rest,
            path'.wildcard = true ∧ rrset.rdtype ≠ RdataType.dname ∧
              Denied context authority rrset.name rrset.rdtype .wildcard keys
                (some (wildcardOf rrset.name path'.signature.labels)) := by
      intro next hnext
      refine (ih next).mono fun result hresult hvalid ↦ (hresult hvalid).imp hnext ?_
      rintro ⟨other, hother, hrest⟩
      exact ⟨other, List.mem_cons_of_mem _ hother, hrest⟩
    unfold judgePaths
    by_cases hwildcard : path.wildcard = true
    swap
    · rw [if_pos hwildcard]
      exact hlater verdict id
    rw [if_neg (not_not.mpr hwildcard)]
    split_ifs with hdname
    · exact hlater _ id
    · refine (judged_proofSets authority signer).bind fun items hitems ↦ ?_
      refine (judged_denial _ _ _ _ _ _).bind fun proof hproof ↦ ?_
      refine (ih _).mono fun result hresult hvalid ↦ ?_
      rcases hresult hvalid with hnow | ⟨other, hother, hrest⟩
      · rcases Bool.or_eq_true_iff.mp hnow with hbefore | hdenied
        · exact Or.inl hbefore
        · obtain ⟨hproved, hopt⟩ := Bool.and_eq_true_iff.mp hdenied
          obtain ⟨now, budget, final, hrun⟩ := hproof
          obtain ⟨evidence, hevidence⟩ := validateDenial_valid hrun hproved
          exact Or.inr ⟨path, List.mem_cons_self, hwildcard, hdname, items, now, evidence,
            proof, budget, final, hitems, hrun, hproved, by simpa using hopt, hevidence⟩
      · exact Or.inr ⟨other, List.mem_cons_of_mem _ hother, hrest⟩

/-- A signer that succeeds authenticates the RRset. -/
theorem judged_judgeSigners (rrset : RRset) (authority : List RRset) (signatures : RRset)
    {signers : List Name} (hsigners : ∀ signer ∈ signers, rrset.name.IsSubdomain signer)
    (verdict : SignerVerdict) :
    Keeps (Judged context records)
      (judgeSigners context rrset authority signatures signers verdict)
      fun result ↦ result.success = true → verdict.success = true ∨
        Authentic context authority rrset := by
  induction signers generalizing verdict with
  | nil => exact Keeps.pure Or.inl
  | cons signer rest ih =>
    obtain ⟨hsigner, hrest⟩ := List.forall_mem_cons.mp hsigners
    unfold judgeSigners
    split_ifs
    · exact ih hrest _
    · refine (judged_zoneOf signer).bind fun auth hauth ↦ ?_
      split
      · rename_i trusted hstate htrusted
        obtain ⟨keys, hkeys, hsecured⟩ := hauth.trustworthy hstate
        obtain rfl := Option.some.inj (htrusted.symm.trans hkeys)
        rw [hauth.zone_eq] at hsecured
        refine (judged_signatureCheck _ _ _).bind fun checked hchecked ↦ ?_
        refine (judged_judgePaths _ _ _ _ _ _).bind fun paths hpaths ↦ ?_
        refine (ih hrest _).mono fun result hresult hsuccess ↦ ?_
        rcases hresult hsuccess with hnow | hauthentic
        · rcases Bool.or_eq_true_iff.mp hnow with hbefore | hvalid
          · exact Or.inl hbefore
          · obtain ⟨now, budget, final, hrun⟩ := hchecked
            refine Or.inr ?_
            rcases hpaths hvalid with hexact | ⟨path, hpath, hwildcard, hdname, hdenied⟩
            · obtain ⟨set, hvouches⟩ := vouches_of_checkSignatures hrun hexact
              exact .exact signer trusted set now hsecured hsigner hvouches
            · obtain ⟨set, -, -, -, hverified⟩ := checkSignatures_verified hrun hpath
              exact .expanded signer trusted set now path hsecured hsigner hdname hverified
                hwildcard hdenied
        · exact Or.inr hauthentic
      · exact ih hrest _

/-- The check of an RRset. -/
theorem judged_checkRecords (authority : List RRset) (rrset : RRset) (items : List RRset) :
    Keeps (Judged context records) (checkRecords context authority rrset items)
      (Sound context authority rrset) := by
  refine (judged_onChain keeps_charge).bind fun _ _ ↦ ?_
  refine (judged_signaturesOf rrset items).bind fun signatures _ ↦ ?_
  cases signatures with
  | none => exact judged_checkUnsigned authority rrset
  | some signatures =>
    refine (judged_onChain keeps_charge).bind fun _ _ ↦ ?_
    refine (judged_judgeSigners rrset authority signatures ?_ {}).bind fun verdict hverdict ↦
      Keeps.pure ⟨rfl, fun hsecure ↦ ?_⟩
    · intro signer hsigner
      exact of_decide_eq_true (List.mem_filter.mp (List.mem_eraseDups.mp hsigner)).2
    · by_cases hsuccess : verdict.success = true
      · exact (hverdict hsuccess).resolve_left nofun
      · change verdict.state = .secure at hsecure
        unfold SignerVerdict.state at hsecure
        rw [if_neg hsuccess] at hsecure
        split_ifs at hsecure

/-! ### The alias chain -/

section Chain

variable (reader : RecordReader) (supplied : List RRset) (qtype : RdataType)

/-- An RRset of a name that answers the question. -/
def IsDirect (name : Name) (item : RRset) : Prop :=
  item.name = name ∧ (item.rdtype = qtype ∨ qtype = RdataType.any)

/-- An alias of a name. -/
def IsAlias (name : Name) (item : RRset) : Prop :=
  item.name = name ∧ item.rdtype = RdataType.cname

/-- A redirection of the names below a name that another name is below. -/
def Redirects (name : Name) (item : RRset) : Prop :=
  item.rdtype = RdataType.dname ∧ item.name ≠ name ∧ name.IsSubdomain item.name

/-- The deepest redirection of a name. -/
def IsDeepest (name : Name) (item : RRset) : Prop :=
  Redirects name item ∧ ∀ other ∈ supplied, Redirects name other →
    other.name.labels.length ≤ item.name.labels.length

/-- The aliases of a name lead to another, through names without an RRset that answers. -/
inductive Leads : Name → Name → Prop
  /-- A name leads to itself. -/
  | refl (name : Name) : Leads name name
  /-- An alias is followed. -/
  | follow {name last : Name} {cname : RRset} {record : Rdata} :
      (∀ item ∈ supplied, ¬ IsDirect qtype name item) → cname ∈ supplied → IsAlias name cname →
      record ∈ cname.records → Leads (reader.aliasTarget record) last → Leads name last

/-- An RRset is on the alias chain of a name: it answers, is an alias, or redirects at a name that
the aliases lead to. -/
def OnChain (start : Name) (item : RRset) : Prop :=
  item ∈ supplied ∧ ∃ name, Leads reader supplied qtype start name ∧
    (IsDirect qtype name item ∨ IsAlias name item ∨ IsDeepest supplied name item)

variable {reader supplied qtype} {current : Name} {item : RRset}

/-- The RRsets that answer. -/
theorem mem_directOf : item ∈ directOf supplied qtype current ↔
    item ∈ supplied ∧ IsDirect qtype current item := by
  simp [directOf, IsDirect]

/-- The aliases. -/
theorem mem_cnamesOf : item ∈ cnamesOf supplied current ↔
    item ∈ supplied ∧ IsAlias current item := by
  simp [cnamesOf, IsAlias]

/-- The redirections. -/
theorem mem_dnamesOf : item ∈ dnamesOf supplied current ↔
    item ∈ supplied ∧ Redirects current item := by
  simp [dnamesOf, Redirects, and_assoc]

/-- RRsets of one name and type are one. -/
theorem eq_of_key (hunique : (supplied.map fun item ↦ (item.name, item.rdtype)).Nodup)
    {first second : RRset} (hfirst : first ∈ supplied) (hsecond : second ∈ supplied)
    (hname : first.name = second.name) (htype : first.rdtype = second.rdtype) : first = second :=
  List.inj_on_of_nodup_map hunique hfirst hsecond (Prod.ext hname htype)

/-- The deepest of some DNAMEs. -/
theorem deepest_spec {dnames : List RRset} {found : RRset}
    (hdeepest : deepest dnames = some found) :
    found ∈ dnames ∧ ∀ other ∈ dnames, other.name.labels.length ≤ found.name.labels.length :=
  ⟨List.argmax_mem hdeepest, fun _ hother ↦
    List.le_of_mem_argmax (f := fun item : RRset ↦ item.name.labels.length) hother hdeepest⟩

/-- The deepest redirection is the one that the walk takes. -/
theorem deepest_iff (hunique : (supplied.map fun item ↦ (item.name, item.rdtype)).Nodup) :
    deepest (dnamesOf supplied current) = some item ↔
      item ∈ supplied ∧ IsDeepest supplied current item := by
  constructor
  · intro hdeepest
    obtain ⟨hmem, hlongest⟩ := deepest_spec hdeepest
    obtain ⟨hsupplied, hredirects⟩ := mem_dnamesOf.mp hmem
    exact ⟨hsupplied, hredirects, fun other hother habove ↦
      hlongest other (mem_dnamesOf.mpr ⟨hother, habove⟩)⟩
  · rintro ⟨hsupplied, hredirects, hlongest⟩
    have hmem := mem_dnamesOf.mpr ⟨hsupplied, hredirects⟩
    cases hdeepest : deepest (dnamesOf supplied current) with
    | none =>
      have hnil := List.argmax_eq_none.mp hdeepest
      exact absurd hmem (by simp [hnil])
    | some found =>
      obtain ⟨hfound, hupper⟩ := deepest_spec hdeepest
      obtain ⟨hother, habove⟩ := mem_dnamesOf.mp hfound
      -- Both are ancestors of the name and of the same length.
      have hdown : found.name.IsSubdomain item.name :=
        Name.isSubdomain_of_length_le hredirects.2.2 habove.2.2 (hupper item hmem)
      have hup : item.name.IsSubdomain found.name :=
        Name.isSubdomain_of_length_le habove.2.2 hredirects.2.2 (hlongest found hother habove)
      exact congrArg some (eq_of_key hunique hother hsupplied (hdown.antisymm hup)
        (habove.1.trans hredirects.1.symm))

/-- Where an RRset answers, the chain ends. -/
theorem onChain_of_direct (hunique : (supplied.map fun item ↦ (item.name, item.rdtype)).Nodup)
    (hdirect : directOf supplied qtype current ≠ []) :
    OnChain reader supplied qtype current item ↔
      item ∈ directOf supplied qtype current ∨ item ∈ cnamesOf supplied current ∨
        deepest (dnamesOf supplied current) = some item := by
  rw [mem_directOf, mem_cnamesOf, deepest_iff hunique, ← and_or_left, ← and_or_left]
  refine and_congr_right fun _ ↦ ?_
  constructor
  · rintro ⟨name, hleads, hitem⟩
    cases hleads with
    | refl => exact hitem
    | follow hnone =>
      obtain ⟨found, hfound⟩ := List.exists_mem_of_ne_nil _ hdirect
      obtain ⟨hsupplied, hanswers⟩ := mem_directOf.mp hfound
      exact absurd hanswers (hnone found hsupplied)
  · exact fun hitem ↦ ⟨current, .refl current, hitem⟩

/-- Where an alias is followed, the chain goes on at its target. -/
theorem onChain_of_alias (hunique : (supplied.map fun item ↦ (item.name, item.rdtype)).Nodup)
    (hdirect : directOf supplied qtype current = []) {cname : RRset} {record : Rdata}
    (hcname : cname ∈ cnamesOf supplied current) (hrecord : cname.records = [record]) :
    OnChain reader supplied qtype current item ↔
      item = cname ∨ deepest (dnamesOf supplied current) = some item ∨
        OnChain reader supplied qtype (reader.aliasTarget record) item := by
  have hnone : ∀ other ∈ supplied, ¬ IsDirect qtype current other := by
    intro other hother hanswers
    exact absurd (mem_directOf.mpr ⟨hother, hanswers⟩) (by simp [hdirect])
  obtain ⟨hsupplied, halias⟩ := mem_cnamesOf.mp hcname
  have honly : ∀ other ∈ supplied, IsAlias current other → other = cname := fun other hother hsame ↦
    eq_of_key hunique hother hsupplied (hsame.1.trans halias.1.symm) (hsame.2.trans halias.2.symm)
  rw [deepest_iff hunique]
  constructor
  · rintro ⟨hitem, name, hleads, hkind⟩
    cases hleads with
    | refl =>
      rcases hkind with hanswers | hsame | hredirects
      · exact absurd hanswers (hnone item hitem)
      · exact Or.inl (honly item hitem hsame)
      · exact Or.inr (Or.inl ⟨hitem, hredirects⟩)
    | follow _ hother hsame hmem hleads =>
      obtain rfl := honly _ hother hsame
      rw [hrecord, List.mem_singleton] at hmem
      subst hmem
      exact Or.inr (Or.inr ⟨hitem, name, hleads, hkind⟩)
  · rintro (rfl | ⟨hitem, hredirects⟩ | ⟨hitem, name, hleads, hkind⟩)
    · exact ⟨hsupplied, current, .refl current, Or.inr (Or.inl halias)⟩
    · exact ⟨hitem, current, .refl current, Or.inr (Or.inr hredirects)⟩
    · refine ⟨hitem, name, .follow hnone hsupplied halias ?_ hleads, hkind⟩
      rw [hrecord]
      exact List.mem_singleton_self record

/-- Where nothing answers and nothing is followed, nothing is on the chain. -/
theorem not_onChain (hdirect : directOf supplied qtype current = [])
    (hcnames : cnamesOf supplied current = []) (hdnames : dnamesOf supplied current = []) :
    ¬ OnChain reader supplied qtype current item := by
  have hnothing : ∀ other ∈ supplied, ¬ IsDirect qtype current other ∧ ¬ IsAlias current other ∧
      ¬ Redirects current other := by
    intro other hother
    refine ⟨fun h ↦ ?_, fun h ↦ ?_, fun h ↦ ?_⟩
    · exact absurd (mem_directOf.mpr ⟨hother, h⟩) (by simp [hdirect])
    · exact absurd (mem_cnamesOf.mpr ⟨hother, h⟩) (by simp [hcnames])
    · exact absurd (mem_dnamesOf.mpr ⟨hother, h⟩) (by simp [hdnames])
  rintro ⟨hitem, name, hleads, hkind⟩
  cases hleads with
  | refl =>
    obtain ⟨hanswers, halias, hredirects⟩ := hnothing item hitem
    rcases hkind with h | h | h
    · exact hanswers h
    · exact halias h
    · exact hredirects h.1
  | follow _ hother hsame => exact (hnothing _ hother).2.1 hsame

/-- What the walk has found when it ends. -/
def Walked (reader : RecordReader) (supplied : List RRset) (qtype : RdataType) (current : Name)
    (answer : List RRset) : Walk → Prop
  | .terminal chain =>
    (∀ item, item ∈ chain ↔ item ∈ answer ∨ OnChain reader supplied qtype current item) ∧
      ∃ name, Leads reader supplied qtype current name ∧
        ∃ item ∈ supplied, IsDirect qtype name item
  | .negative chain last =>
    (∀ item, item ∈ chain ↔ item ∈ answer ∨ OnChain reader supplied qtype current item) ∧
      Leads reader supplied qtype current last ∧
        ∀ item ∈ supplied, ¬ IsDirect qtype last item ∧ ¬ IsAlias last item ∧ ¬ Redirects last item
  | .missingSynthesis => True

/-- The end of the walk at an RRset that answers. -/
theorem walked_terminal (hunique : (supplied.map fun item ↦ (item.name, item.rdtype)).Nodup)
    {answer : List RRset} (hdirect : directOf supplied qtype current ≠ []) {outcome : Walk}
    (hrun : walkTerminal qtype answer (directOf supplied qtype current) (cnamesOf supplied current)
      (dnamesOf supplied current) = .ok outcome) :
    Walked reader supplied qtype current answer outcome := by
  unfold walkTerminal at hrun
  obtain ⟨_, hkinds, hrun⟩ := except_bind_eq_ok.mp hrun
  obtain ⟨_, -, hrun⟩ := except_bind_eq_ok.mp hrun
  obtain ⟨_, -, hrun⟩ := except_bind_eq_ok.mp hrun
  obtain rfl := except_pure_eq_ok.mp hrun
  have hkinds := failIf_eq_ok.mp hkinds
  -- An alias at the name answers the question as well.
  have halias : ∀ item ∈ cnamesOf supplied current, item ∈ directOf supplied qtype current := by
    intro item hitem
    obtain ⟨hsupplied, hname, htype⟩ := mem_cnamesOf.mp hitem
    have hasked : qtype ∈ [RdataType.cname, RdataType.any] := by
      by_contra hother
      exact hkinds ⟨List.ne_nil_of_mem hitem, hother⟩
    rcases List.mem_cons.mp hasked with hcname | hany
    · exact mem_directOf.mpr ⟨hsupplied, hname, Or.inl (htype.trans hcname.symm)⟩
    · exact mem_directOf.mpr ⟨hsupplied, hname, Or.inr (List.mem_singleton.mp hany)⟩
  refine ⟨fun item ↦ ?_, current, .refl current, ?_⟩
  · have hfound : item ∈ answer ++ (deepest (dnamesOf supplied current)).toList ↔
        item ∈ answer ∨ deepest (dnamesOf supplied current) = some item := by
      rw [List.mem_append, Option.mem_toList]
    have hmem := halias item
    rw [onChain_of_direct hunique hdirect, List.mem_append, List.mem_filter, decide_eq_true_iff,
      hfound]
    tauto
  · obtain ⟨found, hfound⟩ := List.exists_mem_of_ne_nil _ hdirect
    obtain ⟨hsupplied, hanswers⟩ := mem_directOf.mp hfound
    exact ⟨found, hsupplied, hanswers⟩

/-- The deepest DNAME joins the RRsets on the way. -/
theorem mem_withDname {answer dnames : List RRset} :
    item ∈ withDname answer dnames ↔ item ∈ answer ∨ deepest dnames = some item := by
  unfold withDname
  cases hdeepest : deepest dnames with
  | none => simp
  | some dname =>
    dsimp only
    split_ifs with hmem
    · constructor
      · exact Or.inl
      · rintro (hitem | hsame)
        · exact hitem
        · exact Option.some.inj hsame ▸ hmem
    · rw [List.mem_append, List.mem_singleton, Option.some.injEq, eq_comm]

/-- The walk finds the alias chain, by induction on the names that may still be visited. -/
theorem walk_spec (hunique : (supplied.map fun item ↦ (item.name, item.rdtype)).Nodup)
    {remaining : ℕ} {visited : List Name} {answer : List RRset} {outcome : Walk}
    (hrun : walk reader supplied qtype remaining visited current answer = .ok outcome) :
    Walked reader supplied qtype current answer outcome := by
  induction remaining generalizing visited current answer with
  | zero =>
    unfold walk at hrun
    by_cases hvisited : current ∈ visited
    · rw [if_pos hvisited] at hrun
      cases hrun
    · rw [if_neg hvisited] at hrun
      cases hrun
  | succ remaining ih =>
    unfold walk at hrun
    by_cases hvisited : current ∈ visited
    · rw [if_pos hvisited] at hrun
      cases hrun
    rw [if_neg hvisited] at hrun
    dsimp only at hrun
    by_cases hdirect : directOf supplied qtype current = []
    swap
    · rw [if_pos hdirect] at hrun
      exact walked_terminal hunique hdirect hrun
    rw [if_neg (not_not.mpr hdirect)] at hrun
    cases hcnames : cnamesOf supplied current with
    | nil =>
      rw [hcnames] at hrun
      dsimp only at hrun
      split_ifs at hrun with hdnames
      · obtain rfl := except_pure_eq_ok.mp hrun
        trivial
      · obtain rfl := except_pure_eq_ok.mp hrun
        have hdnames := not_not.mp hdnames
        refine ⟨fun item ↦ ?_, .refl current, fun item hitem ↦ ⟨fun h ↦ ?_, fun h ↦ ?_, fun h ↦ ?_⟩⟩
        · exact (or_iff_left (not_onChain hdirect hcnames hdnames)).symm
        · exact absurd (mem_directOf.mpr ⟨hitem, h⟩) (by simp [hdirect])
        · exact absurd (mem_cnamesOf.mpr ⟨hitem, h⟩) (by simp [hcnames])
        · exact absurd (mem_dnamesOf.mpr ⟨hitem, h⟩) (by simp [hdnames])
    | cons cname others =>
      rw [hcnames] at hrun
      dsimp only at hrun
      split at hrun
      · rename_i record hrecord
        have hcname : cname ∈ cnamesOf supplied current := hcnames ▸ List.mem_cons_self
        have hleads : ∀ last, Leads reader supplied qtype (reader.aliasTarget record) last →
            Leads reader supplied qtype current last := by
          intro last hlater
          obtain ⟨hsupplied, halias⟩ := mem_cnamesOf.mp hcname
          refine .follow (fun other hother hanswers ↦ ?_) hsupplied halias ?_ hlater
          · exact absurd (mem_directOf.mpr ⟨hother, hanswers⟩) (by simp [hdirect])
          · rw [hrecord]
            exact List.mem_singleton_self record
        -- What was found before the target and from the target on is what is found from here on.
        have hmem : ∀ item, (item ∈ withDname answer (dnamesOf supplied current) ++ [cname] ∨
            OnChain reader supplied qtype (reader.aliasTarget record) item) ↔
              item ∈ answer ∨ OnChain reader supplied qtype current item := by
          intro item
          rw [onChain_of_alias hunique hdirect hcname hrecord, List.mem_append, mem_withDname,
            List.mem_singleton]
          tauto
        have hlater := ih hrun
        cases outcome with
        | terminal chain =>
          obtain ⟨hchain, name, hname, hanswers⟩ := hlater
          exact ⟨fun item ↦ (hchain item).trans (hmem item), name, hleads name hname, hanswers⟩
        | negative chain last =>
          obtain ⟨hchain, hlast, hnothing⟩ := hlater
          exact ⟨fun item ↦ (hchain item).trans (hmem item), hleads last hlast, hnothing⟩
        | missingSynthesis => trivial
      · cases hrun

end Chain

/-! ### The judgement of the chain -/

/-- A judgement that is appended. -/
theorem judged_append {state final : AnswerState World} {record : RecordAuthentication}
    (hstate : Judged context records state) (hrun : append record state = .ok ((), final)) :
    Judged context (records ++ [record]) final := by
  obtain ⟨-, rfl⟩ := Prod.mk.inj (Except.ok.inj hrun)
  exact ⟨congrArg (· ++ [record]) hstate.records_eq, hstate.zones⟩

/-- The judgement of the RRsets that are no CNAMEs. -/
theorem judged_others (answer authority : List RRset) {others : List RRset}
    {state final : AnswerState World} (hstate : Judged context records state)
    (hrun : (others.forM fun rrset ↦ do
      let record ← checkRecords context authority rrset answer
      append record) state = .ok ((), final)) :
    ∃ judged, Judged context (records ++ judged) final ∧
      (∀ rrset ∈ others, ∃ record ∈ judged, Sound context authority rrset record) ∧
      ∀ record ∈ judged, ∃ rrset ∈ others, Sound context authority rrset record := by
  induction others generalizing records state with
  | nil =>
    obtain ⟨-, rfl⟩ := pure_eq_ok.mp hrun
    exact ⟨[], by rwa [List.append_nil], nofun, nofun⟩
  | cons rrset rest ih =>
    obtain ⟨_, between, hfirst, hrest⟩ := bind_eq_ok.mp hrun
    obtain ⟨record, checked, hcheck, happend⟩ := bind_eq_ok.mp hfirst
    obtain ⟨hchecked, hsound⟩ := judged_checkRecords authority rrset answer _ _ _ hstate hcheck
    obtain ⟨judged, hjudged, hall, honly⟩ := ih (judged_append hchecked happend) hrest
    rw [List.append_assoc] at hjudged
    refine ⟨record :: judged, hjudged, List.forall_mem_cons.mpr ⟨?_, fun other hother ↦ ?_⟩,
      List.forall_mem_cons.mpr ⟨?_, fun other hother ↦ ?_⟩⟩
    · exact ⟨record, List.mem_cons_self, hsound⟩
    · obtain ⟨found, hfound, hother⟩ := hall other hother
      exact ⟨found, List.mem_cons_of_mem _ hfound, hother⟩
    · exact ⟨rrset, List.mem_cons_self, hsound⟩
    · obtain ⟨found, hfound, hother⟩ := honly other hother
      exact ⟨found, List.mem_cons_of_mem _ hfound, hother⟩

/-- A judgement of a CNAME is secure only if the CNAME is authentic or generated by a DNAME that was
judged secure before. -/
def CnameSound (context : AnswerContext World) (authority : List RRset)
    (before : List RecordAuthentication) (cname : RRset) (record : RecordAuthentication) : Prop :=
  record.records = cname ∧ (record.state = .secure → Authentic context authority cname ∨
    ∃ parent ∈ before, parent.state = .secure ∧ Redirects cname.name parent.records ∧
      Synthesizes context.reader parent.records cname)

/-- The judgement of a CNAME. -/
theorem judged_judgeCname (answer authority : List RRset) (cname : RRset)
    {state final : AnswerState World} (hstate : Judged context records state)
    (hrun : judgeCname context answer authority cname state = .ok ((), final)) :
    ∃ record, Judged context (records ++ [record]) final ∧
      CnameSound context authority records cname record := by
  unfold judgeCname at hrun
  obtain ⟨_, _, hget, hrun⟩ := bind_eq_ok.mp hrun
  obtain ⟨rfl, rfl⟩ := get_eq_ok.mp hget
  -- The CNAME is checked like any other RRset.
  have hchecks : ∀ {before : AnswerState World}, Judged context records before →
      (checkRecords context authority cname answer >>= fun record ↦ append record) before =
        .ok ((), final) →
      ∃ record, Judged context (records ++ [record]) final ∧
        CnameSound context authority records cname record := by
    intro before hbefore hrun
    obtain ⟨record, checked, hcheck, happend⟩ := bind_eq_ok.mp hrun
    obtain ⟨hchecked, hname, hsecure⟩ :=
      judged_checkRecords authority cname answer _ _ _ hbefore hcheck
    exact ⟨record, judged_append hchecked happend, hname, fun h ↦ Or.inl (hsecure h)⟩
  rw [hstate.records_eq] at hrun
  cases hparent : parentOf records cname with
  | none =>
    rw [hparent] at hrun
    exact hchecks hstate hrun
  | some parent =>
    rw [hparent] at hrun
    obtain ⟨signatures, between, hsignatures, hrun⟩ := bind_eq_ok.mp hrun
    have hbetween : Judged context records between := by
      unfold cnameSignatures at hsignatures
      split_ifs at hsignatures
      · exact (judged_signaturesOf cname answer _ _ _ hstate hsignatures).1
      · exact (pure_eq_ok.mp hsignatures).2 ▸ hstate
    by_cases hsynthesizes : Synthesizes context.reader parent.records cname
    swap
    · rw [if_pos hsynthesizes] at hrun
      exact ⟨_, judged_append hbetween hrun, rfl, nofun⟩
    rw [if_neg (not_not.mpr hsynthesizes)] at hrun
    by_cases hunsigned : signatures = none
    · rw [if_pos hunsigned] at hrun
      refine ⟨_, judged_append hbetween hrun, rfl, fun hsecure ↦ Or.inr ?_⟩
      have hmem : parent ∈ records.filter _ := List.argmax_mem hparent
      obtain ⟨hbefore, habove⟩ := List.mem_filter.mp hmem
      simp only [Bool.and_eq_true, beq_iff_eq, bne_iff_ne, decide_eq_true_eq] at habove
      obtain ⟨⟨htype, hne⟩, hbelow⟩ := habove
      exact ⟨parent, hbefore, hsecure, ⟨htype, Ne.symm hne, hbelow⟩, hsynthesizes⟩
    · rw [if_neg hunsigned] at hrun
      exact hchecks hbetween hrun

/-- The judgement of the CNAMEs, after the judgements of RRsets that are no CNAMEs. -/
theorem judged_cnames (answer authority : List RRset) {cnames : List RRset}
    (hcnames : ∀ cname ∈ cnames, cname.rdtype = RdataType.cname)
    {base done : List RecordAuthentication}
    (hdone : ∀ record ∈ done, record.records.rdtype = RdataType.cname)
    {state final : AnswerState World} (hstate : Judged context (base ++ done) state)
    (hrun : (cnames.forM (judgeCname context answer authority)) state = .ok ((), final)) :
    ∃ judged, Judged context (base ++ judged) final ∧ (∀ record ∈ done, record ∈ judged) ∧
      ∀ cname ∈ cnames, ∃ record ∈ judged, CnameSound context authority base cname record := by
  induction cnames generalizing done state with
  | nil =>
    obtain ⟨-, rfl⟩ := pure_eq_ok.mp hrun
    exact ⟨done, hstate, fun _ h ↦ h, nofun⟩
  | cons cname rest ih =>
    obtain ⟨htype, hrest⟩ := List.forall_mem_cons.mp hcnames
    obtain ⟨_, between, hfirst, hlater⟩ := bind_eq_ok.mp hrun
    obtain ⟨record, hjudged, hname, hsound⟩ :=
      judged_judgeCname answer authority cname hstate hfirst
    rw [List.append_assoc] at hjudged
    have hmore : ∀ other ∈ done ++ [record], other.records.rdtype = RdataType.cname := by
      intro other hother
      rcases List.mem_append.mp hother with hold | hnew
      · exact hdone other hold
      · rw [List.mem_singleton.mp hnew, hname, htype]
    obtain ⟨judged, hfinal, hkept, hall⟩ := ih hrest hmore hjudged hlater
    refine ⟨judged, hfinal, fun other hother ↦ hkept other (List.mem_append_left _ hother), ?_⟩
    refine List.forall_mem_cons.mpr
      ⟨⟨record, hkept record (by simp), hname, fun hsecure ↦ ?_⟩, hall⟩
    refine (hsound hsecure).imp_right ?_
    rintro ⟨parent, hparent, hstate, hredirects, hsynthesizes⟩
    rcases List.mem_append.mp hparent with hbase | hcname
    · exact ⟨parent, hbase, hstate, hredirects, hsynthesizes⟩
    · exact absurd ((hdone parent hcname).symm.trans hredirects.1) (by decide)

/-- An RRset is authentic, or the CNAME that an authentic DNAME among some RRsets generates. -/
def Vouched (context : AnswerContext World) (authority : List RRset) (among : RRset → Prop)
    (rrset : RRset) : Prop :=
  Authentic context authority rrset ∨ rrset.rdtype = RdataType.cname ∧
    ∃ dname, among dname ∧ Redirects rrset.name dname ∧ Authentic context authority dname ∧
      Synthesizes context.reader dname rrset

/-- If the judgements of a chain are secure, its RRsets are vouched for. -/
theorem judgeChain_spec {answer authority chain : List RRset} {state final : AnswerState World}
    (hstate : Judged context [] state)
    (hrun : judgeChain context answer authority chain state = .ok ((), final)) :
    ∃ judged, Judged context judged final ∧ ∀ rrset ∈ chain,
      (∃ record ∈ judged, record.records = rrset) ∧ ((∀ record ∈ judged, record.state = .secure) →
        Vouched context authority (· ∈ chain) rrset) := by
  obtain ⟨_, between, hothers, hcnames⟩ := bind_eq_ok.mp hrun
  obtain ⟨base, hbase, hall, honly⟩ := judged_others answer authority hstate hothers
  rw [List.nil_append] at hbase
  have hempty : Judged context (base ++ []) between := by rwa [List.append_nil]
  obtain ⟨judged, hjudged, -, hsound⟩ := judged_cnames answer authority
    (fun cname hcname ↦ of_decide_eq_true (List.mem_filter.mp hcname).2)
    (fun record hrecord ↦ absurd hrecord List.not_mem_nil) hempty hcnames
  refine ⟨base ++ judged, hjudged, fun rrset hrrset ↦ ?_⟩
  by_cases hcname : rrset.rdtype = RdataType.cname
  · obtain ⟨record, hrecord, hname, hvouches⟩ :=
      hsound rrset (List.mem_filter.mpr ⟨hrrset, decide_eq_true hcname⟩)
    refine ⟨⟨record, List.mem_append_right _ hrecord, hname⟩, fun hsecure ↦ ?_⟩
    rcases hvouches (hsecure record (List.mem_append_right _ hrecord)) with hauthentic | hparent
    · exact Or.inl hauthentic
    · obtain ⟨parent, hparent, hparentSecure, hredirects, hsynthesizes⟩ := hparent
      obtain ⟨dname, hdname, rfl, hdnameSound⟩ := honly parent hparent
      exact Or.inr ⟨hcname, parent.records, (List.mem_filter.mp hdname).1, hredirects,
        hdnameSound hparentSecure, hsynthesizes⟩
  · obtain ⟨record, hrecord, hname, hauthentic⟩ :=
      hall rrset (List.mem_filter.mpr ⟨hrrset, decide_eq_true hcname⟩)
    have hrecord := List.mem_append_left judged hrecord
    exact ⟨⟨record, hrecord, hname⟩, fun hsecure ↦ Or.inl (hauthentic (hsecure record hrecord))⟩

/-! ### The end of the chain -/

/-- States are secure together if there are some and all are. -/
theorem combined_eq_secure {states : List SecurityState} (hsecure : combined states = .secure) :
    ∀ state ∈ states, state = .secure := by
  unfold combined at hsecure
  split_ifs at hsecure with hbogus hindeterminate hinsecure
  intro state hstate
  cases state with
  | secure => rfl
  | insecure => exact absurd hstate hinsecure
  | bogus => exact absurd hstate hbogus
  | indeterminate => exact absurd (Or.inr hstate) hindeterminate

/-- The result has the state that it is made with and the judged records. -/
theorem judged_resultOf (state : SecurityState) (denials : List DenialProof)
    (limitation : Option String) (resolutionFailure : Bool) :
    Keeps (Judged context records) (resultOf context state denials limitation resolutionFailure)
      fun result ↦ result.state = state ∧ result.records = records := by
  refine (judged_onChain keeps_readClock).bind fun _ _ ↦ Keeps.raiseIf.bind fun _ _ ↦ ?_
  exact Keeps.get.bind fun final hfinal ↦ Keeps.pure ⟨rfl, hfinal.records_eq⟩

/-- The kinds of denial that a response code asks for. -/
def negativeKinds (rcode : ℕ) : List Kind :=
  if rcode = 3 then [.nxdomain] else [.nodata, .wildcardNodata]

/-- A negative end: the SOA of the zone is authentic, and the zone denies the question. -/
def NegativeEnd (context : AnswerContext World) (rcode : ℕ) (authority : List RRset) (last : Name)
    (qtype : RdataType) (soa : RRset) : Prop :=
  authority.filter (·.rdtype = RdataType.soa) = [soa] ∧ last.IsSubdomain soa.name ∧
    Authentic context authority soa ∧ ∃ keys, Secured context.toChainContext soa.name keys ∧
      ∃ kind ∈ negativeKinds rcode, Denied context authority last qtype kind keys none

/-- A denial that makes the result secure. -/
theorem judged_denyKinds (authority : List RRset) (current : Name) (qtype : RdataType) (apex : Name)
    (keys : RRset) (kinds : List Kind) (negative : List DenialProof) :
    Keeps (Judged context records)
      (denyKinds context authority current qtype apex keys kinds negative)
      fun result ↦ result.records = records ∧ (result.state = .secure →
        (∀ record ∈ records, record.state = .secure) ∧
          ∃ kind ∈ kinds, Denied context authority current qtype kind keys none) := by
  induction kinds generalizing negative with
  | nil =>
    refine (judged_resultOf _ _ _ _).mono fun result hresult ↦ ⟨hresult.2, fun hsecure ↦ ?_⟩
    exact absurd (hresult.1.symm.trans hsecure) nofun
  | cons kind rest ih =>
    unfold denyKinds
    refine (judged_proofSets authority apex).bind fun items hitems ↦ ?_
    refine (judged_denial _ _ _ _ _ _).bind fun proof hproof ↦ ?_
    by_cases hvalid : proof.valid = true
    · rw [if_pos hvalid]
      refine Keeps.get.bind fun state hstate ↦ ?_
      refine (judged_resultOf _ _ _ _).mono fun result hresult ↦ ⟨hresult.2, fun hsecure ↦ ?_⟩
      have hall := combined_eq_secure (hresult.1.symm.trans hsecure)
      rw [hstate.records_eq] at hall
      have hopt := hall _ (List.mem_append_right _ (List.mem_singleton_self _))
      refine ⟨fun record hrecord ↦ hall _ (List.mem_append_left _ (List.mem_map_of_mem hrecord)),
        kind, List.mem_cons_self, ?_⟩
      obtain ⟨now, budget, final, hrun⟩ := hproof
      obtain ⟨evidence, hevidence⟩ := validateDenial_valid hrun hvalid
      exact ⟨items, now, evidence, proof, budget, final, hitems, hrun, hvalid,
        by simpa using hopt, hevidence⟩
    · rw [if_neg hvalid]
      refine (ih _).mono fun result hresult ↦ ⟨hresult.1, fun hsecure ↦ ?_⟩
      obtain ⟨hall, other, hother, hdenied⟩ := hresult.2 hsecure
      exact ⟨hall, other, List.mem_cons_of_mem _ hother, hdenied⟩

/-- A negative end that makes the result secure. -/
theorem judgeNegative_spec {rcode : ℕ} {authority : List RRset} {last : Name} {qtype : RdataType}
    {state final : AnswerState World} {result : MessageAuthentication}
    (hstate : Judged context records state)
    (hrun : judgeNegative context rcode authority last qtype state = .ok (result, final))
    (hsecure : result.state = .secure) :
    (∀ record ∈ records, record ∈ result.records ∧ record.state = .secure) ∧ ∃ soa,
      (∃ record ∈ result.records, record.records = soa ∧ record.state = .secure) ∧
        NegativeEnd context rcode authority last qtype soa := by
  unfold judgeNegative at hrun
  -- A section without exactly one SOA is not secure.
  obtain ⟨soa, hsoa⟩ : ∃ soa, authority.filter (·.rdtype = RdataType.soa) = [soa] := by
    generalize authority.filter (·.rdtype = RdataType.soa) = found at hrun
    rcases found with _ | ⟨soa, _ | ⟨other, rest⟩⟩
    · obtain ⟨-, hresult, -⟩ := judged_resultOf _ _ _ _ _ _ _ hstate hrun
      exact absurd (hresult.symm.trans hsecure) nofun
    · exact ⟨soa, rfl⟩
    · obtain ⟨-, hresult, -⟩ := judged_resultOf _ _ _ _ _ _ _ hstate hrun
      exact absurd (hresult.symm.trans hsecure) nofun
  rw [hsoa] at hrun
  dsimp only at hrun
  by_cases hbelow : last.IsSubdomain soa.name
  swap
  · rw [if_pos hbelow] at hrun
    obtain ⟨-, hresult, -⟩ := judged_resultOf _ _ _ _ _ _ _ hstate hrun
    exact absurd (hresult.symm.trans hsecure) nofun
  rw [if_neg (not_not.mpr hbelow)] at hrun
  obtain ⟨record, checked, hcheck, hrun⟩ := bind_eq_ok.mp hrun
  obtain ⟨hchecked, hname, hauthentic⟩ :=
    judged_checkRecords authority soa authority _ _ _ hstate hcheck
  obtain ⟨_, appended, happend, hrun⟩ := bind_eq_ok.mp hrun
  have happended := judged_append hchecked happend
  obtain ⟨_, _, hget, hrun⟩ := bind_eq_ok.mp hrun
  obtain ⟨rfl, rfl⟩ := get_eq_ok.mp hget
  by_cases hsigned : record.state = .secure
  swap
  · rw [if_pos hsigned] at hrun
    obtain ⟨-, hresult, -⟩ := judged_resultOf _ _ _ _ _ _ _ happended hrun
    have hall := combined_eq_secure (hresult.symm.trans hsecure)
    rw [happended.records_eq] at hall
    exact absurd (hall _ (List.mem_map_of_mem (by simp))) hsigned
  rw [if_neg (not_not.mpr hsigned)] at hrun
  obtain ⟨keys, hkeys⟩ : ∃ keys,
      (appended.zones.lookup soa.name).bind ZoneAuthentication.trustedKeys = some keys := by
    refine Option.ne_none_iff_exists'.mp fun hnone ↦ ?_
    rw [hnone] at hrun
    obtain ⟨-, hresult, -⟩ := judged_resultOf _ _ _ _ _ _ _ happended hrun
    exact absurd (hresult.symm.trans hsecure) nofun
  rw [hkeys] at hrun
  obtain ⟨auth, hlookup, htrusted⟩ := Option.bind_eq_some_iff.mp hkeys
  have hauth := happended.zones _ auth (mem_of_lookup hlookup)
  have hsecureZone := hauth.secure (by simp [htrusted])
  obtain ⟨trusted, htrusted', hsecured⟩ := hauth.trustworthy hsecureZone
  obtain rfl := Option.some.inj (htrusted.symm.trans htrusted')
  rw [hauth.zone_eq] at hsecured
  obtain ⟨-, hrecords, hdenied⟩ := judged_denyKinds _ _ _ _ _ _ _ _ _ _ happended hrun
  obtain ⟨hall, kind, hkind, hdenied⟩ := hdenied hsecure
  refine ⟨fun other hother ↦ ?_, soa, ⟨record, ?_, hname, hsigned⟩, hsoa, hbelow,
    hauthentic hsigned, keys, hsecured, kind, hkind, hdenied⟩
  · have hmem := List.mem_append_left [record] hother
    exact ⟨hrecords ▸ hmem, hall other hmem⟩
  · exact hrecords ▸ List.mem_append_right records (List.mem_singleton_self record)

/-! ### The answer -/

/-- The end of an alias chain: RRsets that answer, or a name that is denied. -/
inductive Ends (context : AnswerContext World) (response : Response)
    (result : MessageAuthentication) (question : Question) : Prop
  /-- RRsets answer, and the response code says so. -/
  | positive (last : Name) (item : RRset) :
      Leads context.reader (suppliedOf response.answer) question.rdtype question.name last →
      item ∈ suppliedOf response.answer → IsDirect question.rdtype last item →
      response.rcode = 0 → Ends context response result question
  /-- Nothing answers or redirects, and the authority section denies that anything does. -/
  | negative (last : Name) (soa : RRset) (record : RecordAuthentication) :
      Leads context.reader (suppliedOf response.answer) question.rdtype question.name last →
      (∀ item ∈ suppliedOf response.answer, ¬ IsDirect question.rdtype last item ∧
        ¬ IsAlias last item ∧ ¬ Redirects last item) →
      NegativeEnd context response.rcode response.authority last question.rdtype soa →
      record ∈ result.records → record.records = soa → record.state = .secure →
      Ends context response result question

/-- An answer that is called secure: the RRsets on the alias chain are judged secure and vouched
for, and so is the end of the chain. -/
structure SecureAnswer (context : AnswerContext World) (response : Response)
    (result : MessageAuthentication) (question : Question) : Prop where
  /-- The question. -/
  asked : response.question = [question]
  /-- Every RRset on the chain is judged. -/
  judged : ∀ item, OnChain context.reader (suppliedOf response.answer) question.rdtype
    question.name item → ∃ record ∈ result.records, record.records = item ∧ record.state = .secure
  /-- Every RRset on the chain is authentic, or generated by an authentic DNAME on the chain. -/
  vouched : ∀ item, OnChain context.reader (suppliedOf response.answer) question.rdtype
    question.name item → Vouched context response.authority
      (OnChain context.reader (suppliedOf response.answer) question.rdtype question.name) item
  /-- The end of the chain. -/
  ends : Ends context response result question

/-- What judgements of a chain that are all secure say of an answer. -/
theorem secureAnswer_of_judged {response : Response} {result : MessageAuthentication}
    {question : Question} (hasked : response.question = [question]) {chain : List RRset}
    (hchain : ∀ item, item ∈ chain ↔ item ∈ [] ∨ OnChain context.reader
      (suppliedOf response.answer) question.rdtype question.name item)
    (hall : ∀ rrset ∈ chain, (∃ record ∈ records, record.records = rrset) ∧
      ((∀ record ∈ records, record.state = .secure) →
        Vouched context response.authority (· ∈ chain) rrset))
    (hrecords : ∀ record ∈ records, record ∈ result.records ∧ record.state = .secure)
    (hends : Ends context response result question) :
    SecureAnswer context response result question := by
  have hmem : ∀ item, item ∈ chain ↔ OnChain context.reader (suppliedOf response.answer)
      question.rdtype question.name item := fun item ↦
    (hchain item).trans (or_iff_right List.not_mem_nil)
  refine ⟨hasked, fun item hitem ↦ ?_, fun item hitem ↦ ?_, hends⟩
  · obtain ⟨⟨record, hrecord, hname⟩, -⟩ := hall item ((hmem item).mpr hitem)
    exact ⟨record, (hrecords record hrecord).1, hname, (hrecords record hrecord).2⟩
  · have hvouched := (hall item ((hmem item).mpr hitem)).2 fun record hrecord ↦
      (hrecords record hrecord).2
    rwa [show (· ∈ chain) = OnChain context.reader (suppliedOf response.answer) question.rdtype
      question.name from funext fun item ↦ propext (hmem item)] at hvouched

/-- The state in which `classify` starts. -/
def AnswerState.start (world : World) (budget : CryptoBudget) : AnswerState World :=
  { chain := { world, budget } }

/-- What an inspected response must be for a secure result. -/
theorem classifyInspected_secure {response : Response} {question : Question}
    (hasked : response.question = [question]) {state final : AnswerState World}
    (hstate : Judged context [] state) {result : MessageAuthentication}
    (hrun : classifyInspected context question response.rcode response.answer response.authority
      state = .ok (result, final))
    (hsecure : result.state = .secure) : SecureAnswer context response result question := by
  unfold classifyInspected at hrun
  by_cases hrcode : response.rcode ∉ [0, 3]
  · rw [if_pos hrcode] at hrun
    obtain ⟨-, hresult, -⟩ := judged_resultOf _ _ _ _ _ _ _ hstate hrun
    exact absurd (hresult.symm.trans hsecure) nofun
  rw [if_neg hrcode] at hrun
  have hrcode := not_not.mp hrcode
  obtain ⟨_, _, hlimit, hrun⟩ := bind_eq_ok.mp hrun
  obtain ⟨-, rfl⟩ := raiseIf_eq_ok.mp hlimit
  obtain ⟨_, _, hambiguous, hrun⟩ := bind_eq_ok.mp hrun
  obtain ⟨hunique, rfl⟩ := raiseIf_eq_ok.mp hambiguous
  have hunique := not_not.mp hunique
  cases hwalk : walk context.reader (suppliedOf response.answer) question.rdtype
      (context.aliases + 1) [] question.name [] with
  | error failure =>
    rw [hwalk] at hrun
    cases hrun
  | ok outcome =>
    rw [hwalk] at hrun
    have hwalked := walk_spec hunique hwalk
    cases outcome with
    | missingSynthesis =>
      obtain ⟨-, hresult, -⟩ := judged_resultOf _ _ _ _ _ _ _ hstate hrun
      exact absurd (hresult.symm.trans hsecure) nofun
    | terminal chain =>
      obtain ⟨hchain, last, hlast, item, hitem, hanswers⟩ := hwalked
      obtain ⟨_, between, hjudge, hrun⟩ := bind_eq_ok.mp hrun
      obtain ⟨judged, hjudged, hall⟩ := judgeChain_spec hstate hjudge
      obtain ⟨_, _, hraise, hrun⟩ := bind_eq_ok.mp hrun
      obtain ⟨hpositive, rfl⟩ := raiseIf_eq_ok.mp hraise
      obtain ⟨_, _, hget, hrun⟩ := bind_eq_ok.mp hrun
      obtain ⟨rfl, rfl⟩ := get_eq_ok.mp hget
      obtain ⟨-, hresult, hrecords⟩ := judged_resultOf _ _ _ _ _ _ _ hjudged hrun
      have hstates := combined_eq_secure (hresult.symm.trans hsecure)
      rw [hjudged.records_eq] at hstates
      refine secureAnswer_of_judged hasked hchain hall
        (fun record hrecord ↦ ⟨hrecords ▸ hrecord, hstates _ (List.mem_map_of_mem hrecord)⟩) ?_
      refine .positive last item hlast hitem hanswers ?_
      exact (List.mem_cons.mp hrcode).resolve_right fun hthree ↦
        hpositive (List.mem_singleton.mp hthree)
    | negative chain last =>
      obtain ⟨hchain, hlast, hnothing⟩ := hwalked
      obtain ⟨_, between, hjudge, hrun⟩ := bind_eq_ok.mp hrun
      obtain ⟨judged, hjudged, hall⟩ := judgeChain_spec hstate hjudge
      obtain ⟨hstates, soa, ⟨record, hrecord, hsoa, hsigned⟩, hend⟩ :=
        judgeNegative_spec hjudged hrun hsecure
      refine secureAnswer_of_judged hasked hchain hall hstates ?_
      exact .negative last soa record hlast hnothing hend hrecord hsoa hsigned

/-- What `classify` calls secure is authentic from the question to the end of the alias chain, and
neither the Additional section nor the AD flag of a response that passes the inspection has a part
in what it says. -/
theorem classify_sound (context : AnswerContext World) (response : Response) :
    (∀ world budget result final,
      classify context response (.start world budget) = .ok (result, final) →
        result.state = .secure → ∃ question, SecureAnswer context response result question) ∧
      ∀ authenticData additional,
        inspect context.reader context.boundary response = .ok () →
        inspect context.reader context.boundary { response with authenticData, additional } =
          .ok () →
        classify context { response with authenticData, additional } =
          classify context response := by
  refine ⟨fun world budget result final hrun hsecure ↦ ?_, fun _ _ hfirst hsecond ↦ ?_⟩
  · unfold classify at hrun
    generalize hasked : response.question = asked at hrun
    rcases asked with _ | ⟨question, _ | ⟨other, rest⟩⟩
    · cases hrun
    · refine ⟨question, ?_⟩
      dsimp only at hrun
      split_ifs at hrun
      · cases hrun
      · cases hinspect : inspect context.reader context.boundary response with
        | error failure =>
          rw [hinspect] at hrun
          cases hrun
        | ok inspected =>
          rw [hinspect] at hrun
          have hstart : Judged context [] (.start world budget) :=
            ⟨rfl, fun _ _ hmem ↦ absurd hmem List.not_mem_nil⟩
          exact classifyInspected_secure hasked hstart hrun hsecure
    · cases hrun
  · unfold classify
    dsimp only
    rw [hfirst, hsecond]

/-- A zone of the example. -/
def docsName (labels : List String) : Name :=
  ⟨labels.map ascii ++ [[]]⟩

/-- The key of the example. -/
def docsKey : DnsKey where
  flags := 256
  protocol := 3
  algorithm := 13
  key := []

/-- An RRset of the example. -/
def docsRRset (name : Name) (rdtype : RdataType) (records : List Rdata)
    (covers : RdataType := RdataType.none) : RRset where
  name
  rdclass := 1
  rdtype
  covers
  ttl := 60
  records

/-- The signatures of the root for an RRset of the example. -/
def docsSignatures (rrset : RRset) : RRset :=
  docsRRset rrset.name RdataType.rrsig [.rrsig {
    typeCovered := rrset.rdtype
    algorithm := 13
    labels := rrset.name.labels.length - 1
    originalTtl := 60
    expiration := 20
    inception := 5
    keyTag := 7
    signer := docsName []
    signature := [] }] rrset.rdtype

/-- The keys of the root. -/
def docsKeys : RRset :=
  docsRRset (docsName []) RdataType.dnskey [.dnskey docsKey]

/-- A root that signs everything, with its keys as the only anchor. -/
def docsContext : AnswerContext Unit where
  library := {
    toWire := fun _ ↦ []
    sha256Hex := fun _ ↦ ""
    keyId := fun _ ↦ 7
    algorithmSupported := fun algorithm ↦ algorithm == 13
    okToValidateDs := fun _ ↦ true
    validateRrsig := fun _ _ _ _ _ ↦ .verified
    verifyIneligibleSignature := fun _ _ _ ↦ .invalid
    makeDs := fun _ _ digestType ↦ { keyTag := 7, algorithm := 13, digestType, digest := [] } }
  hasher := fun _ _ _ ↦ []
  anchors := [(docsName [], docsKeys)]
  upstream := {
    exchange := fun _ _ world ↦
      .ok ({ rcode := 0, answer := [docsKeys, docsSignatures docsKeys], authority := [] }, world)
    time := fun world ↦ (10, world)
    monotonic := fun world ↦ (0, world) }
  deadline := 1
  reader := {
    aliasTarget := fun record ↦
      if record = .other [0] then docsName ["new"] else docsName ["host", "new"]
    targets := fun _ ↦ []
    addresses := fun _ ↦ []
    hints := fun _ ↦ [] }
  boundary := {
    checkName := fun _ ↦ .ok ()
    addresses := {
      infrastructure := [.v4 0xAC100000 12]
      translations := []
      inventoryVersion := ['0', '1']
      infrastructure_ne_nil := by decide
      length_le := by decide
      version_length := by decide } }
  aliases := 8

/-- A response that redirects the names below one name to those below another: the DNAME and the
address are signed, the CNAME is not. -/
def docsResponse : Response :=
  let dname := docsRRset (docsName ["old"]) RdataType.dname [.other [0]]
  let cname := docsRRset (docsName ["host", "old"]) RdataType.cname [.other [1]]
  let address := docsRRset (docsName ["host", "new"]) 1 [.other [10, 0, 0, 1]]
  { isResponse := true
    isTruncated := false
    authenticData := false
    opcode := 0
    rcode := 0
    question := [{ name := docsName ["host", "old"], rdclass := 1, rdtype := 1 }]
    answer := [dname, docsSignatures dname, cname, address, docsSignatures address]
    authority := []
    additional := [] }

/-- A response whose alias chain has a CNAME that only the DNAME vouches for. -/
theorem classify_sound_docs :
    ∃ result final, classify docsContext docsResponse (.start () {}) = .ok (result, final) ∧
      result.state = .secure ∧
        ∃ question, SecureAnswer docsContext docsResponse result question := by
  have hstate : (classify docsContext docsResponse (.start () {})).toOption.map (·.1.state) =
      some .secure := by
    decide +kernel
  cases hrun : classify docsContext docsResponse (.start () {}) with
  | error halted =>
    rw [hrun] at hstate
    cases hstate
  | ok pair =>
    rw [hrun] at hstate
    have hsecure := Option.some.inj hstate
    exact ⟨pair.1, pair.2, rfl, hsecure,
      (classify_sound docsContext docsResponse).1 () {} pair.1 pair.2 hrun hsecure⟩

end Ads.SandboxEgress
