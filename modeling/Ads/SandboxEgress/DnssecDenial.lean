import Mathlib.Data.List.Basic
import Ads.Dns.Zone
import Ads.Python.Base32
import Ads.SandboxEgress.DnssecValidation

/-!
# Denial proofs

The model of `dnssec_denial.py`. `validateDenial` collects the verified NSEC or NSEC3 records of the
evidence, looks names up in them (`exact`) or for a gap around them (`covers`), finds the closest
encloser and decides one kind of claim. `check_signatures` and dnspython's `nsec3_hash` are
parameters.

Hashing a name charges the budget, so the lookups run in a monad. `exactOf` and `coversOf` are the
values they return, and `validateDenial_valid` is the inversion of the whole function: it lists, for
every kind, all that a valid proof has established about the collected evidence.
-/

set_option autoImplicit false
set_option relaxedAutoImplicit false

namespace Ads.SandboxEgress

open Dns Foundation.StateExcept Python

/-- The claims a denial proof can be asked for. -/
inductive Kind
  /-- The name has no records of the type. -/
  | nodata
  /-- The name does not exist. -/
  | nxdomain
  /-- A positive answer was expanded from a wildcard. -/
  | wildcard
  /-- The wildcard that covers the name has no records of the type. -/
  | wildcardNodata
  /-- The delegation has no delegation signer. -/
  | unsignedDelegation
deriving DecidableEq, Repr

/-- `DenialProof`. -/
structure DenialProof where
  /-- The claim is established. -/
  valid : Bool
  /-- The covering record is Opt-Out. -/
  optOut : Bool := false
  /-- The signature checks of the evidence. -/
  checks : List SignatureCheck := []
  /-- The closest encloser the proof is about. -/
  closestEncloser : Option Name := none
  /-- Why nothing could be established. -/
  limitation : Option String := none
deriving DecidableEq, Repr

/-- An NSEC or NSEC3 record. -/
inductive DenialRecord
  /-- A record over names. -/
  | nsec (record : Nsec)
  /-- A record over hashed names. -/
  | nsec3 (record : Nsec3)
deriving DecidableEq, Repr

/-- The type bitmap of the record. -/
def DenialRecord.windows : DenialRecord → Windows
  | .nsec record => record.windows
  | .nsec3 record => record.windows

/-- The record is an Opt-Out NSEC3 record. -/
def DenialRecord.optOut : DenialRecord → Bool
  | .nsec _ => false
  | .nsec3 record => record.flags &&& 1 ≠ 0

/-- `_authoritative`: neither a DNAME owner nor a delegation. -/
def authoritative (windows : Windows) : Bool :=
  !hasType windows RdataType.dname &&
    !(hasType windows RdataType.ns && !hasType windows RdataType.soa)

/-- `_nodata`. -/
def nodata (windows : Windows) (kind : RdataType) : Bool :=
  if kind = RdataType.any then windows.isEmpty
  else
    !hasType windows kind && !hasType windows RdataType.cname &&
      (kind == RdataType.ds ||
        !(hasType windows RdataType.ns && !hasType windows RdataType.soa)) &&
      !(kind == RdataType.ds && hasType windows RdataType.soa)

/-- `_delegation`. -/
def delegation (windows : Windows) : Bool :=
  hasType windows RdataType.ns && !hasType windows RdataType.ds &&
    !hasType windows RdataType.soa && !hasType windows RdataType.cname &&
    !hasType windows RdataType.dname

/-- The loop of `_ancestors` on the labels of the name. -/
def ancestorsFrom (zone : Name) : List Label → List Name
  | [] => if Name.IsSubdomain ⟨[]⟩ zone then [⟨[]⟩] else []
  | label :: rest =>
    let name : Name := ⟨label :: rest⟩
    if name.IsSubdomain zone then
      name :: if name = zone then [] else ancestorsFrom zone rest
    else []

/-- `_ancestors`: the name and its parents up to the zone. -/
def ancestors (name zone : Name) : List Name :=
  ancestorsFrom zone name.labels

/-- `dns.name.Name(qname.labels[-len(closest.labels) - 1 :])`: the name one label below the
closest encloser towards the question name. -/
def nextCloser (name closest : Name) : Name :=
  ⟨name.labels.drop (name.labels.length - (closest.labels.length + 1))⟩

/-- What the evidence loop has gathered. -/
structure Evidence where
  /-- The signature checks made. -/
  checks : List SignatureCheck := []
  /-- The verified NSEC records by owner. -/
  nsec : List (Name × Nsec) := []
  /-- The verified NSEC3 records by hashed owner. -/
  nsec3 : List (Bytes × Nsec3) := []
  /-- The iterations and salt of the NSEC3 records. -/
  parameters : Option (ℕ × Bytes) := none
  /-- Something verified is not a usable proof. -/
  malformed : Bool := false
deriving DecidableEq, Repr

/-- The hashed owner of an NSEC3 record, or `none` where the source raises `ValueError` or
`binascii.Error`. -/
def nsec3Owner (zone name : Name) (record : Nsec3) : Option Bytes :=
  let label := upper (name.labels.headD [])
  if label.length ≠ 32 ∨ name.parent ≠ zone ∨ record.next.length ≠ 20 then none
  else b32hexdecode label

/-- The evidence with one verified RRset taken in. -/
def Evidence.take (zone : Name) (evidence : Evidence) (rrset : RRset) : Evidence :=
  match rrset.records with
  | [.nsec record] =>
    if ¬ record.next.IsSubdomain zone ∨ rrset.name ∈ evidence.nsec.map Prod.fst then
      { evidence with malformed := true }
    else { evidence with nsec := evidence.nsec ++ [(rrset.name, record)] }
  | [.nsec3 record] =>
    if record.algorithm ≠ 1 ∨ record.flags ∉ [0, 1] then evidence
    else
      match nsec3Owner zone rrset.name record with
      | none => { evidence with malformed := true }
      | some owner =>
        let config := (record.iterations, record.salt)
        if (evidence.parameters.isSome ∧ evidence.parameters ≠ some config) ∨
            owner ∈ evidence.nsec3.map Prod.fst then
          { evidence with malformed := true }
        else
          { evidence with
            parameters := some config
            nsec3 := evidence.nsec3 ++ [(owner, record)] }
  | [_] => evidence
  | _ => { evidence with malformed := true }

/-- The signature check the denial code calls. -/
abbrev SignatureChecker := RRset → Option RRset → RRset → ℚ → BudgetM SignatureCheck

/-- One round of the evidence loop. -/
def collectItem (check : SignatureChecker) (keys : RRset) (now : ℚ) (evidence : Evidence)
    (item : RRset × Option RRset) : BudgetM Evidence := do
  raiseIf (item.1.rdtype ∉ [RdataType.nsec, RdataType.nsec3])
    (.requestDenied "dnssec_denial_record_type")
  let checked ← check item.1 item.2 keys now
  let evidence := { evidence with checks := evidence.checks ++ [checked] }
  return if checked.verifiedExactly then evidence.take keys.name item.1 else evidence

/-- The budget and the hashes computed so far. -/
structure DenialState where
  /-- The verification budget. -/
  budget : CryptoBudget
  /-- The hashes by name. -/
  hashes : List (Name × Bytes) := []

/-- Computations of one denial proof. -/
abbrev DenialM := StateT DenialState (Except Raised)

/-- dnspython's `nsec3_hash`: the base 32 text of the hash of a name under a salt and a number of
extra rounds. -/
abbrev Nsec3Hasher := Name → Bytes → ℕ → Bytes

/-- `hashed`. The budget is charged before hashing. -/
def hashed (hasher : Nsec3Hasher) (evidence : Evidence) (name : Name) : DenialM Bytes := do
  let state ← get
  match state.hashes.lookup name with
  | some digest => return digest
  | none =>
    match evidence.parameters with
    | none => throw (.exception "AssertionError")
    | some (iterations, salt) =>
      match CryptoBudget.consume (iterations + 1) state.budget with
      | .error failure => throw failure
      | .ok (_, budget) =>
        match b32hexdecode (hasher name salt iterations) with
        | none => throw (.exception "binascii.Error")
        | some digest =>
          set (DenialState.mk budget (state.hashes ++ [(name, digest)]))
          return digest

/-- `exact`: the record that matches a name. -/
def exact (hasher : Nsec3Hasher) (evidence : Evidence) (name : Name) :
    DenialM (Option DenialRecord) :=
  if evidence.nsec ≠ [] then return (evidence.nsec.lookup name).map .nsec
  else do
    let target ← hashed hasher evidence name
    return (evidence.nsec3.lookup target).map .nsec3

/-- The test of the NSEC loop of `covers`. -/
def nsecCovers (zone name owner : Name) (record : Nsec) : Bool :=
  if name = owner ∨ name = record.next then false
  else if name.IsSubdomain owner ∧ name ≠ owner ∧ ¬ authoritative record.windows then false
  else
    owner < name ∧ name < record.next ∨
      owner > record.next ∧ (name > owner ∨ name < record.next) ∨
      owner = record.next ∧ record.next = zone

/-- The test of the NSEC3 loop of `covers`. -/
def nsec3Covers (target owner : Bytes) (record : Nsec3) : Bool :=
  if target = owner ∨ target = record.next then false
  else
    owner < target ∧ target < record.next ∨
      owner > record.next ∧ (target > owner ∨ target < record.next) ∨
      owner = record.next

/-- `covers`: the first record whose gap contains a name. -/
def covers (hasher : Nsec3Hasher) (zone : Name) (evidence : Evidence) (name : Name) :
    DenialM (Option DenialRecord) :=
  if evidence.nsec ≠ [] then
    return (evidence.nsec.find? fun item ↦ nsecCovers zone name item.1 item.2).map (.nsec ·.2)
  else do
    let target ← hashed hasher evidence name
    return (evidence.nsec3.find? fun item ↦ nsec3Covers target item.1 item.2).map (.nsec3 ·.2)

/-- The names that the NSEC records prove to exist: their owners and their next names. -/
def endpoints (evidence : Evidence) : List Name :=
  evidence.nsec.map Prod.fst ++ evidence.nsec.map (·.2.next)

/-- The first ancestor with an exact match, in the NSEC3 search for the closest encloser. -/
def firstExact (hasher : Nsec3Hasher) (evidence : Evidence) : List Name → DenialM (Option Name)
  | [] => return none
  | name :: rest => do
    match ← exact hasher evidence name with
    | some _ => return some name
    | none => firstExact hasher evidence rest

/-- The NSEC search for the closest encloser: the first ancestor with an endpoint at or below it. -/
def closestEndpoint (evidence : Evidence) (zone name : Name) : Option Name :=
  (ancestors name zone).find? fun above ↦
    (endpoints evidence).any fun endpoint ↦ decide (endpoint.IsSubdomain above)

/-- The wildcard of a positive answer is one, lies in the zone and covers the question name. -/
def WildcardInScope (zone name wildcard : Name) : Prop :=
  wildcard.labels.head? = some starLabel ∧ wildcard.IsSubdomain zone ∧ name ≠ wildcard ∧
    name.IsSubdomain wildcard.parent

instance decidableWildcardInScope (zone name wildcard : Name) :
    Decidable (WildcardInScope zone name wildcard) :=
  inferInstanceAs (Decidable (_ ∧ _ ∧ _ ∧ _))

/-- The end of `validate_denial`, after a record that covers the next closer name. -/
def concludeCovered (hasher : Nsec3Hasher) (evidence : Evidence) (zone : Name) (qtype : RdataType)
    (kind : Kind) (closest : Name) (covering : DenialRecord) : DenialM DenialProof :=
  let checks := evidence.checks
  let optOut := covering.optOut
  let star := closest.wildcard
  match kind with
  | .wildcard => return { valid := true, optOut, checks, closestEncloser := closest }
  | .unsignedDelegation =>
    return { valid := evidence.nsec3 ≠ [] ∧ optOut, optOut, checks, closestEncloser := closest }
  | .nodata =>
    if qtype = RdataType.ds then
      return { valid := evidence.nsec3 ≠ [] ∧ optOut, optOut, checks, closestEncloser := closest }
    else return { valid := false, checks }
  | .nxdomain => do
    let found ← covers hasher zone evidence star
    return { valid := found.isSome, optOut, checks, closestEncloser := closest }
  | .wildcardNodata => do
    let found ← exact hasher evidence star
    return { valid := found.any fun record ↦ nodata record.windows qtype, optOut, checks,
             closestEncloser := closest }

/-- The end of `validate_denial`, from the closest encloser on. -/
def conclude (hasher : Nsec3Hasher) (evidence : Evidence) (zone name : Name) (qtype : RdataType)
    (kind : Kind) (closest : Name) : DenialM DenialProof := do
  let matching ← exact hasher evidence closest
  if matching.any fun record ↦ !authoritative record.windows then
    return { valid := false, checks := evidence.checks }
  match ← covers hasher zone evidence (nextCloser name closest) with
  | none =>
    return { valid := false, checks := evidence.checks, limitation := "next_closer_proof_missing" }
  | some covering => concludeCovered hasher evidence zone qtype kind closest covering

/-- The test that a closest encloser above the question name was found, and the end of the
function. -/
def concludeFrom (hasher : Nsec3Hasher) (evidence : Evidence) (zone name : Name)
    (qtype : RdataType) (kind : Kind) (closest : Option Name) : DenialM DenialProof :=
  match closest with
  | none =>
    return { valid := false, checks := evidence.checks, limitation := "closest_encloser_missing" }
  | some closest =>
    if closest = name then
      return { valid := false, checks := evidence.checks, limitation := "closest_encloser_missing" }
    else conclude hasher evidence zone name qtype kind closest

/-- `validate_denial` after the evidence loop. -/
def proveDenial (hasher : Nsec3Hasher) (evidence : Evidence) (zone name : Name)
    (qtype : RdataType) (kind : Kind) (wildcard : Option Name) : DenialM DenialProof := do
  let checks := evidence.checks
  match ← exact hasher evidence name with
  | some record =>
    match kind with
    | .unsignedDelegation => return { valid := delegation record.windows, checks }
    | .nodata => return { valid := nodata record.windows qtype, checks }
    | _ => return { valid := false, checks }
  | none =>
    if kind = .wildcard then
      match wildcard with
      | none => return { valid := false, checks, limitation := "verified_wildcard_scope_required" }
      | some wildcard =>
        if WildcardInScope zone name wildcard then
          concludeFrom hasher evidence zone name qtype kind (some wildcard.parent)
        else return { valid := false, checks, limitation := "verified_wildcard_scope_required" }
    else if evidence.nsec ≠ [] then
      if closestEndpoint evidence zone name = some name then
        let found ← covers hasher zone evidence name
        return { valid := kind = .nodata ∧ found.isSome, checks, closestEncloser := name }
      else
        concludeFrom hasher evidence zone name qtype kind (closestEndpoint evidence zone name)
    else
      let closest ← firstExact hasher evidence (ancestors name zone)
      concludeFrom hasher evidence zone name qtype kind closest

/-- `validate_denial`. -/
def validateDenial (check : SignatureChecker) (hasher : Nsec3Hasher) (name : Name)
    (qtype : RdataType) (kind : Kind) (items : List (RRset × Option RRset)) (keys : RRset) (now : ℚ)
    (wildcard : Option Name) : BudgetM DenialProof := do
  let zone := keys.name
  raiseIf (¬ name.isAbsolute ∨ ¬ name.IsSubdomain zone ∨ items.length > 64 ∨
      kind = .unsignedDelegation ∧ (qtype ≠ RdataType.ds ∨ name = zone))
    (.requestDenied "dnssec_denial_scope_or_limit")
  let evidence ← items.foldlM (collectItem check keys now) {}
  let checks := evidence.checks
  if evidence.malformed ∨ evidence.nsec ≠ [] ∧ evidence.nsec3 ≠ [] then
    return { valid := false, checks, limitation := "inconsistent_denial_evidence" }
  if evidence.nsec = [] ∧ evidence.nsec3 = [] then
    return { valid := false, checks, limitation := "no_verified_denial_evidence" }
  let budget ← get
  match proveDenial hasher evidence zone name qtype kind wildcard { budget } with
  | .error failure => throw failure
  | .ok (proof, state) =>
    set state.budget
    return proof

/-! ### Ancestors and the next closer name -/

section Ancestors

variable {name zone above closest other : Name}

/-- One label less keeps the names strictly above. -/
theorem isSubdomain_tail {label : Label} {rest : List Label}
    (hzone : Name.IsSubdomain ⟨label :: rest⟩ above) (hne : (⟨label :: rest⟩ : Name) ≠ above) :
    Name.IsSubdomain ⟨rest⟩ above := by
  have hsuffix : above.labels <:+ rest :=
    (List.suffix_cons_iff.mp hzone.2).resolve_left fun heq ↦ hne (Name.ext heq.symm)
  refine ⟨?_, hsuffix⟩
  rw [← hzone.1]
  cases rest with
  | nil =>
    have hempty : above.labels = [] := List.suffix_nil.mp hsuffix
    have habove : above = ⟨[]⟩ := Name.ext hempty
    rw [hzone.1, habove]
  | cons next rest => simp [Name.isAbsolute]

/-- The loop lists exactly the names between the name and the zone. -/
theorem mem_ancestorsFrom {labels : List Label} (hzone : Name.IsSubdomain ⟨labels⟩ zone) :
    above ∈ ancestorsFrom zone labels ↔
      Name.IsSubdomain ⟨labels⟩ above ∧ above.IsSubdomain zone := by
  induction labels with
  | nil =>
    have heq : zone = ⟨[]⟩ := Name.ext (List.suffix_nil.mp hzone.2)
    subst heq
    simp only [ancestorsFrom, Name.IsSubdomain.refl, if_true, List.mem_singleton]
    exact ⟨fun h ↦ h ▸ ⟨.refl _, .refl _⟩, fun h ↦ h.2.antisymm h.1⟩
  | cons label rest ih =>
    simp only [ancestorsFrom, hzone, if_true, List.mem_cons]
    by_cases heq : (⟨label :: rest⟩ : Name) = zone
    · simp only [heq, if_true, List.not_mem_nil, or_false]
      exact ⟨fun h ↦ h ▸ ⟨.refl _, .refl _⟩, fun h ↦ h.2.antisymm h.1⟩
    · have hrest : Name.IsSubdomain ⟨rest⟩ zone := isSubdomain_tail hzone heq
      rw [if_neg heq, ih hrest]
      constructor
      · rintro (rfl | ⟨hbelow, habove⟩)
        · exact ⟨.refl _, hzone⟩
        · exact ⟨⟨hzone.1.trans habove.1.symm, hbelow.2.trans (List.suffix_cons label rest)⟩, habove⟩
      · rintro ⟨hbelow, habove⟩
        by_cases hself : above = ⟨label :: rest⟩
        · exact Or.inl hself
        · exact Or.inr ⟨isSubdomain_tail hbelow (Ne.symm hself), habove⟩

/-- The ancestors of a name of the zone are the names between the two. -/
theorem mem_ancestors (hzone : name.IsSubdomain zone) :
    above ∈ ancestors name zone ↔ name.IsSubdomain above ∧ above.IsSubdomain zone :=
  mem_ancestorsFrom hzone

/-- The ancestors come from the name upwards. -/
theorem pairwise_ancestors : (ancestors name zone).Pairwise Name.IsSubdomain := by
  have hfrom : ∀ labels : List Label, (ancestorsFrom zone labels).Pairwise Name.IsSubdomain := by
    intro labels
    induction labels with
    | nil =>
      unfold ancestorsFrom
      split <;> simp
    | cons label rest ih =>
      simp only [ancestorsFrom]
      split
      · rename_i hzone
        by_cases heq : (⟨label :: rest⟩ : Name) = zone
        · simp [heq]
        · simp only [heq, if_false]
          refine List.pairwise_cons.mpr ⟨fun above habove ↦ ?_, ih⟩
          obtain ⟨hbelow, hroot⟩ := (mem_ancestorsFrom (isSubdomain_tail hzone heq)).mp habove
          exact ⟨hzone.1.trans hroot.1.symm, hbelow.2.trans (List.suffix_cons label rest)⟩
      · simp
  exact hfrom name.labels

/-- The first ancestor with a property is below every other ancestor that has it. -/
theorem isSubdomain_of_find_ancestors {holds : Name → Bool}
    (hfind : (ancestors name zone).find? holds = some closest)
    (hother : other ∈ ancestors name zone) (hholds : holds other = true) :
    closest.IsSubdomain other := by
  obtain ⟨hclosest, before, after, hsplit, hbefore⟩ := List.find?_eq_some_iff_append.mp hfind
  have hpairwise : (ancestors name zone).Pairwise Name.IsSubdomain := pairwise_ancestors
  rw [hsplit] at hpairwise hother
  rcases List.mem_append.mp hother with hearly | hlate
  · exact absurd hholds (by simpa using hbefore other hearly)
  · rcases List.mem_cons.mp hlate with rfl | hafter
    · exact .refl _
    · exact (List.pairwise_cons.mp (List.pairwise_append.mp hpairwise).2.1).1 other hafter

/-- The next closer name has one label more than the closest encloser. -/
theorem length_nextCloser (hbelow : name.IsBelow closest) :
    (nextCloser name closest).labels.length = closest.labels.length + 1 := by
  have hlength := hbelow.length_lt
  simp only [nextCloser, List.length_drop]
  omega

/-- The question name is at or below the next closer name. -/
theorem isSubdomain_nextCloser (hbelow : name.IsBelow closest) :
    name.IsSubdomain (nextCloser name closest) := by
  have hsuffix : (nextCloser name closest).labels <:+ name.labels := List.drop_suffix _ _
  refine ⟨?_, hsuffix⟩
  have hlength := length_nextCloser hbelow
  obtain ⟨front, hfront⟩ := hsuffix
  have hne : (nextCloser name closest).labels ≠ [] := by
    intro hempty
    simp [hempty] at hlength
  simp only [Name.isAbsolute, ← hfront, List.getLast?_append_of_ne_nil _ hne]

/-- A name strictly below the closest encloser and at or above the question name is at or above the
next closer name. -/
theorem nextCloser_isSubdomain (hbelow : name.IsBelow closest) (hname : name.IsSubdomain other)
    (hother : other.IsBelow closest) : other.IsSubdomain (nextCloser name closest) := by
  refine Name.isSubdomain_of_length_le (isSubdomain_nextCloser hbelow) hname ?_
  have hlength := length_nextCloser hbelow
  have hlonger := hother.length_lt
  omega

/-- The next closer name is strictly below the closest encloser. -/
theorem nextCloser_isBelow (hbelow : name.IsBelow closest) :
    (nextCloser name closest).IsBelow closest := by
  have hlength := length_nextCloser hbelow
  refine ⟨Name.isSubdomain_of_length_le hbelow.1 (isSubdomain_nextCloser hbelow) (by omega), ?_⟩
  intro heq
  rw [heq] at hlength
  omega

end Ancestors

/-! ### What the evidence loop gathers -/

/-- The signature check accepted an RRset of the evidence as not wildcard-expanded. -/
def Accepted (check : SignatureChecker) (keys : RRset) (now : ℚ)
    (items : List (RRset × Option RRset)) (rrset : RRset) : Prop :=
  rrset.rdtype ∈ [RdataType.nsec, RdataType.nsec3] ∧ ∃ signatures budget checked final,
    (rrset, signatures) ∈ items ∧ check rrset signatures keys now budget = .ok (checked, final) ∧
      checked.verifiedExactly = true

/-- Every gathered record is the only record of an accepted RRset, and all NSEC3 records have the
parameters of the evidence. -/
structure Evidence.IsGathered (accepted : RRset → Prop) (zone : Name) (evidence : Evidence) :
    Prop where
  /-- The origin of an NSEC record. -/
  nsec : ∀ owner record, (owner, record) ∈ evidence.nsec →
    ∃ rrset, accepted rrset ∧ rrset.name = owner ∧ rrset.records = [.nsec record]
  /-- The origin of an NSEC3 record. -/
  nsec3 : ∀ owner record, (owner, record) ∈ evidence.nsec3 →
    evidence.parameters = some (record.iterations, record.salt) ∧
      ∃ rrset, accepted rrset ∧ nsec3Owner zone rrset.name record = some owner ∧
        rrset.records = [.nsec3 record]

/-- Taking in an accepted RRset keeps the origin of all records. -/
theorem Evidence.IsGathered.take {accepted : RRset → Prop} {zone : Name} {evidence : Evidence}
    {rrset : RRset} (hgathered : evidence.IsGathered accepted zone) (haccepted : accepted rrset) :
    (evidence.take zone rrset).IsGathered accepted zone := by
  unfold Evidence.take
  split
  · rename_i record hrecords
    split_ifs
    · exact ⟨hgathered.nsec, hgathered.nsec3⟩
    · refine ⟨fun owner other hmem ↦ ?_, hgathered.nsec3⟩
      rcases List.mem_append.mp hmem with hold | hnew
      · exact hgathered.nsec owner other hold
      · obtain ⟨rfl, rfl⟩ := Prod.mk.inj (List.mem_singleton.mp hnew)
        exact ⟨rrset, haccepted, rfl, hrecords⟩
  · rename_i record hrecords
    split_ifs with hignored
    · exact hgathered
    · split
      · exact ⟨hgathered.nsec, hgathered.nsec3⟩
      · rename_i owner howner
        dsimp only
        split_ifs with hbad
        · exact ⟨hgathered.nsec, hgathered.nsec3⟩
        · refine ⟨hgathered.nsec, fun other stored hmem ↦ ?_⟩
          rcases List.mem_append.mp hmem with hold | hnew
          · obtain ⟨hparameters, horigin⟩ := hgathered.nsec3 other stored hold
            refine ⟨?_, horigin⟩
            by_contra hdiffer
            refine hbad (Or.inl ⟨by simp [hparameters], fun heq ↦ hdiffer ?_⟩)
            exact heq.symm.trans hparameters
          · obtain ⟨rfl, rfl⟩ := Prod.mk.inj (List.mem_singleton.mp hnew)
            exact ⟨rfl, rrset, haccepted, howner, hrecords⟩
  · exact hgathered
  · exact ⟨hgathered.nsec, hgathered.nsec3⟩

/-- The evidence loop gathers accepted RRsets only. -/
theorem isGathered_of_collect {check : SignatureChecker} {keys : RRset} {now : ℚ}
    {items : List (RRset × Option RRset)} {evidence : Evidence} {budget final : CryptoBudget}
    (hrun : items.foldlM (collectItem check keys now) {} budget = .ok (evidence, final)) :
    evidence.IsGathered (Accepted check keys now items) keys.name := by
  refine foldlM_induction (fun evidence ↦
    evidence.IsGathered (Accepted check keys now items) keys.name) ?_ ?_ hrun
  · intro accumulated item state next final hitem hgathered hstep
    unfold collectItem at hstep
    obtain ⟨_, between, hraise, hstep⟩ := bind_eq_ok.mp hstep
    obtain ⟨htype, rfl⟩ := raiseIf_eq_ok.mp hraise
    obtain ⟨checked, after, hcheck, hstep⟩ := bind_eq_ok.mp hstep
    obtain ⟨rfl, -⟩ := pure_eq_ok.mp hstep
    have hchecked : Evidence.IsGathered (Accepted check keys now items) keys.name
        { accumulated with checks := accumulated.checks ++ [checked] } :=
      ⟨hgathered.nsec, hgathered.nsec3⟩
    split_ifs with hexact
    · exact hchecked.take ⟨not_not.mp htype, item.2, state, checked, after, hitem, hcheck, hexact⟩
    · exact hchecked
  · exact ⟨fun owner record hmem ↦ absurd hmem List.not_mem_nil,
      fun owner record hmem ↦ absurd hmem List.not_mem_nil⟩

/-! ### The values of the lookups -/

/-- What a lookup finds is stored under its key. -/
theorem mem_of_lookup {κ υ : Type} [BEq κ] [LawfulBEq κ] {items : List (κ × υ)} {key : κ} {value : υ}
    (hlookup : items.lookup key = some value) : (key, value) ∈ items := by
  obtain ⟨before, after, hsplit, -⟩ := List.lookup_eq_some_iff.mp hlookup
  rw [hsplit]
  exact List.mem_append_right _ List.mem_cons_self

/-- The hash of a name under the parameters of the evidence. -/
def digestOf (hasher : Nsec3Hasher) (evidence : Evidence) (name : Name) : Option Bytes :=
  evidence.parameters.bind fun (iterations, salt) ↦ b32hexdecode (hasher name salt iterations)

/-- The record `exact` finds. -/
def exactOf (hasher : Nsec3Hasher) (evidence : Evidence) (name : Name) : Option DenialRecord :=
  if evidence.nsec ≠ [] then (evidence.nsec.lookup name).map .nsec
  else (digestOf hasher evidence name).bind fun target ↦
    (evidence.nsec3.lookup target).map .nsec3

/-- The record `covers` finds. -/
def coversOf (hasher : Nsec3Hasher) (zone : Name) (evidence : Evidence) (name : Name) :
    Option DenialRecord :=
  if evidence.nsec ≠ [] then
    (evidence.nsec.find? fun item ↦ nsecCovers zone name item.1 item.2).map (.nsec ·.2)
  else (digestOf hasher evidence name).bind fun target ↦
    (evidence.nsec3.find? fun item ↦ nsec3Covers target item.1 item.2).map (.nsec3 ·.2)

/-- The remembered hashes are the hashes. -/
def DenialState.IsSound (hasher : Nsec3Hasher) (evidence : Evidence) (state : DenialState) : Prop :=
  ∀ name digest, state.hashes.lookup name = some digest → digestOf hasher evidence name = some digest

section Lookups

variable {hasher : Nsec3Hasher} {evidence : Evidence} {zone name : Name} {state final : DenialState}

/-- `hashed` returns the hash and remembers hashes only. -/
theorem hashed_eq_ok {digest : Bytes} (hsound : state.IsSound hasher evidence)
    (hrun : hashed hasher evidence name state = .ok (digest, final)) :
    digestOf hasher evidence name = some digest ∧ final.IsSound hasher evidence := by
  unfold hashed at hrun
  obtain ⟨_, _, hget, hrun⟩ := bind_eq_ok.mp hrun
  obtain ⟨rfl, rfl⟩ := get_eq_ok.mp hget
  cases hknown : state.hashes.lookup name with
  | some known =>
    rw [hknown] at hrun
    obtain ⟨rfl, rfl⟩ := pure_eq_ok.mp hrun
    exact ⟨hsound name known hknown, hsound⟩
  | none =>
    rw [hknown] at hrun
    cases hparameters : evidence.parameters with
    | none =>
      rw [hparameters] at hrun
      exact absurd hrun throw_ne_ok
    | some parameters =>
      obtain ⟨iterations, salt⟩ := parameters
      rw [hparameters] at hrun
      dsimp only at hrun
      cases hconsume : CryptoBudget.consume (iterations + 1) state.budget with
      | error failure =>
        rw [hconsume] at hrun
        exact absurd hrun throw_ne_ok
      | ok consumed =>
        rw [hconsume] at hrun
        dsimp only at hrun
        cases hdecode : b32hexdecode (hasher name salt iterations) with
        | none =>
          rw [hdecode] at hrun
          exact absurd hrun throw_ne_ok
        | some decoded =>
          rw [hdecode] at hrun
          obtain ⟨_, _, hset, hrun⟩ := bind_eq_ok.mp hrun
          obtain rfl := set_eq_ok.mp hset
          obtain ⟨rfl, rfl⟩ := pure_eq_ok.mp hrun
          have hdigest : digestOf hasher evidence name = some decoded := by
            simp [digestOf, hparameters, hdecode]
          refine ⟨hdigest, fun other digest hlookup ↦ ?_⟩
          rw [List.lookup_append] at hlookup
          rcases Option.or_eq_some_iff.mp hlookup with hold | ⟨-, hnew⟩
          · exact hsound other digest hold
          · rw [List.lookup_cons] at hnew
            by_cases hother : other = name
            · simp only [hother, beq_self_eq_true, Option.some.injEq] at hnew
              rw [hother, hdigest, hnew]
            · rw [beq_eq_false_iff_ne.mpr hother] at hnew
              cases hnew

/-- `exact` returns what it finds and keeps the remembered hashes sound. -/
theorem exact_eq_ok {found : Option DenialRecord} (hsound : state.IsSound hasher evidence)
    (hrun : exact hasher evidence name state = .ok (found, final)) :
    found = exactOf hasher evidence name ∧ final.IsSound hasher evidence := by
  unfold exact at hrun
  unfold exactOf
  split_ifs at hrun ⊢ with hnsec
  · obtain ⟨rfl, rfl⟩ := pure_eq_ok.mp hrun
    exact ⟨rfl, hsound⟩
  · obtain ⟨target, between, hhash, hrun⟩ := bind_eq_ok.mp hrun
    obtain ⟨hdigest, hkept⟩ := hashed_eq_ok hsound hhash
    obtain ⟨rfl, rfl⟩ := pure_eq_ok.mp hrun
    exact ⟨by rw [hdigest]; rfl, hkept⟩

/-- `covers` returns what it finds and keeps the remembered hashes sound. -/
theorem covers_eq_ok {found : Option DenialRecord} (hsound : state.IsSound hasher evidence)
    (hrun : covers hasher zone evidence name state = .ok (found, final)) :
    found = coversOf hasher zone evidence name ∧ final.IsSound hasher evidence := by
  unfold covers at hrun
  unfold coversOf
  split_ifs at hrun ⊢ with hnsec
  · obtain ⟨rfl, rfl⟩ := pure_eq_ok.mp hrun
    exact ⟨rfl, hsound⟩
  · obtain ⟨target, between, hhash, hrun⟩ := bind_eq_ok.mp hrun
    obtain ⟨hdigest, hkept⟩ := hashed_eq_ok hsound hhash
    obtain ⟨rfl, rfl⟩ := pure_eq_ok.mp hrun
    exact ⟨by rw [hdigest]; rfl, hkept⟩

/-- `firstExact` returns a listed name with an exact match. -/
theorem firstExact_eq_ok {names : List Name} {found : Name} (hsound : state.IsSound hasher evidence)
    (hrun : firstExact hasher evidence names state = .ok (some found, final)) :
    found ∈ names ∧ exactOf hasher evidence found ≠ none := by
  induction names generalizing state with
  | nil =>
    obtain ⟨hfound, -⟩ := pure_eq_ok.mp hrun
    cases hfound
  | cons first rest ih =>
    unfold firstExact at hrun
    obtain ⟨matching, between, hexact, hrun⟩ := bind_eq_ok.mp hrun
    obtain ⟨hmatching, hkept⟩ := exact_eq_ok hsound hexact
    cases matching with
    | some record =>
      obtain ⟨hfound, -⟩ := pure_eq_ok.mp hrun
      cases hfound
      exact ⟨List.mem_cons_self, by simp [← hmatching]⟩
    | none =>
      obtain ⟨hmem, hfound⟩ := ih hkept hrun
      exact ⟨List.mem_cons_of_mem _ hmem, hfound⟩

/-- `firstExact` keeps the remembered hashes sound. -/
theorem firstExact_isSound {names : List Name} {found : Option Name}
    (hsound : state.IsSound hasher evidence)
    (hrun : firstExact hasher evidence names state = .ok (found, final)) :
    final.IsSound hasher evidence := by
  induction names generalizing state with
  | nil =>
    obtain ⟨-, rfl⟩ := pure_eq_ok.mp hrun
    exact hsound
  | cons first rest ih =>
    unfold firstExact at hrun
    obtain ⟨matching, between, hexact, hrun⟩ := bind_eq_ok.mp hrun
    obtain ⟨-, hkept⟩ := exact_eq_ok hsound hexact
    cases matching with
    | some record =>
      obtain ⟨-, rfl⟩ := pure_eq_ok.mp hrun
      exact hkept
    | none => exact ih hkept hrun

end Lookups

/-! ### What a valid proof has established -/

section Proven

variable (hasher : Nsec3Hasher) (evidence : Evidence) (zone name : Name) (qtype : RdataType)
  (kind : Kind) (wildcard : Option Name)

/-- How the closest encloser was found. -/
inductive FoundEncloser : Name → Prop
  /-- The parent of the wildcard that a positive answer was expanded from. -/
  | scope (source : Name) : kind = .wildcard → wildcard = some source →
      WildcardInScope zone name source → FoundEncloser source.parent
  /-- The first ancestor with an NSEC endpoint at or below it. -/
  | endpoint (closest : Name) : kind ≠ .wildcard → evidence.nsec ≠ [] →
      closestEndpoint evidence zone name = some closest → FoundEncloser closest
  /-- An ancestor with a matching NSEC3 record. -/
  | matching (closest : Name) : kind ≠ .wildcard → evidence.nsec = [] →
      closest ∈ ancestors name zone → exactOf hasher evidence closest ≠ none →
      FoundEncloser closest

/-- The closest encloser is above the question name, is no cut as far as the evidence shows, and
the next closer name is covered. -/
structure IsEncloserProof (closest : Name) (covering : DenialRecord) : Prop where
  /-- The question name itself is another name. -/
  ne : closest ≠ name
  /-- A record at the closest encloser shows no delegation or DNAME. -/
  authoritative : ∀ record, exactOf hasher evidence closest = some record →
    authoritative record.windows = true
  /-- The next closer name lies in the gap of the covering record. -/
  covers : coversOf hasher zone evidence (nextCloser name closest) = some covering

/-- What the end of the function requires of each kind besides the closest encloser proof. -/
def Concluded (closest : Name) (covering : DenialRecord) : Prop :=
  match kind with
  | .wildcard => True
  | .unsignedDelegation => evidence.nsec3 ≠ [] ∧ covering.optOut = true
  | .nodata => qtype = RdataType.ds ∧ evidence.nsec3 ≠ [] ∧ covering.optOut = true
  | .nxdomain => coversOf hasher zone evidence closest.wildcard ≠ none
  | .wildcardNodata => ∃ record, exactOf hasher evidence closest.wildcard = some record ∧
      nodata record.windows qtype = true

/-- The ways a proof is valid, with the closest encloser it reports. -/
inductive Proven : Option Name → Prop
  /-- A record at the name shows a delegation without a signer. -/
  | delegation (record : DenialRecord) : kind = .unsignedDelegation →
      exactOf hasher evidence name = some record → delegation record.windows = true → Proven none
  /-- A record at the name shows the absence of the type. -/
  | nodata (record : DenialRecord) : kind = .nodata →
      exactOf hasher evidence name = some record → nodata record.windows qtype = true → Proven none
  /-- The name is an empty non-terminal: an NSEC endpoint lies below it and a gap around it. -/
  | emptyNonTerminal : kind = .nodata → evidence.nsec ≠ [] →
      closestEndpoint evidence zone name = some name →
      coversOf hasher zone evidence name ≠ none → Proven (some name)
  /-- A closest encloser proof. -/
  | encloser (closest : Name) (covering : DenialRecord) :
      FoundEncloser hasher evidence zone name kind wildcard closest →
      IsEncloserProof hasher evidence zone name closest covering →
      Concluded hasher evidence zone qtype kind closest covering → Proven (some closest)

variable {hasher evidence zone name qtype kind wildcard} {state final : DenialState}
  {proof : DenialProof}

/-- A valid end of the function has what the kind requires. -/
theorem concludeCovered_valid {closest : Name} {covering : DenialRecord}
    (hsound : state.IsSound hasher evidence)
    (hrun : concludeCovered hasher evidence zone qtype kind closest covering state =
      .ok (proof, final))
    (hvalid : proof.valid = true) :
    proof.closestEncloser = some closest ∧
      Concluded hasher evidence zone qtype kind closest covering := by
  unfold concludeCovered at hrun
  unfold Concluded
  cases kind with
  | wildcard =>
    obtain ⟨rfl, -⟩ := pure_eq_ok.mp hrun
    exact ⟨rfl, trivial⟩
  | unsignedDelegation =>
    obtain ⟨rfl, -⟩ := pure_eq_ok.mp hrun
    exact ⟨rfl, by simpa using hvalid⟩
  | nodata =>
    dsimp only at hrun
    split_ifs at hrun with hds
    · obtain ⟨rfl, -⟩ := pure_eq_ok.mp hrun
      exact ⟨rfl, hds, by simpa using hvalid⟩
    · obtain ⟨rfl, -⟩ := pure_eq_ok.mp hrun
      cases hvalid
  | nxdomain =>
    obtain ⟨found, between, hcovers, hrun⟩ := bind_eq_ok.mp hrun
    obtain ⟨rfl, -⟩ := covers_eq_ok hsound hcovers
    obtain ⟨rfl, -⟩ := pure_eq_ok.mp hrun
    exact ⟨rfl, Option.isSome_iff_ne_none.mp hvalid⟩
  | wildcardNodata =>
    obtain ⟨found, between, hexact, hrun⟩ := bind_eq_ok.mp hrun
    obtain ⟨rfl, -⟩ := exact_eq_ok hsound hexact
    obtain ⟨rfl, -⟩ := pure_eq_ok.mp hrun
    exact ⟨rfl, (Option.any_eq_true _ _).mp hvalid⟩

/-- A valid end of the function has a closest encloser proof and what the kind requires. -/
theorem conclude_valid {closest : Name} (hne : closest ≠ name)
    (hsound : state.IsSound hasher evidence)
    (hrun : conclude hasher evidence zone name qtype kind closest state = .ok (proof, final))
    (hvalid : proof.valid = true) :
    proof.closestEncloser = some closest ∧ ∃ covering,
      IsEncloserProof hasher evidence zone name closest covering ∧
        Concluded hasher evidence zone qtype kind closest covering := by
  unfold conclude at hrun
  obtain ⟨matching, between, hexact, hrun⟩ := bind_eq_ok.mp hrun
  obtain ⟨hmatching, hbetween⟩ := exact_eq_ok hsound hexact
  split_ifs at hrun with hcut
  · obtain ⟨rfl, -⟩ := pure_eq_ok.mp hrun
    cases hvalid
  obtain ⟨found, after, hcovers, hrun⟩ := bind_eq_ok.mp hrun
  obtain ⟨hfound, hafter⟩ := covers_eq_ok hbetween hcovers
  cases found with
  | none =>
    obtain ⟨rfl, -⟩ := pure_eq_ok.mp hrun
    cases hvalid
  | some covering =>
    obtain ⟨hclosest, hconcluded⟩ := concludeCovered_valid hafter hrun hvalid
    refine ⟨hclosest, covering, ⟨hne, fun record hrecord ↦ ?_, hfound.symm⟩, hconcluded⟩
    rw [hmatching, hrecord] at hcut
    simpa using hcut

/-- A valid proof from a closest encloser. -/
theorem concludeFrom_valid {closest : Option Name}
    (hfound : ∀ found, closest = some found →
      FoundEncloser hasher evidence zone name kind wildcard found)
    (hsound : state.IsSound hasher evidence)
    (hrun : concludeFrom hasher evidence zone name qtype kind closest state = .ok (proof, final))
    (hvalid : proof.valid = true) :
    Proven hasher evidence zone name qtype kind wildcard proof.closestEncloser := by
  unfold concludeFrom at hrun
  cases closest with
  | none =>
    obtain ⟨rfl, -⟩ := pure_eq_ok.mp hrun
    cases hvalid
  | some closest =>
    dsimp only at hrun
    split_ifs at hrun with heq
    · obtain ⟨rfl, -⟩ := pure_eq_ok.mp hrun
      cases hvalid
    · obtain ⟨hclosest, covering, hencloser, hconcluded⟩ := conclude_valid heq hsound hrun hvalid
      rw [hclosest]
      exact .encloser closest covering (hfound closest rfl) hencloser hconcluded

/-- A valid proof is one of the ways. -/
theorem proveDenial_valid (hsound : state.IsSound hasher evidence)
    (hrun : proveDenial hasher evidence zone name qtype kind wildcard state = .ok (proof, final))
    (hvalid : proof.valid = true) :
    Proven hasher evidence zone name qtype kind wildcard proof.closestEncloser := by
  unfold proveDenial at hrun
  obtain ⟨matching, between, hexact, hrun⟩ := bind_eq_ok.mp hrun
  obtain ⟨hmatching, hbetween⟩ := exact_eq_ok hsound hexact
  cases matching with
  | some record =>
    cases kind with
    | unsignedDelegation =>
      obtain ⟨rfl, -⟩ := pure_eq_ok.mp hrun
      exact .delegation record rfl hmatching.symm hvalid
    | nodata =>
      obtain ⟨rfl, -⟩ := pure_eq_ok.mp hrun
      exact .nodata record rfl hmatching.symm hvalid
    | nxdomain | wildcard | wildcardNodata =>
      obtain ⟨rfl, -⟩ := pure_eq_ok.mp hrun
      cases hvalid
  | none =>
    dsimp only at hrun
    split_ifs at hrun with hkind hnsec hself
    · cases wildcard with
      | none =>
        obtain ⟨rfl, -⟩ := pure_eq_ok.mp hrun
        cases hvalid
      | some source =>
        dsimp only at hrun
        split_ifs at hrun with hscope
        · refine concludeFrom_valid (fun found hfound ↦ ?_) hbetween hrun hvalid
          obtain rfl := Option.some.inj hfound
          exact .scope source hkind rfl hscope
        · obtain ⟨rfl, -⟩ := pure_eq_ok.mp hrun
          cases hvalid
    · obtain ⟨found, after, hcovers, hrun⟩ := bind_eq_ok.mp hrun
      obtain ⟨rfl, -⟩ := covers_eq_ok hbetween hcovers
      obtain ⟨rfl, -⟩ := pure_eq_ok.mp hrun
      obtain ⟨hnodata, hcovered⟩ := of_decide_eq_true hvalid
      exact .emptyNonTerminal hnodata hnsec hself (Option.isSome_iff_ne_none.mp hcovered)
    · exact concludeFrom_valid (fun found hfound ↦ .endpoint found hkind hnsec hfound) hbetween hrun
        hvalid
    · obtain ⟨closest, after, hfirst, hrun⟩ := bind_eq_ok.mp hrun
      refine concludeFrom_valid (fun found hfound ↦ ?_) (firstExact_isSound hbetween hfirst) hrun
        hvalid
      rw [hfound] at hfirst
      obtain ⟨hmem, hmatch⟩ := firstExact_eq_ok hbetween hfirst
      exact .matching found hkind (not_not.mp hnsec) hmem hmatch

end Proven

/-- All that a valid denial has established: the evidence it rests on and one of the ways to prove
the claim from it. -/
structure IsValidDenial (check : SignatureChecker) (hasher : Nsec3Hasher) (name : Name)
    (qtype : RdataType) (kind : Kind) (items : List (RRset × Option RRset)) (keys : RRset) (now : ℚ)
    (wildcard closest : Option Name) (evidence : Evidence) : Prop where
  /-- Every record comes from an accepted RRset. -/
  gathered : evidence.IsGathered (Accepted check keys now items) keys.name
  /-- The two sorts of records are not mixed. -/
  unmixed : evidence.nsec = [] ∨ evidence.nsec3 = []
  /-- There are records. -/
  nonempty : evidence.nsec ≠ [] ∨ evidence.nsec3 ≠ []
  /-- The question name is in the zone. -/
  isSubdomain : name.IsSubdomain keys.name
  /-- A delegation is not at the apex. -/
  ne_apex : kind = .unsignedDelegation → name ≠ keys.name
  /-- One of the ways. -/
  proven : Proven hasher evidence keys.name name qtype kind wildcard closest

/-- A valid denial rests on accepted evidence and one of the ways to prove its claim. -/
theorem validateDenial_valid {check : SignatureChecker} {hasher : Nsec3Hasher} {name : Name}
    {qtype : RdataType} {kind : Kind} {items : List (RRset × Option RRset)} {keys : RRset} {now : ℚ}
    {wildcard : Option Name} {budget final : CryptoBudget} {proof : DenialProof}
    (hrun : validateDenial check hasher name qtype kind items keys now wildcard budget =
      .ok (proof, final))
    (hvalid : proof.valid = true) :
    ∃ evidence, IsValidDenial check hasher name qtype kind items keys now wildcard
      proof.closestEncloser evidence := by
  unfold validateDenial at hrun
  obtain ⟨_, _, hraise, hrun⟩ := bind_eq_ok.mp hrun
  obtain ⟨hscope, rfl⟩ := raiseIf_eq_ok.mp hraise
  obtain ⟨evidence, between, hcollect, hrun⟩ := bind_eq_ok.mp hrun
  split_ifs at hrun with hmalformed hempty
  · obtain ⟨rfl, -⟩ := pure_eq_ok.mp hrun
    cases hvalid
  · obtain ⟨rfl, -⟩ := pure_eq_ok.mp hrun
    cases hvalid
  obtain ⟨remaining, _, hget, hrun⟩ := bind_eq_ok.mp hrun
  obtain ⟨rfl, rfl⟩ := get_eq_ok.mp hget
  cases hprove : proveDenial hasher evidence keys.name name qtype kind wildcard
      { budget := between } with
  | error failure =>
    rw [hprove] at hrun
    exact absurd hrun throw_ne_ok
  | ok outcome =>
    obtain ⟨result, state⟩ := outcome
    rw [hprove] at hrun
    obtain ⟨_, _, -, hrun⟩ := bind_eq_ok.mp hrun
    obtain ⟨rfl, -⟩ := pure_eq_ok.mp hrun
    have hsound : DenialState.IsSound hasher evidence { budget := between } :=
      fun other digest hlookup ↦ absurd hlookup (by simp)
    simp only [not_or, not_not, not_and] at hscope hmalformed
    refine ⟨evidence, isGathered_of_collect hcollect, ?_, not_and_or.mp hempty, hscope.2.1,
      fun hkind ↦ (hscope.2.2.2 hkind).2, proveDenial_valid hsound hprove hvalid⟩
    by_cases hnsec : evidence.nsec = []
    · exact Or.inl hnsec
    · exact Or.inr (hmalformed.2 hnsec)

/-! ### Claims and type bitmaps -/

/-- What a claim says of a zone. For a positive answer the wildcard is the one it was expanded
from. -/
def Claim (zone : Zone) (name : Name) (qtype : RdataType) (wildcard : Option Name) : Kind → Prop
  | .nodata => zone.NoData name qtype
  | .nxdomain => zone.NameError name
  | .wildcard => ∃ source, wildcard = some source ∧ zone.IsExpansion name source
  | .wildcardNodata => zone.WildcardNoData name qtype
  | .unsignedDelegation => zone.UnsignedDelegation name

/-- The signature check accepts only denial RRsets that the zone publishes. -/
def AcceptsOnly (check : SignatureChecker) (keys : RRset) (now : ℚ) (publishes : RRset → Prop) :
    Prop :=
  ∀ rrset signatures budget checked final, rrset.rdtype ∈ [RdataType.nsec, RdataType.nsec3] →
    check rrset signatures keys now budget = .ok (checked, final) →
      checked.verifiedExactly = true → publishes rrset

section Bitmaps

variable {zone : Zone} {name : Name} {windows : Windows} {kind : RdataType}

/-- A record shows authority exactly when its owner is no cut. -/
theorem authoritative_iff (howner : name ∈ zone.owners)
    (hrepresents : Represents windows (zone.types name)) :
    authoritative windows = true ↔ ¬ zone.IsCut name := by
  have hsoa := zone.soa_iff name howner
  simp only [authoritative, Bool.and_eq_true, Bool.not_eq_true',
    ← Bool.not_eq_true, hrepresents _, hsoa, Zone.IsCut]
  tauto

/-- `nodata` shows the absence of the type and of an alias. -/
theorem noData_of_nodata (hexists : zone.Exists name)
    (hrepresents : Represents windows (zone.types name)) (hnodata : nodata windows kind = true) :
    zone.NoData name kind := by
  unfold nodata at hnodata
  split_ifs at hnodata with hany
  · have hempty : windows = [] := List.isEmpty_iff.mp hnodata
    have htypes : ∀ other, other ∉ zone.types name := fun other hother ↦ by
      have htype := (hrepresents other).mpr hother
      rw [hempty, hasType_nil] at htype
      cases htype
    exact ⟨hexists, fun _ ↦ Finset.eq_empty_of_forall_notMem htypes, htypes _, htypes _⟩
  · simp only [Bool.and_eq_true, Bool.not_eq_true', ← Bool.not_eq_true, hrepresents _] at hnodata
    exact ⟨hexists, fun heq ↦ absurd heq hany, hnodata.1.1.1, hnodata.1.1.2⟩

/-- `delegation` shows a delegation without a signer. -/
theorem unsignedDelegation_of_delegation (hrepresents : Represents windows (zone.types name))
    (hdelegation : delegation windows = true) : zone.UnsignedDelegation name := by
  simp only [delegation, Bool.and_eq_true, Bool.not_eq_true', ← Bool.not_eq_true,
    hrepresents _] at hdelegation
  obtain ⟨⟨⟨⟨hns, hds⟩, hsoa⟩, -⟩, -⟩ := hdelegation
  have howner : name ∈ zone.owners := by
    by_contra hnot
    simp [zone.types_eq_empty name hnot] at hns
  exact ⟨howner, fun heq ↦ hsoa ((zone.soa_iff name howner).mpr heq), hns, hds⟩

end Bitmaps

/-! ### The closest encloser -/

/-- Where the next closer name does not exist and is below no cut, the existing name above it is the
closest encloser, and the question name is right to be denied. -/
theorem isClosestEncloser_of_not_exists {zone : Zone} {name closest : Name}
    (hexists : zone.Exists closest) (hbelow : name.IsBelow closest)
    (habsent : ¬ zone.Exists (nextCloser name closest)) :
    zone.IsClosestEncloser name closest ∧ ¬ zone.Exists name := by
  have hzone : (nextCloser name closest).IsSubdomain zone.apex :=
    (nextCloser_isBelow hbelow).1.trans hexists.1
  refine ⟨⟨hexists, hbelow.1, fun other hother hname ↦ ?_⟩, fun hname ↦ habsent ?_⟩
  · rcases Name.isSubdomain_total hbelow.1 hname with hlower | hupper
    · by_cases heq : other = closest
      · exact heq ▸ .refl _
      · refine absurd (hother.of_isSubdomain ?_ hzone) habsent
        exact nextCloser_isSubdomain hbelow hname ⟨hlower, heq⟩
    · exact hupper
  · exact hname.of_isSubdomain (isSubdomain_nextCloser hbelow) hzone

/-- A name is below no cut if its next closer name does not exist and is below no cut. -/
theorem not_isBelow_cut_of_nextCloser {zone : Zone} {name closest cut : Name}
    (hbelow : name.IsBelow closest) (hzone : closest.IsSubdomain zone.apex)
    (habsent : ¬ zone.Exists (nextCloser name closest))
    (hnext : ¬ (nextCloser name closest).IsBelow cut) (hcut : zone.IsCut cut) :
    ¬ name.IsBelow cut := by
  intro hname
  have hexists : zone.Exists cut := Zone.exists_of_mem_owners hcut.1
  rcases Name.isSubdomain_total (isSubdomain_nextCloser hbelow) hname.1 with hlower | hupper
  · exact habsent (hexists.of_isSubdomain hlower ((nextCloser_isBelow hbelow).1.trans hzone))
  · exact hnext ⟨hupper, fun heq ↦ habsent (heq ▸ hexists)⟩

/-- The parent of a wildcard of the zone is in the zone if the next closer name is not the apex. -/
theorem isSubdomain_apex_of_wildcard {zone : Zone} {name closest : Name}
    (hname : name.IsSubdomain zone.apex) (hbelow : name.IsBelow closest)
    (hwildcard : closest.wildcard.IsSubdomain zone.apex)
    (hnext : nextCloser name closest ≠ zone.apex) : closest.IsSubdomain zone.apex := by
  rcases Name.isSubdomain_total hbelow.1 hname with hlower | hupper
  · by_cases heq : zone.apex = closest
    · exact heq ▸ .refl _
    · have hsub := nextCloser_isSubdomain hbelow hname ⟨hlower, heq⟩
      have hshort := hwildcard.length_le
      have hlength := length_nextCloser hbelow
      exact absurd (Name.ext (hsub.2.eq_of_length_le (by rw [hlength]; exact hshort))) hnext
  · exact hupper

end Ads.SandboxEgress
