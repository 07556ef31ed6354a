import Ads.SandboxEgress.CrlReference

/-!
# CRL status agrees with its reference

`judge_eq_ok` says what `crl_set_revoked` returns in terms that do not depend on the order of the
CRLs, and `crlSetRevoked_agrees` that it is what the reference says of the certificate.
-/

set_option autoImplicit false
set_option relaxedAutoImplicit false

namespace Ads.SandboxEgress.CrlStatus

open Dns Foundation.StateExcept Python

/-! ### The bases of a set -/

/-- The identity of a certificate. -/
def Certificate.identity (certificate : Certificate) : Identity :=
  (certificate.issuer, certificate.serialNumber)

/-- A base is in the scope of a certificate. -/
def InScope (base : Crl) (certificate : Certificate) : Prop :=
  ∃ reason, Covers base certificate reason

/-- A base in scope is brought up to date, and the reason it has for the certificate is in its scope,
or it is not specified. -/
def BaseFits (crls : List Crl) (certificate : Certificate) (now : ℤ) (base : Crl) : Prop :=
  InScope base certificate → ∃ listed, Updated crls base now listed ∧
    ∀ reason, reasonOf listed certificate.identity = some reason →
      reason = .unspecified ∨ Covers base certificate reason

/-- A base in scope has the certificate. -/
def Lists (crls : List Crl) (certificate : Certificate) (base : Crl) : Prop :=
  InScope base certificate ∧ ∃ reason, UpdatedLists crls base certificate.identity reason

variable {crls others items : List Crl} {base delta : Crl} {certificate issuer : Certificate} {now : ℤ}
  {judgement final : Judgement} {listed : List (Identity × ReasonFlag)} {result : Bool}

theorem inScope_iff : InScope base certificate ↔ scope base certificate ≠ ∅ := by
  rw [← Finset.nonempty_iff_ne_empty]
  exact exists_congr fun _ ↦ mem_scope.symm

/-- The indices of the deltas that apply to a base. -/
def indices (crls : List Crl) (base : Crl) : Finset ℕ :=
  (((deltas crls).zipIdx.filter fun item ↦ isApplicable base item.1).map Prod.snd).toFinset

/-- The deltas that apply to a base, without their indices. -/
theorem map_zipIdx_filter (matching : List Crl) (start : ℕ) :
    ((matching.zipIdx start).filter fun item ↦ isApplicable base item.1).map Prod.fst =
      matching.filter (isApplicable base) := by
  induction matching generalizing start with
  | nil => rfl
  | cons delta rest ih =>
    cases happlies : isApplicable base delta <;> simp [List.zipIdx_cons, happlies, ih]

/-- A judgement is told by what it keeps. -/
theorem judgement_eq_iff {first second : Judgement} : first = second ↔
    (∀ index, index ∈ second.used ↔ index ∈ first.used) ∧
      (∀ reason, reason ∈ second.covered ↔ reason ∈ first.covered) ∧
        (second.revoked = true ↔ first.revoked = true) := by
  constructor
  · rintro rfl
    exact ⟨fun _ ↦ Iff.rfl, fun _ ↦ Iff.rfl, Iff.rfl⟩
  · obtain ⟨used, covered, revoked⟩ := first
    obtain ⟨otherUsed, otherCovered, otherRevoked⟩ := second
    rintro ⟨hused, hcovered, hrevoked⟩
    obtain rfl : used = otherUsed := Finset.ext fun index ↦ (hused index).symm
    obtain rfl : covered = otherCovered := Finset.ext fun reason ↦ (hcovered reason).symm
    obtain rfl : revoked = otherRevoked := Bool.eq_iff_iff.mpr hrevoked.symm
    rfl

/-- What a round of the loop over the bases keeps. -/
theorem judgeBase_eq_ok :
    judgeBase (deltas crls) certificate now judgement base = .ok final ↔
      BaseFits crls certificate now base ∧
        (∀ index, index ∈ final.used ↔ index ∈ judgement.used ∨
          (InScope base certificate ∧ index ∈ indices crls base)) ∧
        (∀ reason, reason ∈ final.covered ↔
          reason ∈ judgement.covered ∨ Covers base certificate reason) ∧
        (final.revoked = true ↔ judgement.revoked = true ∨ Lists crls certificate base) := by
  unfold judgeBase
  by_cases hscope : InScope base certificate
  · have hupdates : ∀ listed, updatedEntries base
        ((((deltas crls).zipIdx.filter fun item ↦ isApplicable base item.1)).map Prod.fst) now =
          .ok listed ↔ Updated crls base now listed := by
      intro listed
      rw [map_zipIdx_filter]
      exact updatedEntries_eq_ok
    simp only [if_neg (inScope_iff.mp hscope), except_bind_eq_ok, hupdates]
    constructor
    · rintro ⟨listed, hlisted, hrest⟩
      have hreasons := hlisted.spec.1
      cases hfound : reasonOf listed (certificate.issuer, certificate.serialNumber) with
      | none =>
        have hnone : ¬ Lists crls certificate base := by
          rintro ⟨-, reason, hreason⟩
          have hsome : reasonOf listed certificate.identity = some reason := (hreasons _ _).mpr hreason
          rw [Certificate.identity, hfound] at hsome
          cases hsome
        simp only [hfound] at hrest
        obtain rfl := except_pure_eq_ok.mp hrest
        refine ⟨fun _ ↦ ⟨listed, hlisted, fun reason hreason ↦ ?_⟩, fun index ↦ ?_, fun reason ↦ ?_, ?_⟩
        · rw [Certificate.identity, hfound] at hreason
          cases hreason
        · simp [hscope, indices]
        · simp [mem_scope]
        · simp [hnone]
      | some selected =>
        have hlists : Lists crls certificate base := ⟨hscope, selected, (hreasons _ _).mp hfound⟩
        simp only [hfound, except_bind_eq_ok, failIf_eq_ok] at hrest
        obtain ⟨_, hallowed, hrest⟩ := hrest
        obtain rfl := except_pure_eq_ok.mp hrest
        refine ⟨fun _ ↦ ⟨listed, hlisted, fun reason hreason ↦ ?_⟩, fun index ↦ ?_, fun reason ↦ ?_, ?_⟩
        · obtain rfl : selected = reason := Option.some.inj (hfound.symm.trans hreason)
          rw [← mem_scope]
          by_contra hnot
          exact hallowed (not_or.mp hnot)
        · simp [hscope, indices]
        · simp [mem_scope]
        · simp [hlists]
    · rintro ⟨hfits, hused, hcovered, hrevoked⟩
      obtain ⟨listed, hlisted, hallowed⟩ := hfits hscope
      have hreasons := hlisted.spec.1
      refine ⟨listed, hlisted, ?_⟩
      cases hfound : reasonOf listed (certificate.issuer, certificate.serialNumber) with
      | none =>
        have hnone : ¬ Lists crls certificate base := by
          rintro ⟨-, reason, hreason⟩
          have hsome : reasonOf listed certificate.identity = some reason := (hreasons _ _).mpr hreason
          rw [Certificate.identity, hfound] at hsome
          cases hsome
        refine congrArg Except.ok (judgement_eq_iff.mpr ⟨fun index ↦ ?_, fun reason ↦ ?_, ?_⟩)
        · rw [hused]
          simp [hscope, indices]
        · rw [hcovered]
          simp [mem_scope]
        · rw [hrevoked]
          simp [hnone]
      | some selected =>
        have hlists : Lists crls certificate base := ⟨hscope, selected, (hreasons _ _).mp hfound⟩
        simp only [except_bind_eq_ok, failIf_eq_ok]
        refine ⟨(), ?_, congrArg Except.ok (judgement_eq_iff.mpr ⟨fun index ↦ ?_, fun reason ↦ ?_, ?_⟩)⟩
        · rintro ⟨hspecified, hnot⟩
          rcases hallowed selected hfound with hunspecified | hcovers
          · exact hspecified hunspecified
          · exact hnot (mem_scope.mpr hcovers)
        · rw [hused]
          simp [hscope, indices]
        · rw [hcovered]
          simp [mem_scope]
        · rw [hrevoked]
          simp [hlists]
  · have hempty : scope base certificate = ∅ := by
      by_contra hne
      exact hscope (inScope_iff.mpr hne)
    have hnever : ∀ reason, ¬ Covers base certificate reason := fun reason hcovers ↦ hscope ⟨reason, hcovers⟩
    have hfits : BaseFits crls certificate now base := fun h ↦ absurd h hscope
    have hlists : ¬ Lists crls certificate base := fun h ↦ hscope h.1
    simp only [if_pos hempty, except_pure_eq_ok, hfits, hscope, hnever, hlists, false_and, or_false,
      true_and]
    exact judgement_eq_iff

/-- What the loop over the bases keeps. -/
theorem foldlM_judgeBase_eq_ok :
    items.foldlM (judgeBase (deltas crls) certificate now) judgement = .ok final ↔
      (∀ base ∈ items, BaseFits crls certificate now base) ∧
        (∀ index, index ∈ final.used ↔ index ∈ judgement.used ∨
          ∃ base ∈ items, InScope base certificate ∧ index ∈ indices crls base) ∧
        (∀ reason, reason ∈ final.covered ↔
          reason ∈ judgement.covered ∨ ∃ base ∈ items, Covers base certificate reason) ∧
        (final.revoked = true ↔
          judgement.revoked = true ∨ ∃ base ∈ items, Lists crls certificate base) := by
  induction items generalizing judgement with
  | nil =>
    simp only [List.foldlM_nil, except_pure_eq_ok, List.not_mem_nil, false_and, exists_false, or_false,
      IsEmpty.forall_iff, implies_true, true_and]
    exact judgement_eq_iff
  | cons base rest ih =>
    simp only [List.foldlM_cons, except_bind_eq_ok, ih, judgeBase_eq_ok, List.forall_mem_cons,
      List.exists_mem_cons_iff]
    constructor
    · rintro ⟨middle, ⟨hfits, hused, hcovered, hrevoked⟩, hothers, hrestUsed, hrestCovered, hrestRevoked⟩
      refine ⟨⟨hfits, hothers⟩, fun index ↦ ?_, fun reason ↦ ?_, ?_⟩
      · rw [hrestUsed, hused, or_assoc]
      · rw [hrestCovered, hcovered, or_assoc]
      · rw [hrestRevoked, hrevoked, or_assoc]
    · rintro ⟨⟨hfits, hothers⟩, hused, hcovered, hrevoked⟩
      classical
      refine ⟨⟨judgement.used ∪ (if InScope base certificate then indices crls base else ∅),
        judgement.covered ∪ scope base certificate,
        judgement.revoked || decide (Lists crls certificate base)⟩, ⟨hfits, ?_, ?_, ?_⟩, hothers, ?_⟩
      · intro index
        split_ifs with hscope <;> simp [hscope]
      · intro reason
        simp [mem_scope]
      · simp
      · refine ⟨fun index ↦ ?_, fun reason ↦ ?_, ?_⟩
        · rw [hused]
          split_ifs with hscope <;> simp [hscope, or_assoc]
        · rw [hcovered]
          simp [mem_scope, or_assoc]
        · rw [hrevoked]
          simp [or_assoc]

/-! ### The set -/

/-- What a set of CRLs comes to for a certificate. -/
structure Judged (crls : List Crl) (certificate : Certificate) (now : ℤ) (result : Bool) : Prop where
  fits : ∀ base ∈ bases crls, BaseFits crls certificate now base
  applied : ∀ delta ∈ deltas crls, ∃ base ∈ bases crls,
    InScope base certificate ∧ isApplicable base delta = true
  based : bases crls ≠ []
  revoked : result = true ↔ ∃ base ∈ bases crls, Lists crls certificate base
  covered : result = false → ∀ reason ∈ reasonFlags, ∃ base ∈ bases crls, Covers base certificate reason

/-- A delta at an index applies to a base. -/
theorem mem_indices {index : ℕ} : index ∈ indices crls base ↔
    ∃ delta, (deltas crls)[index]? = some delta ∧ isApplicable base delta = true := by
  simp only [indices, List.mem_toFinset, List.mem_map, List.mem_filter, Prod.exists,
    List.mem_zipIdx_iff_getElem?]
  constructor
  · rintro ⟨delta, _, ⟨hdelta, happlies⟩, rfl⟩
    exact ⟨delta, hdelta, happlies⟩
  · rintro ⟨delta, hdelta, happlies⟩
    exact ⟨delta, index, ⟨hdelta, happlies⟩, rfl⟩

/-- Every delta applies to some base exactly when as many apply as there are. -/
theorem card_used_iff {used : Finset ℕ} (hused : ∀ index, index ∈ used ↔
      ∃ base ∈ bases crls, InScope base certificate ∧ index ∈ indices crls base) :
    used.card = (deltas crls).length ↔ ∀ delta ∈ deltas crls, ∃ base ∈ bases crls,
      InScope base certificate ∧ isApplicable base delta = true := by
  have hsubset : used ⊆ Finset.range (deltas crls).length := by
    intro index hindex
    obtain ⟨base, -, -, hmem⟩ := (hused index).mp hindex
    obtain ⟨delta, hdelta, -⟩ := mem_indices.mp hmem
    rw [Finset.mem_range]
    exact (List.getElem?_eq_some_iff.mp hdelta).1
  have hcard : used.card = (deltas crls).length ↔ used = Finset.range (deltas crls).length := by
    constructor
    · intro hcount
      exact Finset.eq_of_subset_of_card_le hsubset (by simp [hcount])
    · rintro rfl
      simp
  rw [hcard, Finset.ext_iff]
  constructor
  · intro hall delta hdelta
    obtain ⟨index, hindex⟩ := List.mem_iff_getElem?.mp hdelta
    have hrange : index ∈ Finset.range (deltas crls).length := by
      rw [Finset.mem_range]
      exact (List.getElem?_eq_some_iff.mp hindex).1
    obtain ⟨base, hbase, hscope, hmem⟩ := (hused index).mp ((hall index).mpr hrange)
    obtain ⟨other, hother, happlies⟩ := mem_indices.mp hmem
    obtain rfl : delta = other := Option.some.inj (hindex.symm.trans hother)
    exact ⟨base, hbase, hscope, happlies⟩
  · intro hall index
    refine ⟨fun hindex ↦ hsubset hindex, fun hindex ↦ ?_⟩
    rw [Finset.mem_range] at hindex
    obtain ⟨base, hbase, hscope, happlies⟩ := hall _ (List.getElem_mem hindex)
    exact (hused index).mpr ⟨base, hbase, hscope,
      mem_indices.mpr ⟨_, List.getElem?_eq_getElem hindex, happlies⟩⟩

variable {cryptography : Cryptography} {wires : List Bytes} {signers : List Certificate}

/-- The bounds of a set. -/
structure Bounded (wires : List Bytes) (signers : List Certificate) : Prop where
  count : 1 ≤ wires.length ∧ wires.length ≤ 16
  size : (wires.map List.length).sum ≤ 16 * 1024 ^ 2
  signers : signers.length ≤ 16

/-- What `crl_set_revoked` returns. -/
theorem judge_eq_ok : judge cryptography wires certificate issuer now signers = .ok result ↔
    Bounded wires signers ∧ ∃ crls, wires.mapM (authenticate cryptography issuer signers now) = .ok crls ∧
      Judged crls certificate now result := by
  simp only [judge, except_bind_eq_ok, failIf_eq_ok, not_or, not_not, not_lt, gt_iff_lt,
    foldlM_judgeBase_eq_ok, except_pure_eq_ok, exists_and_left, exists_const, Finset.notMem_empty,
    false_or, Bool.false_eq_true, ne_eq]
  constructor
  · rintro ⟨⟨hcount, hsize⟩, hsigners, crls, hcrls, judgement, ⟨hfits, hused, hcovered, hrevoked⟩,
      ⟨hcard, hbased, hcovers⟩, rfl⟩
    refine ⟨⟨hcount, hsize, hsigners⟩, crls, hcrls, hfits, (card_used_iff hused).mp hcard, hbased,
      hrevoked, fun hfalse reason hreason ↦ ?_⟩
    rw [not_and, not_not] at hcovers
    rw [← hcovers hfalse] at hreason
    exact (hcovered reason).mp hreason
  · rintro ⟨⟨hcount, hsize, hsigners⟩, crls, hcrls, hfits, happlied, hbased, hrevoked, hcovered⟩
    classical
    refine ⟨⟨hcount, hsize⟩, hsigners, crls, hcrls,
      ⟨(Finset.range (deltas crls).length), reasonFlags.filter fun reason ↦
        ∃ base ∈ bases crls, Covers base certificate reason, result⟩, ⟨hfits, ?_, ?_, hrevoked⟩, ⟨?_, hbased, ?_⟩, rfl⟩
    · intro index
      constructor
      · intro hindex
        rw [Finset.mem_range] at hindex
        obtain ⟨base, hbase, hscope, happlies⟩ := happlied _ (List.getElem_mem hindex)
        exact ⟨base, hbase, hscope, mem_indices.mpr ⟨_, List.getElem?_eq_getElem hindex, happlies⟩⟩
      · rintro ⟨base, -, -, hmem⟩
        obtain ⟨delta, hdelta, -⟩ := mem_indices.mp hmem
        rw [Finset.mem_range]
        exact (List.getElem?_eq_some_iff.mp hdelta).1
    · intro reason
      rw [Finset.mem_filter]
      exact ⟨And.right, fun hcovers ↦ ⟨hcovers.elim fun _ h ↦ h.2.flag, hcovers⟩⟩
    · simp
    · rintro ⟨hfalse, hnot⟩
      exact hnot (Finset.filter_true_of_mem (hcovered hfalse))

/-! ### The order of the CRLs -/

/-- What applies to a base does not depend on the order. -/
theorem applicable_perm (hperm : crls.Perm others) :
    (applicable crls base).Perm (applicable others base) :=
  (hperm.filter _).filter _

theorem Newest.of_perm {latest : Crl} (hperm : crls.Perm others) (hnewest : Newest crls base latest) :
    Newest others base latest :=
  ⟨(applicable_perm hperm).mem_iff.mp hnewest.applies, fun other hother ↦
    hnewest.greatest other ((applicable_perm hperm).mem_iff.mpr hother)⟩

theorem UpdatedLists.of_perm {identity : Identity} {reason : ReasonFlag} (hperm : crls.Perm others)
    (hlists : UpdatedLists crls base identity reason) : UpdatedLists others base identity reason := by
  rcases hlists with ⟨latest, hnewest, hreason, hentry⟩ | ⟨hentry, hnever⟩
  · exact Or.inl ⟨latest, hnewest.of_perm hperm, hreason, hentry⟩
  · exact Or.inr ⟨hentry, fun latest hnewest ↦ hnever latest (hnewest.of_perm hperm.symm)⟩

theorem Updated.of_perm (hperm : crls.Perm others) (hupdated : Updated crls base now listed) :
    Updated others base now listed := by
  obtain ⟨hnodup, first, hfirst, hrest⟩ := hupdated
  refine ⟨((applicable_perm hperm).map Crl.crlNumber).nodup_iff.mp hnodup, first, hfirst, ?_⟩
  rcases hrest with ⟨hempty, rfl⟩ | ⟨latest, changes, hnewest, hchanges, hrun⟩
  · exact Or.inl ⟨((applicable_perm hperm).symm.trans (hempty ▸ .refl _)).eq_nil, rfl⟩
  · exact Or.inr ⟨latest, changes, hnewest.of_perm hperm, hchanges, hrun⟩

theorem Lists.of_perm (hperm : crls.Perm others) (hlists : Lists crls certificate base) :
    Lists others certificate base :=
  ⟨hlists.1, hlists.2.elim fun reason hreason ↦ ⟨reason, hreason.of_perm hperm⟩⟩

/-- What a set comes to does not depend on the order. -/
theorem Judged.of_perm (hperm : crls.Perm others) (hjudged : Judged crls certificate now result) :
    Judged others certificate now result := by
  have hbases : ∀ base, base ∈ bases others ↔ base ∈ bases crls :=
    fun base ↦ (hperm.symm.filter _).mem_iff
  have hdeltas : ∀ delta, delta ∈ deltas others ↔ delta ∈ deltas crls :=
    fun delta ↦ (hperm.symm.filter _).mem_iff
  refine ⟨fun base hbase hscope ↦ ?_, fun delta hdelta ↦ ?_, fun hempty ↦ ?_, ?_, fun hfalse ↦ ?_⟩
  · obtain ⟨listed, hlisted, hreasons⟩ := hjudged.fits base ((hbases base).mp hbase) hscope
    exact ⟨listed, hlisted.of_perm hperm, hreasons⟩
  · simp only [hbases]
    exact hjudged.applied delta ((hdeltas delta).mp hdelta)
  · refine hjudged.based (List.eq_nil_iff_forall_not_mem.mpr fun base hbase ↦ ?_)
    rw [← hbases, hempty] at hbase
    exact List.not_mem_nil hbase
  · simp only [hbases]
    rw [hjudged.revoked]
    exact exists_congr fun base ↦ and_congr_right fun _ ↦
      ⟨fun hlists ↦ hlists.of_perm hperm, fun hlists ↦ hlists.of_perm hperm.symm⟩
  · simp only [hbases]
    exact hjudged.covered hfalse

/-- The CRLs of a set in another order. -/
theorem judge_perm {other : List Bytes} (hperm : wires.Perm other)
    (hjudge : judge cryptography wires certificate issuer now signers = .ok result) :
    judge cryptography other certificate issuer now signers = .ok result := by
  obtain ⟨⟨hcount, hsize, hsigners⟩, crls, hcrls, hjudged⟩ := judge_eq_ok.mp hjudge
  obtain ⟨otherCrls, hother, hsame⟩ := List.perm_comp_forall₂ hperm.symm (except_mapM_eq_ok.mp hcrls)
  refine judge_eq_ok.mpr ⟨⟨hperm.length_eq ▸ hcount, ?_, hsigners⟩, otherCrls,
    except_mapM_eq_ok.mpr hother, hjudged.of_perm hsame.symm⟩
  rwa [← (hperm.map List.length).sum_eq]

/-- What the outcome says of a certificate. -/
structure StatusAgrees (crls : List Crl) (certificate : Certificate) (result : Bool) : Prop where
  /-- Every reason is covered by a base where the certificate is not revoked. -/
  covered : result = false → ∀ reason ∈ reasonFlags, ∃ base ∈ bases crls, Covers base certificate reason
  /-- No base in scope has the certificate then. -/
  unlisted : result = false → ∀ base ∈ bases crls, InScope base certificate → ∀ reason,
    ¬ UpdatedLists crls base certificate.identity reason
  /-- Some base in scope has a revoked certificate, with a reason it covers or none specified. -/
  listed : result = true → ∃ base ∈ bases crls, InScope base certificate ∧ ∃ reason,
    UpdatedLists crls base certificate.identity reason ∧
      (reason = .unspecified ∨ Covers base certificate reason)
  /-- Every delta applies to a base in scope. -/
  applied : ∀ delta ∈ deltas crls, ∃ base ∈ bases crls,
    InScope base certificate ∧ isApplicable base delta = true
  /-- What a newest delta removes from a base in scope is a hold. -/
  removals : ∀ base ∈ bases crls, InScope base certificate → ∀ latest, Newest crls base latest →
    ∀ identity, HasEntry latest identity .removeFromCrl → ∀ reason,
      HasEntry base identity reason → reason = .certificateHold

/-- What a set comes to agrees with the reference. -/
theorem Judged.agrees (hjudged : Judged crls certificate now result) :
    StatusAgrees crls certificate result := by
  constructor
  case covered => exact hjudged.covered
  case unlisted =>
    intro hfalse base hbase hscope reason hlists
    rw [hjudged.revoked.mpr ⟨base, hbase, hscope, reason, hlists⟩] at hfalse
    cases hfalse
  case listed =>
    intro htrue
    obtain ⟨base, hbase, hscope, reason, hlists⟩ := hjudged.revoked.mp htrue
    obtain ⟨listed, hupdated, hreasons⟩ := hjudged.fits base hbase hscope
    exact ⟨base, hbase, hscope, reason, hlists,
      hreasons reason ((hupdated.spec.1 certificate.identity reason).mpr hlists)⟩
  case applied => exact hjudged.applied
  case removals =>
    intro base hbase hscope
    obtain ⟨listed, hupdated, -⟩ := hjudged.fits base hbase hscope
    exact hupdated.spec.2

/-- **CRL status agrees with its reference,** and does not depend on the order of the CRLs. -/
theorem crlSetRevoked_agrees (cryptography : Cryptography) (wires : List Bytes)
    (certificate issuer : Certificate) (now : ℤ) (signers : List Certificate) :
    (∀ result, crlSetRevoked cryptography wires certificate issuer now signers = .ok result →
      ∃ crls, List.Forall₂ (fun wire crl ↦
        authenticate cryptography issuer signers now wire = .ok crl) wires crls ∧
          StatusAgrees crls certificate result) ∧
    ∀ other, wires.Perm other → crlSetRevoked cryptography other certificate issuer now signers =
      crlSetRevoked cryptography wires certificate issuer now signers := by
  constructor
  · intro result hresult
    have hjudge : judge cryptography wires certificate issuer now signers = .ok result := by
      unfold crlSetRevoked at hresult
      cases hjudge : judge cryptography wires certificate issuer now signers with
      | error failure => simp [hjudge, Except.mapError] at hresult
      | ok value => simpa [hjudge, Except.mapError] using hresult
    obtain ⟨-, crls, hcrls, hjudged⟩ := judge_eq_ok.mp hjudge
    exact ⟨crls, except_mapM_eq_ok.mp hcrls, hjudged.agrees⟩
  · intro other hperm
    unfold crlSetRevoked
    cases hjudge : judge cryptography wires certificate issuer now signers with
    | ok value => rw [judge_perm hperm hjudge]
    | error failure =>
      cases hother : judge cryptography other certificate issuer now signers with
      | error _ => rfl
      | ok value =>
        rw [judge_perm hperm.symm hother] at hjudge
        cases hjudge

/-! ### A revocation without a reason -/

/-- The certificate of an issuer of CRLs. -/
def openIssuer : Certificate :=
  ⟨[1], [[1]], [[1]], 1, some [1], 0, 10, some true, some true, none, none⟩

/-- A certificate that names no distribution point. -/
def openCertificate : Certificate :=
  ⟨[2], [[2]], [[1]], 7, none, 0, 10, none, none, none, none⟩

/-- A CRL that lists the certificate without a reason. -/
def openCrl : Crl :=
  ⟨[3], [[1]], 0, some 10, [⟨7, 0, some ⟨none, none, []⟩⟩], [], none, some 1, none, none⟩

/-- A cryptography in which every CRL is this one. -/
def openCryptography : Cryptography where
  load _ := some openCrl
  isSignatureValid _ _ := true
  keyDigest key := key
  isDirectlyIssuedBy _ _ := true

theorem crlSetRevoked_open :
    crlSetRevoked openCryptography [[3]] openCertificate openIssuer 5 [] = .ok true := by
  decide +kernel

/-- The certificate is revoked, as the reference says. -/
theorem crlSetRevoked_agrees_open :
    ∃ crls, List.Forall₂ (fun wire crl ↦
      authenticate openCryptography openIssuer [] 5 wire = .ok crl) [[3]] crls ∧
        StatusAgrees crls openCertificate true :=
  (crlSetRevoked_agrees openCryptography [[3]] openCertificate openIssuer 5 []).1 true
    crlSetRevoked_open

/-- A certificate can be revoked for a reason that no scope has: none that is specified. -/
theorem crlSetRevoked_unspecified :
    ¬ ∀ cryptography wires certificate issuer now signers,
      crlSetRevoked cryptography wires certificate issuer now signers = .ok true →
        ∃ crls, List.Forall₂ (fun wire crl ↦
          authenticate cryptography issuer signers now wire = .ok crl) wires crls ∧
            ∃ base ∈ bases crls, ∃ reason,
              UpdatedLists crls base certificate.identity reason ∧ Covers base certificate reason := by
  intro hall
  obtain ⟨crls, hcrls, base, hbase, reason, hlists, hcovers⟩ :=
    hall openCryptography [[3]] openCertificate openIssuer 5 [] crlSetRevoked_open
  obtain ⟨crl, _, hcrl, hnone, rfl⟩ := List.forall₂_cons_left_iff.mp hcrls
  obtain rfl := List.forall₂_nil_left_iff.mp hnone
  have hloaded : authenticate openCryptography openIssuer [] 5 [3] = .ok openCrl := by decide +kernel
  obtain rfl : openCrl = crl := Except.ok.inj (hloaded.symm.trans hcrl)
  have hentry : ∀ identity, HasEntry openCrl identity reason → reason = .unspecified := by
    rintro identity ⟨before, entry, after, hentries, hlisted⟩
    have hmem : entry ∈ openCrl.entries := by simp [hentries]
    obtain rfl : entry = ⟨7, 0, some ⟨none, none, []⟩⟩ := by simpa [openCrl] using hmem
    exact (Prod.mk.inj hlisted).2
  have hreason : reason = .unspecified := by
    rcases hlists with ⟨latest, hnewest, -, hlatest⟩ | ⟨hlisted, -⟩
    · have hdelta := (List.mem_filter.mp hnewest.applies).1
      obtain rfl : latest = openCrl := by simpa using (List.mem_filter.mp hdelta).1
      exact hentry _ hlatest
    · obtain rfl : base = openCrl := by simpa using (List.mem_filter.mp hbase).1
      exact hentry _ hlisted
  have hflag := hcovers.flag
  rw [hreason] at hflag
  revert hflag
  decide

end Ads.SandboxEgress.CrlStatus
