import Ads.SandboxEgress.CrlStatus

/-!
# The reference of CRL status

What a set of CRLs says of a certificate, without the loops of `crl_set_revoked`: which reasons a CRL
covers for it (`Covers`), which entries a CRL has (`HasEntry`), and which a base has with its newest
delta (`UpdatedLists`). The outcome agrees with the reference and does not depend on the order of the
CRLs (`crlSetRevoked_agrees`).
-/

set_option autoImplicit false
set_option relaxedAutoImplicit false

namespace Ads.SandboxEgress.CrlStatus

open Dns Foundation.StateExcept Python

/-! ### Scope -/

/-- A reason is one of some, if there are any. -/
def Admits (reasons : Option (Finset ReasonFlag)) (reason : ReasonFlag) : Prop :=
  ∀ allowed, reasons = some allowed → allowed ≠ ∅ → reason ∈ allowed

/-- A distribution point of a certificate leads to a CRL. -/
structure LeadsTo (crl : Crl) (certificate : Certificate) (point : DistributionPoint) : Prop where
  /-- The CRL is of the issuer of the certificate, or is an indirect one of an issuer of the point. -/
  issuer : (point.crlIssuer = none ∧ crl.issuer = certificate.issuer) ∨
    ∃ issuers, point.crlIssuer = some issuers ∧ .directory crl.issuer ∈ issuers ∧
      ∃ idp, crl.issuingDistributionPoint = some idp ∧ idp.indirectCrl = true
  /-- The CRL names no point, or this one. -/
  names : (crlScope crl).2 = ∅ ∨ ∃ name ∈ (crlScope crl).2,
    name ∈ names point.fullName point.relativeName certificate.issuer

/-- A CRL covers a reason for a certificate. -/
structure Covers (crl : Crl) (certificate : Certificate) (reason : ReasonFlag) : Prop where
  flag : reason ∈ reasonFlags
  /-- The CRL is of certificates of its kind, and for the reason. -/
  kind : ∀ idp, crl.issuingDistributionPoint = some idp →
    idp.onlyContainsAttributeCerts = false ∧ (idp.onlyContainsCaCerts = true → isCa certificate = true) ∧
      (idp.onlyContainsUserCerts = true → isCa certificate = false) ∧ Admits idp.onlySomeReasons reason
  /-- The certificate leads to the CRL. -/
  point : (certificate.crlDistributionPoints = none ∧ (crlScope crl).2 = ∅ ∧
      crl.issuer = certificate.issuer) ∨
    ∃ points, certificate.crlDistributionPoints = some points ∧
      ∃ point ∈ points, LeadsTo crl certificate point ∧ Admits point.reasons reason

variable {crl base delta latest : Crl} {certificate issuer : Certificate} {reason : ReasonFlag}
  {point : DistributionPoint} {identity : Identity} {now : ℤ}

theorem mem_reasonsOr {reasons : Option (Finset ReasonFlag)} (hflag : reason ∈ reasonFlags) :
    reason ∈ reasonsOr reasons ↔ Admits reasons reason := by
  cases reasons with
  | none => simp [reasonsOr, Admits, hflag]
  | some allowed =>
    by_cases hempty : allowed = ∅
    · simp [reasonsOr, Admits, hempty, hflag]
    · simp [reasonsOr, Admits, hempty]

/-- The reasons of the scope of a CRL. -/
theorem mem_crlScope : reason ∈ (crlScope crl).1 ↔ reason ∈ reasonFlags ∧
    ∀ idp, crl.issuingDistributionPoint = some idp → Admits idp.onlySomeReasons reason := by
  unfold crlScope
  cases crl.issuingDistributionPoint with
  | none => simp
  | some idp =>
    simp only [Finset.mem_inter, Option.some.injEq, forall_eq']
    exact and_congr_right fun hflag ↦ mem_reasonsOr hflag

/-- What a distribution point adds. -/
theorem mem_pointScope : reason ∈ pointScope crl certificate point ↔
    reason ∈ (crlScope crl).1 ∧ LeadsTo crl certificate point ∧ Admits point.reasons reason := by
  have hissuer : isOfIssuer crl certificate point = true ↔
      (point.crlIssuer = none ∧ crl.issuer = certificate.issuer) ∨
        ∃ issuers, point.crlIssuer = some issuers ∧ .directory crl.issuer ∈ issuers ∧
          ∃ idp, crl.issuingDistributionPoint = some idp ∧ idp.indirectCrl = true := by
    unfold isOfIssuer
    cases point.crlIssuer with
    | none => simp
    | some issuers =>
      cases crl.issuingDistributionPoint <;> simp [and_comm]
  have hnames : ((crlScope crl).2 ≠ ∅ ∧
      (crlScope crl).2 ∩ names point.fullName point.relativeName certificate.issuer = ∅) ↔
      ¬ ((crlScope crl).2 = ∅ ∨ ∃ name ∈ (crlScope crl).2,
        name ∈ names point.fullName point.relativeName certificate.issuer) := by
    rw [not_or, Finset.eq_empty_iff_forall_notMem (s := _ ∩ _)]
    simp
  unfold pointScope
  dsimp only
  split_ifs with hother hnamed
  · simp only [Finset.notMem_empty, false_iff]
    rintro ⟨-, hleads, -⟩
    rw [hissuer.mpr hleads.issuer] at hother
    cases hother
  · simp only [Finset.notMem_empty, false_iff]
    rintro ⟨-, hleads, -⟩
    exact hnames.mp hnamed hleads.names
  · rw [Finset.mem_inter]
    refine and_congr_right fun hreason ↦ ?_
    rw [mem_reasonsOr (mem_crlScope.mp hreason).1]
    refine (and_iff_right ⟨hissuer.mp (by simpa using hother), ?_⟩).symm
    by_contra hnot
    exact hnamed (hnames.mpr hnot)

/-- A scope that is made of those of points. -/
theorem mem_foldl_union {α : Type} {items : List α} {part : α → Finset ReasonFlag}
    {start : Finset ReasonFlag} :
    reason ∈ items.foldl (fun covered item ↦ covered ∪ part item) start ↔
      reason ∈ start ∨ ∃ item ∈ items, reason ∈ part item := by
  induction items generalizing start with
  | nil => simp
  | cons item rest ih => simp [ih, or_assoc]

/-- The scope of a CRL is what it covers. -/
theorem mem_scope : reason ∈ scope crl certificate ↔ Covers crl certificate reason := by
  have hkind : crl.issuingDistributionPoint.any (excludes · certificate) = false ↔
      ∀ idp, crl.issuingDistributionPoint = some idp →
        idp.onlyContainsAttributeCerts = false ∧
          (idp.onlyContainsCaCerts = true → isCa certificate = true) ∧
            (idp.onlyContainsUserCerts = true → isCa certificate = false) := by
    cases crl.issuingDistributionPoint with
    | none => simp
    | some idp =>
      cases hca : isCa certificate <;> simp [excludes, hca]
  have hcovers : Covers crl certificate reason ↔
      (∀ idp, crl.issuingDistributionPoint = some idp →
        idp.onlyContainsAttributeCerts = false ∧
          (idp.onlyContainsCaCerts = true → isCa certificate = true) ∧
            (idp.onlyContainsUserCerts = true → isCa certificate = false)) ∧
        reason ∈ (crlScope crl).1 ∧
          ((certificate.crlDistributionPoints = none ∧ (crlScope crl).2 = ∅ ∧
            crl.issuer = certificate.issuer) ∨
          ∃ points, certificate.crlDistributionPoints = some points ∧
            ∃ point ∈ points, LeadsTo crl certificate point ∧ Admits point.reasons reason) := by
    rw [mem_crlScope]
    constructor
    · rintro ⟨hflag, hkinds, hpoint⟩
      exact ⟨fun idp hidp ↦ ⟨(hkinds idp hidp).1, (hkinds idp hidp).2.1, (hkinds idp hidp).2.2.1⟩,
        ⟨hflag, fun idp hidp ↦ (hkinds idp hidp).2.2.2⟩, hpoint⟩
    · rintro ⟨hkinds, ⟨hflag, hreasons⟩, hpoint⟩
      exact ⟨hflag, fun idp hidp ↦ ⟨(hkinds idp hidp).1, (hkinds idp hidp).2.1, (hkinds idp hidp).2.2,
        hreasons idp hidp⟩, hpoint⟩
  rw [hcovers, ← hkind]
  unfold scope
  by_cases hexcluded : crl.issuingDistributionPoint.any (excludes · certificate) = true
  · simp [hexcluded]
  · rw [if_neg hexcluded, Bool.not_eq_true] at *
    rw [and_iff_right hexcluded]
    cases hpoints : certificate.crlDistributionPoints with
    | none =>
      simp only [true_and, reduceCtorEq, false_and, exists_false, or_false]
      split_ifs with hwrong
      · have hnot : ¬ ((crlScope crl).2 = ∅ ∧ crl.issuer = certificate.issuer) := not_and_or.mpr hwrong
        simp [hnot]
      · simp only [not_or, not_not] at hwrong
        simp [hwrong]
    | some points =>
      simp only [mem_foldl_union, mem_pointScope, Finset.notMem_empty, false_or, reduceCtorEq,
        false_and, Option.some.injEq, exists_eq_left']
      constructor
      · rintro ⟨point, hpoint, hreason, hleads⟩
        exact ⟨hreason, point, hpoint, hleads⟩
      · rintro ⟨hreason, point, hpoint, hleads⟩
        exact ⟨point, hpoint, hreason, hleads⟩

/-! ### Entries -/

/-- The issuer that an entry names. -/
def explicitIssuer (entry : Entry) : Option DirectoryName :=
  entry.extensions.bind fun extensions ↦
    extensions.certificateIssuer.map fun issuers ↦ (directoryNames issuers).headD []

/-- The issuer in force after some entries: the last that one of them names, or that of the CRL. -/
def issuerAfter (crl : Crl) (before : List Entry) : DirectoryName :=
  (before.filterMap explicitIssuer).getLast?.getD crl.issuer

/-- The reason of an entry. -/
def reasonOfEntry (entry : Entry) : ReasonFlag :=
  (entry.extensions.bind EntryExtensions.reason).getD .unspecified

/-- One of some entries of a CRL is of an identity and has a reason. -/
def HasEntryIn (crl : Crl) (found : List Entry) (listed : Identity × ReasonFlag) : Prop :=
  ∃ before entry after, found = before ++ entry :: after ∧
    listed = ((issuerAfter crl (before ++ [entry]), entry.serialNumber), reasonOfEntry entry)

/-- A CRL has an entry of an identity with a reason. -/
def HasEntry (crl : Crl) (identity : Identity) (reason : ReasonFlag) : Prop :=
  HasEntryIn crl crl.entries (identity, reason)

variable {found rest : List Entry} {entry : Entry} {listed changes final : List (Identity × ReasonFlag)}
  {state next : DirectoryName × List (Identity × ReasonFlag)} {pair : Identity × ReasonFlag}

/-- The issuer after one more entry. -/
theorem issuerAfter_snoc :
    issuerAfter crl (found ++ [entry]) = (explicitIssuer entry).getD (issuerAfter crl found) := by
  cases hissuer : explicitIssuer entry <;> simp [issuerAfter, hissuer]

/-- One more entry. -/
theorem hasEntryIn_snoc : HasEntryIn crl (found ++ [entry]) pair ↔ HasEntryIn crl found pair ∨
    pair = ((issuerAfter crl (found ++ [entry]), entry.serialNumber), reasonOfEntry entry) := by
  constructor
  · rintro ⟨before, other, after, hsplit, rfl⟩
    rcases List.eq_nil_or_concat after with rfl | ⟨middle, last, rfl⟩
    · obtain ⟨rfl, hlast⟩ := List.append_inj' hsplit rfl
      obtain rfl : entry = other := by simpa using hlast
      exact Or.inr rfl
    · rw [List.concat_eq_append, ← List.cons_append, ← List.append_assoc] at hsplit
      obtain ⟨hfound, -⟩ := List.append_inj' hsplit rfl
      exact Or.inl ⟨before, other, middle, hfound, rfl⟩
  · rintro (⟨before, other, after, rfl, rfl⟩ | rfl)
    · exact ⟨before, other, after ++ [entry], by simp, rfl⟩
    · exact ⟨found, entry, [], rfl, rfl⟩

/-- What a round of `_entries` adds. -/
theorem takeEntry_eq_ok (htake : takeEntry crl now state entry = .ok next) :
    next.1 = (explicitIssuer entry).getD state.1 ∧ (next.1, entry.serialNumber) ∉ state.2.map Prod.fst ∧
      next.2 = state.2 ++ [((next.1, entry.serialNumber), reasonOfEntry entry)] := by
  unfold takeEntry at htake
  cases hextensions : entry.extensions with
  | none => simp [hextensions] at htake
  | some extensions =>
    simp only [hextensions, except_bind_eq_ok, failIf_eq_ok, not_or, except_pure_eq_ok] at htake
    obtain ⟨current, hcurrent, _, ⟨hfresh, -⟩, _, -, _, -, rfl⟩ := htake
    refine ⟨?_, hfresh, by simp [reasonOfEntry, hextensions]⟩
    simp only [explicitIssuer, hextensions, Option.bind_some]
    unfold entryIssuer at hcurrent
    cases hissuer : extensions.certificateIssuer with
    | none =>
      rw [hissuer] at hcurrent
      exact (except_pure_eq_ok.mp hcurrent).symm
    | some issuers =>
      simp only [hissuer, except_bind_eq_ok, failIf_eq_ok, except_pure_eq_ok] at hcurrent
      obtain ⟨_, -, _, -, rfl⟩ := hcurrent
      rfl

/-- What `_entries` has read after some entries. -/
structure Reads (crl : Crl) (found : List Entry)
    (state : DirectoryName × List (Identity × ReasonFlag)) : Prop where
  issuer : state.1 = issuerAfter crl found
  nodup : (state.2.map Prod.fst).Nodup
  listed : ∀ pair, pair ∈ state.2 ↔ HasEntryIn crl found pair

/-- One more entry is read. -/
theorem Reads.snoc (hreads : Reads crl found state) (htake : takeEntry crl now state entry = .ok next) :
    Reads crl (found ++ [entry]) next := by
  obtain ⟨hissuer, hfresh, hlisted⟩ := takeEntry_eq_ok htake
  have hafter : next.1 = issuerAfter crl (found ++ [entry]) := by
    rw [hissuer, hreads.issuer, issuerAfter_snoc]
  refine ⟨hafter, ?_, fun pair ↦ ?_⟩
  · rw [hlisted, List.map_append, List.map_singleton, List.nodup_append]
    refine ⟨hreads.nodup, List.nodup_singleton _, fun first hfirst second hsecond heq ↦ ?_⟩
    rw [List.mem_singleton] at hsecond
    rw [heq, hsecond] at hfirst
    exact hfresh hfirst
  · rw [hlisted, List.mem_append, List.mem_singleton, hreads.listed, hasEntryIn_snoc, ← hafter]

/-- The entries of a CRL are read. -/
theorem Reads.foldlM (hreads : Reads crl found state)
    (hrun : rest.foldlM (takeEntry crl now) state = .ok next) : Reads crl (found ++ rest) next := by
  induction rest generalizing found state with
  | nil =>
    obtain rfl : state = next := Except.ok.inj hrun
    simpa using hreads
  | cons entry rest ih =>
    rw [List.foldlM_cons] at hrun
    obtain ⟨middle, htake, hrest⟩ := except_bind_eq_ok.mp hrun
    have hmore := ih (hreads.snoc htake) hrest
    rwa [List.append_assoc, List.singleton_append] at hmore

/-- What `_entries` returns: the entries of the CRL, one for each identity. -/
theorem entries_spec (hentries : entries crl now = .ok listed) :
    (listed.map Prod.fst).Nodup ∧
      ∀ identity reason, (identity, reason) ∈ listed ↔ HasEntry crl identity reason := by
  unfold entries at hentries
  obtain ⟨state, hrun, hresult⟩ := except_bind_eq_ok.mp hentries
  obtain rfl : state.2 = listed := except_pure_eq_ok.mp hresult
  have hnone : ∀ pair, ¬ HasEntryIn crl [] pair := by
    rintro pair ⟨before, entry, after, hempty, -⟩
    simp at hempty
  have hstart : Reads crl [] (crl.issuer, []) :=
    ⟨rfl, List.nodup_nil, fun pair ↦ by simp [hnone pair]⟩
  have hreads := hstart.foldlM hrun
  exact ⟨hreads.nodup, fun identity reason ↦ hreads.listed (identity, reason)⟩

/-- The reason that is found is listed. -/
theorem reasonOf_eq_some (hnodup : (listed.map Prod.fst).Nodup) :
    reasonOf listed identity = some reason ↔ (identity, reason) ∈ listed := by
  unfold reasonOf
  constructor
  · intro hfound
    obtain ⟨pair, hpair, rfl⟩ := Option.map_eq_some_iff.mp hfound
    have hidentity := List.find?_some hpair
    simp only [decide_eq_true_eq] at hidentity
    subst hidentity
    exact List.mem_of_find?_eq_some hpair
  · intro hmem
    obtain ⟨pair, hpair⟩ : ∃ pair, listed.find? (fun entry ↦ entry.1 = identity) = some pair := by
      rw [← Option.isSome_iff_exists, List.find?_isSome]
      exact ⟨_, hmem, by simp⟩
    have hidentity := List.find?_some hpair
    simp only [decide_eq_true_eq] at hidentity
    have hsame := List.inj_on_of_nodup_map hnodup (List.mem_of_find?_eq_some hpair) hmem hidentity
    rw [hpair, hsame]
    rfl

/-! ### Deltas -/

/-- What an entry of a delta changes. -/
theorem applyEntry_eq_ok (hnodup : (listed.map Prod.fst).Nodup)
    (happly : applyEntry listed pair = .ok final) :
    (final.map Prod.fst).Nodup ∧
      (pair.2 = .removeFromCrl → ∀ reason, (pair.1, reason) ∈ listed → reason = .certificateHold) ∧
        ∀ identity reason, (identity, reason) ∈ final ↔
          ((identity, reason) = pair ∧ reason ≠ .removeFromCrl) ∨
            (identity ≠ pair.1 ∧ (identity, reason) ∈ listed) := by
  have hwithout : ((without listed pair.1).map Prod.fst).Nodup :=
    hnodup.sublist (List.filter_sublist.map Prod.fst)
  have hmem : ∀ identity reason, (identity, reason) ∈ without listed pair.1 ↔
      identity ≠ pair.1 ∧ (identity, reason) ∈ listed := by
    intro identity reason
    simp [without, and_comm]
  unfold applyEntry at happly
  split_ifs at happly with hremove
  · simp only [except_bind_eq_ok, failIf_eq_ok, except_pure_eq_ok, not_and_or, not_not] at happly
    obtain ⟨_, hallowed, rfl⟩ := happly
    refine ⟨hwithout, fun _ reason hlisted ↦ ?_, fun identity reason ↦ ?_⟩
    · have hfound := (reasonOf_eq_some hnodup).mpr hlisted
      rcases hallowed with hnone | hhold
      · rw [hnone] at hfound
        cases hfound
      · rw [hhold] at hfound
        exact (Option.some.inj hfound).symm
    · rw [hmem]
      constructor
      · exact Or.inr
      · rintro (⟨rfl, hnot⟩ | hkept)
        · exact absurd hremove hnot
        · exact hkept
  · obtain rfl := except_pure_eq_ok.mp happly
    refine ⟨?_, fun h ↦ absurd h hremove, fun identity reason ↦ ?_⟩
    · rw [List.map_append, List.map_singleton, List.nodup_append]
      refine ⟨hwithout, List.nodup_singleton _, fun first hfirst second hsecond heq ↦ ?_⟩
      obtain ⟨⟨identity, reason⟩, hpair, rfl⟩ := List.mem_map.mp hfirst
      rw [List.mem_singleton] at hsecond
      exact ((hmem _ _).mp hpair).1 (heq.trans hsecond)
    · rw [List.mem_append, List.mem_singleton, hmem, or_comm]
      refine or_congr_left ⟨fun heq ↦ ⟨heq, ?_⟩, And.left⟩
      rw [← heq] at hremove
      exact hremove

/-- What the entries of a delta change. -/
theorem foldlM_applyEntry (hnodup : (listed.map Prod.fst).Nodup) (hchanges : (changes.map Prod.fst).Nodup)
    (hrun : changes.foldlM applyEntry listed = .ok final) :
    (final.map Prod.fst).Nodup ∧
      (∀ identity, (identity, .removeFromCrl) ∈ changes → ∀ reason, (identity, reason) ∈ listed →
        reason = .certificateHold) ∧
        ∀ identity reason, (identity, reason) ∈ final ↔
          ((identity, reason) ∈ changes ∧ reason ≠ .removeFromCrl) ∨
            ((identity, reason) ∈ listed ∧ ∀ other, (identity, other) ∉ changes) := by
  induction changes generalizing listed with
  | nil =>
    obtain rfl : listed = final := Except.ok.inj hrun
    simp [hnodup]
  | cons pair rest ih =>
    rw [List.foldlM_cons] at hrun
    obtain ⟨middle, happly, hrest⟩ := except_bind_eq_ok.mp hrun
    rw [List.map_cons, List.nodup_cons] at hchanges
    have hother : ∀ identity reason, (identity, reason) ∈ rest → identity ≠ pair.1 := by
      rintro identity reason hmem rfl
      exact hchanges.1 (List.mem_map.mpr ⟨_, hmem, rfl⟩)
    obtain ⟨hmiddle, hremove, hmem⟩ := applyEntry_eq_ok hnodup happly
    obtain ⟨hfinal, hremoves, hmems⟩ := ih hmiddle hchanges.2 hrest
    refine ⟨hfinal, fun identity hidentity reason hlisted ↦ ?_, fun identity reason ↦ ?_⟩
    · rcases List.mem_cons.mp hidentity with rfl | hlater
      · exact hremove rfl reason hlisted
      · exact hremoves identity hlater reason
          ((hmem identity reason).mpr (Or.inr ⟨hother _ _ hlater, hlisted⟩))
    · rw [hmems, hmem]
      simp only [List.mem_cons, not_or]
      constructor
      · rintro (⟨hlater, hnot⟩ | ⟨⟨rfl, hnot⟩ | ⟨hne, hlisted⟩, hnever⟩)
        · exact Or.inl ⟨Or.inr hlater, hnot⟩
        · exact Or.inl ⟨Or.inl rfl, hnot⟩
        · refine Or.inr ⟨hlisted, fun other ↦ ⟨?_, hnever other⟩⟩
          rintro rfl
          exact hne rfl
      · rintro (⟨rfl | hlater, hnot⟩ | ⟨hlisted, hnever⟩)
        · refine Or.inr ⟨Or.inl ⟨rfl, hnot⟩, fun other hlater ↦ hother _ _ hlater rfl⟩
        · exact Or.inl ⟨hlater, hnot⟩
        · refine Or.inr ⟨Or.inr ⟨?_, hlisted⟩, fun other ↦ (hnever other).2⟩
          rintro rfl
          exact (hnever pair.2).1 rfl

/-! ### Bases and their deltas -/

/-- The deltas of a set that apply to a base. -/
def applicable (crls : List Crl) (base : Crl) : List Crl :=
  (deltas crls).filter (isApplicable base)

/-- The newest delta of a set that applies to a base. -/
structure Newest (crls : List Crl) (base latest : Crl) : Prop where
  applies : latest ∈ applicable crls base
  greatest : ∀ other ∈ applicable crls base, other.crlNumber.getD 0 ≤ latest.crlNumber.getD 0

/-- A base that is brought up to date by its newest delta has an entry of an identity with a reason:
the delta has it and removes nothing by it, or the base has it and the delta says nothing of it. -/
def UpdatedLists (crls : List Crl) (base : Crl) (identity : Identity) (reason : ReasonFlag) : Prop :=
  (∃ latest, Newest crls base latest ∧ reason ≠ .removeFromCrl ∧ HasEntry latest identity reason) ∨
    (HasEntry base identity reason ∧
      ∀ latest, Newest crls base latest → ∀ other, ¬ HasEntry latest identity other)

variable {crls : List Crl}

/-- The newest of some deltas is one of them, and none is newer. -/
theorem newest_eq_some {matching : List Crl} (hnewest : newest matching = some latest) :
    latest ∈ matching ∧ ∀ other ∈ matching, other.crlNumber.getD 0 ≤ latest.crlNumber.getD 0 := by
  induction matching generalizing latest with
  | nil => cases hnewest
  | cons delta rest ih =>
    unfold newest at hnewest
    cases hrest : newest rest with
    | none =>
      obtain rfl : delta = latest := by simpa [hrest] using hnewest
      have hempty : rest = [] := by
        cases rest with
        | nil => rfl
        | cons first others =>
          unfold newest at hrest
          cases hothers : newest others <;> simp [hothers] at hrest
          split_ifs at hrest
      simp [hempty]
    | some other =>
      obtain ⟨hother, hgreatest⟩ := ih hrest
      simp only [hrest] at hnewest
      split_ifs at hnewest with hle
      · obtain rfl := Option.some.inj hnewest
        refine ⟨List.mem_cons_self, fun third hthird ↦ ?_⟩
        rcases List.mem_cons.mp hthird with rfl | hlater
        · exact le_rfl
        · exact (hgreatest third hlater).trans hle
      · obtain rfl := Option.some.inj hnewest
        refine ⟨List.mem_cons_of_mem _ hother, fun third hthird ↦ ?_⟩
        rcases List.mem_cons.mp hthird with rfl | hlater
        · exact (not_le.mp hle).le
        · exact hgreatest third hlater

/-- There is a newest of some deltas. -/
theorem newest_eq_none {matching : List Crl} : newest matching = none ↔ matching = [] := by
  cases matching with
  | nil => simp [newest]
  | cons delta rest =>
    simp only [newest, reduceCtorEq, iff_false]
    cases newest rest with
    | none => simp
    | some other =>
      dsimp only
      split_ifs <;> simp

/-- A delta that applies has a number. -/
theorem number_of_applicable (hdelta : delta ∈ applicable crls base) :
    ∃ number, delta.crlNumber = some number := by
  have happlies := (List.mem_filter.mp hdelta).2
  cases hnumber : delta.crlNumber with
  | some number => exact ⟨number, rfl⟩
  | none =>
    cases hindicator : delta.deltaCrlIndicator <;> cases hbase : base.crlNumber <;>
      simp [isApplicable, hnumber, hindicator, hbase] at happlies

/-- Where numbers differ, there is one newest delta. -/
theorem Newest.unique {first second : Crl} (hnodup : ((applicable crls base).map Crl.crlNumber).Nodup)
    (hfirst : Newest crls base first) (hsecond : Newest crls base second) : first = second := by
  obtain ⟨number, hnumber⟩ := number_of_applicable hfirst.applies
  obtain ⟨other, hother⟩ := number_of_applicable hsecond.applies
  have hle := hsecond.greatest first hfirst.applies
  have hge := hfirst.greatest second hsecond.applies
  rw [hnumber, hother] at hle hge
  have hsame : first.crlNumber = second.crlNumber := by
    rw [hnumber, hother]
    exact congrArg some (le_antisymm hle hge)
  exact List.inj_on_of_nodup_map hnodup hfirst.applies hsecond.applies hsame

/-- The entries of a base with those of its newest delta. -/
structure Updated (crls : List Crl) (base : Crl) (now : ℤ) (listed : List (Identity × ReasonFlag)) :
    Prop where
  numbers : ((applicable crls base).map Crl.crlNumber).Nodup
  entries : ∃ first, entries base now = .ok first ∧
    ((applicable crls base = [] ∧ listed = first) ∨ ∃ latest changes, Newest crls base latest ∧
      CrlStatus.entries latest now = .ok changes ∧ changes.foldlM applyEntry first = .ok listed)

/-- What `crl_set_revoked` reads for a base. -/
theorem updatedEntries_eq_ok :
    updatedEntries base (applicable crls base) now = .ok listed ↔ Updated crls base now listed := by
  unfold updatedEntries
  rw [except_bind_eq_ok]
  cases hnewest : newest (applicable crls base) with
  | none =>
    have hempty := newest_eq_none.mp hnewest
    simp only [except_pure_eq_ok]
    constructor
    · rintro ⟨first, hfirst, rfl⟩
      exact ⟨by simp [hempty], first, hfirst, Or.inl ⟨hempty, rfl⟩⟩
    · rintro ⟨-, first, hfirst, ⟨-, rfl⟩ | ⟨latest, _, hlatest, -⟩⟩
      · exact ⟨listed, hfirst, rfl⟩
      · have happlies := hlatest.applies
        rw [hempty] at happlies
        exact absurd happlies List.not_mem_nil
  | some latest =>
    obtain ⟨hmem, hgreatest⟩ := newest_eq_some hnewest
    simp only [except_bind_eq_ok, failIf_eq_ok, not_not]
    constructor
    · rintro ⟨first, hfirst, _, hnodup, changes, hchanges, hrun⟩
      exact ⟨hnodup, first, hfirst, Or.inr ⟨latest, changes, ⟨hmem, hgreatest⟩, hchanges, hrun⟩⟩
    · rintro ⟨hnodup, first, hfirst, ⟨hempty, -⟩ | ⟨other, changes, hother, hchanges, hrun⟩⟩
      · rw [hempty] at hmem
        exact absurd hmem List.not_mem_nil
      · obtain rfl := Newest.unique hnodup ⟨hmem, hgreatest⟩ hother
        exact ⟨first, hfirst, (), hnodup, changes, hchanges, hrun⟩

/-- The entries that are read are those of the reference, and removals are of holds. -/
theorem Updated.spec (hupdated : Updated crls base now listed) :
    (∀ identity reason, reasonOf listed identity = some reason ↔
      UpdatedLists crls base identity reason) ∧
      ∀ latest, Newest crls base latest → ∀ identity, HasEntry latest identity .removeFromCrl →
        ∀ reason, HasEntry base identity reason → reason = .certificateHold := by
  obtain ⟨hnodup, first, hfirst, ⟨hempty, rfl⟩ | ⟨latest, changes, hlatest, hchanges, hrun⟩⟩ := hupdated
  · obtain ⟨hkeys, hmem⟩ := entries_spec hfirst
    have hnone : ∀ latest, ¬ Newest crls base latest := by
      intro latest hlatest
      have happlies := hlatest.applies
      rw [hempty] at happlies
      exact List.not_mem_nil happlies
    refine ⟨fun identity reason ↦ ?_, fun latest hlatest ↦ absurd hlatest (hnone latest)⟩
    rw [reasonOf_eq_some hkeys, hmem]
    constructor
    · exact fun hentry ↦ Or.inr ⟨hentry, fun latest hlatest ↦ absurd hlatest (hnone latest)⟩
    · rintro (⟨latest, hlatest, -⟩ | ⟨hentry, -⟩)
      · exact absurd hlatest (hnone latest)
      · exact hentry
  · obtain ⟨hkeys, hmem⟩ := entries_spec hfirst
    obtain ⟨hchangeKeys, hchangeMem⟩ := entries_spec hchanges
    obtain ⟨hfinal, hremoves, hlisted⟩ := foldlM_applyEntry hkeys hchangeKeys hrun
    have honly : ∀ other, Newest crls base other → other = latest :=
      fun other hother ↦ Newest.unique hnodup hother hlatest
    refine ⟨fun identity reason ↦ ?_, fun other hother identity hremoved reason hentry ↦ ?_⟩
    · rw [reasonOf_eq_some hfinal, hlisted]
      simp only [hmem, hchangeMem]
      constructor
      · rintro (⟨hentry, hnot⟩ | ⟨hentry, hnever⟩)
        · exact Or.inl ⟨latest, hlatest, hnot, hentry⟩
        · exact Or.inr ⟨hentry, fun other hother ↦ honly other hother ▸ hnever⟩
      · rintro (⟨other, hother, hnot, hentry⟩ | ⟨hentry, hnever⟩)
        · obtain rfl := honly other hother
          exact Or.inl ⟨hentry, hnot⟩
        · exact Or.inr ⟨hentry, hnever latest hlatest⟩
    · obtain rfl := honly other hother
      exact hremoves identity ((hchangeMem _ _).mpr hremoved) reason ((hmem _ _).mpr hentry)

end Ads.SandboxEgress.CrlStatus
