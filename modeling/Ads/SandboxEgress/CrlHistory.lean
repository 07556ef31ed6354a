import Ads.SandboxEgress.CrlRepository
import Ads.SandboxEgress.IdentityInvariants

/-!
# What the calls come to for the CRLs of an issuer

A call of the store prunes the CRLs of an issuer or adds the next one (`Move.crls`), and pruning
those of one issuer touches nothing else (`Move.isolates`). A publication adds at most one CRL, that
lists what the one before it lists (`leaves_publish`).
-/

set_option autoImplicit false
set_option relaxedAutoImplicit false

namespace Ads.SandboxEgress.Crl

open Dns Foundation Foundation.Runs Foundation.StateExcept Foundation.Interrupted IdentityStore Python

/-! ### Names -/

/-- The prefix of the CRLs of an issuer. -/
def issuerPrefix (issuer : Text) : Text :=
  "crl/".toList ++ issuer ++ ['/']

/-- The name of a CRL. -/
def crlName (issuer : Text) (number : ℕ) : Text :=
  issuerPrefix issuer ++ zeroPadded 20 number

/-- The identity of an issuer. -/
def IsIssuer (issuer : Text) : Prop :=
  crlPrefix issuer = .ok (issuerPrefix issuer)

variable {issuer other : Text} {number : ℕ} {tables before after : IdentityTables}
  {row head : PublicationRow} {custody : Custody} {call : StoreCall}

/-- An accepted identity has its own prefix. -/
theorem isIssuer_of_crlPrefix {start : Text} (hstart : crlPrefix issuer = .ok start) :
    IsIssuer issuer ∧ start = issuerPrefix issuer := by
  obtain ⟨-, -, rfl⟩ := crlPrefix_eq_ok.mp hstart
  exact ⟨hstart, rfl⟩

/-- The prefixes of different issuers are not prefixes of one another. -/
theorem issuer_eq_of_isPrefix (hissuer : IsIssuer issuer) (hother : IsIssuer other)
    (hstarts : issuerPrefix issuer <+: issuerPrefix other) : issuer = other := by
  have hlength : (issuerPrefix issuer).length = (issuerPrefix other).length := by
    simp [issuerPrefix, (crlPrefix_eq_ok.mp hissuer).1, (crlPrefix_eq_ok.mp hother).1]
  have heq := hstarts.eq_of_length hlength
  simpa [issuerPrefix] using heq

/-- The number of a CRL is told by its name. -/
theorem number_eq_of_crlName {later : ℕ} (hname : crlName issuer number = crlName issuer later) :
    number = later := by
  have hdigits := List.append_cancel_left hname
  simpa using congrArg decimalValue hdigits

/-- The CRLs of an issuer are in its journal. -/
theorem inJournal_crlName : InJournal (issuerPrefix issuer) (crlName issuer number) := by
  refine inJournal_append fun char hchar ↦ lt_tilde ?_
  have hmem : char ∈ zeroPadded 20 number := List.mem_of_mem_head? hchar
  have hdigit := List.all_eq_true.mp (@isDigit_zeroPadded 20 number) char hmem
  simp [isNameChar, hdigit]

/-- The names of the CRLs are in the order of their numbers. -/
theorem crlName_lt {later : ℕ} (hlater : later < 2 ^ 63) (hnumber : number < later) :
    crlName issuer number < crlName issuer later := by
  have hbound : later < 10 ^ 20 := lt_trans hlater (by norm_num)
  refine List.append_left_lt (lt_of_decimalValue_lt isDigit_zeroPadded isDigit_zeroPadded ?_ ?_)
  · rw [length_zeroPadded (by decide) hbound, length_zeroPadded (by decide) (by omega)]
  · simpa using hnumber

/-! ### Changes of the CRLs of one issuer -/

/-- The CRLs of an issuer change by pruning alone. -/
structure Same (issuer : Text) (before after : IdentityTables) : Prop where
  head : journalHead after (issuerPrefix issuer) = journalHead before (issuerPrefix issuer)
  rows : ∀ row ∈ after.publications, issuerPrefix issuer <+: row.name → row ∈ before.publications

/-- The next CRL of an issuer is added. -/
structure Next (issuer : Text) (before after : IdentityTables) (number : ℕ) (row : PublicationRow) :
    Prop where
  bound : number + 1 < 2 ^ 63
  name : row.name = crlName issuer (number + 1)
  previous : (journalHead before (issuerPrefix issuer) = none ∧ number = 0) ∨
    ∃ old, journalHead before (issuerPrefix issuer) = some old ∧ old.name = crlName issuer number
  head : journalHead after (issuerPrefix issuer) = some row
  rows : ∀ other ∈ after.publications, issuerPrefix issuer <+: other.name →
    other = row ∨ other ∈ before.publications

variable {middle : IdentityTables}

theorem Same.refl : Same issuer tables tables :=
  ⟨rfl, fun _ hrow _ ↦ hrow⟩

theorem Same.trans (hfirst : Same issuer before middle) (hsecond : Same issuer middle after) :
    Same issuer before after :=
  ⟨hsecond.head.trans hfirst.head, fun row hrow hname ↦
    hfirst.rows row (hsecond.rows row hrow hname) hname⟩

theorem Same.next (hfirst : Same issuer before middle) (hsecond : Next issuer middle after number row) :
    Next issuer before after number row where
  bound := hsecond.bound
  name := hsecond.name
  previous := hfirst.head ▸ hsecond.previous
  head := hsecond.head
  rows other hother hname :=
    (hsecond.rows other hother hname).imp_right fun hmiddle ↦ hfirst.rows other hmiddle hname

theorem Next.same (hfirst : Next issuer before middle number row) (hsecond : Same issuer middle after) :
    Next issuer before after number row where
  bound := hfirst.bound
  name := hfirst.name
  previous := hfirst.previous
  head := hsecond.head.trans hfirst.head
  rows other hother hname := hfirst.rows other (hsecond.rows other hother hname) hname

/-- The next CRL was not there. -/
theorem Next.not_mem (hnext : Next issuer before after number row) : row ∉ before.publications := by
  intro hrow
  have hjournal : InJournal (issuerPrefix issuer) row.name := hnext.name ▸ inJournal_crlName
  rcases hnext.previous with ⟨hnone, -⟩ | ⟨old, hhead, hold⟩
  · exact journalHead_eq_none_iff.mp hnone row hrow hjournal
  · obtain ⟨-, -, hgreatest⟩ := journalHead_eq_some_iff.mp hhead
    have hle := hgreatest row hrow hjournal
    rw [hnext.name, hold] at hle
    exact absurd (crlName_lt hnext.bound (Nat.lt_succ_self number)) (not_lt.mpr hle)

/-! ### The calls of the store -/

/-- Tables with the same publications have the same CRLs. -/
theorem Same.of_publications (hsame : after.publications = before.publications) :
    Same issuer before after :=
  ⟨journalHead_congr hsame, fun row hrow _ ↦ by rwa [← hsame]⟩

/-- A row outside the journal of an issuer does not change its CRLs. -/
theorem Same.of_insert {publications : Table PublicationRow.name}
    (hinsert : before.publications.insert row = some publications)
    (hafter : after.publications = publications) (hname : ¬ issuerPrefix issuer <+: row.name) :
    Same issuer before after := by
  have hmem := (Table.mem_insert hinsert).1
  constructor
  · cases hhead : journalHead before (issuerPrefix issuer) with
    | none =>
      rw [journalHead_eq_none_iff] at hhead ⊢
      intro other hother hjournal
      rw [hafter] at hother
      rcases (hmem other).mp hother with rfl | hold
      · exact hname (isPrefix_of_inJournal hjournal)
      · exact hhead other hold hjournal
    | some head =>
      refine journalHead_of_subset hhead ?_ fun other hother hjournal ↦ ?_
      · rw [hafter]
        exact (hmem head).mpr (Or.inr (journalHead_eq_some_iff.mp hhead).1)
      · rw [hafter] at hother
        rcases (hmem other).mp hother with rfl | hold
        · exact absurd (isPrefix_of_inJournal hjournal) hname
        · exact hold
  · intro other hother hstarts
    rw [hafter] at hother
    rcases (hmem other).mp hother with rfl | hold
    · exact absurd hstarts hname
    · exact hold

/-- Pruning that keeps the head of an issuer changes its CRLs by pruning alone. -/
theorem Same.of_pruned {start name : Text} {clock : ℚ}
    (hafter : after.publications = (pruned before start name clock).publications)
    (hhead : ∀ head, journalHead before (issuerPrefix issuer) = some head →
      journalHead after (issuerPrefix issuer) = some head) : Same issuer before after := by
  have hsubset : ∀ row ∈ after.publications, row ∈ before.publications := by
    intro row hrow
    rw [hafter] at hrow
    exact (mem_pruned.mp hrow).1
  constructor
  · cases hbefore : journalHead before (issuerPrefix issuer) with
    | none =>
      rw [journalHead_eq_none_iff] at hbefore ⊢
      exact fun row hrow ↦ hbefore row (hsubset row hrow)
    | some head => exact hhead head hbefore
  · exact fun row hrow _ ↦ hsubset row hrow

/-- A prefix of the prefix of an issuer that ends with a slash is a prefix of CRLs. -/
theorem isPrefix_of_slash {start : Text} (hslash : start.getLast? = some '/')
    (hstarts : start <+: issuerPrefix issuer) : "crl/".toList <+: start := by
  have hcrl : "crl/".toList <+: issuerPrefix issuer := ⟨issuer ++ ['/'], by simp [issuerPrefix]⟩
  rcases List.prefix_or_prefix_of_prefix hstarts hcrl with hshort | hlong
  · obtain ⟨rest, hrest⟩ := hshort
    rcases start with _ | ⟨first, _ | ⟨second, _ | ⟨third, _ | ⟨fourth, tail⟩⟩⟩⟩
    · simp at hslash
    · simp at hslash hrest
      simp [hslash] at hrest
    · simp at hslash hrest
      simp [hslash] at hrest
    · simp at hslash hrest
      simp [hslash] at hrest
    · simp at hrest
      simp [hrest]
  · exact hlong

/-- The name of a CRL is under the prefix of no other issuer. -/
theorem issuer_eq_of_isPrefix_crlName (hissuer : IsIssuer issuer) (hother : IsIssuer other)
    (hstarts : issuerPrefix issuer <+: crlName other number) : issuer = other := by
  rcases List.prefix_or_prefix_of_prefix hstarts (List.prefix_append (issuerPrefix other) _) with
    hshort | hlong
  · exact issuer_eq_of_isPrefix hissuer hother hshort
  · exact (issuer_eq_of_isPrefix hother hissuer hlong).symm

/-- Committing a CRL of an issuer adds the next one. -/
theorem next_of_insert {expected : ℕ} {current : Option (ℕ × PublicationRow)}
    {publications : Table PublicationRow.name} (hissuer : IsIssuer issuer)
    (hexpected : expected < 2 ^ 63 - 1) (hcurrent : crlHead custody before issuer = .ok current)
    (hnumber : (current.map Prod.fst).getD 0 = expected)
    (hname : row.name = crlName issuer (expected + 1))
    (hinsert : before.publications.insert row = some publications)
    (hafter : after.publications = publications) : Next issuer before after expected row := by
  have hmem := (Table.mem_insert hinsert).1
  have hprevious : (journalHead before (issuerPrefix issuer) = none ∧ expected = 0) ∨
      ∃ old, journalHead before (issuerPrefix issuer) = some old ∧
        old.name = crlName issuer expected := by
    cases current with
    | none =>
      obtain ⟨start, hstart, -, ⟨hnone, -⟩ | ⟨_, -, -, -, -, -, hsome⟩⟩ := crlHead_eq_ok.mp hcurrent
      · obtain ⟨-, rfl⟩ := isIssuer_of_crlPrefix hstart
        exact Or.inl ⟨hnone, hnumber.symm⟩
      · cases hsome
    | some found =>
      obtain ⟨hhead, hold⟩ := journalHead_of_crlHead hissuer
        (show crlHead custody before issuer = .ok (some (found.1, found.2)) from hcurrent)
      exact Or.inr ⟨found.2, hhead, by rw [hold, ← hnumber]; rfl⟩
  refine ⟨by omega, hname, hprevious, ?_, ?_⟩
  · rw [journalHead_eq_some_iff, hafter]
    refine ⟨(hmem row).mpr (Or.inl rfl), hname ▸ inJournal_crlName, fun other hother hjournal ↦ ?_⟩
    rcases (hmem other).mp hother with rfl | hold
    · exact le_refl _
    · rcases hprevious with ⟨hnone, -⟩ | ⟨old, hhead, holdName⟩
      · exact absurd hjournal (journalHead_eq_none_iff.mp hnone other hold)
      · have hle := (journalHead_eq_some_iff.mp hhead).2.2 other hold hjournal
        rw [holdName] at hle
        rw [hname]
        exact le_of_lt (lt_of_le_of_lt hle (crlName_lt (by omega) (Nat.lt_succ_self expected)))
  · intro other hother _
    rw [hafter] at hother
    exact (hmem other).mp hother

/-- What a call of the store can do to the CRLs of an issuer. -/
theorem Move.crls (hmove : Move custody call before after) (hissuer : IsIssuer issuer) :
    Same issuer before after ∨ ∃ expected content retainUntil,
      call = .commitCrl issuer expected content retainUntil ∧
        Next issuer before after expected
          ⟨crlName issuer (expected + 1), content, retainUntil.getD 0⟩ := by
  cases hmove with
  | stay => exact Or.inl .refl
  | prepareKey => exact Or.inl (.of_publications rfl)
  | advance => exact Or.inl (.of_publications rfl)
  | commitPublication _ hname _ hinsert =>
    refine Or.inl (.of_insert hinsert rfl fun hstarts ↦ hname ?_)
    exact List.IsPrefix.trans ⟨issuer ++ ['/'], by simp [issuerPrefix]⟩ hstarts
  | prunePublications nonce hcrl hname hslash hhead =>
    refine Or.inl (.of_pruned rfl fun head hbefore ↦ ?_)
    exact Move.keepsHeads (.prunePublications nonce hcrl hname hslash hhead) rfl
      (fun hstarts ↦ absurd (isPrefix_of_slash hslash hstarts) hcrl) hbefore
  | @commitCrl other _ expected content retainUntil _ _ _ nonce hstart hexpected hcurrent hnumber
      hinsert =>
    obtain ⟨hother, rfl⟩ := isIssuer_of_crlPrefix hstart
    by_cases hsame : issuer = other
    · subst hsame
      exact Or.inr ⟨expected, content, retainUntil, rfl,
        next_of_insert hissuer hexpected hcurrent hnumber rfl hinsert rfl⟩
    · exact Or.inl (.of_insert hinsert rfl fun hstarts ↦
        hsame (issuer_eq_of_isPrefix_crlName hissuer hother hstarts))
  | pruneCrls nonce hstart hcurrent hfree =>
    obtain ⟨hother, rfl⟩ := isIssuer_of_crlPrefix hstart
    refine Or.inl (.of_pruned crlsPruned_publications fun head hbefore ↦ ?_)
    exact Move.keepsHeads (.pruneCrls nonce hstart hcurrent hfree) rfl
      (fun hstarts ↦ congrArg issuerPrefix (issuer_eq_of_isPrefix hother hissuer hstarts).symm) hbefore
  | retire => exact Or.inl (.of_publications rfl)

/-! ### Isolation -/

/-- What is not under the prefix of an issuer stays, with its dependencies. -/
def Isolates (issuer : Text) (before after : IdentityTables) : Prop :=
  ∀ row ∈ before.publications, ¬ issuerPrefix issuer <+: row.name →
    row ∈ after.publications ∧ ∀ keyName, before.Depends row keyName → after.Depends row keyName

theorem Isolates.refl : Isolates issuer tables tables :=
  fun _ hrow _ ↦ ⟨hrow, fun _ hdepends ↦ hdepends⟩

theorem Isolates.trans (hfirst : Isolates issuer before middle)
    (hsecond : Isolates issuer middle after) : Isolates issuer before after := by
  intro row hrow hname
  obtain ⟨hmiddle, hdepends⟩ := hfirst row hrow hname
  obtain ⟨hafter, hlater⟩ := hsecond row hmiddle hname
  exact ⟨hafter, fun keyName h ↦ hlater keyName (hdepends keyName h)⟩

/-- Pruning the CRLs of an issuer touches nothing else. -/
theorem Move.isolates {now : Option ℚ} (hmove : Move custody (.pruneCrls issuer now) before after) :
    Isolates issuer before after := by
  intro row hrow hname
  cases hmove with
  | stay => exact ⟨hrow, fun _ hdepends ↦ hdepends⟩
  | @pruneCrls _ _ clock _ number head _ hstart hcurrent =>
    obtain ⟨-, rfl⟩ := isIssuer_of_crlPrefix hstart
    obtain ⟨hhead, hheadName⟩ := journalHead_of_crlHead hstart hcurrent
    have hkept : row ∈ (crlsPruned before (issuerPrefix issuer)
        (issuerPrefix issuer ++ zeroPadded 20 number) clock).publications := by
      rw [crlsPruned_publications, mem_pruned, ← hheadName]
      refine ⟨hrow, ?_⟩
      rw [← Bool.not_eq_true]
      intro hpruned
      simp only [isPruned, decide_eq_true_eq] at hpruned
      have hheadJournal := (journalHead_eq_some_iff.mp hhead).2.1
      exact hname (isPrefix_of_inJournal ⟨hpruned.1, lt_trans hpruned.2.1 hheadJournal.2⟩)
    exact ⟨hkept, fun keyName hdepends ↦ ⟨hkept, hdepends.2⟩⟩

/-- Committing a CRL touches nothing else. -/
theorem Move.isolates_of_commit {expected : ℕ} {content : Bytes} {retainUntil : Option ℚ}
    (hmove : Move custody (.commitCrl issuer expected content retainUntil) before after) :
    Isolates issuer before after := by
  intro row hrow _
  rcases hmove.keeps hrow with hstays | ⟨_, _, hprunes, -⟩
  · exact hstays
  · cases hprunes

/-! ### Publishing -/

/-- What the CRLs of an issuer come to: nothing new, or the next one. -/
def Becomes (issuer : Text) (before after : IdentityTables) : Option (ℕ × PublicationRow) → Prop
  | none => Same issuer before after
  | some (number, row) => Next issuer before after number row

/-- What the calls for one issuer come to. -/
structure Effect (issuer : Text) (before after : IdentityTables) (added : Option (ℕ × PublicationRow)) :
    Prop where
  own : IsIssuer issuer → Becomes issuer before after added
  others : ∀ other, IsIssuer other → other ≠ issuer → Same other before after
  isolates : Isolates issuer before after

variable {added : Option (ℕ × PublicationRow)}

theorem Effect.refl : Effect issuer tables tables none :=
  ⟨fun _ ↦ .refl, fun _ _ _ ↦ .refl, .refl⟩

/-- Pruning before. -/
theorem Effect.after_prune (hfirst : Effect issuer before middle none)
    (hsecond : Effect issuer middle after added) : Effect issuer before after added := by
  refine ⟨fun hissuer ↦ ?_, fun other hother hne ↦
    (hfirst.others other hother hne).trans (hsecond.others other hother hne),
    hfirst.isolates.trans hsecond.isolates⟩
  cases added with
  | none => exact Same.trans (hfirst.own hissuer) (hsecond.own hissuer)
  | some added => exact Same.next (hfirst.own hissuer) (hsecond.own hissuer)

/-- Pruning afterwards. -/
theorem Effect.then_prune (hfirst : Effect issuer before middle added)
    (hsecond : Effect issuer middle after none) : Effect issuer before after added := by
  refine ⟨fun hissuer ↦ ?_, fun other hother hne ↦
    (hfirst.others other hother hne).trans (hsecond.others other hother hne),
    hfirst.isolates.trans hsecond.isolates⟩
  cases added with
  | none => exact Same.trans (hfirst.own hissuer) (hsecond.own hissuer)
  | some added => exact Next.same (hfirst.own hissuer) (hsecond.own hissuer)

variable {store : Store}

/-- What `prune_crls` comes to. -/
theorem leaves_pruneCrls {now : Option ℚ} : Leaves (pruneCrls custody issuer now) store
    (fun _ final ↦ Effect issuer store.tables final.tables none)
    fun _ final ↦ Effect issuer store.tables final.tables none := by
  have heffect : Effect issuer store.tables (performed custody (.pruneCrls issuer now) store).2.tables
      none := by
    rcases (outcome_performed custody (.pruneCrls issuer now) store).moves with hsame | ⟨hmove, -⟩
    · rw [hsame]
      exact .refl
    · have hcrls : ∀ other, IsIssuer other → Same other store.tables
          (performed custody (.pruneCrls issuer now) store).2.tables := by
        intro other hother
        rcases Move.crls hmove hother with hsame | ⟨_, _, _, hcall, -⟩
        · exact hsame
        · cases hcall
      exact ⟨hcrls issuer, fun other hother _ ↦ hcrls other hother, Move.isolates hmove⟩
  exact @leaves_final _ _ _ _ _ (fun final : Store ↦ Effect issuer store.tables final.tables none)
    heffect

/-- What `commit_crl` comes to. -/
theorem leaves_commitCrl {expected : ℕ} {content : Bytes} {retainUntil : Option ℚ} :
    Leaves (commitCrl custody issuer expected content retainUntil) store
      (fun _ final ↦ IsIssuer issuer ∧ Effect issuer store.tables final.tables
        (some (expected, ⟨crlName issuer (expected + 1), content, retainUntil.getD 0⟩)))
      fun _ final ↦ Effect issuer store.tables final.tables none ∨
        (IsIssuer issuer ∧ Effect issuer store.tables final.tables
          (some (expected, ⟨crlName issuer (expected + 1), content, retainUntil.getD 0⟩))) := by
  refine (@leaves_operate _ _ _ (fun _ written ↦ IsIssuer issuer ∧
    Effect issuer store.tables written
      (some (expected, ⟨crlName issuer (expected + 1), content, retainUntil.getD 0⟩))) ?_).mono
        (fun _ _ h ↦ h) fun _ final h ↦ ?_
  · intro value syncs written hbody
    obtain ⟨start, current, publications, hstart, hexpected, -, -, -, hcurrent, hnumber, -, hinsert,
      -, -, rfl⟩ := commitCrlBody_eq_ok.mp hbody
    obtain ⟨hissuer, rfl⟩ := isIssuer_of_crlPrefix hstart
    have hmove : Move custody (.commitCrl issuer expected content retainUntil) store.tables _ :=
      .commitCrl (store.surroundings 0).inventoryNonce hstart hexpected hcurrent hnumber hinsert
    refine ⟨hissuer, fun _ ↦ next_of_insert hissuer hexpected hcurrent hnumber rfl hinsert rfl,
      fun other hother hne ↦ .of_insert hinsert rfl fun hstarts ↦
        hne (issuer_eq_of_isPrefix_crlName hother hissuer hstarts), Move.isolates_of_commit hmove⟩
  · rcases h with hsame | ⟨-, hwritten⟩
    · rw [hsame]
      exact Or.inl .refl
    · exact Or.inr hwritten

/-- The serial numbers of some entries. -/
def serials (entries : List RevokedCertificate) : List ℕ :=
  entries.map RevokedCertificate.serialNumber

/-- A publication lists a serial number. -/
def Lists (x509 : X509) (content : Bytes) (serialNumber : ℕ) : Prop :=
  ∃ record, x509.decode content = some record ∧ serialNumber ∈ serials record.crl.entries

variable {repository : CrlRepository} {identity : Text} {previous : Option PublishedCrl}
  {published : PublishedCrl}

/-- The CRL that is read is the one of the newest generation. -/
theorem head_eq_ok (hhead : repository.head tables identity = .ok previous) :
    (previous = none ∧ crlHead repository.custody tables identity = .ok none) ∨
      ∃ number row record, crlHead repository.custody tables identity = .ok (some (number, row)) ∧
        repository.x509.decode row.content = some record ∧
          previous = some ⟨identity, number, record.issuer, record.crl⟩ := by
  unfold CrlRepository.head at hhead
  obtain ⟨found, hfound, hhead⟩ := except_bind_eq_ok.mp hhead
  cases found with
  | none =>
    obtain rfl : none = previous := by simpa using hhead
    exact Or.inl ⟨rfl, hfound⟩
  | some found =>
    obtain ⟨number, row⟩ := found
    dsimp only at hhead
    cases hrecord : repository.x509.decode row.content with
    | none => simp [hrecord] at hhead
    | some record =>
      simp only [hrecord, except_bind_eq_ok, failIf_eq_ok, except_pure_eq_ok] at hhead
      obtain ⟨_, -, rfl⟩ := hhead
      exact Or.inr ⟨number, row, record, hfound, hrecord, rfl⟩

/-- The CRL that is returned is the one that is read. -/
theorem get_eq_ok {now : ℤ} (hget : repository.get tables identity now = .ok published) :
    repository.head tables identity = .ok (some published) := by
  unfold CrlRepository.get at hget
  obtain ⟨found, hfound, hget⟩ := except_bind_eq_ok.mp hget
  cases hhead : repository.head tables identity with
  | error failure => simp [hhead, Except.mapError] at hfound
  | ok value =>
    obtain rfl : value = found := by simpa [hhead, Except.mapError] using hfound
    cases value with
    | none => simp at hget
    | some current =>
      simp only [except_bind_eq_ok, failIf_eq_ok, except_pure_eq_ok] at hget
      obtain ⟨_, -, rfl⟩ := hget
      rfl

/-- What the record of the next CRL lists. -/
theorem nextRecord_eq_ok {authority : CrlAuthority repository.x509} {now : ℤ}
    {revoke : Option Certificate} {next : Option CrlRecord}
    (hnext : repository.nextRecord authority now revoke previous = .ok next) :
    (next = none ∧ ∀ target, revoke = some target →
        target.serialNumber ∈ serials (CrlRepository.entriesOf previous)) ∨
      ∃ revoked, next = some (repository.record authority now previous revoked) ∧
        (∀ serialNumber ∈ serials (CrlRepository.entriesOf previous), serialNumber ∈ serials revoked) ∧
          ∀ target, revoke = some target → target.serialNumber ∈ serials revoked := by
  simp only [CrlRepository.nextRecord, except_bind_eq_ok, failIf_eq_ok] at hnext
  obtain ⟨_, -, _, -, hnext⟩ := hnext
  cases hserial : CrlRepository.newRevocation previous revoke with
  | none =>
    have hlisted : ∀ target, revoke = some target →
        target.serialNumber ∈ serials (CrlRepository.entriesOf previous) := by
      rintro target rfl
      by_contra hnot
      simp only [serials] at hnot
      simp [CrlRepository.newRevocation, hnot] at hserial
    simp only [hserial] at hnext
    split_ifs at hnext
    · exact Or.inl ⟨(except_pure_eq_ok.mp hnext).symm, hlisted⟩
    · exact Or.inr ⟨CrlRepository.entriesOf previous, (except_pure_eq_ok.mp hnext).symm,
        fun _ hmem ↦ hmem, hlisted⟩
  | some serialNumber =>
    simp only [hserial, except_bind_eq_ok, failIf_eq_ok, except_pure_eq_ok] at hnext
    obtain ⟨_, -, rfl⟩ := hnext
    refine Or.inr ⟨_, rfl, fun _ hmem ↦ List.mem_cons_of_mem _ hmem, ?_⟩
    rintro target rfl
    simp only [CrlRepository.newRevocation] at hserial
    split_ifs at hserial
    obtain rfl := Option.some.inj hserial
    exact List.mem_cons_self

/-- The entries of a record are the ones it is made of. -/
@[simp] theorem mem_serials_record {authority : CrlAuthority repository.x509} {now : ℤ}
    {revoked : List RevokedCertificate} {serialNumber : ℕ} :
    serialNumber ∈ serials (repository.record authority now previous revoked).crl.entries ↔
      serialNumber ∈ serials revoked := by
  simp [serials, CrlRepository.record]

/-- The next CRL that `publish` commits lists what the one before it lists. -/
def Carries (x509 : X509) (issuer : Text) (before : IdentityTables) (row : PublicationRow) : Prop :=
  ∀ old, journalHead before (issuerPrefix issuer) = some old → ∀ serialNumber,
    Lists x509 old.content serialNumber → Lists x509 row.content serialNumber

/-- What a publication comes to. -/
structure PublishEffect (repository : CrlRepository) (issuer : Text) (before after : IdentityTables) :
    Prop where
  effect : ∃ added, Effect issuer before after added ∧
    (IsIssuer issuer → ∀ number row, added = some (number, row) →
      Carries repository.x509 issuer before row)

/-- What the reading of the previous CRL says of the newest generation. -/
theorem lists_of_head {old : PublicationRow} (hissuer : IsIssuer issuer)
    (hprevious : repository.head tables issuer = .ok previous)
    (hold : journalHead tables (issuerPrefix issuer) = some old) {serialNumber : ℕ}
    (hlists : Lists repository.x509 old.content serialNumber) :
    serialNumber ∈ serials (CrlRepository.entriesOf previous) := by
  rcases head_eq_ok hprevious with ⟨-, hnone⟩ | ⟨number, row, record, hcurrent, hrecord, rfl⟩
  · obtain ⟨start, hstart, -, ⟨hempty, -⟩ | ⟨_, -, -, -, -, -, hsome⟩⟩ := crlHead_eq_ok.mp hnone
    · obtain ⟨-, rfl⟩ := isIssuer_of_crlPrefix hstart
      rw [hold] at hempty
      cases hempty
    · cases hsome
  · obtain ⟨hhead, -⟩ := journalHead_of_crlHead hissuer hcurrent
    obtain rfl : row = old := Option.some.inj (hhead.symm.trans hold)
    obtain ⟨other, hother, hmem⟩ := hlists
    obtain rfl : record = other := Option.some.inj (hrecord.symm.trans hother)
    exact hmem

/-- What `publish` writes before it returns. -/
theorem leaves_commitRecord {authority : CrlAuthority repository.x509} {now : ℤ}
    {record : CrlRecord} :
    Leaves (repository.commitRecord authority now previous record) store
      (fun _ final ↦ IsIssuer authority.identity ∧ ∃ number row,
        Effect authority.identity store.tables final.tables (some (number, row)) ∧
          row.content = repository.x509.encode record)
      fun _ final ↦ ∃ added, Effect authority.identity store.tables final.tables added ∧
        ∀ number row, added = some (number, row) → row.content = repository.x509.encode record := by
  unfold CrlRepository.commitRecord
  rw [leaves_bind]
  refine leaves_pruneCrls.mono (fun _ first hfirst ↦ ?_) fun _ first hfirst ↦ ?_
  · rw [leaves_bind]
    refine leaves_commitCrl.mono (fun _ second hsecond ↦ ?_) fun _ second hsecond ↦ ?_
    · refine leaves_pruneCrls.mono (fun _ third hthird ↦ ?_) fun _ third hthird ↦ ?_
      · exact ⟨hsecond.1, _, _, (hfirst.after_prune hsecond.2).then_prune hthird, rfl⟩
      · refine ⟨_, (hfirst.after_prune hsecond.2).then_prune hthird, ?_⟩
        rintro _ _ ⟨⟩
        rfl
    · rcases hsecond with hsecond | ⟨-, hsecond⟩
      · exact ⟨none, hfirst.after_prune hsecond, fun _ _ h ↦ absurd h.symm (Option.some_ne_none _)⟩
      · refine ⟨_, hfirst.after_prune hsecond, ?_⟩
        rintro _ _ ⟨⟩
        rfl
  · exact ⟨none, hfirst, fun _ _ h ↦ absurd h.symm (Option.some_ne_none _)⟩

/-- What `publish` comes to: its effect, and a CRL that lists the certificate to revoke. -/
theorem leaves_publish {authority : CrlAuthority repository.x509} {now : DateTime}
    {revoke : Option Certificate} : Leaves (repository.publish authority now revoke) store
      (fun published final ↦
        PublishEffect repository authority.identity store.tables final.tables ∧
          ∀ target, revoke = some target → target.serialNumber ∈ serials published.crl.entries)
      fun _ final ↦ PublishEffect repository authority.identity store.tables final.tables := by
  have hnothing : PublishEffect repository authority.identity store.tables store.tables :=
    ⟨none, .refl, fun _ _ _ h ↦ absurd h.symm (Option.some_ne_none _)⟩
  unfold CrlRepository.publish
  simp only [leaves_bind, leaves_evaluate, leaves_current]
  refine ⟨fun seconds _ ↦ ⟨fun _ _ ↦ ⟨fun previous hprevious ↦ ⟨fun next hnext ↦ ?_, fun _ _ ↦ hnothing⟩,
    fun _ _ ↦ hnothing⟩, fun _ _ ↦ hnothing⟩, fun _ _ ↦ hnothing⟩
  have hread : repository.head store.tables authority.identity = .ok previous := by
    cases hhead : repository.head store.tables authority.identity with
    | error failure => simp [hhead, Except.mapError] at hprevious
    | ok value => simpa [hhead, Except.mapError] using hprevious
  rcases nextRecord_eq_ok hnext with ⟨rfl, hlisted⟩ | ⟨revoked, rfl, hcarried, hlisted⟩
  · -- The previous CRL is returned again, and lists the certificate already.
    rw [leaves_evaluate]
    refine ⟨fun published hget ↦ ⟨hnothing, fun target htarget ↦ ?_⟩, fun _ _ ↦ hnothing⟩
    obtain rfl : previous = some published := Except.ok.inj (hread.symm.trans (get_eq_ok hget))
    exact hlisted target htarget
  · -- The next CRL is committed, read back, and lists what its record does.
    have hlists : ∀ {row : PublicationRow} {serialNumber : ℕ},
        row.content = repository.x509.encode (repository.record authority seconds previous revoked) →
          serialNumber ∈ serials revoked → Lists repository.x509 row.content serialNumber := by
      intro row serialNumber hcontent hserial
      exact ⟨_, by rw [hcontent, repository.x509.decode_encode], mem_serials_record.mpr hserial⟩
    have hcarries : ∀ {row : PublicationRow}, IsIssuer authority.identity →
        row.content = repository.x509.encode (repository.record authority seconds previous revoked) →
          Carries repository.x509 authority.identity store.tables row := by
      intro row hissuer hcontent old hold serialNumber holdLists
      exact hlists hcontent (hcarried _ (lists_of_head hissuer hread hold holdLists))
    dsimp only
    rw [leaves_bind, leaves_withError]
    refine leaves_commitRecord.mono (fun _ final hfinal ↦ ?_) fun _ final hfinal ↦ ?_
    · obtain ⟨hissuer, number, row, heffect, hcontent⟩ := hfinal
      have hwritten : PublishEffect repository authority.identity store.tables final.tables := by
        refine ⟨_, heffect, ?_⟩
        rintro hissuer _ _ ⟨⟩
        exact hcarries hissuer hcontent
      rw [leaves_bind, leaves_current, leaves_evaluate]
      refine ⟨fun published hget ↦ ⟨hwritten, fun target htarget ↦ ?_⟩, fun _ _ ↦ hwritten⟩
      have hlast := lists_of_head hissuer (get_eq_ok hget) (heffect.own hissuer).head
        (hlists hcontent (hlisted target htarget))
      exact hlast
    · obtain ⟨added, heffect, hcontent⟩ := hfinal
      exact ⟨added, heffect, fun hissuer number row hadded ↦
        hcarries hissuer (hcontent number row hadded)⟩

end Ads.SandboxEgress.Crl
