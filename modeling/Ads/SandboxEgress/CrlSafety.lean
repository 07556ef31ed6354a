import Ads.Foundation.PrefixCodes
import Ads.SandboxEgress.CrlHistory

/-!
# The local CRLs never forget

A run of the repository and its store takes publications and calls of the store in any order. The
CRLs of an issuer are numbered one after the other, the newest of them stays, pruning those of one
issuer touches nothing else, and a publication that revokes a certificate returns a CRL that lists
it. What a CRL lists is listed by every later one of its issuer, for as long as the ones that are
committed past the repository list it (`crls_safe`).
-/

set_option autoImplicit false
set_option relaxedAutoImplicit false

namespace Ads.SandboxEgress.Crl

open Dns Foundation Foundation.Runs Foundation.StateExcept Foundation.Interrupted IdentityStore Python

variable {issuer : Text} {number : ℕ} {tables : IdentityTables} {row head : PublicationRow}

/-! ### Runs -/

/-- What happens to the repository and its store. -/
inductive CrlInput (x509 : X509) where
  | publish (authority : CrlAuthority x509) (now : DateTime) (revoke : Option Certificate)
  | call (call : StoreCall)

/-- The clock of an input, none without one. -/
def CrlInput.clock {x509 : X509} : CrlInput x509 → Option ℚ
  | .publish _ now _ => some (now.microseconds / 1000000)
  | .call direct => direct.clock

/-- An input with what it found, what it left and what it returned. -/
structure CrlEvent (x509 : X509) where
  input : CrlInput x509
  before : IdentityTables
  after : IdentityTables
  result : Except CrlRaised (Option PublishedCrl)

/-- One input. -/
def crlStep (repository : CrlRepository) (store : Store) (input : CrlInput repository.x509) :
    Store × List (CrlEvent repository.x509) :=
  match input with
  | .publish authority now revoke =>
    let outcome := repository.publish authority now revoke store
    (outcome.2, [⟨input, store.tables, outcome.2.tables, outcome.1.map some⟩])
  | .call call =>
    let outcome := performed repository.custody call store
    (outcome.2, [⟨input, store.tables, outcome.2.tables,
      (outcome.1.map fun _ ↦ none).mapError .store⟩])

namespace CrlEvent

variable {x509 : X509} (event : CrlEvent x509)

/-- An event commits a CRL of an issuer. -/
def Commits (issuer : Text) (number : ℕ) (row : PublicationRow) : Prop :=
  IsIssuer issuer ∧ row ∈ event.after.publications ∧ row ∉ event.before.publications ∧
    row.name = crlName issuer number

/-- An event is a call of the store, past the repository. -/
def IsDirect : Prop :=
  ∃ call, event.input = .call call

/-- An event prunes the CRLs of an issuer. -/
def Prunes (issuer : Text) : Prop :=
  (∃ now, event.input = .call (.pruneCrls issuer now)) ∨
    ∃ authority now revoke, event.input = .publish authority now revoke ∧
      authority.identity = issuer

end CrlEvent

/-- The CRLs that an event commits past the repository list a serial number. -/
def KeepsListed {x509 : X509} (issuer : Text) (serialNumber : ℕ) (event : CrlEvent x509) : Prop :=
  event.IsDirect → ∀ number row, event.Commits issuer number row →
    Lists x509 row.content serialNumber

/-- What an event keeps to, given the events before it. -/
structure CrlInOrder {x509 : X509} (trace : List (CrlEvent x509)) (event : CrlEvent x509) : Prop where
  /-- The numbers of an issuer follow one another. -/
  numbers : ∀ issuer number row, event.Commits issuer number row →
    (∀ earlier ∈ trace, ∀ other old, earlier.Commits issuer other old → other < number) ∧
      (number = 1 ∨ ∃ earlier ∈ trace, ∃ old, earlier.Commits issuer (number - 1) old) ∧
        ∀ other another, event.Commits issuer other another → other = number ∧ another = row
  /-- What a CRL lists is listed by the later ones of its issuer. -/
  carries : ∀ first earlier between, trace = first ++ earlier :: between →
    ∀ issuer number old, earlier.Commits issuer number old → ∀ serialNumber,
      Lists x509 old.content serialNumber →
        (∀ middle ∈ between ++ [event], KeepsListed issuer serialNumber middle) →
          ∀ later row, event.Commits issuer later row → Lists x509 row.content serialNumber
  /-- A publication that revokes a certificate returns a CRL that lists it. -/
  returns : ∀ authority now target published, event.input = .publish authority now (some target) →
    event.result = .ok (some published) → target.serialNumber ∈ serials published.crl.entries
  /-- Pruning the CRLs of an issuer touches nothing else. -/
  isolates : ∀ issuer, event.Prunes issuer → Isolates issuer event.before event.after

/-- What holds after a run. -/
structure CrlsSafe {x509 : X509} (tables : IdentityTables) (trace : List (CrlEvent x509)) : Prop where
  events : Along CrlInOrder trace
  /-- The newest CRL of an issuer is there. -/
  retained : ∀ first event later, trace = first ++ event :: later →
    ∀ issuer number row, event.Commits issuer number row →
      (∀ after ∈ later, ∀ other another, ¬ after.Commits issuer other another) →
        row ∈ tables.publications

/-- A serial number that is listed in a CRL is listed in every later one of its issuer. -/
def NeverForgets {x509 : X509} (trace : List (CrlEvent x509)) : Prop :=
  ∀ first earlier between event later, trace = first ++ earlier :: between ++ event :: later →
    ∀ issuer number old, earlier.Commits issuer number old →
      ∀ serialNumber, Lists x509 old.content serialNumber →
        ∀ next row, event.Commits issuer next row → Lists x509 row.content serialNumber

/-! ### The invariant -/

/-- What an event does to the CRLs of an issuer. -/
def Changes {x509 : X509} (issuer : Text) (event : CrlEvent x509) : Prop :=
  Same issuer event.before event.after ∨
    ∃ number row, Next issuer event.before event.after number row ∧
      (event.IsDirect ∨ Carries x509 issuer event.before row)

section Invariant

variable {x509 : X509} {event : CrlEvent x509} {trace : List (CrlEvent x509)}

/-- Pruning commits nothing. -/
theorem not_commits_of_same (hsame : Same issuer event.before event.after) :
    ¬ event.Commits issuer number row := by
  rintro ⟨-, hafter, hbefore, hname⟩
  exact hbefore (hsame.rows row hafter (hname ▸ List.prefix_append _ _))

/-- The next CRL is committed, and nothing else of its issuer. -/
theorem commits_iff_of_next (hissuer : IsIssuer issuer)
    (hnext : Next issuer event.before event.after number row) {later : ℕ} {other : PublicationRow} :
    event.Commits issuer later other ↔ later = number + 1 ∧ other = row := by
  constructor
  · rintro ⟨-, hafter, hbefore, hname⟩
    rcases hnext.rows other hafter (hname ▸ List.prefix_append _ _) with rfl | hold
    · exact ⟨number_eq_of_crlName (hname.symm.trans hnext.name), rfl⟩
    · exact absurd hold hbefore
  · rintro ⟨rfl, rfl⟩
    exact ⟨hissuer, (journalHead_eq_some_iff.mp hnext.head).1, hnext.not_mem, hnext.name⟩

/-- What holds of the tables after some events. -/
structure CrlsKept (tables : IdentityTables) (trace : List (CrlEvent x509)) : Prop where
  /-- The newest CRL has the greatest number that was committed. -/
  heads : ∀ issuer, IsIssuer issuer →
    (journalHead tables (issuerPrefix issuer) = none ∧
      ∀ event ∈ trace, ∀ number row, ¬ event.Commits issuer number row) ∨
    ∃ number row, journalHead tables (issuerPrefix issuer) = some row ∧
      row.name = crlName issuer number ∧ (∃ event ∈ trace, event.Commits issuer number row) ∧
        ∀ event ∈ trace, ∀ other another, event.Commits issuer other another → other ≤ number
  /-- The last CRL that was committed is the newest one. -/
  last : ∀ first event later, trace = first ++ event :: later →
    ∀ issuer number row, event.Commits issuer number row →
      (∀ after ∈ later, ∀ other another, ¬ after.Commits issuer other another) →
        journalHead tables (issuerPrefix issuer) = some row
  /-- The newest CRL lists what an earlier one lists. -/
  carried : ∀ first earlier between, trace = first ++ earlier :: between →
    ∀ issuer number old, earlier.Commits issuer number old → ∀ serialNumber,
      Lists x509 old.content serialNumber →
        (∀ middle ∈ between, KeepsListed issuer serialNumber middle) →
          ∀ head, journalHead tables (issuerPrefix issuer) = some head →
            Lists x509 head.content serialNumber
  events : Along CrlInOrder trace

/-- The numbers of an event follow those before it. -/
theorem CrlsKept.numbers (hkept : CrlsKept event.before trace)
    (hchanges : ∀ issuer, IsIssuer issuer → Changes issuer event)
    (hcommits : event.Commits issuer number row) :
    (∀ earlier ∈ trace, ∀ other old, earlier.Commits issuer other old → other < number) ∧
      (number = 1 ∨ ∃ earlier ∈ trace, ∃ old, earlier.Commits issuer (number - 1) old) ∧
        ∀ other another, event.Commits issuer other another → other = number ∧ another = row := by
  have hissuer := hcommits.1
  rcases hchanges issuer hissuer with hsame | ⟨previous, next, hnext, -⟩
  · exact absurd hcommits (not_commits_of_same hsame)
  · obtain ⟨rfl, rfl⟩ := (commits_iff_of_next hissuer hnext).mp hcommits
    refine ⟨?_, ?_, fun other another hother ↦ (commits_iff_of_next hissuer hnext).mp hother⟩
    · rcases hkept.heads issuer hissuer with ⟨-, hnever⟩ | ⟨greatest, head, hhead, hname, -, hbound⟩
      · exact fun earlier hearlier other old hother ↦ absurd hother (hnever earlier hearlier other old)
      · intro earlier hearlier other old hother
        have hle := hbound earlier hearlier other old hother
        rcases hnext.previous with ⟨hnone, -⟩ | ⟨old, hold, holdName⟩
        · rw [hhead] at hnone
          cases hnone
        · obtain rfl : head = old := Option.some.inj (hhead.symm.trans hold)
          have hnumber := number_eq_of_crlName (hname.symm.trans holdName)
          omega
    · rcases hnext.previous with ⟨-, rfl⟩ | ⟨old, hold, holdName⟩
      · exact Or.inl rfl
      · right
        rcases hkept.heads issuer hissuer with ⟨hnone, -⟩ |
          ⟨greatest, head, hhead, hname, ⟨earlier, hearlier, hcommitted⟩, -⟩
        · rw [hold] at hnone
          cases hnone
        · obtain rfl : head = old := Option.some.inj (hhead.symm.trans hold)
          obtain rfl := number_eq_of_crlName (hname.symm.trans holdName)
          exact ⟨earlier, hearlier, head, hcommitted⟩

/-- The newest CRL after an event lists what an earlier one lists. -/
theorem CrlsKept.carries (hkept : CrlsKept event.before trace)
    (hchanges : ∀ issuer, IsIssuer issuer → Changes issuer event)
    {first between : List (CrlEvent x509)} {earlier : CrlEvent x509}
    (hsplit : trace = first ++ earlier :: between) {old : PublicationRow}
    (hcommits : earlier.Commits issuer number old) {serialNumber : ℕ}
    (hlists : Lists x509 old.content serialNumber)
    (hkeeps : ∀ middle ∈ between ++ [event], KeepsListed issuer serialNumber middle)
    (hhead : journalHead event.after (issuerPrefix issuer) = some head) :
    Lists x509 head.content serialNumber := by
  have hissuer := hcommits.1
  have hbefore := hkept.carried first earlier between hsplit issuer number old hcommits serialNumber
    hlists fun middle hmiddle ↦ hkeeps middle (List.mem_append_left _ hmiddle)
  rcases hchanges issuer hissuer with hsame | ⟨previous, next, hnext, hdirect | hcarries⟩
  · exact hbefore head (hsame.head.symm.trans hhead)
  · obtain rfl : next = head := Option.some.inj (hnext.head.symm.trans hhead)
    exact hkeeps event (by simp) hdirect _ _ ((commits_iff_of_next hissuer hnext).mpr ⟨rfl, rfl⟩)
  · obtain rfl : next = head := Option.some.inj (hnext.head.symm.trans hhead)
    rcases hnext.previous with ⟨hnone, -⟩ | ⟨newest, hnewest, -⟩
    · rcases hkept.heads issuer hissuer with ⟨-, hnever⟩ | ⟨_, _, hsome, -⟩
      · exact absurd hcommits (hnever earlier (by simp [hsplit]) number old)
      · rw [hnone] at hsome
        cases hsome
    · exact hcarries newest hnewest serialNumber (hbefore newest hnewest)

/-- The invariant is kept by an event. -/
theorem CrlsKept.step (hkept : CrlsKept event.before trace)
    (hchanges : ∀ issuer, IsIssuer issuer → Changes issuer event)
    (hreturns : ∀ authority now target published,
      event.input = .publish authority now (some target) → event.result = .ok (some published) →
        target.serialNumber ∈ serials published.crl.entries)
    (hisolates : ∀ issuer, event.Prunes issuer → Isolates issuer event.before event.after) :
    CrlsKept event.after (trace ++ [event]) := by
  constructor
  case heads =>
    intro issuer hissuer
    rcases hchanges issuer hissuer with hsame | ⟨previous, next, hnext, -⟩
    · rcases hkept.heads issuer hissuer with ⟨hnone, hnever⟩ |
        ⟨greatest, head, hhead, hname, ⟨earlier, hearlier, hcommitted⟩, hbound⟩
      · refine Or.inl ⟨hsame.head.trans hnone, fun other hother ↦ ?_⟩
        rcases List.mem_append.mp hother with hold | hnew
        · exact hnever other hold
        · obtain rfl := List.mem_singleton.mp hnew
          exact fun _ _ ↦ not_commits_of_same hsame
      · refine Or.inr ⟨greatest, head, hsame.head.trans hhead, hname,
          ⟨earlier, List.mem_append_left _ hearlier, hcommitted⟩, fun other hother ↦ ?_⟩
        rcases List.mem_append.mp hother with hold | hnew
        · exact hbound other hold
        · obtain rfl := List.mem_singleton.mp hnew
          exact fun _ _ hcommits ↦ absurd hcommits (not_commits_of_same hsame)
    · have hcommits := (commits_iff_of_next hissuer hnext).mpr ⟨rfl, rfl⟩
      refine Or.inr ⟨previous + 1, next, hnext.head, hnext.name, ⟨event, by simp, hcommits⟩, ?_⟩
      intro other hother number row hnumber
      rcases List.mem_append.mp hother with hold | hnew
      · exact ((hkept.numbers hchanges hcommits).1 other hold number row hnumber).le
      · obtain rfl := List.mem_singleton.mp hnew
        exact ((commits_iff_of_next hissuer hnext).mp hnumber).1.le
  case last =>
    intro first earlier later hsplit issuer number row hcommits hnever
    have hissuer := hcommits.1
    rcases snoc_eq_append_cons hsplit with ⟨-, rfl, -⟩ | ⟨rest, rfl, htrace⟩
    · rcases hchanges issuer hissuer with hsame | ⟨previous, next, hnext, -⟩
      · exact absurd hcommits (not_commits_of_same hsame)
      · rw [((commits_iff_of_next hissuer hnext).mp hcommits).2]
        exact hnext.head
    · rcases hchanges issuer hissuer with hsame | ⟨previous, next, hnext, -⟩
      · exact hsame.head.trans (hkept.last first earlier rest htrace issuer number row hcommits
          fun after hafter ↦ hnever after (List.mem_append_left _ hafter))
      · exact absurd ((commits_iff_of_next hissuer hnext).mpr ⟨rfl, rfl⟩)
          (hnever event (by simp) _ _)
  case carried =>
    intro first earlier between hsplit issuer number old hcommits serialNumber hlists hkeeps head hhead
    have hissuer := hcommits.1
    rcases snoc_eq_append_cons hsplit with ⟨-, rfl, -⟩ | ⟨rest, rfl, htrace⟩
    · rcases hchanges issuer hissuer with hsame | ⟨previous, next, hnext, -⟩
      · exact absurd hcommits (not_commits_of_same hsame)
      · obtain ⟨-, rfl⟩ := (commits_iff_of_next hissuer hnext).mp hcommits
        rw [← Option.some.inj (hnext.head.symm.trans hhead)]
        exact hlists
    · exact hkept.carries hchanges htrace hcommits hlists hkeeps hhead
  case events =>
    refine hkept.events.snoc ⟨fun issuer number row ↦ hkept.numbers hchanges, ?_, hreturns, hisolates⟩
    intro first earlier between hsplit issuer number old hcommits serialNumber hlists hkeeps later row
      hlater
    have hissuer := hcommits.1
    rcases hchanges issuer hissuer with hsame | ⟨previous, next, hnext, -⟩
    · exact absurd hlater (not_commits_of_same hsame)
    · obtain ⟨-, rfl⟩ := (commits_iff_of_next hissuer hnext).mp hlater
      exact hkept.carries hchanges hsplit hcommits hlists hkeeps hnext.head

end Invariant

/-! ### One event -/

section Events

variable {repository : CrlRepository} {store : Store} {trace : List (CrlEvent repository.x509)}

/-- What a publication comes to for the CRLs of every issuer. -/
theorem changes_of_effect {input : CrlInput repository.x509} {before after : IdentityTables}
    {result : Except CrlRaised (Option PublishedCrl)} {identity : Text}
    (heffect : PublishEffect repository identity before after) (hissuer : IsIssuer issuer) :
    Changes issuer ⟨input, before, after, result⟩ := by
  obtain ⟨added, heffect, hcarries⟩ := heffect
  by_cases hsame : issuer = identity
  · subst hsame
    cases added with
    | none => exact Or.inl (heffect.own hissuer)
    | some added =>
      exact Or.inr ⟨added.1, added.2, heffect.own hissuer, Or.inr (hcarries hissuer _ _ rfl)⟩
  · exact Or.inl (heffect.others issuer hissuer hsame)

/-- A publication leaves its effect, whatever it returns. -/
theorem publishEffect (authority : CrlAuthority repository.x509) (now : DateTime)
    (revoke : Option Certificate) (store : Store) :
    PublishEffect repository authority.identity store.tables
      (repository.publish authority now revoke store).2.tables := by
  have hleaves := @leaves_publish store repository authority now revoke
  cases houtcome : repository.publish authority now revoke store with
  | mk outcome final =>
    cases outcome with
    | error failure => exact hleaves.of_error houtcome
    | ok published => exact (hleaves.of_ok houtcome).1

/-- What an event does to the CRLs of every issuer. -/
theorem changes_of_step {input : CrlInput repository.x509} {event : CrlEvent repository.x509}
    (hevent : event ∈ (crlStep repository store input).2) (hissuer : IsIssuer issuer) :
    Changes issuer event := by
  cases input with
  | publish authority now revoke =>
    obtain rfl := List.mem_singleton.mp hevent
    exact changes_of_effect (publishEffect authority now revoke store) hissuer
  | call call =>
    obtain rfl := List.mem_singleton.mp hevent
    rcases (outcome_performed repository.custody call store).moves with hsame | ⟨hmove, -⟩
    · exact Or.inl (.of_publications (congrArg IdentityTables.publications hsame))
    · rcases Move.crls hmove hissuer with hsame | ⟨expected, content, retainUntil, -, hnext⟩
      · exact Or.inl hsame
      · exact Or.inr ⟨_, _, hnext, Or.inl ⟨call, rfl⟩⟩

/-- A publication that revokes a certificate returns a CRL that lists it. -/
theorem returns_of_step {input : CrlInput repository.x509} {event : CrlEvent repository.x509}
    (hevent : event ∈ (crlStep repository store input).2) {authority : CrlAuthority repository.x509}
    {now : DateTime} {target : Certificate} {published : PublishedCrl}
    (hinput : event.input = .publish authority now (some target))
    (hresult : event.result = .ok (some published)) :
    target.serialNumber ∈ serials published.crl.entries := by
  cases input with
  | publish authority now revoke =>
    obtain rfl := List.mem_singleton.mp hevent
    cases hinput
    have hleaves := @leaves_publish store repository authority now (some target)
    cases houtcome : repository.publish authority now (some target) store with
    | mk outcome final =>
      cases outcome with
      | error failure => simp [houtcome, Except.map] at hresult
      | ok returned =>
        obtain rfl : returned = published := by simpa [houtcome, Except.map] using hresult
        exact (hleaves.of_ok houtcome).2 target rfl
  | call call =>
    obtain rfl := List.mem_singleton.mp hevent
    cases hinput

/-- Pruning the CRLs of an issuer touches nothing else. -/
theorem isolates_of_step {input : CrlInput repository.x509} {event : CrlEvent repository.x509}
    (hevent : event ∈ (crlStep repository store input).2) (hprunes : event.Prunes issuer) :
    Isolates issuer event.before event.after := by
  cases input with
  | publish authority now revoke =>
    obtain rfl := List.mem_singleton.mp hevent
    rcases hprunes with ⟨_, hcall⟩ | ⟨_, _, _, hinput, rfl⟩
    · cases hcall
    · cases hinput
      obtain ⟨_, heffect, -⟩ := publishEffect authority now revoke store
      exact heffect.isolates
  | call call =>
    obtain rfl := List.mem_singleton.mp hevent
    rcases hprunes with ⟨now, hcall⟩ | ⟨_, _, _, hinput, -⟩
    · cases hcall
      rcases (outcome_performed repository.custody (.pruneCrls issuer now) store).moves with
        hsame | ⟨hmove, -⟩
      · intro row hrow _
        dsimp only
        rw [hsame]
        exact ⟨hrow, fun _ hdepends ↦ hdepends⟩
      · exact Move.isolates hmove
    · cases hinput

/-- An input has one event, between the tables before and after it. -/
theorem crlStep_eq (input : CrlInput repository.x509) : ∃ event,
    (crlStep repository store input).2 = [event] ∧ event.before = store.tables ∧
      event.after = (crlStep repository store input).1.tables := by
  cases input with
  | publish authority now revoke => exact ⟨_, rfl, rfl, rfl⟩
  | call call => exact ⟨_, rfl, rfl, rfl⟩

/-- The invariant is kept by an input. -/
theorem CrlsKept.input (hkept : CrlsKept store.tables trace) (input : CrlInput repository.x509) :
    CrlsKept (crlStep repository store input).1.tables
      (trace ++ (crlStep repository store input).2) := by
  obtain ⟨event, hevents, hbefore, hafter⟩ := @crlStep_eq repository store input
  have hmem : event ∈ (crlStep repository store input).2 := by simp [hevents]
  rw [hevents, ← hafter]
  refine CrlsKept.step (hbefore ▸ hkept) (fun _ ↦ changes_of_step hmem) ?_
    fun _ ↦ isolates_of_step hmem
  exact fun _ _ _ _ ↦ returns_of_step hmem

end Events

/-- A new store. -/
theorem crlsKept_created {custody : Custody} {nonce : Nonce} {x509 : X509}
    (hcreated : created custody nonce = .ok tables) :
    CrlsKept tables ([] : List (CrlEvent x509)) := by
  simp only [created, except_bind_eq_ok, Custody.inventory_eq_ok, except_pure_eq_ok] at hcreated
  obtain ⟨_, -, rfl⟩ := hcreated
  constructor
  case heads =>
    refine fun issuer _ ↦ Or.inl ⟨?_, fun event hevent ↦ absurd hevent List.not_mem_nil⟩
    exact journalHead_eq_none_iff.mpr fun row hrow ↦ absurd hrow Table.not_mem_empty
  case last => exact fun first event later hsplit ↦ absurd hsplit (by simp)
  case carried => exact fun first event later hsplit ↦ absurd hsplit (by simp)
  case events => exact Along.nil

/-- **Local CRLs never forget.** In every run of a new store. -/
theorem crls_safe (repository : CrlRepository) (nonce : Nonce) (tables : IdentityTables)
    (hcreated : created repository.custody nonce = .ok tables) (surroundings : ℕ → Surroundings)
    (inputs : List (CrlInput repository.x509)) :
    CrlsSafe (runFrom (crlStep repository) ⟨tables, surroundings⟩ inputs).1.tables
      (runFrom (crlStep repository) ⟨tables, surroundings⟩ inputs).2 := by
  have hkept : CrlsKept (runFrom (crlStep repository) ⟨tables, surroundings⟩ inputs).1.tables
      (runFrom (crlStep repository) ⟨tables, surroundings⟩ inputs).2 := by
    refine run_induction (fun _ (store : Store) trace ↦ CrlsKept store.tables trace) ?_ ?_ inputs
    · exact crlsKept_created hcreated
    · exact fun _ input store trace hkept ↦ hkept.input input
  refine ⟨hkept.events, fun first event later hsplit issuer number row hcommits hnever ↦ ?_⟩
  exact (journalHead_eq_some_iff.mp
    (hkept.last first event later hsplit issuer number row hcommits hnever)).1

/-! ### A forgotten revocation -/

section Forgotten

open Foundation.PrefixCodes

/-- The code of a number. -/
def natCode : Code Octet ℕ :=
  .nat 0 1 (by decide)

/-- The code of a time. -/
def intCode : Code Octet ℤ :=
  (natCode.pair natCode).via (fun value ↦ (value.toNat, (-value).toNat))
    (fun parts ↦ some (parts.1 - parts.2)) fun value ↦ by
      simp only [Int.ofNat_toNat, Option.some.injEq]
      omega

/-- The code of a byte string. -/
def bytesCode : Code Octet Bytes :=
  .many natCode .letter

/-- The code of a text. -/
def textCode : Code Octet Text :=
  .many natCode <| (Code.pair .letter (.pair .letter .letter)).via
    (fun char : Char ↦ (Fin.ofNat 256 (char.toNat / 65536), Fin.ofNat 256 (char.toNat / 256),
      Fin.ofNat 256 char.toNat))
    (fun parts ↦ some (Char.ofNat (65536 * parts.1.val + 256 * parts.2.1.val + parts.2.2.val)))
    fun char ↦ by
      have hbound : char.toNat < 1114112 := by
        rcases char.valid with hlow | ⟨-, hhigh⟩
        · exact lt_trans hlow (by norm_num)
        · exact hhigh
      have hsum : 65536 * (char.toNat / 65536 % 256) + 256 * (char.toNat / 256 % 256) +
          char.toNat % 256 = char.toNat := by omega
      simp [Fin.ofNat, hsum]

/-- The code of a value or none. -/
def optionCode {α : Type} (code : Code Octet α) : Code Octet (Option α) :=
  .optional 0 1 (by decide) code

/-- The code of a truth value. -/
def boolCode : Code Octet Bool :=
  natCode.via (fun value ↦ if value then 1 else 0) (fun number ↦ some (number = 1)) fun value ↦ by
    cases value <;> rfl

/-- The code of a certificate. -/
def certificateCode : Code Octet Certificate :=
  (textCode.pair (bytesCode.pair (natCode.pair ((optionCode bytesCode).pair
    ((optionCode boolCode).pair ((optionCode boolCode).pair (intCode.pair intCode))))))).via
    (fun value ↦ (value.fingerprint, value.subject, value.serialNumber, value.publicKey,
      value.basicConstraintsCa, value.keyUsageCrlSign, value.notValidBefore, value.notValidAfter))
    (fun parts ↦ some ⟨parts.1, parts.2.1, parts.2.2.1, parts.2.2.2.1, parts.2.2.2.2.1,
      parts.2.2.2.2.2.1, parts.2.2.2.2.2.2.1, parts.2.2.2.2.2.2.2⟩) fun _ ↦ rfl

/-- The code of an entry of a CRL. -/
def entryCode : Code Octet RevokedCertificate :=
  (natCode.pair intCode).via (fun value ↦ (value.serialNumber, value.revocationDate))
    (fun parts ↦ some ⟨parts.1, parts.2⟩) fun _ ↦ rfl

/-- The code of a CRL. -/
def crlCode : Code Octet RevocationList :=
  (bytesCode.pair ((optionCode natCode).pair (intCode.pair ((optionCode intCode).pair
    (bytesCode.pair ((Code.many natCode entryCode).pair bytesCode)))))).via
    (fun value ↦ (value.issuer, value.crlNumber, value.lastUpdate, value.nextUpdate,
      value.authorityKey, value.entries, value.signature))
    (fun parts ↦ some ⟨⟨parts.1, parts.2.1, parts.2.2.1, parts.2.2.2.1, parts.2.2.2.2.1,
      parts.2.2.2.2.2.1⟩, parts.2.2.2.2.2.2⟩) fun _ ↦ rfl

/-- The code of a record. -/
def recordCode : Code Octet CrlRecord :=
  (certificateCode.pair crlCode).via (fun value ↦ (value.issuer, value.crl))
    (fun parts ↦ some ⟨parts.1, parts.2⟩) fun _ ↦ rfl

/-- A cryptography whose private keys are the public ones and sign for themselves. -/
def openX509 : X509 where
  publicKeyOf key := key
  sign key _ := key
  isSignatureValid crl key := crl.signature = key
  isDirectlyIssuedBy _ _ := true
  encode := recordCode.write
  decode := recordCode.decode
  decode_encode := recordCode.decode_write

/-- A repository whose CRLs last for a minute. -/
def openRepository : CrlRepository :=
  ⟨openCustody, openX509, 60, by decide⟩

/-- An issuer. -/
def openIssuer : Text :=
  List.replicate 64 'a'

/-- The certificate of an authority. -/
def openCertificate : Certificate :=
  ⟨openIssuer, [1], 1, some [2], some true, some true, 0, 1000⟩

/-- An authority. -/
def openAuthority : CrlAuthority openX509 :=
  ⟨openCertificate, [2], rfl, rfl, rfl⟩

/-- A certificate that is revoked. -/
def revokedCertificate : Certificate :=
  ⟨List.replicate 64 'b', [3], 7, none, none, none, 0, 1000⟩

/-- A second CRL, that lists nothing. -/
def emptyRecord : CrlRecord :=
  let record := openRepository.record openAuthority 20 none []
  { record with crl := { record.crl with crlNumber := some 2 } }

/-- A revocation, and a CRL that is committed past the repository without it. -/
def forgotten : List (CrlInput openX509) :=
  [.publish openAuthority ⟨10000000, true⟩ (some revokedCertificate),
    .call (.commitCrl openIssuer 1 (openX509.encode emptyRecord) (some 80))]

theorem created_open : created openRepository.custody zeroNonce = .ok newTables :=
  rfl

/-- The guarantees hold of the run that forgets a revocation past the repository. -/
theorem crls_safe_forgotten :
    CrlsSafe (runFrom (crlStep openRepository) ⟨newTables, fun _ ↦ calm⟩ forgotten).1.tables
      (runFrom (crlStep openRepository) ⟨newTables, fun _ ↦ calm⟩ forgotten).2 :=
  crls_safe openRepository zeroNonce newTables created_open (fun _ ↦ calm) forgotten

/-- The CRLs that are committed. -/
def forgottenRows : PublicationRow × PublicationRow :=
  (⟨crlName openIssuer 1, openX509.encode (openRepository.record openAuthority 10 none [⟨7, 10⟩]), 70⟩,
    ⟨crlName openIssuer 2, openX509.encode emptyRecord, 80⟩)

/-- A CRL that is committed past the repository need not list what was revoked. -/
theorem crl_forgets :
    ¬ ∀ inputs : List (CrlInput openRepository.x509),
      (inputs.filterMap CrlInput.clock).Pairwise (· ≤ ·) →
        NeverForgets (runFrom (crlStep openRepository) ⟨newTables, fun _ ↦ calm⟩ inputs).2 := by
  intro hnever
  have hissuer : crlPrefix openIssuer = .ok (issuerPrefix openIssuer) := by decide +kernel
  have hlists : Lists openX509 forgottenRows.1.content 7 :=
    ⟨_, openX509.decode_encode _, by decide +kernel⟩
  have hforgotten := hnever forgotten (by decide +kernel) [] _ [] _ [] rfl openIssuer 1
    forgottenRows.1 ⟨hissuer, by decide +kernel, by decide +kernel, rfl⟩ 7 hlists 2
    forgottenRows.2 ⟨hissuer, by decide +kernel, by decide +kernel, rfl⟩
  obtain ⟨record, hrecord, hmem⟩ := hforgotten
  obtain rfl : emptyRecord = record :=
    Option.some.inj ((openX509.decode_encode emptyRecord).symm.trans hrecord)
  revert hmem
  decide +kernel

end Forgotten

end Ads.SandboxEgress.Crl
