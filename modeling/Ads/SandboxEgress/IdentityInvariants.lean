import Ads.Foundation.Runs
import Ads.SandboxEgress.IdentityJournals

/-!
# Invariants of the identity store

A run of the store takes its calls in order, each with its surroundings. After every run whose clock
does not run back there is at most one root key and the stored inventory is the one of the tables. A
key moves forward through its stages; it is retired after the retention of every publication that
ever depended on it, and gains no dependent afterwards. Pruning keeps every row that is retained, and
the head of every journal that is not a part of the pruned one. What a failing call has written is
what it writes when its sync does not fail (`store_safe`).
-/

set_option autoImplicit false
set_option relaxedAutoImplicit false

namespace Ads.SandboxEgress.IdentityStore

open Dns Foundation Foundation.Runs Foundation.StateExcept Foundation.Interrupted Python

/-! ### Runs -/

/-- A call with what it found and what it left. -/
structure StoreEvent where
  call : StoreCall
  around : Surroundings
  before : IdentityTables
  after : IdentityTables
  result : Except StoreRaised Unit

/-- One call. -/
def storeStep (custody : Custody) (store : Store) (call : StoreCall) : Store × List StoreEvent :=
  let outcome := performed custody call store
  (outcome.2, [⟨call, store.surroundings 0, store.tables, outcome.2.tables, outcome.1⟩])

/-- The clock that a call shows. -/
def StoreCall.clock : StoreCall → Option ℚ
  | .prepareKey .. => none
  | .advance .. => none
  | .commitPublication .. => none
  | .prunePublications _ now => now
  | .commitCrl .. => none
  | .pruneCrls _ now => now
  | .retire _ now => now

/-- The clock of the calls does not run back. -/
def Nondecreasing (calls : List StoreCall) : Prop :=
  (calls.filterMap StoreCall.clock).Pairwise (· ≤ ·)

instance (calls : List StoreCall) : Decidable (Nondecreasing calls) :=
  inferInstanceAs (Decidable (List.Pairwise _ _))

/-- The prefix of the journal that a call prunes, and the time. -/
def StoreCall.prunes : StoreCall → Option (Text × ℚ)
  | .prepareKey .. => none
  | .advance .. => none
  | .commitPublication .. => none
  | .prunePublications start now => now.map fun clock ↦ (start, clock)
  | .commitCrl .. => none
  | .pruneCrls issuer now => now.map fun clock ↦ ("crl/".toList ++ issuer ++ ['/'], clock)
  | .retire .. => none

/-! ### What is safe -/

/-- A publication depends on a key. -/
def IdentityTables.Depends (tables : IdentityTables) (publication : PublicationRow)
    (keyName : Text) : Prop :=
  publication ∈ tables.publications ∧ ⟨publication.name, keyName⟩ ∈ tables.dependencies

/-- A key is retired. -/
def IdentityTables.Retired (tables : IdentityTables) (keyName : Text) : Prop :=
  ∃ row ∈ tables.keys, row.name = keyName ∧ row.stage = .retired

/-- What a call keeps to, given the calls before it. -/
structure InOrder (custody : Custody) (trace : List StoreEvent) (event : StoreEvent) : Prop where
  /-- Keys stay, and their stages move forward. -/
  forward : ∀ row ∈ event.before.keys, ∃ later ∈ event.after.keys, later.name = row.name ∧
    later.kind = row.kind ∧ later.publicPart = row.publicPart ∧ row.stage.rank ≤ later.stage.rank
  /-- A key is retired after the retention of all that ever depended on it. -/
  retires : ∀ keyName, event.after.Retired keyName → ¬ event.before.Retired keyName →
    ∃ clock, event.call = .retire keyName (some clock) ∧
      (∀ publication, event.before.Depends publication keyName → publication.retainUntil < clock) ∧
        ∀ earlier ∈ trace, ∀ publication, earlier.after.Depends publication keyName →
          publication.retainUntil < clock
  /-- A retired key gains no dependent. -/
  final : ∀ keyName, event.before.Retired keyName → ∀ publication,
    event.after.Depends publication keyName → event.before.Depends publication keyName
  /-- A call that fails leaves the tables as they were, or as they are when its sync succeeds. -/
  fails : ∀ failure, event.result = .error failure → event.after = event.before ∨
    (event.around.sync = some failure ∧ ∃ store,
      performed custody event.call ⟨event.before, fun _ ↦ { event.around with sync := none }⟩ =
        (.ok (), store) ∧ store.tables = event.after)
  /-- Pruning keeps what is retained. -/
  keepsRows : ∀ start clock, event.call.prunes = some (start, clock) →
    ∀ row ∈ event.before.publications, clock ≤ row.retainUntil →
      row ∈ event.after.publications ∧ ∀ keyName,
        event.before.Depends row keyName → event.after.Depends row keyName
  /-- Pruning keeps the heads of the journals that are not a part of the pruned one. -/
  keepsHeads : ∀ start clock, event.call.prunes = some (start, clock) →
    ∀ other, (start <+: other → other = start) → ∀ head,
      journalHead event.before other = some head → journalHead event.after other = some head

/-- What holds after a run. -/
structure StoreSafe (custody : Custody) (tables : IdentityTables) (trace : List StoreEvent) :
    Prop where
  root : ∀ first ∈ tables.keys, ∀ second ∈ tables.keys, first.kind = .root → second.kind = .root →
    first = second
  inventory : custody.verifyInventory tables = .ok ()
  events : Along (InOrder custody) trace

/-! ### Keys -/

section Keys

variable {custody : Custody} {call : StoreCall} {before after : IdentityTables} {keyName : Text}

/-- The next stage comes later. -/
theorem rank_lt_of_next {stage target : KeyStage} (hnext : stage.next = some target) :
    stage.rank < target.rank := by
  cases stage <;> simp [KeyStage.next] at hnext <;> subst hnext <;> decide

/-- Advancing does not retire. -/
theorem next_ne_retired {stage : KeyStage} : stage.next ≠ some .retired := by
  cases stage <;> simp [KeyStage.next]

/-- No stage comes after the last one. -/
theorem rank_le_four (stage : KeyStage) : stage.rank ≤ KeyStage.retired.rank := by
  cases stage <;> decide

/-- A key of the last rank is retired. -/
theorem eq_retired_of_rank {stage : KeyStage} (hrank : KeyStage.retired.rank ≤ stage.rank) :
    stage = .retired := by
  cases stage with
  | retired => rfl
  | prepared | published | active | retiring => simp [KeyStage.rank] at hrank

/-- A change in place that moves a key forward moves every key forward. -/
theorem forward_modify {tables : IdentityTables} {change : Change KeyRow.name} {found : KeyRow}
    (hfind : tables.keys.find keyName = some found)
    (hchange : (change.apply found).kind = found.kind ∧
      (change.apply found).publicPart = found.publicPart ∧
        found.stage.rank ≤ (change.apply found).stage.rank) :
    ∀ row ∈ tables.keys, ∃ later ∈ tables.keys.modify keyName change, later.name = row.name ∧
      later.kind = row.kind ∧ later.publicPart = row.publicPart ∧
        row.stage.rank ≤ later.stage.rank := by
  intro row hrow
  obtain ⟨hfound, hname⟩ := Table.find_eq_some_iff.mp hfind
  by_cases hkey : row.name = keyName
  · obtain rfl := Table.eq_of_key_eq hrow hfound (hkey.trans hname.symm)
    exact ⟨change.apply row, Table.mem_modify.mpr ⟨row, hrow, if_pos hkey⟩, change.key_apply row,
      hchange⟩
  · exact ⟨row, (Table.mem_modify_of_ne hkey).mpr hrow, rfl, rfl, rfl, le_rfl⟩

/-- A move moves keys forward. -/
theorem Move.forward (hmove : Move custody call before after) :
    ∀ row ∈ before.keys, ∃ later ∈ after.keys, later.name = row.name ∧ later.kind = row.kind ∧
      later.publicPart = row.publicPart ∧ row.stage.rank ≤ later.stage.rank := by
  have hsame : ∀ {keys : Table KeyRow.name}, (∀ row ∈ before.keys, row ∈ keys) →
      ∀ row ∈ before.keys, ∃ later ∈ keys, later.name = row.name ∧ later.kind = row.kind ∧
        later.publicPart = row.publicPart ∧ row.stage.rank ≤ later.stage.rank :=
    fun hkeys row hrow ↦ ⟨row, hkeys row hrow, rfl, rfl, rfl, le_rfl⟩
  cases hmove with
  | stay => exact hsame fun _ hrow ↦ hrow
  | prepareKey _ _ _ hinsert =>
    exact hsame fun row hrow ↦ ((Table.mem_insert hinsert).1 row).mpr (Or.inr hrow)
  | advance _ hnext hfind hstage =>
    exact forward_modify hfind ⟨rfl, rfl, hstage ▸ (rank_lt_of_next hnext).le⟩
  | commitPublication => exact hsame fun _ hrow ↦ hrow
  | prunePublications => exact hsame fun _ hrow ↦ hrow
  | commitCrl => exact hsame fun _ hrow ↦ hrow
  | pruneCrls => exact hsame fun _ hrow ↦ hrow
  | retire _ hfind => exact forward_modify hfind ⟨rfl, rfl, rank_le_four _⟩

/-- A retired key stays retired. -/
theorem Move.retired_of (hmove : Move custody call before after) (hretired : before.Retired keyName) :
    after.Retired keyName := by
  obtain ⟨row, hrow, rfl, hstage⟩ := hretired
  obtain ⟨later, hlater, hname, -, -, hrank⟩ := hmove.forward row hrow
  exact ⟨later, hlater, hname, eq_retired_of_rank (hstage ▸ hrank)⟩

/-- The kind of a key in its row after a change in place. -/
theorem kind_of_mem_modify {tables : IdentityTables} {change : Change KeyRow.name}
    (hchange : ∀ row, (change.apply row).kind = row.kind) {row : KeyRow}
    (hrow : row ∈ tables.keys.modify keyName change) :
    ∃ earlier ∈ tables.keys, earlier.name = row.name ∧ earlier.kind = row.kind := by
  obtain ⟨earlier, hearlier, rfl⟩ := Table.mem_modify.mp hrow
  refine ⟨earlier, hearlier, ?_⟩
  split_ifs
  · exact ⟨(change.key_apply earlier).symm, (hchange earlier).symm⟩
  · exact ⟨rfl, rfl⟩

/-- A move adds no second root. -/
theorem Move.root (hmove : Move custody call before after)
    (hroot : ∀ first ∈ before.keys, ∀ second ∈ before.keys, first.kind = .root →
      second.kind = .root → first = second) :
    ∀ first ∈ after.keys, ∀ second ∈ after.keys, first.kind = .root → second.kind = .root →
      first = second := by
  have hmodify : ∀ {change : Change KeyRow.name} {name : Text},
      (∀ row, (change.apply row).kind = row.kind) →
        ∀ first ∈ before.keys.modify name change, ∀ second ∈ before.keys.modify name change,
          first.kind = .root → second.kind = .root → first = second := by
    intro change name hchange first hfirst second hsecond hfirstKind hsecondKind
    obtain ⟨earlier, hearlier, hname, hkind⟩ := kind_of_mem_modify hchange hfirst
    obtain ⟨other, hother, hotherName, hotherKind⟩ := kind_of_mem_modify hchange hsecond
    have heq := hroot earlier hearlier other hother (hkind.trans hfirstKind)
      (hotherKind.trans hsecondKind)
    exact Table.eq_of_key_eq hfirst hsecond (by rw [← hname, heq, hotherName])
  cases hmove with
  | stay => exact hroot
  | prepareKey _ _ hfree hinsert =>
    intro first hfirst second hsecond hfirstKind hsecondKind
    rcases ((Table.mem_insert hinsert).1 first).mp hfirst with rfl | hold
    · rcases ((Table.mem_insert hinsert).1 second).mp hsecond with rfl | hother
      · rfl
      · exact absurd hsecondKind (hfree hfirstKind second hother)
    · rcases ((Table.mem_insert hinsert).1 second).mp hsecond with rfl | hother
      · exact absurd hfirstKind (hfree hsecondKind first hold)
      · exact hroot first hold second hother hfirstKind hsecondKind
  | advance => exact hmodify fun _ ↦ rfl
  | commitPublication => exact hroot
  | prunePublications => exact hroot
  | commitCrl => exact hroot
  | pruneCrls => exact hroot
  | retire => exact hmodify fun _ ↦ rfl

/-- A change in place touches one key. -/
theorem mem_of_modify {tables : IdentityTables} {change : Change KeyRow.name} {row : KeyRow}
    (hrow : row ∈ tables.keys.modify keyName change) :
    row ∈ tables.keys ∨ (row.name = keyName ∧ ∃ earlier ∈ tables.keys, earlier.name = keyName ∧
      row = change.apply earlier) := by
  obtain ⟨earlier, hearlier, heq⟩ := Table.mem_modify.mp hrow
  split_ifs at heq with hname
  · exact Or.inr ⟨by rw [← heq, change.key_apply, hname], earlier, hearlier, hname, heq.symm⟩
  · exact Or.inl (heq ▸ hearlier)

/-- Only retirement retires a key, and only after the retention of what depends on it. -/
theorem Move.retires (hmove : Move custody call before after) (hafter : after.Retired keyName)
    (hbefore : ¬ before.Retired keyName) :
    ∃ clock, call = .retire keyName (some clock) ∧ ∀ publication,
      before.Depends publication keyName → publication.retainUntil < clock := by
  obtain ⟨row, hrow, hname, hstage⟩ := hafter
  have hnew : row ∉ before.keys := fun hold ↦ hbefore ⟨row, hold, hname, hstage⟩
  cases hmove with
  | stay => exact absurd hrow hnew
  | prepareKey _ _ _ hinsert =>
    rcases ((Table.mem_insert hinsert).1 row).mp hrow with rfl | hold
    · cases hstage
    · exact absurd hold hnew
  | advance _ hnext =>
    rcases mem_of_modify hrow with hold | ⟨-, earlier, -, -, rfl⟩
    · exact absurd hold hnew
    · obtain rfl : _ = KeyStage.retired := hstage
      exact absurd hnext next_ne_retired
  | commitPublication => exact absurd hrow hnew
  | prunePublications => exact absurd hrow hnew
  | commitCrl => exact absurd hrow hnew
  | pruneCrls => exact absurd hrow hnew
  | @retire name clock _ _ _ _ _ _ hended =>
    rcases mem_of_modify hrow with hold | ⟨hkey, -⟩
    · exact absurd hold hnew
    · obtain rfl : name = keyName := hkey.symm.trans hname
      refine ⟨clock, rfl, fun publication hdepends ↦ hended publication ?_⟩
      simpa [dependents, IdentityTables.Depends] using hdepends

end Keys

/-! ### Publications -/

section Publications

variable {custody : Custody} {call : StoreCall} {before after : IdentityTables} {keyName : Text}
  {publication : PublicationRow}

/-- Every dependency is of a publication that is there. -/
def IdentityTables.Referenced (tables : IdentityTables) : Prop :=
  ∀ dependency ∈ tables.dependencies, ∃ row ∈ tables.publications,
    row.name = dependency.publication

/-- A move keeps the references. -/
theorem Move.referenced (hmove : Move custody call before after) (hreferenced : before.Referenced) :
    after.Referenced := by
  cases hmove with
  | stay => exact hreferenced
  | prepareKey => exact hreferenced
  | advance => exact hreferenced
  | commitPublication _ _ _ hinsert hrows =>
    intro dependency hdependency
    rcases (mem_insertDependencies hrows dependency).mp hdependency with hold | ⟨hname, -⟩
    · obtain ⟨row, hrow, hname⟩ := hreferenced dependency hold
      exact ⟨row, ((Table.mem_insert hinsert).1 row).mpr (Or.inr hrow), hname⟩
    · exact ⟨_, ((Table.mem_insert hinsert).1 _).mpr (Or.inl rfl), hname.symm⟩
  | prunePublications =>
    intro dependency hdependency
    obtain ⟨hold, hkept⟩ := Table.mem_filter.mp hdependency
    obtain ⟨row, hrow, hname⟩ := hreferenced dependency hold
    exact ⟨row, Table.mem_filter.mpr ⟨hrow, by rw [hname]; exact hkept⟩, hname⟩
  | commitCrl _ _ _ _ _ hinsert =>
    intro dependency hdependency
    obtain ⟨row, hrow, hname⟩ := hreferenced dependency hdependency
    exact ⟨row, ((Table.mem_insert hinsert).1 row).mpr (Or.inr hrow), hname⟩
  | pruneCrls _ _ _ hfree =>
    intro dependency hdependency
    obtain ⟨row, hrow, hname⟩ := hreferenced dependency hdependency
    refine ⟨row, Table.mem_filter.mpr ⟨hrow, ?_⟩, hname⟩
    simpa [hname] using hfree dependency hdependency
  | retire => exact hreferenced

/-- A row that is new has no dependency yet. -/
theorem not_depends_of_insert {publications : Table PublicationRow.name}
    (hreferenced : before.Referenced)
    (hinsert : before.publications.insert publication = some publications) :
    ⟨publication.name, keyName⟩ ∉ before.dependencies := by
  intro hdependency
  obtain ⟨row, hrow, hname⟩ := hreferenced _ hdependency
  exact (Table.mem_insert hinsert).2 row hrow hname

/-- What depends on a key after a move did so before, or the key was not retired then. -/
theorem Move.depends (hmove : Move custody call before after) (hreferenced : before.Referenced)
    (hdepends : after.Depends publication keyName) :
    before.Depends publication keyName ∨ ¬ before.Retired keyName := by
  cases hmove with
  | stay => exact Or.inl hdepends
  | prepareKey => exact Or.inl hdepends
  | advance => exact Or.inl hdepends
  | commitPublication _ _ hkeys hinsert hrows =>
    obtain ⟨hpublication, hdependency⟩ := hdepends
    rcases (mem_insertDependencies hrows _).mp hdependency with hold | ⟨-, hkey⟩
    · rcases ((Table.mem_insert hinsert).1 _).mp hpublication with rfl | hrow
      · exact absurd hold (not_depends_of_insert hreferenced hinsert)
      · exact Or.inl ⟨hrow, hold⟩
    · right
      rintro ⟨row, hrow, hname, hstage⟩
      obtain ⟨found, hfind, hfound⟩ := hkeys keyName hkey
      obtain ⟨hmem, hfoundName⟩ := Table.find_eq_some_iff.mp hfind
      obtain rfl := Table.eq_of_key_eq hrow hmem (hname.trans hfoundName.symm)
      simp [hstage] at hfound
  | prunePublications =>
    exact Or.inl ⟨(Table.mem_filter.mp hdepends.1).1, (Table.mem_filter.mp hdepends.2).1⟩
  | commitCrl _ _ _ _ _ hinsert =>
    obtain ⟨hpublication, hdependency⟩ := hdepends
    rcases ((Table.mem_insert hinsert).1 _).mp hpublication with rfl | hrow
    · exact absurd hdependency (@not_depends_of_insert before keyName _ _ hreferenced hinsert)
    · exact Or.inl ⟨hrow, hdependency⟩
  | pruneCrls => exact Or.inl ⟨(Table.mem_filter.mp hdepends.1).1, hdepends.2⟩
  | retire => exact Or.inl hdepends

/-- A publication stays with its dependencies until it is pruned after its retention. -/
theorem Move.keeps (hmove : Move custody call before after)
    (hpublication : publication ∈ before.publications) :
    (publication ∈ after.publications ∧
        ∀ keyName, before.Depends publication keyName → after.Depends publication keyName) ∨
      ∃ start clock, call.prunes = some (start, clock) ∧ call.clock = some clock ∧
        publication.retainUntil < clock := by
  have hpruned : ∀ {start head : Text} {clock : ℚ},
      publication.name ∈ prunedNames before start head clock → publication.retainUntil < clock := by
    intro start head clock hname
    have hrow := (mem_prunedNames hpublication).mp hname
    simp only [isPruned, decide_eq_true_eq] at hrow
    exact hrow.2.2
  cases hmove with
  | stay => exact Or.inl ⟨hpublication, fun _ h ↦ h⟩
  | prepareKey => exact Or.inl ⟨hpublication, fun _ h ↦ h⟩
  | advance => exact Or.inl ⟨hpublication, fun _ h ↦ h⟩
  | commitPublication _ _ _ hinsert hrows =>
    have hkept := ((Table.mem_insert hinsert).1 publication).mpr (Or.inr hpublication)
    exact Or.inl ⟨hkept, fun keyName hdepends ↦
      ⟨hkept, (mem_insertDependencies hrows _).mpr (Or.inl hdepends.2)⟩⟩
  | @prunePublications start clock _ head =>
    by_cases hname : publication.name ∈ prunedNames before start head.name clock
    · exact Or.inr ⟨start, clock, rfl, rfl, hpruned hname⟩
    · have hkept : publication ∈ (pruned before start head.name clock).publications :=
        Table.mem_filter.mpr ⟨hpublication, by simpa using hname⟩
      exact Or.inl ⟨hkept, fun keyName hdepends ↦
        ⟨hkept, Table.mem_filter.mpr ⟨hdepends.2, by simpa using hname⟩⟩⟩
  | commitCrl _ _ _ _ _ hinsert =>
    have hkept := ((Table.mem_insert hinsert).1 publication).mpr (Or.inr hpublication)
    exact Or.inl ⟨hkept, fun keyName hdepends ↦ ⟨hkept, hdepends.2⟩⟩
  | @pruneCrls _ start clock _ number =>
    by_cases hname : publication.name ∈
        prunedNames before start (start ++ zeroPadded 20 number) clock
    · exact Or.inr ⟨_, clock, rfl, rfl, hpruned hname⟩
    · have hkept : publication ∈
          (crlsPruned before start (start ++ zeroPadded 20 number) clock).publications :=
        Table.mem_filter.mpr ⟨hpublication, by simpa using hname⟩
      exact Or.inl ⟨hkept, fun keyName hdepends ↦ ⟨hkept, hdepends.2⟩⟩
  | retire => exact Or.inl ⟨hpublication, fun _ h ↦ h⟩

/-- The prefix of the CRLs of an issuer is a name. -/
theorem checkName_crlPrefix {issuer start : Text} (hstart : crlPrefix issuer = .ok start) :
    checkName start = .ok () := by
  obtain ⟨hlength, hhex, rfl⟩ := crlPrefix_eq_ok.mp hstart
  rw [checkName_eq_ok]
  refine ⟨by simp, by simp [hlength], ?_⟩
  simp only [List.all_append, Bool.and_eq_true]
  refine ⟨⟨by decide, ?_⟩, by decide⟩
  rw [List.all_eq_true] at hhex ⊢
  intro char hchar
  have hdigit := hhex char hchar
  simp only [isHexChar, Bool.or_eq_true, Bool.and_eq_true, decide_eq_true_eq] at hdigit
  simp only [isNameChar, Bool.or_eq_true, Bool.and_eq_true, decide_eq_true_eq]
  rcases hdigit with hdigit | ⟨hlow, hhigh⟩
  · exact Or.inl (Or.inl (Or.inl (Or.inl (Or.inl (Or.inr hdigit)))))
  · exact Or.inl (Or.inl (Or.inl (Or.inl (Or.inl (Or.inl (Or.inl ⟨hlow, by omega⟩))))))

/-- The head of the CRLs of an issuer, and its name. -/
theorem journalHead_of_crlHead {tables : IdentityTables} {issuer start : Text} {number : ℕ}
    {row : PublicationRow} (hstart : crlPrefix issuer = .ok start)
    (hcurrent : crlHead custody tables issuer = .ok (some (number, row))) :
    journalHead tables start = some row ∧ row.name = start ++ zeroPadded 20 number := by
  obtain ⟨other, hother, -, ⟨-, hnone⟩ | ⟨found, hhead, hlength, hdigits, -, -, hfound⟩⟩ :=
    crlHead_eq_ok.mp hcurrent
  · cases hnone
  · obtain rfl : start = other := Except.ok.inj (hstart.symm.trans hother)
    obtain ⟨rfl, rfl⟩ : number = _ ∧ row = found := by simpa using hfound
    refine ⟨hhead, ?_⟩
    rw [zeroPadded_decimalValue (by decide) hdigits hlength]
    obtain ⟨-, hjournal, -⟩ := journalHead_eq_some_iff.mp hhead
    obtain ⟨rest, hrest⟩ := isPrefix_of_inJournal hjournal
    rw [← hrest, List.drop_left]

/-- A move that prunes keeps the heads of the journals that are not a part of the pruned one. -/
theorem Move.keepsHeads {start other : Text} {clock : ℚ} {head : PublicationRow}
    (hmove : Move custody call before after) (hprunes : call.prunes = some (start, clock))
    (hother : start <+: other → other = start) (hhead : journalHead before other = some head) :
    journalHead after other = some head := by
  cases hmove with
  | stay => exact hhead
  | prepareKey => cases hprunes
  | advance => cases hprunes
  | commitPublication => cases hprunes
  | prunePublications _ _ hname _ hpruned =>
    obtain ⟨rfl, rfl⟩ : _ = start ∧ _ = clock := by simpa [StoreCall.prunes] using hprunes
    exact journalHead_pruned hname hpruned hother hhead
  | commitCrl => cases hprunes
  | pruneCrls _ hstart hcurrent =>
    obtain ⟨rfl, rfl⟩ : _ = start ∧ _ = clock := by simpa [StoreCall.prunes] using hprunes
    obtain ⟨hpruned, hname⟩ := journalHead_of_crlHead hstart hcurrent
    obtain ⟨-, -, rfl⟩ := crlPrefix_eq_ok.mp hstart
    rw [journalHead_congr (Custody.signed_publications.trans crlsPruned_publications), ← hname]
    exact journalHead_pruned (checkName_crlPrefix hstart) hpruned hother hhead
  | retire => cases hprunes

end Publications

/-! ### The invariant -/

/-- What holds of the tables after some calls and their events. -/
structure Kept (custody : Custody) (calls : List StoreCall) (tables : IdentityTables)
    (trace : List StoreEvent) : Prop where
  root : ∀ first ∈ tables.keys, ∀ second ∈ tables.keys, first.kind = .root → second.kind = .root →
    first = second
  sealed : custody.Sealed tables
  referenced : tables.Referenced
  /-- What depended on a key still does, or its retention has ended. -/
  past : ∀ earlier ∈ trace, ∀ publication keyName, earlier.after.Depends publication keyName →
    tables.Depends publication keyName ∨
      ∃ clock ∈ calls.filterMap StoreCall.clock, publication.retainUntil < clock
  events : Along (InOrder custody) trace

variable {custody : Custody} {calls : List StoreCall} {call : StoreCall} {store : Store}
  {trace : List StoreEvent}

/-- The clock of a call is not before those of the calls before it. -/
theorem le_clock (hclock : Nondecreasing (calls ++ [call])) {now earlier : ℚ}
    (hcall : call.clock = some now) (hearlier : earlier ∈ calls.filterMap StoreCall.clock) :
    earlier ≤ now := by
  unfold Nondecreasing at hclock
  rw [List.filterMap_append, List.pairwise_append] at hclock
  exact hclock.2.2 earlier hearlier now (by simp [hcall])

/-- A call is in order. -/
theorem inOrder_of_kept (hkept : Kept custody calls store.tables trace)
    (hclock : Nondecreasing (calls ++ [call])) :
    ∀ event ∈ (storeStep custody store call).2, InOrder custody trace event := by
  intro event hevent
  obtain rfl := List.mem_singleton.mp hevent
  have houtcome := outcome_performed custody call store
  have hmove : Move custody call store.tables (performed custody call store).2.tables := by
    rcases houtcome.moves with hsame | ⟨hmove, -⟩
    · rw [hsame]
      exact .stay call store.tables
    · exact hmove
  constructor
  case forward => exact hmove.forward
  case retires =>
    intro keyName hafter hbefore
    obtain ⟨clock, hcall, hended⟩ := hmove.retires hafter hbefore
    refine ⟨clock, hcall, hended, fun earlier hearlier publication hdepends ↦ ?_⟩
    rcases hkept.past earlier hearlier publication keyName hdepends with hnow | ⟨past, hpast, hlt⟩
    · exact hended publication hnow
    · exact lt_of_lt_of_le hlt (le_clock hclock (congrArg StoreCall.clock hcall) hpast)
  case final =>
    intro keyName hretired publication hdepends
    rcases hmove.depends hkept.referenced hdepends with hbefore | hnot
    · exact hbefore
    · exact absurd hretired hnot
  case fails =>
    intro failure hfailure
    rcases houtcome.fails failure hfailure with hsame | ⟨hsync, value, hrun⟩
    · exact Or.inl hsame
    · exact Or.inr ⟨hsync, _, hrun, rfl⟩
  case keepsRows =>
    intro start clock hprunes row hrow hretained
    rcases hmove.keeps hrow with hstays | ⟨other, now, hother, -, hended⟩
    · exact hstays
    · obtain ⟨rfl, rfl⟩ : start = other ∧ clock = now := by simpa [hprunes] using hother
      exact absurd hretained (not_le.mpr hended)
  case keepsHeads =>
    intro start clock hprunes other hother head hhead
    exact hmove.keepsHeads hprunes hother hhead

/-- The invariant is kept by a call. -/
theorem Kept.step (hkept : Kept custody calls store.tables trace)
    (hclock : Nondecreasing (calls ++ [call])) :
    Kept custody (calls ++ [call]) (storeStep custody store call).1.tables
      (trace ++ (storeStep custody store call).2) := by
  have houtcome := outcome_performed custody call store
  have hmove : Move custody call store.tables (performed custody call store).2.tables := by
    rcases houtcome.moves with hsame | ⟨hmove, -⟩
    · rw [hsame]
      exact .stay call store.tables
    · exact hmove
  constructor
  case root => exact hmove.root hkept.root
  case sealed =>
    rcases houtcome.moves with hsame | ⟨-, hsealed⟩
    · change custody.Sealed (performed custody call store).2.tables
      rw [hsame]
      exact hkept.sealed
    · exact hsealed
  case referenced => exact hmove.referenced hkept.referenced
  case past =>
    intro earlier hearlier publication keyName hdepends
    have hnow : (store.tables.Depends publication keyName ∨
        ∃ clock ∈ calls.filterMap StoreCall.clock, publication.retainUntil < clock) ∨
          (performed custody call store).2.tables.Depends publication keyName := by
      rcases List.mem_append.mp hearlier with hold | hnew
      · exact Or.inl (hkept.past earlier hold publication keyName hdepends)
      · obtain rfl := List.mem_singleton.mp hnew
        exact Or.inr hdepends
    rw [List.filterMap_append]
    rcases hnow with (hbefore | ⟨clock, hmem, hlt⟩) | hafter
    · rcases hmove.keeps hbefore.1 with ⟨-, hstays⟩ | ⟨-, clock, -, hshown, hlt⟩
      · exact Or.inl (hstays keyName hbefore)
      · exact Or.inr ⟨clock, List.mem_append_right _ (by simp [hshown]), hlt⟩
    · exact Or.inr ⟨clock, List.mem_append_left _ hmem, hlt⟩
    · exact Or.inl hafter
  case events => exact hkept.events.snoc (inOrder_of_kept hkept hclock _ (List.mem_singleton_self _))

/-- A new store. -/
theorem kept_created {tables : IdentityTables} {nonce : Nonce}
    (hcreated : created custody nonce = .ok tables) : Kept custody [] tables [] := by
  simp only [created, except_bind_eq_ok, Custody.inventory_eq_ok, except_pure_eq_ok] at hcreated
  obtain ⟨_, ⟨hfits, rfl⟩, rfl⟩ := hcreated
  constructor
  case root => exact fun first hfirst ↦ absurd hfirst Table.not_mem_empty
  case sealed => exact Custody.sealed_signed hfits
  case referenced => exact fun dependency hdependency ↦ absurd hdependency Table.not_mem_empty
  case past => exact fun earlier hearlier ↦ absurd hearlier List.not_mem_nil
  case events => exact Along.nil

/-- **The identity store is safe.** In every run of a new store whose clock does not run back. -/
theorem store_safe (custody : Custody) (nonce : Nonce) (tables : IdentityTables)
    (hcreated : created custody nonce = .ok tables) (surroundings : ℕ → Surroundings)
    (calls : List StoreCall) (hclock : Nondecreasing calls) :
    StoreSafe custody (runFrom (storeStep custody) ⟨tables, surroundings⟩ calls).1.tables
      (runFrom (storeStep custody) ⟨tables, surroundings⟩ calls).2 := by
  have hkept : Nondecreasing calls → Kept custody calls
      (runFrom (storeStep custody) ⟨tables, surroundings⟩ calls).1.tables
      (runFrom (storeStep custody) ⟨tables, surroundings⟩ calls).2 := by
    refine run_induction (fun calls (store : Store) trace ↦
      Nondecreasing calls → Kept custody calls store.tables trace) ?_ ?_ calls
    · exact fun _ ↦ kept_created hcreated
    · intro calls call store trace hkept hclock
      refine (hkept ?_).step hclock
      unfold Nondecreasing at hclock ⊢
      rw [List.filterMap_append] at hclock
      exact (List.pairwise_append.mp hclock).1
  exact ⟨(hkept hclock).root, Custody.verifyInventory_eq_ok.mpr (hkept hclock).sealed,
    (hkept hclock).events⟩


/-! ### Counterexamples -/

/-- A call that fails leaves the tables as they were. -/
def StoreEvent.FailsClean (event : StoreEvent) : Prop :=
  ∀ failure, event.result = .error failure → event.after = event.before

/-- Pruning keeps the head of every journal. -/
def StoreEvent.KeepsHeads (event : StoreEvent) : Prop :=
  ∀ start clock, event.call.prunes = some (start, clock) → ∀ other, checkName other = .ok () →
    other.getLast? = some '/' → ∀ head, journalHead event.before other = some head →
      journalHead event.after other = some head

/-- A custody whose cipher and digest hide nothing. -/
def openCustody : Custody where
  encrypt _ value _ := value
  decrypt _ value _ := some value
  binding := []
  sha256 value := value
  hex _ := []
  capacity := 65536
  decrypt_encrypt _ _ _ := rfl
  capacity_le := le_rfl

/-- Twelve zeros. -/
def zeroNonce : Nonce :=
  ⟨List.replicate 12 0, rfl⟩

/-- Surroundings in which nothing fails. -/
def calm : Surroundings :=
  ⟨none, none, 0, zeroNonce, zeroNonce⟩

/-- The tables of a new store. -/
def newTables : IdentityTables :=
  ⟨.empty, .empty, .empty, openCustody.sealed zeroNonce Custody.inventoryLabel
    (openCustody.digest ⟨.empty, .empty, .empty, []⟩)⟩

/-- Two journals of which one is a part of the other. -/
def nestedJournals : List StoreCall :=
  [.prepareKey "k".toList .tls [1] [2], .advance "k".toList .prepared .published,
    .commitPublication "a/b/1".toList [1] ["k".toList] (some 5),
    .commitPublication "a/c/1".toList [1] ["k".toList] (some 5),
    .prunePublications "a/".toList (some 10)]

theorem created_new : created openCustody zeroNonce = .ok newTables :=
  rfl

/-- The guarantees hold of the run with two journals. -/
theorem store_safe_nested :
    StoreSafe openCustody
      (runFrom (storeStep openCustody) ⟨newTables, fun _ ↦ calm⟩ nestedJournals).1.tables
      (runFrom (storeStep openCustody) ⟨newTables, fun _ ↦ calm⟩ nestedJournals).2 :=
  store_safe openCustody zeroNonce newTables created_new (fun _ ↦ calm) nestedJournals
    (by decide +kernel)

/-- A call whose sync fails has written, and pruning an outer journal deletes the head of an inner
one. -/
theorem store_disturbed :
    (¬ ∀ surroundings calls, Nondecreasing calls →
      ∀ event ∈ (runFrom (storeStep openCustody) ⟨newTables, surroundings⟩ calls).2,
        event.FailsClean) ∧
    ¬ ∀ surroundings calls, Nondecreasing calls →
      ∀ event ∈ (runFrom (storeStep openCustody) ⟨newTables, surroundings⟩ calls).2,
        event.KeepsHeads := by
  constructor
  · intro hclean
    have hsame := hclean (fun _ ↦ { calm with sync := some (.system "OSError") })
      [.prepareKey "k".toList .tls [1] [2]] (by decide +kernel) _ (List.mem_singleton_self _)
      (.system "OSError") (by decide +kernel)
    have hrows := congrArg (fun tables ↦ tables.keys.rows.length) hsame
    revert hrows
    decide +kernel
  · intro hkeeps
    have hlast : (storeStep openCustody (runFrom (storeStep openCustody)
        ⟨newTables, fun _ ↦ calm⟩ (nestedJournals.take 4)).1
          (.prunePublications "a/".toList (some 10))).2 ⊆
        (runFrom (storeStep openCustody) ⟨newTables, fun _ ↦ calm⟩ nestedJournals).2 := by
      rw [show nestedJournals = nestedJournals.take 4 ++
        [.prunePublications "a/".toList (some 10)] from rfl, runFrom_snoc]
      exact List.subset_append_right _ _
    have hhead := hkeeps (fun _ ↦ calm) nestedJournals (by decide +kernel) _
      (hlast (List.mem_singleton_self _)) "a/".toList 10 rfl "a/b/".toList rfl rfl
      ⟨"a/b/1".toList, [1], 5⟩ (by decide +kernel)
    revert hhead
    decide +kernel

end Ads.SandboxEgress.IdentityStore
