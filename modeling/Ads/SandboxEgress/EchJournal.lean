import Ads.SandboxEgress.EchLifecycle
import Ads.SandboxEgress.IdentityInvariants

/-!
# The journal of the ECH lifecycle

What the store holds for the lifecycle: the newest publication of its journal, the keys that it
lists, and that every publication whose retention has not ended depends on none but these. A call of
the store that does not publish in the journal, retires none of the keys and adds no dependency on
another one keeps this (`Journal.move`).
-/

set_option autoImplicit false
set_option relaxedAutoImplicit false

namespace Ads.SandboxEgress.Ech

open Dns Foundation Foundation.StateExcept Foundation.Interrupted IdentityStore Python

variable {lifecycle : EchLifecycle} {tables before after : IdentityTables}
  {name keyName : Text} {key other : EchKey} {keys others : List EchKey} {names : List Text}
  {wall : ℚ} {call : StoreCall} {head : EchHead} {row : PublicationRow}

/-! ### Keys -/

/-- A key in this stage serves. -/
def IsServed (stage : KeyStage) : Prop :=
  stage = .published ∨ stage = .active ∨ stage = .retiring

/-- A key is there under a name, and serves. -/
def Serves (lifecycle : EchLifecycle) (tables : IdentityTables) (name : Text) (key : EchKey) :
    Prop :=
  ∃ row, tables.keys.find name = some row ∧ row.kind = .ech ∧ IsServed row.stage ∧
    lifecycle.custody.opened (lifecycle.custody.keyLabel name row.kind row.publicPart)
      row.sealedPart = .ok key.privatePem ∧
    lifecycle.library.fromPem key.privatePem = some key.configuration ∧
    row.publicPart = key.configuration

/-- The keys that are recovered are those that serve. -/
theorem recoverKey_eq_ok : lifecycle.recoverKey tables name = .ok key ↔
    lifecycle.custody.Sealed tables ∧ Serves lifecycle tables name key := by
  obtain ⟨configuration, privatePem⟩ := key
  simp only [EchLifecycle.recoverKey, except_bind_eq_ok, failIf_eq_ok, Serves, IsServed]
  constructor
  · rintro ⟨found, hfound, -, hstage, hrest⟩
    obtain ⟨hsealed, row, hfind, -, opened, hopened, rfl⟩ := key_eq_ok.mp hfound
    split at hrest
    · exact absurd hrest except_throw_ne_ok
    · next configuration hpem =>
      simp only [except_bind_eq_ok, failIf_eq_ok, except_pure_eq_ok, not_not] at hrest
      obtain ⟨-, rfl, hkey⟩ := hrest
      obtain ⟨rfl, rfl⟩ : row.publicPart = _ ∧ opened = _ := by simpa using hkey
      refine ⟨hsealed, row, hfind, ?_, ?_, hopened, hpem, rfl⟩
      · tauto
      · tauto
  · rintro ⟨hsealed, row, hfind, hkind, hstage, hopened, hpem, hpublic⟩
    refine ⟨_, key_eq_ok.mpr ⟨hsealed, row, hfind, ?_, _, hopened, rfl⟩, (), ?_, ?_⟩
    · rcases hstage with h | h | h <;> simp [h]
    · simp only [hkind]
      tauto
    · simp [hpem, hpublic, except_bind_eq_ok, -bind_pure_comp]

/-- A name has one key. -/
theorem Serves.unique (hfirst : Serves lifecycle tables name key)
    (hsecond : Serves lifecycle tables name other) : key = other := by
  obtain ⟨row, hfind, -, -, hopened, -, hpublic⟩ := hfirst
  obtain ⟨again, hagain, -, -, hreopened, -, hrepublic⟩ := hsecond
  obtain rfl : row = again := Option.some.inj (hfind.symm.trans hagain)
  obtain ⟨configuration, privatePem⟩ := key
  obtain ⟨configuration', privatePem'⟩ := other
  obtain rfl : privatePem = privatePem' := Except.ok.inj (hopened.symm.trans hreopened)
  obtain rfl : configuration = configuration' := hpublic.symm.trans hrepublic
  rfl

/-- Names have one list of keys. -/
theorem serves_unique (hfirst : List.Forall₂ (Serves lifecycle tables) names keys)
    (hsecond : List.Forall₂ (Serves lifecycle tables) names others) : keys = others := by
  induction hfirst generalizing others with
  | nil => exact (List.forall₂_nil_left_iff.mp hsecond).symm
  | cons hkey _ ih =>
    obtain ⟨other, rest, hother, hrest, rfl⟩ := List.forall₂_cons_left_iff.mp hsecond
    rw [hkey.unique hother, ih hrest]

/-- The keys of some of the names are some of the keys. -/
theorem serves_sublist {kept : List Text} (hkept : kept.Sublist names)
    (hfirst : List.Forall₂ (Serves lifecycle tables) names keys)
    (hsecond : List.Forall₂ (Serves lifecycle tables) kept others) : others.Sublist keys := by
  induction hkept generalizing keys others with
  | slnil =>
    obtain rfl := List.forall₂_nil_left_iff.mp hsecond
    exact List.nil_sublist _
  | cons _ _ ih =>
    obtain ⟨key, rest, -, hrest, rfl⟩ := List.forall₂_cons_left_iff.mp hfirst
    exact (ih hrest hsecond).cons _
  | cons_cons _ _ ih =>
    obtain ⟨key, rest, hkey, hrest, rfl⟩ := List.forall₂_cons_left_iff.mp hfirst
    obtain ⟨other, more, hother, hmore, rfl⟩ := List.forall₂_cons_left_iff.mp hsecond
    rw [hkey.unique hother]
    exact (ih hrest hmore).cons_cons _

/-- Recovering names recovers the keys that serve under them. -/
theorem recoverKeys_eq_ok : lifecycle.recoverKeys names tables = .ok keys ↔
    List.Forall₂ (fun name key ↦ lifecycle.custody.Sealed tables ∧
      Serves lifecycle tables name key) names keys := by
  rw [EchLifecycle.recoverKeys, except_mapM_eq_ok]
  constructor
  · exact fun hkeys ↦ hkeys.imp fun _ _ h ↦ recoverKey_eq_ok.mp h
  · exact fun hkeys ↦ hkeys.imp fun _ _ h ↦ recoverKey_eq_ok.mpr h

theorem serves_of_recoverKeys (hkeys : lifecycle.recoverKeys names tables = .ok keys) :
    List.Forall₂ (Serves lifecycle tables) names keys :=
  (recoverKeys_eq_ok.mp hkeys).imp fun _ _ h ↦ h.2

theorem recoverKeys_of_serves (hsealed : lifecycle.custody.Sealed tables)
    (hkeys : List.Forall₂ (Serves lifecycle tables) names keys) :
    lifecycle.recoverKeys names tables = .ok keys :=
  recoverKeys_eq_ok.mpr (hkeys.imp fun _ _ h ↦ ⟨hsealed, h⟩)

/-- A key that serves still does at the next stage. -/
theorem isServed_next {stage target : KeyStage} (hserved : IsServed stage)
    (hnext : stage.next = some target) : IsServed target := by
  rcases hserved with rfl | rfl | rfl
  · obtain rfl : KeyStage.active = target := Option.some.inj hnext
    exact Or.inr (Or.inl rfl)
  · obtain rfl : KeyStage.retiring = target := Option.some.inj hnext
    exact Or.inr (Or.inr rfl)
  · cases hnext

/-- A call that does not retire a key leaves it serving. -/
theorem Serves.move (hmove : Move lifecycle.custody call before after)
    (hkept : ∀ clock, call ≠ .retire name clock) (hserves : Serves lifecycle before name key) :
    Serves lifecycle after name key := by
  obtain ⟨row, hfind, hkind, hserved, hopened, hpem, hpublic⟩ := hserves
  have hrow := (Table.find_eq_some_iff.mp hfind).2
  cases hmove with
  | stay => exact ⟨row, hfind, hkind, hserved, hopened, hpem, hpublic⟩
  | @prepareKey added _ _ _ _ _ _ _ _ hinsert =>
    refine ⟨row, ?_, hkind, hserved, hopened, hpem, hpublic⟩
    rw [Custody.signed_keys, Table.find_insert hinsert, if_neg ?_, hfind]
    rintro rfl
    exact (Table.mem_insert hinsert).2 row (Table.find_eq_some_iff.mp hfind).1 hrow
  | @advance moving expected target _ found _ hnext hfound hstage =>
    by_cases hname : name = moving
    · subst hname
      obtain rfl : row = found := Option.some.inj (hfind.symm.trans hfound)
      refine ⟨{ row with stage := target }, ?_, hkind, isServed_next hserved (hstage ▸ hnext),
        hopened, hpem, hpublic⟩
      rw [Custody.signed_keys, moved, Table.find_modify, hfind, Option.map_some, if_pos hrow]
      rfl
    · refine ⟨row, ?_, hkind, hserved, hopened, hpem, hpublic⟩
      rw [Custody.signed_keys, moved, Table.find_modify, hfind, Option.map_some,
        if_neg fun h ↦ hname (hrow.symm.trans h)]
  | @retire leaving clock _ _ _ hfound =>
    have hname : name ≠ leaving := by
      rintro rfl
      exact hkept _ rfl
    refine ⟨row, ?_, hkind, hserved, hopened, hpem, hpublic⟩
    rw [Custody.signed_keys, IdentityStore.retired, Table.find_modify, hfind, Option.map_some,
      if_neg fun h ↦ hname (hrow.symm.trans h)]
  | commitPublication => exact ⟨row, hfind, hkind, hserved, hopened, hpem, hpublic⟩
  | prunePublications => exact ⟨row, hfind, hkind, hserved, hopened, hpem, hpublic⟩
  | commitCrl => exact ⟨row, hfind, hkind, hserved, hopened, hpem, hpublic⟩
  | pruneCrls => exact ⟨row, hfind, hkind, hserved, hopened, hpem, hpublic⟩

/-! ### Names -/

/-- The publications are in the journal. -/
theorem inJournal_echName {generation : ℕ} : InJournal echPrefix (echName generation) := by
  refine inJournal_append fun char hchar ↦ lt_tilde ?_
  have hmem : char ∈ zeroPadded 20 generation := List.mem_of_mem_head? hchar
  have hdigit := List.all_eq_true.mp (@isDigit_zeroPadded 20 generation) char hmem
  simp [isNameChar, hdigit]

/-- The names of the publications are in the order of their generations. -/
theorem echName_lt {generation later : ℕ} (hlater : later < 2 ^ 63)
    (hgeneration : generation < later) : echName generation < echName later := by
  have hbound : later < 10 ^ 20 := lt_trans hlater (by norm_num)
  refine List.append_left_lt (lt_of_decimalValue_lt isDigit_zeroPadded isDigit_zeroPadded ?_ ?_)
  · rw [length_zeroPadded (by decide) hbound, length_zeroPadded (by decide) (by omega)]
  · simpa using hgeneration

/-- A prefix of the prefix that ends with a slash is the prefix. -/
theorem eq_echPrefix {start : Text} (hslash : start.getLast? = some '/')
    (hstart : start <+: echPrefix) : start = echPrefix := by
  have hall : ∀ start ∈ echPrefix.inits, start.getLast? = some '/' → start = echPrefix := by
    decide
  exact hall start ((List.mem_inits _ _).mpr hstart) hslash

/-- The prefix of the CRLs of an issuer is not a part of the journal, nor of its names. -/
theorem not_isPrefix_crl {issuer : Text} :
    ¬ "crl/".toList ++ issuer ++ ['/'] <+: echPrefix ∧
      ∀ rest, ¬ echPrefix <+: "crl/".toList ++ issuer ++ ['/'] ++ rest := by
  have hcrl : "crl/".toList = 'c' :: "rl/".toList := rfl
  have hech : echPrefix = 'e' :: "ch-head/".toList := rfl
  rw [hcrl, hech]
  constructor
  · rintro ⟨rest, hrest⟩
    simp at hrest
  · rintro rest ⟨more, hmore⟩
    simp at hmore

/-! ### The head of a journal -/

/-- A row outside a journal does not change its head. -/
theorem journalHead_insert {start : Text} {publications : Table PublicationRow.name}
    (hinsert : before.publications.insert row = some publications)
    (hafter : after.publications = publications) (hname : ¬ start <+: row.name) :
    journalHead after start = journalHead before start := by
  have hmem := (Table.mem_insert hinsert).1
  cases hhead : journalHead before start with
  | none =>
    rw [journalHead_eq_none_iff] at hhead ⊢
    intro other hother hjournal
    rw [hafter] at hother
    rcases (hmem other).mp hother with rfl | hold
    · exact hname (isPrefix_of_inJournal hjournal)
    · exact hhead other hold hjournal
  | some head =>
    refine journalHead_of_subset hhead ?_ fun other hother hjournal ↦ ?_
    · rw [hafter]
      exact (hmem head).mpr (Or.inr (journalHead_eq_some_iff.mp hhead).1)
    · rw [hafter] at hother
      rcases (hmem other).mp hother with rfl | hold
      · exact absurd (isPrefix_of_inJournal hjournal) hname
      · exact hold

/-- A move that prunes and keeps the head of a journal that has one changes no head. -/
theorem journalHead_of_prunes {start : Text}
    (hsubset : ∀ row ∈ after.publications, row ∈ before.publications)
    (hkeeps : ∀ head, journalHead before start = some head → journalHead after start = some head) :
    journalHead after start = journalHead before start := by
  cases hhead : journalHead before start with
  | none =>
    rw [journalHead_eq_none_iff] at hhead ⊢
    exact fun row hrow ↦ hhead row (hsubset row hrow)
  | some head => exact hkeeps head hhead

/-- A call that does not publish in the journal keeps its head. -/
theorem journalHead_move (hmove : Move lifecycle.custody call before after)
    (houtside : ∀ name content keyNames retainUntil,
      call = .commitPublication name content keyNames retainUntil → ¬ echPrefix <+: name) :
    journalHead after echPrefix = journalHead before echPrefix := by
  have hkeeps : ∀ start clock, call.prunes = some (start, clock) →
      (start <+: echPrefix → echPrefix = start) → ∀ head,
        journalHead before echPrefix = some head → journalHead after echPrefix = some head :=
    fun _ _ hprunes hother _ hhead ↦ hmove.keepsHeads hprunes hother hhead
  cases hmove with
  | stay => rfl
  | prepareKey => exact journalHead_congr rfl
  | advance => exact journalHead_congr rfl
  | retire => exact journalHead_congr rfl
  | commitPublication _ _ _ hinsert =>
    exact journalHead_insert hinsert rfl (houtside _ _ _ _ rfl)
  | prunePublications _ _ _ hslash _ =>
    exact journalHead_of_prunes (fun row hrow ↦ (mem_pruned.mp hrow).1)
      (hkeeps _ _ rfl fun hstart ↦ (eq_echPrefix hslash hstart).symm)
  | commitCrl _ hstart _ _ _ hinsert =>
    obtain ⟨-, -, rfl⟩ := crlPrefix_eq_ok.mp hstart
    exact journalHead_insert hinsert rfl (not_isPrefix_crl.2 _)
  | pruneCrls =>
    exact journalHead_of_prunes (fun row hrow ↦ (Table.mem_filter.mp hrow).1)
      (hkeeps _ _ rfl fun hprefix ↦ absurd hprefix not_isPrefix_crl.1)

/-- What depends on a key after a move did so before, or is what the move publishes. -/
theorem depends_of_move (hmove : Move lifecycle.custody call before after)
    (hreferenced : before.Referenced) (hdepends : after.Depends row keyName) :
    before.Depends row keyName ∨ ∃ content keyNames retainUntil,
      call = .commitPublication row.name content keyNames retainUntil ∧ keyName ∈ keyNames := by
  cases hmove with
  | stay => exact Or.inl hdepends
  | prepareKey => exact Or.inl hdepends
  | advance => exact Or.inl hdepends
  | commitPublication _ _ _ hinsert hrows =>
    obtain ⟨hpublication, hdependency⟩ := hdepends
    rcases (mem_insertDependencies hrows _).mp hdependency with hold | ⟨hname, hkey⟩
    · rcases ((Table.mem_insert hinsert).1 _).mp hpublication with rfl | hrow
      · exact absurd hold (not_depends_of_insert hreferenced hinsert)
      · exact Or.inl ⟨hrow, hold⟩
    · exact Or.inr ⟨_, _, _, by rw [← hname], hkey⟩
  | prunePublications =>
    exact Or.inl ⟨(Table.mem_filter.mp hdepends.1).1, (Table.mem_filter.mp hdepends.2).1⟩
  | commitCrl _ _ _ _ _ hinsert =>
    obtain ⟨hpublication, hdependency⟩ := hdepends
    rcases ((Table.mem_insert hinsert).1 _).mp hpublication with rfl | hrow
    · exact absurd hdependency (@not_depends_of_insert before keyName _ _ hreferenced hinsert)
    · exact Or.inl ⟨hrow, hdependency⟩
  | pruneCrls => exact Or.inl ⟨(Table.mem_filter.mp hdepends.1).1, hdepends.2⟩
  | retire => exact Or.inl hdepends

/-! ### The journal -/

/-- The newest publication of the journal and the keys that it lists. -/
structure Newest (lifecycle : EchLifecycle) (tables : IdentityTables) (wall : ℚ) (head : EchHead)
    (keys : List EchKey) : Prop where
  row : ∃ row, journalHead tables echPrefix = some row ∧ row.name = echName head.generation ∧
    lifecycle.library.decode row.content = some (some head)
  retained : lifecycle.isRetained (echName head.generation) wall head = true
  named : ∀ name ∈ head.names, keyPrefix <+: name
  serves : List.Forall₂ (Serves lifecycle tables) head.names keys
  distinct : (keys.map EchKey.configId).Nodup

/-- What the journal starts with: nothing, or its newest publication. -/
def StartsWith (lifecycle : EchLifecycle) (tables : IdentityTables) (wall : ℚ) :
    Option (EchHead × List EchKey) → Prop
  | none => journalHead tables echPrefix = none
  | some (head, keys) => Newest lifecycle tables wall head keys

/-- The names that the newest publication lists. -/
def listed (newest : Option (EchHead × List EchKey)) : List Text :=
  (newest.map fun found ↦ found.1.names).getD []

/-- The store as the lifecycle needs it. -/
structure Journal (lifecycle : EchLifecycle) (tables : IdentityTables) (wall : ℚ)
    (newest : Option (EchHead × List EchKey)) : Prop where
  sealed : lifecycle.custody.Sealed tables
  referenced : tables.Referenced
  starts : StartsWith lifecycle tables wall newest
  /-- What is retained depends on none but the keys that the newest publication lists. -/
  owned : ∀ row keyName, tables.Depends row keyName → keyPrefix <+: keyName →
    wall ≤ row.retainUntil → keyName ∈ listed newest

/-- A call that changes nothing for keys of some names. -/
def Harmless (names : List Text) : StoreCall → Prop
  | .commitPublication name _ keyNames _ => ¬ echPrefix <+: name ∧
      ∀ keyName ∈ keyNames, keyPrefix <+: keyName → keyName ∈ names
  | .retire name _ => name ∉ names
  | _ => True

/-- What a call leaves: the tables as they were, or what it can write. -/
def Moves (lifecycle : EchLifecycle) (call : StoreCall) (before after : IdentityTables) : Prop :=
  after = before ∨ (Move lifecycle.custody call before after ∧ lifecycle.custody.Sealed after)

variable {newest : Option (EchHead × List EchKey)} {later : ℚ}

/-- A retained publication is one later, too. -/
theorem isRetained_later (hlater : wall ≤ later)
    (hretained : lifecycle.isRetained name wall head = true) :
    lifecycle.isRetained name later head = true := by
  simp only [EchLifecycle.isRetained, decide_eq_true_eq] at hretained ⊢
  obtain ⟨h₁, h₂, h₃, h₄, h₅, h₆, h₇, h₈, h₉, hcreated⟩ := hretained
  exact ⟨h₁, h₂, h₃, h₄, h₅, h₆, h₇, h₈, h₉, hcreated.trans hlater⟩

/-- Time passes. -/
theorem Journal.wait (hlater : wall ≤ later) (hjournal : Journal lifecycle tables wall newest) :
    Journal lifecycle tables later newest := by
  refine ⟨hjournal.sealed, hjournal.referenced, ?_, fun row keyName hdepends hname hretained ↦
    hjournal.owned row keyName hdepends hname (hlater.trans hretained)⟩
  cases newest with
  | none => exact hjournal.starts
  | some found =>
    have hnewest : Newest lifecycle tables wall found.1 found.2 := hjournal.starts
    exact { hnewest with retained := isRetained_later hlater hnewest.retained }

/-- The names of the newest publication. -/
theorem Journal.headNames (hjournal : Journal lifecycle tables wall newest) :
    lifecycle.headNames tables = listed newest := by
  cases newest with
  | none =>
    have hnone : journalHead tables echPrefix = none := hjournal.starts
    simp [EchLifecycle.headNames, listed, hnone]
  | some found =>
    obtain ⟨head, keys⟩ := found
    have hnewest : Newest lifecycle tables wall head keys := hjournal.starts
    obtain ⟨row, hrow, -, hdecode⟩ := hnewest.row
    simp [EchLifecycle.headNames, listed, hrow, hdecode]

/-- A store with a newest publication has no other one. -/
theorem Newest.unique {another : EchHead} (hfirst : Newest lifecycle tables wall head keys)
    (hsecond : Newest lifecycle tables wall another others) : head = another ∧ keys = others := by
  obtain ⟨row, hrow, -, hdecode⟩ := hfirst.row
  obtain ⟨again, hagain, -, hredecode⟩ := hsecond.row
  obtain rfl : row = again := Option.some.inj (hrow.symm.trans hagain)
  obtain rfl : head = another := by simpa using hdecode.symm.trans hredecode
  exact ⟨rfl, serves_unique hfirst.serves hsecond.serves⟩

/-- A harmless call does not retire the keys. -/
theorem Harmless.not_mem {clock : Option ℚ} (hharmless : Harmless names call)
    (hcall : call = .retire name clock) : name ∉ names := by
  subst hcall
  exact hharmless

/-- Keys serve on after a call that does not retire them. -/
theorem serves_move (hmove : Move lifecycle.custody call before after)
    (hkept : ∀ name clock, call = .retire name clock → name ∉ names)
    (hserves : List.Forall₂ (Serves lifecycle before) names keys) :
    List.Forall₂ (Serves lifecycle after) names keys := by
  rw [List.forall₂_iff_get] at hserves ⊢
  refine ⟨hserves.1, fun index hname hkey ↦ Serves.move hmove ?_ (hserves.2 index hname hkey)⟩
  intro clock hcall
  exact hkept _ clock hcall (List.get_mem _ _)

/-- A harmless call keeps the journal. -/
theorem Journal.move (hmove : Move lifecycle.custody call before after)
    (hsealed : lifecycle.custody.Sealed after) (hharmless : Harmless (listed newest) call)
    (hjournal : Journal lifecycle before wall newest) : Journal lifecycle after wall newest := by
  have hhead : journalHead after echPrefix = journalHead before echPrefix := by
    refine journalHead_move hmove fun name content keyNames retainUntil hcall ↦ ?_
    subst hcall
    exact hharmless.1
  constructor
  case sealed => exact hsealed
  case referenced => exact hmove.referenced hjournal.referenced
  case starts =>
    cases newest with
    | none => exact hhead.trans hjournal.starts
    | some found =>
      have hnewest : Newest lifecycle before wall found.1 found.2 := hjournal.starts
      exact { hnewest with
        row := hhead ▸ hnewest.row
        serves := serves_move hmove (fun _ _ ↦ hharmless.not_mem) hnewest.serves }
  case owned =>
    intro row keyName hdepends hname hretained
    rcases depends_of_move hmove hjournal.referenced hdepends with hold |
      ⟨content, keyNames, retainUntil, rfl, hkey⟩
    · exact hjournal.owned row keyName hold hname hretained
    · exact hharmless.2 keyName hkey hname

/-- What a call of the store leaves. -/
theorem moves_performed (call : StoreCall) (store : Store) :
    Moves lifecycle call store.tables (performed lifecycle.custody call store).2.tables :=
  (outcome_performed lifecycle.custody call store).moves

/-- A harmless call keeps the journal, whatever it leaves. -/
theorem Journal.moves (hmoves : Moves lifecycle call before after)
    (hharmless : Harmless (listed newest) call) (hjournal : Journal lifecycle before wall newest) :
    Journal lifecycle after wall newest := by
  rcases hmoves with rfl | ⟨hmove, hsealed⟩
  · exact hjournal
  · exact hjournal.move hmove hsealed hharmless

/-- The calls of other owners are harmless. -/
theorem harmless_of_isForeign (hjournal : Journal lifecycle tables wall newest)
    (hforeign : lifecycle.isForeign tables call = true) : Harmless (listed newest) call := by
  cases call with
  | commitPublication name content keyNames retainUntil =>
    simp only [EchLifecycle.isForeign, decide_eq_true_eq, hjournal.headNames] at hforeign
    exact hforeign
  | retire name now =>
    simp only [EchLifecycle.isForeign, decide_eq_true_eq] at hforeign
    intro hname
    cases newest with
    | none => exact List.not_mem_nil hname
    | some found =>
      have hnewest : Newest lifecycle tables wall found.1 found.2 := hjournal.starts
      exact hforeign (hnewest.named name hname)
  | prepareKey => trivial
  | advance => trivial
  | prunePublications => trivial
  | commitCrl => trivial
  | pruneCrls => trivial

/-- A new store has no journal. -/
theorem journal_created {nonce : Nonce}
    (hcreated : created lifecycle.custody nonce = .ok tables) :
    Journal lifecycle tables wall none := by
  have hkept := kept_created hcreated
  simp only [created, except_bind_eq_ok, Custody.inventory_eq_ok, except_pure_eq_ok] at hcreated
  obtain ⟨_, ⟨hfits, rfl⟩, rfl⟩ := hcreated
  refine ⟨hkept.sealed, hkept.referenced, ?_, fun row keyName hdepends ↦ ?_⟩
  · exact journalHead_eq_none_iff.mpr fun row hrow ↦ absurd hrow Table.not_mem_empty
  · exact absurd hdepends.1 Table.not_mem_empty

/-! ### Committing -/

/-- A new publication of the journal becomes its newest one. -/
theorem Journal.commit {generation : ℕ} {content : Bytes} {retainUntil : ℚ}
    {publications : Table PublicationRow.name}
    (hjournal : Journal lifecycle before wall newest)
    (hbelow : ∀ found ∈ newest, found.1.generation < generation)
    (hdecode : lifecycle.library.decode content = some (some head))
    (hgeneration : head.generation = generation) (hnames : head.names = names)
    (hretained : lifecycle.isRetained (echName generation) wall head = true)
    (hnamed : ∀ name ∈ names, keyPrefix <+: name)
    (hserves : List.Forall₂ (Serves lifecycle before) names keys)
    (hdistinct : (keys.map EchKey.configId).Nodup)
    (hcovers : ∀ row keyName, before.Depends row keyName → keyPrefix <+: keyName →
      wall ≤ row.retainUntil → keyName ∈ names)
    (hinsert : before.publications.insert ⟨echName generation, content, retainUntil⟩ =
      some publications)
    (hafter : after.publications = publications)
    (hmove : Move lifecycle.custody (.commitPublication (echName generation) content names
      (some retainUntil)) before after)
    (hsealed : lifecycle.custody.Sealed after) :
    Journal lifecycle after wall (some (head, keys)) := by
  have hmem := (Table.mem_insert hinsert).1
  have hbound : generation < 2 ^ 63 := by
    simp only [EchLifecycle.isRetained, decide_eq_true_eq, hgeneration] at hretained
    omega
  constructor
  case sealed => exact hsealed
  case referenced => exact hmove.referenced hjournal.referenced
  case starts =>
    constructor
    case row =>
      refine ⟨⟨echName generation, content, retainUntil⟩, ?_, by rw [hgeneration], hdecode⟩
      rw [journalHead_eq_some_iff, hafter]
      refine ⟨(hmem _).mpr (Or.inl rfl), inJournal_echName, fun row hrow hinside ↦ ?_⟩
      rcases (hmem row).mp hrow with rfl | hold
      · exact le_refl _
      · cases newest with
        | none => exact absurd hinside (journalHead_eq_none_iff.mp hjournal.starts row hold)
        | some found =>
          have hnewest : Newest lifecycle before wall found.1 found.2 := hjournal.starts
          obtain ⟨old, hhead, hold', -⟩ := hnewest.row
          have hle := (journalHead_eq_some_iff.mp hhead).2.2 row hold hinside
          rw [hold'] at hle
          exact hle.trans (le_of_lt (echName_lt hbound (hbelow found rfl)))
    case retained => rwa [hgeneration]
    case named => rwa [hnames]
    case serves =>
      rw [hnames]
      exact serves_move hmove (fun _ _ hcall ↦ by cases hcall) hserves
    case distinct => exact hdistinct
  case owned =>
    intro row keyName hdepends hname hretain
    change keyName ∈ head.names
    rw [hnames]
    rcases depends_of_move hmove hjournal.referenced hdepends with hold |
      ⟨content', keyNames, retainUntil', hcall, hkey⟩
    · exact hcovers row keyName hold hname hretain
    · obtain ⟨-, -, rfl, -⟩ := StoreCall.commitPublication.inj hcall
      exact hkey

end Ads.SandboxEgress.Ech
