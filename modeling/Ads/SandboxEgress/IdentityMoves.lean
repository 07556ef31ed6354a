import Ads.SandboxEgress.IdentityStore

/-!
# What the identity store writes

A transaction of the store writes exactly when its conditions hold, and then signs what it has
written (`advanceBody_eq_ok` and its siblings). A call of the store leaves the tables as they were,
or leaves what its transaction has written, and it fails after that only by its sync
(`operate_cases`). `Move` says in one place what each call can write.
-/

set_option autoImplicit false
set_option relaxedAutoImplicit false

namespace Ads.SandboxEgress.IdentityStore

open Dns Foundation Foundation.StateExcept Foundation.Interrupted Python

/-! ### The inventory -/

namespace Custody

variable (custody : Custody)

/-- The rows fit into an inventory. -/
def Fits (tables : IdentityTables) : Prop :=
  custody.inventorySize tables ≤ custody.capacity

/-- The stored inventory is the one that is computed from the rows. -/
def Sealed (tables : IdentityTables) : Prop :=
  custody.opened inventoryLabel tables.inventory = custody.inventory tables ∧ custody.Fits tables

/-- The tables with the inventory of their rows. -/
def signed (nonce : Nonce) (tables : IdentityTables) : IdentityTables :=
  { tables with inventory := custody.sealed nonce inventoryLabel (custody.digest tables) }

variable {custody} {tables written : IdentityTables} {nonce : Nonce} {done : Unit}

@[simp] theorem signed_keys : (custody.signed nonce tables).keys = tables.keys :=
  rfl

@[simp] theorem signed_publications :
    (custody.signed nonce tables).publications = tables.publications :=
  rfl

@[simp] theorem signed_dependencies :
    (custody.signed nonce tables).dependencies = tables.dependencies :=
  rfl

/-- What was sealed is opened. -/
@[simp] theorem opened_sealed {label value : Bytes} :
    custody.opened label (custody.sealed nonce label value) = .ok value := by
  have htake : (nonce.val ++ custody.encrypt nonce.val value (custody.associated label)).take 12 =
      nonce.val :=
    List.take_left' nonce.property
  have hdrop : (nonce.val ++ custody.encrypt nonce.val value (custody.associated label)).drop 12 =
      custody.encrypt nonce.val value (custody.associated label) :=
    List.drop_left' nonce.property
  unfold opened sealed
  rw [htake, hdrop, custody.decrypt_encrypt]
  rfl

@[simp] theorem inventory_eq_ok {value : Bytes} :
    custody.inventory tables = .ok value ↔ custody.Fits tables ∧ custody.digest tables = value := by
  simp [inventory, Fits, except_bind_eq_ok, -bind_pure_comp]

@[simp] theorem verifyInventory_eq_ok :
    custody.verifyInventory tables = .ok done ↔ custody.Sealed tables := by
  by_cases hfits : custody.Fits tables
  · have hinventory : custody.inventory tables = .ok (custody.digest tables) :=
      inventory_eq_ok.mpr ⟨hfits, rfl⟩
    simp [verifyInventory, Sealed, except_bind_eq_ok, hinventory, hfits, -bind_pure_comp]
  · simp [verifyInventory, Sealed, except_bind_eq_ok, hfits, -bind_pure_comp]

@[simp] theorem commitInventory_eq_ok :
    custody.commitInventory nonce tables = .ok (done, written) ↔
      custody.Fits tables ∧ written = custody.signed nonce tables := by
  simp only [commitInventory, signed, bind_eq_ok, get_eq_ok, lift_eq_ok, inventory_eq_ok, set_eq_ok]
  constructor
  · rintro ⟨_, _, ⟨rfl, rfl⟩, _, _, ⟨⟨hfits, rfl⟩, rfl⟩, rfl⟩
    exact ⟨hfits, rfl⟩
  · rintro ⟨hfits, rfl⟩
    exact ⟨_, _, ⟨rfl, rfl⟩, _, _, ⟨⟨hfits, rfl⟩, rfl⟩, rfl⟩

/-- The inventory of signed tables is the one of their rows. -/
theorem sealed_signed (hfits : custody.Fits tables) : custody.Sealed (custody.signed nonce tables) :=
  ⟨opened_sealed.trans (inventory_eq_ok.mpr ⟨hfits, rfl⟩).symm, hfits⟩

end Custody

/-! ### Reading -/

variable {custody : Custody} {tables written : IdentityTables} {name start : Text}
  {around : Surroundings}

@[simp] theorem checkName_eq_ok {done : Unit} : checkName name = .ok done ↔
    1 ≤ name.length ∧ name.length ≤ 512 ∧ name.all isNameChar = true := by
  simp only [checkName, failIf_eq_ok, not_not]

/-- What `key` returns. -/
theorem key_eq_ok {found : StoredKey} : key custody tables name = .ok found ↔
    custody.Sealed tables ∧ ∃ row, tables.keys.find name = some row ∧ row.stage ≠ .retired ∧
      ∃ opened, custody.opened (custody.keyLabel name row.kind row.publicPart) row.sealedPart =
        .ok opened ∧ found = ⟨row.kind, row.publicPart, opened, row.stage⟩ := by
  cases hfind : tables.keys.find name with
  | none => simp [key, findKey, hfind, except_bind_eq_ok]
  | some row =>
    simp [key, findKey, hfind, except_bind_eq_ok, -bind_pure_comp]
    aesop

@[simp] theorem checkClock_eq_ok {now : Option ℚ} {reason : String} {clock : ℚ} :
    checkClock now reason = .ok clock ↔ now = some clock ∧ 0 < clock := by
  cases now with
  | none => simp [checkClock]
  | some time =>
    by_cases htime : time ≤ 0
    · simp only [checkClock, htime, if_true, except_throw_ne_ok, Option.some.injEq, false_iff]
      rintro ⟨rfl, hclock⟩
      exact absurd htime (not_le.mpr hclock)
    · simp only [checkClock, htime, if_false, except_pure_eq_ok, Option.some.injEq]
      exact ⟨fun heq ↦ ⟨heq, heq ▸ not_le.mp htime⟩, fun h ↦ h.1⟩

@[simp] theorem insertRow_eq_ok {ρ κ : Type} [DecidableEq κ] {rowKey : ρ → κ} {table inserted : Table rowKey}
    {row : ρ} : insertRow table row = .ok inserted ↔ table.insert row = some inserted := by
  unfold insertRow
  cases table.insert row with
  | none => simp
  | some other => simp

@[simp] theorem reserve_eq_ok {physical added : ℕ} {done : Unit} :
    custody.reserve tables physical added = .ok done ↔
      Custody.used tables + added ≤ custody.capacity ∧ physical + added ≤ custody.capacity := by
  simp [Custody.reserve]

@[simp] theorem publicationHead_eq_ok {head : Option PublicationRow} :
    publicationHead custody tables start = .ok head ↔
      checkName start = .ok () ∧ start.getLast? = some '/' ∧ custody.Sealed tables ∧
        journalHead tables start = head := by
  simp [publicationHead, except_bind_eq_ok, -bind_pure_comp, and_assoc]

@[simp] theorem crlPrefix_eq_ok {issuer : Text} : crlPrefix issuer = .ok start ↔
    issuer.length = 64 ∧ issuer.all isHexChar = true ∧
      "crl/".toList ++ issuer ++ ['/'] = start := by
  simp only [crlPrefix, except_bind_eq_ok, failIf_eq_ok, except_pure_eq_ok, not_not]
  constructor
  · rintro ⟨_, ⟨hlength, hhex⟩, hstart⟩
    exact ⟨hlength, hhex, hstart⟩
  · rintro ⟨hlength, hhex, hstart⟩
    exact ⟨(), ⟨hlength, hhex⟩, hstart⟩

/-- What `crl_head` returns. -/
theorem crlHead_eq_ok {issuer : Text} {head : Option (ℕ × PublicationRow)} :
    crlHead custody tables issuer = .ok head ↔
      ∃ start, crlPrefix issuer = .ok start ∧ custody.Sealed tables ∧
        ((journalHead tables start = none ∧ head = none) ∨
          ∃ row, journalHead tables start = some row ∧
            (row.name.drop start.length).length = 20 ∧
              (row.name.drop start.length).all isDigit = true ∧
                1 ≤ decimalValue (row.name.drop start.length) ∧
                  decimalValue (row.name.drop start.length) ≤ 2 ^ 63 - 1 ∧
                    head = some (decimalValue (row.name.drop start.length), row)) := by
  simp only [crlHead, except_bind_eq_ok, Custody.verifyInventory_eq_ok]
  refine exists_congr fun start ↦ and_congr_right fun _ ↦ ?_
  cases hhead : journalHead tables start with
  | none =>
    simp only [except_pure_eq_ok]
    aesop
  | some row =>
    simp only [except_bind_eq_ok, failIf_eq_ok, except_pure_eq_ok, not_not]
    aesop

/-! ### Transactions -/

/-- The tables with a key at another stage. -/
def moved (tables : IdentityTables) (name : Text) (stage : KeyStage) : IdentityTables :=
  { tables with keys := tables.keys.modify name (atStage stage) }

/-- The tables with a key retired. -/
def retired (tables : IdentityTables) (name : Text) : IdentityTables :=
  { tables with keys := tables.keys.modify name tombstone }

variable {result : Unit × Bool}

/-- The transaction of `advance`. -/
theorem advanceBody_eq_ok {expected target : KeyStage} :
    advanceBody custody name expected target around tables = .ok (result, written) ↔
      expected.next = some target ∧ custody.Sealed tables ∧
        (∃ row, tables.keys.find name = some row ∧ row.stage = expected) ∧
          custody.Fits (moved tables name target) ∧ result = ((), false) ∧
            written = custody.signed around.inventoryNonce (moved tables name target) := by
  simp [advanceBody, bind_eq_ok, moved, -bind_pure_comp]
  aesop

/-- The transaction of `retire`. -/
theorem retireBody_eq_ok {now : Option ℚ} :
    retireBody custody name now around tables = .ok (result, written) ↔
      ∃ clock found, now = some clock ∧ 0 < clock ∧ key custody tables name = .ok found ∧
        found.kind ≠ .root ∧ found.stage = .retiring ∧
          (∀ row ∈ dependents tables name, row.retainUntil < clock) ∧
            custody.Fits (retired tables name) ∧ result = ((), false) ∧
              written = custody.signed around.inventoryNonce (retired tables name) := by
  simp [retireBody, bind_eq_ok, retired, -bind_pure_comp]
  aesop

/-- The transaction of `prepare_key`. -/
theorem prepareKeyBody_eq_ok {kind : KeyKind} {publicPart privatePart : Bytes} :
    prepareKeyBody custody name kind publicPart privatePart around tables = .ok (result, written) ↔
      checkName name = .ok () ∧ publicPart ≠ [] ∧ privatePart ≠ [] ∧ publicPart.length ≤ 65536 ∧
        privatePart.length ≤ 65536 ∧ custody.Sealed tables ∧
          ((∃ row, tables.keys.find name = some row ∧ row.kind = kind ∧
              row.publicPart = publicPart ∧
                custody.opened (custody.keyLabel name kind publicPart) row.sealedPart =
                  .ok privatePart ∧ result = ((), false) ∧ written = tables) ∨
            (tables.keys.find name = none ∧
              (kind = .root → ∀ row ∈ tables.keys, row.kind ≠ .root) ∧
              custody.reserve tables around.physical (name.length + publicPart.length +
                (custody.sealed around.keyNonce (custody.keyLabel name kind publicPart)
                  privatePart).length + 128) = .ok () ∧
              ∃ keys, tables.keys.insert ⟨name, kind, publicPart,
                  custody.sealed around.keyNonce (custody.keyLabel name kind publicPart)
                    privatePart, .prepared⟩ = some keys ∧
                custody.Fits { tables with keys := keys } ∧ result = ((), true) ∧
                  written = custody.signed around.inventoryNonce { tables with keys := keys })) := by
  cases hfind : tables.keys.find name with
  | none =>
    simp [prepareKeyBody, bind_eq_ok, hfind, -bind_pure_comp]
    aesop
  | some row =>
    simp [prepareKeyBody, bind_eq_ok, hfind, -bind_pure_comp]
    aesop

/-- What the dependencies are after more of them are inserted for a publication. -/
theorem mem_insertDependencies {table rows : Table (id : Dependency → Dependency)}
    {keyNames : List Text} (hinsert : insertDependencies table name keyNames = .ok rows)
    (row : Dependency) :
    row ∈ rows ↔ row ∈ table ∨ (row.publication = name ∧ row.keyName ∈ keyNames) := by
  induction keyNames generalizing table with
  | nil =>
    obtain rfl : table = rows := by simpa [insertDependencies] using hinsert
    simp
  | cons keyName rest ih =>
    simp only [insertDependencies, List.foldlM_cons, except_bind_eq_ok, insertRow_eq_ok] at hinsert
    obtain ⟨next, hnext, hrest⟩ := hinsert
    rw [ih hrest, (Table.mem_insert hnext).1]
    obtain ⟨publication, key⟩ := row
    simp only [Dependency.mk.injEq, List.mem_cons]
    tauto

/-- What `commit_publication` requires of the keys. -/
theorem checkDependencies_eq_ok {keyNames : List Text} {done : Unit} :
    forM keyNames (checkDependency custody tables) = .ok done ↔
      ∀ keyName ∈ keyNames, ∃ found, key custody tables keyName = .ok found ∧
        (found.stage = .published ∨ found.stage = .active ∨ found.stage = .retiring) := by
  rw [except_forM_eq_ok]
  refine forall₂_congr fun keyName _ ↦ ?_
  simp only [checkDependency, except_bind_eq_ok, failIf_eq_ok]
  refine exists_congr fun found ↦ and_congr_right fun _ ↦ ?_
  tauto

/-- The transaction of `commit_publication`. -/
theorem commitPublicationBody_eq_ok {content : Bytes} {keyNames : List Text}
    {retainUntil : Option ℚ} :
    commitPublicationBody custody name content keyNames retainUntil around tables =
        .ok (result, written) ↔
      checkName name = .ok () ∧ isPublication name content keyNames retainUntil = true ∧
        custody.Sealed tables ∧
          ((tables.publications.find name = some ⟨name, content, retainUntil.getD 0⟩ ∧
              ((tables.dependencies.rows.filter fun row ↦ row.publication = name).map
                Dependency.keyName).insertionSort (· ≤ ·) = keyNames.insertionSort (· ≤ ·) ∧
              result = ((), false) ∧ written = tables) ∨
            (tables.publications.find name = none ∧
              (∀ keyName ∈ keyNames, ∃ found, key custody tables keyName = .ok found ∧
                (found.stage = .published ∨ found.stage = .active ∨ found.stage = .retiring)) ∧
              custody.reserve tables around.physical
                (name.length + content.length + 128 + 1024 * keyNames.length) = .ok () ∧
              ∃ publications rows,
                tables.publications.insert ⟨name, content, retainUntil.getD 0⟩ = some publications ∧
                insertDependencies tables.dependencies name keyNames = .ok rows ∧
                custody.Fits { tables with publications := publications, dependencies := rows } ∧
                result = ((), true) ∧
                  written = custody.signed around.inventoryNonce
                    { tables with publications := publications, dependencies := rows })) := by
  cases hfind : tables.publications.find name with
  | none =>
    simp [commitPublicationBody, bind_eq_ok, hfind, checkDependencies_eq_ok, -bind_pure_comp]
    aesop
  | some row =>
    simp [commitPublicationBody, bind_eq_ok, hfind, -bind_pure_comp]
    aesop

/-- The transaction of `prune_publications`. -/
theorem prunePublicationsBody_eq_ok {now : Option ℚ} :
    prunePublicationsBody custody start now around tables = .ok (result, written) ↔
      ¬ "crl/".toList <+: start ∧ ∃ clock, now = some clock ∧ 0 < clock ∧
        checkName start = .ok () ∧ start.getLast? = some '/' ∧ custody.Sealed tables ∧
          ((journalHead tables start = none ∧ result = ((), false) ∧ written = tables) ∨
            ∃ head, journalHead tables start = some head ∧
              custody.Fits (pruned tables start head.name clock) ∧ result = ((), true) ∧
                written = custody.signed around.inventoryNonce
                  (pruned tables start head.name clock)) := by
  cases hhead : journalHead tables start with
  | none =>
    simp [prunePublicationsBody, bind_eq_ok, hhead, -bind_pure_comp]
    aesop
  | some head =>
    simp [prunePublicationsBody, bind_eq_ok, hhead, -bind_pure_comp]
    aesop

/-- The transaction of `commit_crl`. -/
theorem commitCrlBody_eq_ok {issuer : Text} {expected : ℕ} {content : Bytes}
    {retainUntil : Option ℚ} {result : ℕ × Bool} :
    commitCrlBody custody issuer expected content retainUntil around tables =
        .ok (result, written) ↔
      ∃ start current publications, crlPrefix issuer = .ok start ∧ expected < 2 ^ 63 - 1 ∧
        content ≠ [] ∧ content.length ≤ 1048576 ∧ retainUntil.any (0 < ·) = true ∧
          crlHead custody tables issuer = .ok current ∧
            (current.map Prod.fst).getD 0 = expected ∧
              custody.reserve tables around.physical
                ((start ++ zeroPadded 20 (expected + 1)).length + content.length + 128) = .ok () ∧
                tables.publications.insert
                    ⟨start ++ zeroPadded 20 (expected + 1), content, retainUntil.getD 0⟩ =
                  some publications ∧
                custody.Fits { tables with publications := publications } ∧
                  result = (expected + 1, true) ∧
                    written = custody.signed around.inventoryNonce
                      { tables with publications := publications } := by
  simp only [commitCrlBody, bind_eq_ok, lift_eq_ok, raiseIf_eq_ok, get_eq_ok, set_eq_ok,
    pure_eq_ok, insertRow_eq_ok, Custody.commitInventory_eq_ok, not_not]
  aesop

/-- The transaction of `prune_crls`. -/
theorem pruneCrlsBody_eq_ok {issuer : Text} {now : Option ℚ} :
    pruneCrlsBody custody issuer now around tables = .ok (result, written) ↔
      ∃ start clock, crlPrefix issuer = .ok start ∧ now = some clock ∧ 0 < clock ∧
        ((crlHead custody tables issuer = .ok none ∧ result = ((), false) ∧ written = tables) ∨
          ∃ number row, crlHead custody tables issuer = .ok (some (number, row)) ∧
            (∀ row ∈ tables.dependencies,
              row.publication ∉ prunedNames tables start (start ++ zeroPadded 20 number) clock) ∧
            custody.Fits (crlsPruned tables start (start ++ zeroPadded 20 number) clock) ∧
            result = ((), true) ∧ written = custody.signed around.inventoryNonce
              (crlsPruned tables start (start ++ zeroPadded 20 number) clock)) := by
  simp only [pruneCrlsBody, bind_eq_ok, lift_eq_ok, get_eq_ok, checkClock_eq_ok]
  constructor
  · rintro ⟨start, _, ⟨hstart, rfl⟩, clock, _, ⟨⟨hnow, hclock⟩, rfl⟩, _, _, ⟨rfl, rfl⟩, head, _,
      ⟨hhead, rfl⟩, hrun⟩
    refine ⟨start, clock, hstart, hnow, hclock, ?_⟩
    cases head with
    | none =>
      obtain ⟨rfl, rfl⟩ := pure_eq_ok.mp hrun
      exact Or.inl ⟨hhead, rfl, rfl⟩
    | some found =>
      simp [bind_eq_ok, -bind_pure_comp] at hrun
      obtain ⟨hfree, ⟨hfits, rfl⟩, rfl⟩ := hrun
      exact Or.inr ⟨found.1, found.2, hhead, hfree, hfits, rfl, rfl⟩
  · rintro ⟨start, clock, hstart, hnow, hclock, ⟨hhead, rfl, rfl⟩ |
      ⟨number, row, hhead, hfree, hfits, rfl, rfl⟩⟩
    · exact ⟨start, _, ⟨hstart, rfl⟩, clock, _, ⟨⟨hnow, hclock⟩, rfl⟩, _, _, ⟨rfl, rfl⟩, none, _,
        ⟨hhead, rfl⟩, rfl⟩
    · refine ⟨start, _, ⟨hstart, rfl⟩, clock, _, ⟨⟨hnow, hclock⟩, rfl⟩, _, _, ⟨rfl, rfl⟩, _, _,
        ⟨hhead, rfl⟩, ?_⟩
      simp [bind_eq_ok, -bind_pure_comp]
      exact ⟨hfree, hfits⟩

/-! ### Calls -/

/-- The store at the next call. -/
def Store.next (store : Store) : Store :=
  { store with surroundings := fun index ↦ store.surroundings (index + 1) }

/-- The store with other tables. -/
def Store.write (tables : IdentityTables) (store : Store) : Store :=
  { store with tables := tables }

section Operate

variable {α : Type} {body : Surroundings → StateT IdentityTables (Except StoreRaised) (α × Bool)}
  {store : Store} {value : α} {syncs : Bool}

/-- A transaction commits when its body returns and nothing fails. -/
theorem committed_eq_ok {body : StateT IdentityTables (Except StoreRaised) α} :
    committed around body tables = .ok (value, written) ↔
      body tables = .ok (value, written) ∧ around.failure = none := by
  simp only [committed, bind_eq_ok, lift_eq_ok, pure_eq_ok]
  cases hfailure : around.failure with
  | none => simp [raised]
  | some failure => simp [raised]

/-- A transaction that commits. -/
theorem transact_of_ok {body : StateT IdentityTables (Except StoreRaised) α}
    (hcommitted : committed around body store.tables = .ok (value, written)) :
    transact around body store.next = (.ok value, store.next.write written) :=
  transaction_of_ok hcommitted

/-- The end of a call whose transaction has committed. -/
theorem finish_eq {final : Store} : finish around (value, syncs) final =
    (if syncs = true then (raised around.sync).map fun _ ↦ value else .ok value, final) := by
  cases syncs with
  | false => rfl
  | true =>
    cases hsync : around.sync with
    | none => simp [finish, syncDirectory, Program.evaluate, raised, hsync, Bind.bind]; rfl
    | some failure => simp [finish, syncDirectory, Program.evaluate, raised, hsync, Bind.bind]; rfl

/-- A call leaves the tables as they were and fails, or leaves what its transaction has written. Then
it fails only if its sync does. -/
theorem operate_cases (body : Surroundings → StateT IdentityTables (Except StoreRaised) (α × Bool))
    (store : Store) :
    (∃ failure, operate body store = (.error failure, store.next)) ∨
      ∃ value syncs written,
        body (store.surroundings 0) store.tables = .ok ((value, syncs), written) ∧
          (store.surroundings 0).failure = none ∧
            ((operate body store = (.ok value, store.next.write written) ∧
                (syncs = true → (store.surroundings 0).sync = none)) ∨
              ∃ failure, syncs = true ∧ (store.surroundings 0).sync = some failure ∧
                operate body store = (.error failure, store.next.write written)) := by
  have hdraw : draw store = (.ok (store.surroundings 0), store.next) := rfl
  unfold operate
  rw [bind_of_ok hdraw]
  cases hcommitted : committed (store.surroundings 0) (body (store.surroundings 0)) store.tables with
  | error failure => exact Or.inl ⟨failure, bind_of_error (transaction_of_error hcommitted)⟩
  | ok outcome =>
    obtain ⟨⟨value, syncs⟩, written⟩ := outcome
    obtain ⟨hbody, hfailure⟩ := committed_eq_ok.mp hcommitted
    refine Or.inr ⟨value, syncs, written, hbody, hfailure, ?_⟩
    rw [bind_of_ok (transact_of_ok hcommitted), finish_eq]
    cases syncs with
    | false => exact Or.inl ⟨rfl, fun hsyncs ↦ absurd hsyncs Bool.false_ne_true⟩
    | true =>
      cases hsync : (store.surroundings 0).sync with
      | none => exact Or.inl ⟨rfl, fun _ ↦ rfl⟩
      | some failure => exact Or.inr ⟨failure, rfl, rfl, rfl⟩

/-- A call that is not disturbed returns what its transaction returns. -/
theorem operate_eq (hbody : body (store.surroundings 0) store.tables = .ok ((value, syncs), written))
    (hfailure : (store.surroundings 0).failure = none)
    (hsync : syncs = true → (store.surroundings 0).sync = none) :
    operate body store = (.ok value, store.next.write written) := by
  have hdraw : draw store = (.ok (store.surroundings 0), store.next) := rfl
  have hcommitted := committed_eq_ok.mpr ⟨hbody, hfailure⟩
  unfold operate
  rw [bind_of_ok hdraw, bind_of_ok (transact_of_ok hcommitted), finish_eq]
  cases syncs with
  | false => rfl
  | true =>
    rw [hsync rfl]
    rfl

/-- A call leaves what its transaction writes, or stops with that or with the tables as they were. -/
theorem leaves_operate {writes : α → IdentityTables → Prop}
    (hbody : ∀ value syncs written, body (store.surroundings 0) store.tables =
      .ok ((value, syncs), written) → writes value written) :
    Leaves (operate body) store (fun value final ↦ writes value final.tables) fun _ final ↦
      final.tables = store.tables ∨ ∃ value, writes value final.tables := by
  rcases operate_cases body store with ⟨failure, hrun⟩ |
    ⟨value, syncs, written, hran, -, ⟨hrun, -⟩ | ⟨failure, -, -, hrun⟩⟩
  · refine leaves_of (fun _ _ h ↦ ?_) fun _ _ h ↦ ?_
    · simp [hrun] at h
    · obtain ⟨-, rfl⟩ := Prod.mk.inj (hrun.symm.trans h)
      exact Or.inl rfl
  · refine leaves_of (fun _ _ h ↦ ?_) fun _ _ h ↦ ?_
    · obtain ⟨hvalue, rfl⟩ := Prod.mk.inj (hrun.symm.trans h)
      obtain rfl := Except.ok.inj hvalue
      exact hbody _ _ _ hran
    · simp [hrun] at h
  · refine leaves_of (fun _ _ h ↦ ?_) fun _ _ h ↦ ?_
    · simp [hrun] at h
    · obtain ⟨-, rfl⟩ := Prod.mk.inj (hrun.symm.trans h)
      exact Or.inr ⟨value, hbody _ _ _ hran⟩

end Operate

/-- The calls that write. -/
inductive StoreCall where
  | prepareKey (name : Text) (kind : KeyKind) (publicPart privatePart : Bytes)
  | advance (name : Text) (expected target : KeyStage)
  | commitPublication (name : Text) (content : Bytes) (dependencies : List Text)
    (retainUntil : Option ℚ)
  | prunePublications (start : Text) (now : Option ℚ)
  | commitCrl (issuer : Text) (expected : ℕ) (content : Bytes) (retainUntil : Option ℚ)
  | pruneCrls (issuer : Text) (now : Option ℚ)
  | retire (name : Text) (now : Option ℚ)

/-- The operation of a call. -/
def performed (custody : Custody) : StoreCall → StoreM Unit
  | .prepareKey name kind publicPart privatePart =>
    prepareKey custody name kind publicPart privatePart
  | .advance name expected target => advance custody name expected target
  | .commitPublication name content dependencies retainUntil =>
    commitPublication custody name content dependencies retainUntil
  | .prunePublications start now => prunePublications custody start now
  | .commitCrl issuer expected content retainUntil => do
    let _ ← commitCrl custody issuer expected content retainUntil
  | .pruneCrls issuer now => pruneCrls custody issuer now
  | .retire name now => retire custody name now

/-- What a call can write. -/
inductive Move (custody : Custody) : StoreCall → IdentityTables → IdentityTables → Prop
  | stay (call : StoreCall) (tables : IdentityTables) : Move custody call tables tables
  | prepareKey {name : Text} {kind : KeyKind} {publicPart privatePart : Bytes}
    {tables : IdentityTables} {keys : Table KeyRow.name} (keyNonce nonce : Nonce)
    (hroot : kind = .root → ∀ row ∈ tables.keys, row.kind ≠ .root)
    (hinsert : tables.keys.insert ⟨name, kind, publicPart,
      custody.sealed keyNonce (custody.keyLabel name kind publicPart) privatePart, .prepared⟩ =
        some keys) :
    Move custody (.prepareKey name kind publicPart privatePart) tables
      (custody.signed nonce { tables with keys := keys })
  | advance {name : Text} {expected target : KeyStage} {tables : IdentityTables} {row : KeyRow}
    (nonce : Nonce) (hnext : expected.next = some target)
    (hfind : tables.keys.find name = some row) (hstage : row.stage = expected) :
    Move custody (.advance name expected target) tables
      (custody.signed nonce (moved tables name target))
  | commitPublication {name : Text} {content : Bytes} {keyNames : List Text}
    {retainUntil : Option ℚ} {tables : IdentityTables}
    {publications : Table PublicationRow.name} {rows : Table (id : Dependency → Dependency)}
    (nonce : Nonce) (hname : ¬ "crl/".toList <+: name)
    (hkeys : ∀ keyName ∈ keyNames, ∃ row, tables.keys.find keyName = some row ∧
      (row.stage = .published ∨ row.stage = .active ∨ row.stage = .retiring))
    (hinsert : tables.publications.insert ⟨name, content, retainUntil.getD 0⟩ = some publications)
    (hrows : insertDependencies tables.dependencies name keyNames = .ok rows) :
    Move custody (.commitPublication name content keyNames retainUntil) tables
      (custody.signed nonce { tables with publications := publications, dependencies := rows })
  | prunePublications {start : Text} {clock : ℚ} {tables : IdentityTables} {head : PublicationRow}
    (nonce : Nonce) (hcrl : ¬ "crl/".toList <+: start) (hname : checkName start = .ok ())
    (hslash : start.getLast? = some '/') (hhead : journalHead tables start = some head) :
    Move custody (.prunePublications start (some clock)) tables
      (custody.signed nonce (pruned tables start head.name clock))
  | commitCrl {issuer start : Text} {expected : ℕ} {content : Bytes} {retainUntil : Option ℚ}
    {tables : IdentityTables} {current : Option (ℕ × PublicationRow)}
    {publications : Table PublicationRow.name} (nonce : Nonce)
    (hstart : crlPrefix issuer = .ok start) (hexpected : expected < 2 ^ 63 - 1)
    (hcurrent : crlHead custody tables issuer = .ok current)
    (hnumber : (current.map Prod.fst).getD 0 = expected)
    (hinsert : tables.publications.insert
      ⟨start ++ zeroPadded 20 (expected + 1), content, retainUntil.getD 0⟩ = some publications) :
    Move custody (.commitCrl issuer expected content retainUntil) tables
      (custody.signed nonce { tables with publications := publications })
  | pruneCrls {issuer start : Text} {clock : ℚ} {tables : IdentityTables} {number : ℕ}
    {row : PublicationRow} (nonce : Nonce) (hstart : crlPrefix issuer = .ok start)
    (hcurrent : crlHead custody tables issuer = .ok (some (number, row)))
    (hfree : ∀ row ∈ tables.dependencies,
      row.publication ∉ prunedNames tables start (start ++ zeroPadded 20 number) clock) :
    Move custody (.pruneCrls issuer (some clock)) tables
      (custody.signed nonce (crlsPruned tables start (start ++ zeroPadded 20 number) clock))
  | retire {name : Text} {clock : ℚ} {tables : IdentityTables} {row : KeyRow} (nonce : Nonce)
    (hfind : tables.keys.find name = some row) (hkind : row.kind ≠ .root)
    (hstage : row.stage = .retiring)
    (hended : ∀ publication ∈ dependents tables name, publication.retainUntil < clock) :
    Move custody (.retire name (some clock)) tables
      (custody.signed nonce (retired tables name))

/-- What a call on a store comes to. -/
structure Outcome {α : Type} (custody : Custody) (call : StoreCall)
    (program : Store → Except StoreRaised α × Store) (store : Store) : Prop where
  /-- The surroundings are those of the next call. -/
  surroundings : (program store).2.surroundings = store.next.surroundings
  /-- Nothing is written, or what the call can write, with its inventory. -/
  moves : (program store).2.tables = store.tables ∨
    (Move custody call store.tables (program store).2.tables ∧
      custody.Sealed (program store).2.tables)
  /-- A call that fails with something written fails by its sync. -/
  fails : ∀ failure, (program store).1 = .error failure → (program store).2.tables = store.tables ∨
    ((store.surroundings 0).sync = some failure ∧
      ∃ value, program ⟨store.tables, fun _ ↦ { store.surroundings 0 with sync := none }⟩ =
        (.ok value, ⟨(program store).2.tables, fun _ ↦ { store.surroundings 0 with sync := none }⟩))

/-- What a call comes to, from what its transaction writes. -/
theorem outcome_operate {α : Type} {call : StoreCall} {store : Store}
    {body : Surroundings → StateT IdentityTables (Except StoreRaised) (α × Bool)}
    (hsync : ∀ around, body { around with sync := none } = body around)
    (hbody : ∀ outcome written, body (store.surroundings 0) store.tables = .ok (outcome, written) →
      Move custody call store.tables written ∧ custody.Sealed written) :
    Outcome custody call (operate body) store := by
  rcases operate_cases body store with ⟨failure, hrun⟩ |
    ⟨value, syncs, written, hran, hfailure, ⟨hrun, -⟩ | ⟨failure, -, hfailed, hrun⟩⟩
  · constructor
    · rw [hrun]
    · rw [hrun]
      exact Or.inl rfl
    · rw [hrun]
      exact fun _ _ ↦ Or.inl rfl
  · constructor
    · rw [hrun]
      rfl
    · rw [hrun]
      exact Or.inr (hbody _ _ hran)
    · rw [hrun]
      intro failure herror
      cases herror
  · constructor
    · rw [hrun]
      rfl
    · rw [hrun]
      exact Or.inr (hbody _ _ hran)
    · rw [hrun]
      intro other herror
      obtain rfl : failure = other := by simpa using herror
      refine Or.inr ⟨hfailed, value, ?_⟩
      have hran' : body { store.surroundings 0 with sync := none } store.tables =
          .ok ((value, syncs), written) := by rw [hsync, hran]
      let undisturbed : Store := ⟨store.tables, fun _ ↦ { store.surroundings 0 with sync := none }⟩
      have heq : operate body undisturbed = (.ok value, undisturbed.next.write written) :=
        operate_eq hran' hfailure fun _ ↦ rfl
      exact heq

/-- The same call without its value. -/
theorem Outcome.discard {α : Type} {call : StoreCall} {store : Store} {program : StoreM α}
    (houtcome : Outcome custody call program store) :
    Outcome custody call (program >>= fun _ ↦ pure () : StoreM Unit) store := by
  have hrun : ∀ store, (program >>= fun _ ↦ pure () : StoreM Unit) store =
      ((program store).1.map fun _ ↦ (), (program store).2) := by
    intro store
    cases hprogram : program store with
    | mk outcome final =>
      cases outcome with
      | error failure => exact bind_of_error hprogram
      | ok value => exact bind_of_ok hprogram
  constructor
  · rw [hrun]
    exact houtcome.surroundings
  · rw [hrun]
    exact houtcome.moves
  · intro failure
    simp only [hrun]
    intro herror
    have hfailure : (program store).1 = .error failure := by
      cases houter : (program store).1 with
      | error other => simpa [houter, Except.map] using herror
      | ok value => simp [houter, Except.map] at herror
    rcases houtcome.fails failure hfailure with hsame | ⟨hsync, value, hvalue⟩
    · exact Or.inl hsame
    · exact Or.inr ⟨hsync, (), by rw [hvalue]; rfl⟩

/-- What each call comes to. -/
theorem outcome_performed (custody : Custody) (call : StoreCall) (store : Store) :
    Outcome custody call (performed custody call) store := by
  cases call with
  | prepareKey name kind publicPart privatePart =>
    refine outcome_operate (fun _ ↦ rfl) fun outcome written hbody ↦ ?_
    obtain ⟨-, -, -, -, -, hsealed, ⟨row, -, -, -, -, -, rfl⟩ |
      ⟨-, hroot, -, keys, hinsert, hfits, -, rfl⟩⟩ := prepareKeyBody_eq_ok.mp hbody
    · exact ⟨.stay _ _, hsealed⟩
    · exact ⟨.prepareKey _ _ hroot hinsert, Custody.sealed_signed hfits⟩
  | advance name expected target =>
    refine outcome_operate (fun _ ↦ rfl) fun outcome written hbody ↦ ?_
    obtain ⟨hnext, -, ⟨row, hfind, hstage⟩, hfits, -, rfl⟩ := advanceBody_eq_ok.mp hbody
    exact ⟨.advance _ hnext hfind hstage, Custody.sealed_signed hfits⟩
  | commitPublication name content keyNames retainUntil =>
    refine outcome_operate (fun _ ↦ rfl) fun outcome written hbody ↦ ?_
    obtain ⟨-, hpublication, hsealed, ⟨-, -, -, rfl⟩ |
      ⟨-, hkeys, -, publications, rows, hinsert, hrows, hfits, -, rfl⟩⟩ :=
        commitPublicationBody_eq_ok.mp hbody
    · exact ⟨.stay _ _, hsealed⟩
    · refine ⟨.commitPublication _ ?_ (fun keyName hkeyName ↦ ?_) hinsert hrows,
        Custody.sealed_signed hfits⟩
      · simp only [isPublication, Bool.and_eq_true, Bool.not_eq_true', decide_eq_false_iff_not]
          at hpublication
        exact hpublication.1.1.1.1.1
      · obtain ⟨found, hfound, hstage⟩ := hkeys keyName hkeyName
        obtain ⟨-, row, hfind, -, opened, -, rfl⟩ := key_eq_ok.mp hfound
        exact ⟨row, hfind, hstage⟩
  | prunePublications start now =>
    refine outcome_operate (fun _ ↦ rfl) fun outcome written hbody ↦ ?_
    obtain ⟨hcrl, clock, rfl, -, hname, hslash, hsealed, ⟨-, -, rfl⟩ |
      ⟨head, hhead, hfits, -, rfl⟩⟩ := prunePublicationsBody_eq_ok.mp hbody
    · exact ⟨.stay _ _, hsealed⟩
    · exact ⟨.prunePublications _ hcrl hname hslash hhead, Custody.sealed_signed hfits⟩
  | commitCrl issuer expected content retainUntil =>
    refine (outcome_operate (fun _ ↦ rfl) fun outcome written hbody ↦ ?_).discard
    obtain ⟨start, current, publications, hstart, hexpected, -, -, -, hcurrent, hnumber, -, hinsert,
      hfits, -, rfl⟩ := commitCrlBody_eq_ok.mp hbody
    exact ⟨.commitCrl _ hstart hexpected hcurrent hnumber hinsert, Custody.sealed_signed hfits⟩
  | pruneCrls issuer now =>
    refine outcome_operate (fun _ ↦ rfl) fun outcome written hbody ↦ ?_
    obtain ⟨start, clock, hstart, rfl, -, ⟨hcurrent, -, rfl⟩ |
      ⟨number, row, hcurrent, hfree, hfits, -, rfl⟩⟩ := pruneCrlsBody_eq_ok.mp hbody
    · obtain ⟨-, -, hsealed, -⟩ := crlHead_eq_ok.mp hcurrent
      exact ⟨.stay _ _, hsealed⟩
    · exact ⟨.pruneCrls _ hstart hcurrent hfree, Custody.sealed_signed hfits⟩
  | retire name now =>
    refine outcome_operate (fun _ ↦ rfl) fun outcome written hbody ↦ ?_
    obtain ⟨clock, found, rfl, -, hfound, hkind, hstage, hended, hfits, -, rfl⟩ :=
      retireBody_eq_ok.mp hbody
    obtain ⟨-, row, hfind, -, opened, -, rfl⟩ := key_eq_ok.mp hfound
    exact ⟨.retire _ hfind hkind hstage hended, Custody.sealed_signed hfits⟩

end Ads.SandboxEgress.IdentityStore
