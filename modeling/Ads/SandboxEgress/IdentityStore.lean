import Mathlib
import Ads.Foundation.Interrupted
import Ads.Foundation.Table
import Ads.Python.Text

/-!
# The identity store

The model of `IdentityStore`: keys with their stages, publications with their retention, and which
publication depends on which key, in one database whose rows are sealed as an inventory. Every
operation is one transaction, that writes all or nothing, and most of them sync the directory once
the transaction has committed.

What the store does not decide is in the surroundings of each call: whether a statement or the commit
fails, whether the sync fails, how many bytes the pages of the database take, and the nonces. The
cipher, the digest and the text of a float are those of the custody. A float that is not finite is
none, and the rational that it is otherwise.
-/

set_option autoImplicit false
set_option relaxedAutoImplicit false

namespace Ads.SandboxEgress

open Dns Foundation Foundation.StateExcept Foundation.Interrupted Python

namespace IdentityStore

/-! ### Tables -/

/-- What an operation raises. -/
inductive StoreRaised where
  /-- `StateUnavailable`. -/
  | stateUnavailable (reason : String)
  /-- `ValueError`. -/
  | valueError (reason : String)
  /-- An exception of the database or of the file system. -/
  | system (name : String)
  /-- The process ends. -/
  | killed
  deriving DecidableEq, Repr

/-- The kind of a key. -/
inductive KeyKind where
  | root
  | dnssec
  | ech
  | tls
  deriving DecidableEq, Repr

/-- The stage of a key. -/
inductive KeyStage where
  | prepared
  | published
  | active
  | retiring
  | retired
  deriving DecidableEq, Repr

/-- The text of a kind. -/
def KeyKind.text : KeyKind → Text
  | .root => "root".toList
  | .dnssec => "dnssec".toList
  | .ech => "ech".toList
  | .tls => "tls".toList

/-- The text of a stage. -/
def KeyStage.text : KeyStage → Text
  | .prepared => "prepared".toList
  | .published => "published".toList
  | .active => "active".toList
  | .retiring => "retiring".toList
  | .retired => "retired".toList

/-- The place of a stage among the stages. -/
def KeyStage.rank : KeyStage → ℕ
  | .prepared => 0
  | .published => 1
  | .active => 2
  | .retiring => 3
  | .retired => 4

/-- The stage that `advance` moves a key to. -/
def KeyStage.next : KeyStage → Option KeyStage
  | .prepared => some .published
  | .published => some .active
  | .active => some .retiring
  | .retiring => none
  | .retired => none

/-- A row of `keys`. -/
structure KeyRow where
  name : Text
  kind : KeyKind
  publicPart : Bytes
  sealedPart : Bytes
  stage : KeyStage
  deriving DecidableEq

/-- A row of `publications`. -/
structure PublicationRow where
  name : Text
  content : Bytes
  retainUntil : ℚ
  deriving DecidableEq

/-- A row of `dependencies`. -/
structure Dependency where
  publication : Text
  keyName : Text
  deriving DecidableEq

/-- The database, with the sealed inventory of the row of `identity`. -/
structure IdentityTables where
  keys : Table KeyRow.name
  publications : Table PublicationRow.name
  dependencies : Table (id : Dependency → Dependency)
  inventory : Bytes

/-- The row of a key at another stage. -/
def atStage (stage : KeyStage) : Change KeyRow.name where
  apply row := { row with stage := stage }
  key_apply _ := rfl

/-- The row that retirement leaves of a key. -/
def tombstone : Change KeyRow.name where
  apply row := { row with stage := .retired, sealedPart := [] }
  key_apply _ := rfl

/-! ### Custody -/

/-- Twelve random bytes. -/
abbrev Nonce := { bytes : Bytes // bytes.length = 12 }

/-- What the store is opened with: the cipher under the wrapping key, the encoded identity, the
capacity, and what the digest and the text of a float are. -/
structure Custody where
  encrypt : Bytes → Bytes → Bytes → Bytes
  decrypt : Bytes → Bytes → Bytes → Option Bytes
  binding : Bytes
  sha256 : Bytes → Bytes
  hex : ℚ → Bytes
  capacity : ℕ
  decrypt_encrypt : ∀ nonce value associated,
    decrypt nonce (encrypt nonce value associated) associated = some value
  capacity_le : 65536 ≤ capacity

namespace Custody

variable (custody : Custody)

/-- The associated data of a label. -/
def associated (label : Bytes) : Bytes :=
  custody.binding ++ 0 :: label

/-- `_seal`. -/
def sealed (nonce : Nonce) (label value : Bytes) : Bytes :=
  nonce.val ++ custody.encrypt nonce.val value (custody.associated label)

/-- `_open`. -/
def opened (label value : Bytes) : Except StoreRaised Bytes :=
  match custody.decrypt (value.take 12) (value.drop 12) (custody.associated label) with
  | none => throw (.stateUnavailable "persistent authentication failure")
  | some value => return value

/-- `_key_label`. -/
def keyLabel (name : Text) (kind : KeyKind) (publicPart : Bytes) : Bytes :=
  encodeUtf8 (kind.text ++ ':' :: name) ++ 0 :: custody.sha256 publicPart

/-! ### Inventory -/

/-- A field of a row, as the inventory encodes it. -/
inductive Field where
  | bytes (value : Bytes)
  | text (value : Text)
  | number (value : ℚ)

/-- The bytes of a field, behind a byte for its type. -/
def encoded : Field → Bytes
  | .bytes value => 66 :: value
  | .text value => 83 :: encodeUtf8 value
  | .number value => 70 :: custody.hex value

/-- `int.to_bytes(8, "big")`. -/
def lengthBytes (value : ℕ) : Bytes :=
  (List.range 8).reverse.map fun place ↦ Fin.ofNat 256 (value / 256 ^ place)

/-- The queries of the inventory and the fields of the rows that each yields. -/
def inventoryQueries (tables : IdentityTables) : List (Text × List Field) :=
  [("SELECT name,kind,public,sealed,stage FROM keys ORDER BY name".toList,
      (tables.keys.rows.insertionSort fun first second ↦ first.name ≤ second.name).flatMap
        fun row ↦ [.text row.name, .text row.kind.text, .bytes row.publicPart,
          .bytes row.sealedPart, .text row.stage.text]),
    ("SELECT name,content,retain_until FROM publications ORDER BY name".toList,
      (tables.publications.rows.insertionSort fun first second ↦ first.name ≤ second.name).flatMap
        fun row ↦ [.text row.name, .bytes row.content, .number row.retainUntil]),
    ("SELECT publication,key_name FROM dependencies ORDER BY publication,key_name".toList,
      (tables.dependencies.rows.insertionSort fun first second ↦
          first.publication < second.publication ∨
            (first.publication = second.publication ∧ first.keyName ≤ second.keyName)).flatMap
        fun row ↦ [.text row.publication, .text row.keyName])]

/-- The bytes that the inventory counts. -/
def inventorySize (tables : IdentityTables) : ℕ :=
  ((inventoryQueries tables).flatMap fun query ↦
    query.2.map fun field ↦ (custody.encoded field).length + 8).sum

/-- The digest of the rows. -/
def digest (tables : IdentityTables) : Bytes :=
  custody.sha256 ((inventoryQueries tables).flatMap fun query ↦
    encodeUtf8 query.1 ++ query.2.flatMap fun field ↦
      lengthBytes (custody.encoded field).length ++ custody.encoded field)

/-- `_inventory`. -/
def inventory (tables : IdentityTables) : Except StoreRaised Bytes := do
  -- The total only grows, so it passes the capacity at some field exactly when it ends above it.
  failIf (custody.capacity < custody.inventorySize tables)
    (.stateUnavailable "persistent inventory capacity")
  return custody.digest tables

/-- `b"inventory"`. -/
def inventoryLabel : Bytes :=
  encodeUtf8 "inventory".toList

/-- `_verify_inventory`. -/
def verifyInventory (tables : IdentityTables) : Except StoreRaised Unit := do
  let stored ← custody.opened inventoryLabel tables.inventory
  let recomputed ← custody.inventory tables
  failIf (stored ≠ recomputed) (.stateUnavailable "persistent inventory authentication failure")

/-- `_commit_inventory`. -/
def commitInventory (nonce : Nonce) : StateT IdentityTables (Except StoreRaised) Unit := do
  let tables ← get
  let recomputed ← custody.inventory tables
  set { tables with inventory := custody.sealed nonce inventoryLabel recomputed }

/-- The bytes that the quota counts. -/
def used (tables : IdentityTables) : ℕ :=
  (tables.keys.rows.map fun row ↦
      row.publicPart.length + row.sealedPart.length + row.name.length + 128).sum +
    (tables.publications.rows.map fun row ↦ row.content.length + row.name.length + 128).sum

/-- `_reserve`. -/
def reserve (tables : IdentityTables) (physical added : ℕ) : Except StoreRaised Unit :=
  failIf (custody.capacity < used tables + added ∨ custody.capacity < physical + added)
    (.stateUnavailable "persistent quota exhausted")

end Custody

/-! ### Reading -/

/-- A character of a name. -/
def isNameChar (char : Char) : Bool :=
  (97 ≤ char.toNat && char.toNat ≤ 122) || (65 ≤ char.toNat && char.toNat ≤ 90) || isDigit char ||
    char == '_' || char == '.' || char == ':' || char == '/' || char == '-'

/-- `_name`. -/
def checkName (name : Text) : Except StoreRaised Unit :=
  failIf (¬ (1 ≤ name.length ∧ name.length ≤ 512 ∧ name.all isNameChar = true))
    (.valueError "invalid identity name")

/-- What `find_key` returns. -/
structure StoredKey where
  kind : KeyKind
  publicPart : Bytes
  privatePart : Bytes
  stage : KeyStage
  deriving DecidableEq

section Reading

variable (custody : Custody) (tables : IdentityTables)

/-- `find_key`. -/
def findKey (name : Text) : Except StoreRaised (Option StoredKey) := do
  custody.verifyInventory tables
  match tables.keys.find name with
  | none => return none
  | some row =>
    failIf (row.stage = .retired) (.stateUnavailable "required persistent key unavailable")
    let privatePart ← custody.opened (custody.keyLabel name row.kind row.publicPart) row.sealedPart
    return some ⟨row.kind, row.publicPart, privatePart, row.stage⟩

/-- `key`. -/
def key (name : Text) : Except StoreRaised StoredKey := do
  match ← findKey custody tables name with
  | none => throw (.stateUnavailable "required persistent key unavailable")
  | some found => return found

/-- The rows of a journal: those from the prefix up to the prefix and a tilde. -/
def journal (start : Text) : List PublicationRow :=
  tables.publications.rows.filter fun row ↦ start ≤ row.name ∧ row.name < start ++ ['~']

/-- The first row of a journal, `ORDER BY name DESC`. -/
def journalHead (start : Text) : Option PublicationRow :=
  ((journal tables start).insertionSort fun first second ↦ second.name ≤ first.name).head?

/-- `publication_head`. -/
def publicationHead (start : Text) : Except StoreRaised (Option PublicationRow) := do
  checkName start
  failIf (start.getLast? ≠ some '/') (.valueError "publication prefix must end with slash")
  custody.verifyInventory tables
  return journalHead tables start

/-- The publications that depend on a key. -/
def dependents (name : Text) : List PublicationRow :=
  tables.publications.rows.filter fun row ↦ ⟨row.name, name⟩ ∈ tables.dependencies.rows

/-- `dependency_horizon`. -/
def dependencyHorizon (name : Text) : Except StoreRaised ℚ := do
  let _ ← key custody tables name
  return ((dependents tables name).map PublicationRow.retainUntil).maximum.unbotD 0

/-- `key_names`. -/
def keyNames (kind : KeyKind) : Except StoreRaised (List Text) := do
  custody.verifyInventory tables
  return ((tables.keys.rows.filter fun row ↦ row.kind = kind).map KeyRow.name).insertionSort (· ≤ ·)

/-- `key_stage`. -/
def keyStage (name : Text) : Except StoreRaised KeyStage := do
  custody.verifyInventory tables
  match tables.keys.find name with
  | none => throw (.stateUnavailable "required persistent key unavailable")
  | some row => return row.stage

/-- A lowercase hexadecimal digit. -/
def isHexChar (char : Char) : Bool :=
  isDigit char || (97 ≤ char.toNat && char.toNat ≤ 102)

/-- `_crl_prefix`. -/
def crlPrefix (issuer : Text) : Except StoreRaised Text := do
  failIf (¬ (issuer.length = 64 ∧ issuer.all isHexChar = true))
    (.valueError "invalid CRL issuer identity")
  return "crl/".toList ++ issuer ++ ['/']

/-- `crl_head`: the number, the content and the retention. -/
def crlHead (issuer : Text) : Except StoreRaised (Option (ℕ × PublicationRow)) := do
  let start ← crlPrefix issuer
  custody.verifyInventory tables
  match journalHead tables start with
  | none => return none
  | some row =>
    let suffix := row.name.drop start.length
    failIf (¬ (suffix.length = 20 ∧ suffix.all isDigit = true ∧ 1 ≤ decimalValue suffix ∧
        decimalValue suffix ≤ 2 ^ 63 - 1))
      (.stateUnavailable "invalid retained CRL generation")
    return some (decimalValue suffix, row)

end Reading

/-! ### Writing -/

/-- What surrounds one call of the store. -/
structure Surroundings where
  /-- What a statement or the commit raises. -/
  failure : Option StoreRaised
  /-- What `_sync_directory` raises. -/
  sync : Option StoreRaised
  /-- The bytes of the pages that the database uses. -/
  physical : ℕ
  keyNonce : Nonce
  inventoryNonce : Nonce

/-- The store, with the surroundings of the calls to come. -/
structure Store where
  tables : IdentityTables
  surroundings : ℕ → Surroundings

/-- A program on the store. -/
abbrev StoreM := Program Store StoreRaised

/-- The surroundings of the next call. -/
def draw : StoreM Surroundings :=
  fun store ↦ (.ok (store.surroundings 0),
    { store with surroundings := fun index ↦ store.surroundings (index + 1) })

/-- What the surroundings raise, if anything. -/
def raised (failure : Option StoreRaised) : Except StoreRaised Unit :=
  match failure with
  | some failure => throw failure
  | none => return ()

/-- A transaction up to its commit. -/
def committed {α : Type} (around : Surroundings)
    (body : StateT IdentityTables (Except StoreRaised) α) :
    StateT IdentityTables (Except StoreRaised) α := do
  let value ← body
  raised around.failure
  return value

/-- `with db:`, together with the reads before it. -/
def transact {α : Type} (around : Surroundings)
    (body : StateT IdentityTables (Except StoreRaised) α) : StoreM α :=
  Program.transaction Store.tables (fun tables store ↦ { store with tables := tables })
    (committed around body)

/-- `_sync_directory`. -/
def syncDirectory (around : Surroundings) : StoreM Unit :=
  Program.evaluate (raised around.sync)

/-- What follows the transaction: a sync if it asks for one. -/
def finish {α : Type} (around : Surroundings) (outcome : α × Bool) : StoreM α :=
  if outcome.2 then do
    syncDirectory around
    return outcome.1
  else return outcome.1

/-- One call of the store. -/
def operate {α : Type} (body : Surroundings → StateT IdentityTables (Except StoreRaised) (α × Bool)) :
    StoreM α := do
  let around ← draw
  let outcome ← transact around (body around)
  finish around outcome

/-- An insertion whose key is taken is refused by the database. -/
def insertRow {ρ κ : Type} [DecidableEq κ] {rowKey : ρ → κ} (table : Table rowKey) (row : ρ) :
    Except StoreRaised (Table rowKey) :=
  match table.insert row with
  | none => throw (.system "IntegrityError")
  | some inserted => return inserted

section Writing

variable (custody : Custody)

/-- The transaction of `prepare_key`. -/
def prepareKeyBody (name : Text) (kind : KeyKind) (publicPart privatePart : Bytes)
    (around : Surroundings) : StateT IdentityTables (Except StoreRaised) (Unit × Bool) := do
  checkName name
  raiseIf (publicPart = [] ∨ privatePart = [] ∨ 65536 < publicPart.length ∨
    65536 < privatePart.length) (.valueError "invalid key generation")
  let tables ← get
  custody.verifyInventory tables
  let label := custody.keyLabel name kind publicPart
  match tables.keys.find name with
  | some row =>
    raiseIf (row.kind ≠ kind ∨ row.publicPart ≠ publicPart)
      (.stateUnavailable "key generation conflict")
    let existing ← custody.opened label row.sealedPart
    raiseIf (existing ≠ privatePart) (.stateUnavailable "key generation conflict")
    return ((), false)
  | none =>
    raiseIf (kind = .root ∧ ∃ row ∈ tables.keys.rows, row.kind = .root)
      (.stateUnavailable "root rotation is not supported")
    let sealedPart := custody.sealed around.keyNonce label privatePart
    custody.reserve tables around.physical
      (name.length + publicPart.length + sealedPart.length + 128)
    let keys ← insertRow tables.keys ⟨name, kind, publicPart, sealedPart, .prepared⟩
    set { tables with keys := keys }
    custody.commitInventory around.inventoryNonce
    return ((), true)

/-- `prepare_key`. -/
def prepareKey (name : Text) (kind : KeyKind) (publicPart privatePart : Bytes) : StoreM Unit :=
  operate (prepareKeyBody custody name kind publicPart privatePart)

/-- The transaction of `advance`. -/
def advanceBody (name : Text) (expected target : KeyStage) (around : Surroundings) :
    StateT IdentityTables (Except StoreRaised) (Unit × Bool) := do
  raiseIf (expected.next ≠ some target) (.valueError "invalid key stage transition")
  let tables ← get
  custody.verifyInventory tables
  raiseIf (¬ ∃ row ∈ tables.keys.find name, row.stage = expected)
    (.stateUnavailable "key stage changed")
  set { tables with keys := tables.keys.modify name (atStage target) }
  custody.commitInventory around.inventoryNonce
  return ((), false)

/-- `advance`. -/
def advance (name : Text) (expected target : KeyStage) : StoreM Unit :=
  operate (advanceBody custody name expected target)

/-- What `commit_publication` requires of its arguments, beside the name. -/
def isPublication (name : Text) (content : Bytes) (dependencies : List Text)
    (retainUntil : Option ℚ) : Bool :=
  !decide ("crl/".toList <+: name) && !content.isEmpty && content.length ≤ 1048576 &&
    retainUntil.any (0 < ·) && !dependencies.isEmpty && dependencies.Nodup

/-- What `commit_publication` requires of a key. -/
def checkDependency (tables : IdentityTables) (dependency : Text) : Except StoreRaised Unit := do
  let found ← key custody tables dependency
  failIf (found.stage ≠ .published ∧ found.stage ≠ .active ∧ found.stage ≠ .retiring)
    (.stateUnavailable "unpublished dependency")

/-- `INSERT INTO dependencies`, for each key. -/
def insertDependencies (table : Table (id : Dependency → Dependency)) (publication : Text)
    (keyNames : List Text) : Except StoreRaised (Table (id : Dependency → Dependency)) :=
  keyNames.foldlM (fun table keyName ↦ insertRow table ⟨publication, keyName⟩) table

/-- The transaction of `commit_publication`. -/
def commitPublicationBody (name : Text) (content : Bytes) (dependencies : List Text)
    (retainUntil : Option ℚ) (around : Surroundings) :
    StateT IdentityTables (Except StoreRaised) (Unit × Bool) := do
  checkName name
  raiseIf (isPublication name content dependencies retainUntil = false)
    (.valueError "invalid publication")
  let tables ← get
  custody.verifyInventory tables
  let row : PublicationRow := ⟨name, content, retainUntil.getD 0⟩
  match tables.publications.find name with
  | some existing =>
    let original := (tables.dependencies.rows.filter fun dependency ↦
      dependency.publication = name).map Dependency.keyName
    raiseIf (existing ≠ row ∨
        original.insertionSort (· ≤ ·) ≠ dependencies.insertionSort (· ≤ ·))
      (.stateUnavailable "publication conflict")
    return ((), false)
  | none =>
    (dependencies.forM (checkDependency custody tables) : Except StoreRaised Unit)
    custody.reserve tables around.physical
      (name.length + content.length + 128 + 1024 * dependencies.length)
    let publications ← insertRow tables.publications row
    let rows ← insertDependencies tables.dependencies name dependencies
    set { tables with publications := publications, dependencies := rows }
    custody.commitInventory around.inventoryNonce
    return ((), true)

/-- `commit_publication`. -/
def commitPublication (name : Text) (content : Bytes) (dependencies : List Text)
    (retainUntil : Option ℚ) : StoreM Unit :=
  operate (commitPublicationBody custody name content dependencies retainUntil)

/-- A clock that is finite and after zero. -/
def checkClock (now : Option ℚ) (reason : String) : Except StoreRaised ℚ :=
  match now with
  | none => throw (.valueError reason)
  | some now => if now ≤ 0 then throw (.valueError reason) else return now

/-- What `prune_publications` and `prune_crls` delete: the rows of a journal before its head whose
retention has ended. -/
def isPruned (start head : Text) (now : ℚ) (row : PublicationRow) : Bool :=
  start ≤ row.name ∧ row.name < head ∧ row.retainUntil < now

/-- The names of what they delete. -/
def prunedNames (tables : IdentityTables) (start head : Text) (now : ℚ) : List Text :=
  (tables.publications.rows.filter (isPruned start head now)).map PublicationRow.name

/-- The tables without what `prune_publications` deletes. -/
def pruned (tables : IdentityTables) (start head : Text) (now : ℚ) : IdentityTables :=
  { tables with
    dependencies := tables.dependencies.filter fun row ↦
      row.publication ∉ prunedNames tables start head now
    publications := tables.publications.filter fun row ↦
      row.name ∉ prunedNames tables start head now }

/-- The transaction of `prune_publications`. -/
def prunePublicationsBody (start : Text) (now : Option ℚ) (around : Surroundings) :
    StateT IdentityTables (Except StoreRaised) (Unit × Bool) := do
  raiseIf ("crl/".toList <+: start)
    (.valueError "CRLs require their dedicated lifecycle")
  let now ← checkClock now "invalid publication retention clock"
  let tables ← get
  match ← publicationHead custody tables start with
  | none => return ((), false)
  | some head =>
    set (pruned tables start head.name now)
    custody.commitInventory around.inventoryNonce
    return ((), true)

/-- `prune_publications`. -/
def prunePublications (start : Text) (now : Option ℚ) : StoreM Unit :=
  operate (prunePublicationsBody custody start now)

/-- The transaction of `commit_crl`. -/
def commitCrlBody (issuer : Text) (expected : ℕ) (content : Bytes) (retainUntil : Option ℚ)
    (around : Surroundings) : StateT IdentityTables (Except StoreRaised) (ℕ × Bool) := do
  let start ← (crlPrefix issuer : Except StoreRaised Text)
  raiseIf (¬ (expected < 2 ^ 63 - 1 ∧ content ≠ [] ∧ content.length ≤ 1048576 ∧
    retainUntil.any (0 < ·) = true)) (.valueError "invalid CRL publication")
  let tables ← get
  let current ← crlHead custody tables issuer
  raiseIf ((current.map Prod.fst).getD 0 ≠ expected)
    (.stateUnavailable "CRL publication generation changed")
  let name := start ++ zeroPadded 20 (expected + 1)
  custody.reserve tables around.physical (name.length + content.length + 128)
  let publications ← insertRow tables.publications ⟨name, content, retainUntil.getD 0⟩
  set { tables with publications := publications }
  custody.commitInventory around.inventoryNonce
  return (expected + 1, true)

/-- `commit_crl`. -/
def commitCrl (issuer : Text) (expected : ℕ) (content : Bytes) (retainUntil : Option ℚ) :
    StoreM ℕ :=
  operate (commitCrlBody custody issuer expected content retainUntil)

/-- The tables without what `prune_crls` deletes. -/
def crlsPruned (tables : IdentityTables) (start head : Text) (now : ℚ) : IdentityTables :=
  { tables with
    publications := tables.publications.filter fun row ↦
      row.name ∉ prunedNames tables start head now }

/-- The transaction of `prune_crls`. -/
def pruneCrlsBody (issuer : Text) (now : Option ℚ) (around : Surroundings) :
    StateT IdentityTables (Except StoreRaised) (Unit × Bool) := do
  let start ← (crlPrefix issuer : Except StoreRaised Text)
  let now ← checkClock now "invalid CRL retention clock"
  let tables ← get
  match ← crlHead custody tables issuer with
  | none => return ((), false)
  | some (number, _) =>
    let head := start ++ zeroPadded 20 number
    -- A row that another one refers to is not deleted: `REFERENCES publications(name)`.
    raiseIf (∃ row ∈ tables.dependencies.rows, row.publication ∈ prunedNames tables start head now)
      (.system "IntegrityError")
    set (crlsPruned tables start head now)
    custody.commitInventory around.inventoryNonce
    return ((), true)

/-- `prune_crls`. -/
def pruneCrls (issuer : Text) (now : Option ℚ) : StoreM Unit :=
  operate (pruneCrlsBody custody issuer now)

/-- The transaction of `retire`. -/
def retireBody (name : Text) (now : Option ℚ) (around : Surroundings) :
    StateT IdentityTables (Except StoreRaised) (Unit × Bool) := do
  let now ← checkClock now "invalid retirement clock"
  let tables ← get
  let found ← key custody tables name
  raiseIf (found.kind = .root ∨ found.stage ≠ .retiring)
    (.stateUnavailable "key not eligible for retirement")
  raiseIf (∃ row ∈ dependents tables name, now ≤ row.retainUntil)
    (.stateUnavailable "live publication dependency")
  set { tables with keys := tables.keys.modify name tombstone }
  custody.commitInventory around.inventoryNonce
  return ((), false)

/-- `retire`. -/
def retire (name : Text) (now : Option ℚ) : StoreM Unit :=
  operate (retireBody custody name now)

/-- The tables that `__init__` creates. -/
def created (nonce : Nonce) : Except StoreRaised IdentityTables := do
  let tables : IdentityTables := ⟨.empty, .empty, .empty, []⟩
  let recomputed ← custody.inventory tables
  return { tables with inventory := custody.sealed nonce Custody.inventoryLabel recomputed }

end Writing

end IdentityStore

end Ads.SandboxEgress
