import Mathlib.Data.List.Sort
import Ads.Foundation.StateExcept
import Ads.Python.Encodings
import Ads.SandboxEgress.IdentityStore

/-!
# The encoding of the inventory

The bytes that `_inventory` of the identity store feeds to its digest: the text of each of three
queries, and behind it every column of every row that the query yields, as eight bytes of length, a
mark of its type and its value. The rows are those that `sqlite3` yields, with any value in any
column, in the order that the query asks for.

What was fed tells the updates of the digest one by one, and with them the rows of every table
(`inventory_injective`). A field is read in one way since its length stands before it; and the text
of a query is never read as a field, since its ninth byte is no mark of a type, whatever length its
first eight bytes tell. For the tables of the store this is what its digest is taken of
(`digest_eq`).
-/

set_option autoImplicit false
set_option relaxedAutoImplicit false

namespace Ads.SandboxEgress.InventoryEncoding

open Dns Foundation.PrefixCodes Foundation.StateExcept Python

/-! ### Tables -/

/-- The value of a column. -/
inductive Cell where
  | null
  | integer (value : ℤ)
  | real (value : Real64)
  | text (value : Text)
  | blob (value : Bytes)
  deriving DecidableEq

/-- A row of `keys`. -/
structure KeyCells where
  name : Cell
  kind : Cell
  publicPart : Cell
  sealedPart : Cell
  stage : Cell
  deriving DecidableEq

/-- A row of `publications`. -/
structure PublicationCells where
  name : Cell
  content : Cell
  retainUntil : Cell
  deriving DecidableEq

/-- A row of `dependencies`. -/
structure DependencyCells where
  publication : Cell
  keyName : Cell
  deriving DecidableEq

/-- The columns that the query of `keys` asks for. -/
def KeyCells.cells (row : KeyCells) : List Cell :=
  [row.name, row.kind, row.publicPart, row.sealedPart, row.stage]

/-- The columns that the query of `publications` asks for. -/
def PublicationCells.cells (row : PublicationCells) : List Cell :=
  [row.name, row.content, row.retainUntil]

/-- The columns that the query of `dependencies` asks for. -/
def DependencyCells.cells (row : DependencyCells) : List Cell :=
  [row.publication, row.keyName]

/-- The rows of the three tables. -/
structure Contents where
  keys : List KeyCells
  publications : List PublicationCells
  dependencies : List DependencyCells

/-- Two contents have the same rows, each of them as often. -/
def Contents.SameRows (contents other : Contents) : Prop :=
  contents.keys.Perm other.keys ∧ contents.publications.Perm other.publications ∧
    contents.dependencies.Perm other.dependencies

/-- How the database orders the rows of each query. -/
structure RowOrder where
  byName : List KeyCells → List KeyCells
  byPublicationName : List PublicationCells → List PublicationCells
  byPublicationAndKeyName : List DependencyCells → List DependencyCells
  byName_perm : ∀ rows, (byName rows).Perm rows
  byPublicationName_perm : ∀ rows, (byPublicationName rows).Perm rows
  byPublicationAndKeyName_perm : ∀ rows, (byPublicationAndKeyName rows).Perm rows

/-! ### Updates of the digest -/

/-- What `_inventory` raises. -/
inductive InventoryRaised where
  /-- `StateUnavailable`. -/
  | stateUnavailable (reason : String)
  /-- `OverflowError`, of a length that eight bytes do not hold. -/
  | overflowError
  deriving DecidableEq, Repr

/-- The value of a field behind the mark of its type. -/
def Cell.encoded : Cell → Except InventoryRaised Bytes
  | .blob value => return 66 :: value
  | .text value => return 83 :: encodeUtf8 value
  | .real value => return 70 :: encodeUtf8 value.hex
  | .null | .integer _ => throw (.stateUnavailable "invalid persistent field type")

/-- The bytes that were counted, and the updates of the digest. -/
structure Fed where
  total : ℕ
  updates : List Bytes

/-- The digest of nothing. -/
def Fed.start : Fed where
  total := 0
  updates := []

/-- A value of a row. -/
def feedValue (capacity : ℤ) (fed : Fed) (value : Cell) : Except InventoryRaised Fed := do
  let encoded ← value.encoded
  let total := fed.total + (encoded.length + 8)
  failIf (capacity < total) (.stateUnavailable "persistent inventory capacity")
  failIf (256 ^ 8 ≤ encoded.length) .overflowError
  return { total, updates := fed.updates ++ [toBytes8 encoded.length, encoded] }

/-- A row. -/
def feedRow (capacity : ℤ) (fed : Fed) (row : List Cell) : Except InventoryRaised Fed :=
  row.foldlM (feedValue capacity) fed

/-- A query, and the rows that it yields. -/
def feedQuery (capacity : ℤ) (fed : Fed) (query : Text × List (List Cell)) :
    Except InventoryRaised Fed :=
  query.2.foldlM (feedRow capacity) { fed with updates := fed.updates ++ [encodeUtf8 query.1] }

/-- The query of `keys`. -/
def keysQuery : Text :=
  "SELECT name,kind,public,sealed,stage FROM keys ORDER BY name".toList

/-- The query of `publications`. -/
def publicationsQuery : Text :=
  "SELECT name,content,retain_until FROM publications ORDER BY name".toList

/-- The query of `dependencies`. -/
def dependenciesQuery : Text :=
  "SELECT publication,key_name FROM dependencies ORDER BY publication,key_name".toList

/-- The queries with the rows that they yield. -/
def queries (order : RowOrder) (contents : Contents) : List (Text × List (List Cell)) :=
  [(keysQuery, (order.byName contents.keys).map KeyCells.cells),
    (publicationsQuery, (order.byPublicationName contents.publications).map PublicationCells.cells),
    (dependenciesQuery,
      (order.byPublicationAndKeyName contents.dependencies).map DependencyCells.cells)]

/-- The updates of the digest. -/
def inventoryUpdates (capacity : ℤ) (order : RowOrder) (contents : Contents) :
    Except InventoryRaised (List Bytes) := do
  let fed ← (queries order contents).foldlM (feedQuery capacity) .start
  return fed.updates

/-- `_inventory`. -/
def inventory (sha256 : Bytes → Bytes) (capacity : ℤ) (order : RowOrder) (contents : Contents) :
    Except InventoryRaised Bytes := do
  return sha256 (← inventoryUpdates capacity order contents).flatten

/-! ### Fields -/

/-- The bytes of a value that is encoded. -/
def Cell.bytes : Cell → Bytes
  | .blob value => 66 :: value
  | .text value => 83 :: encodeUtf8 value
  | .real value => 70 :: encodeUtf8 value.hex
  | .null | .integer _ => []

/-- The updates for a value. -/
def Cell.field (value : Cell) : List Bytes :=
  [toBytes8 value.bytes.length, value.bytes]

/-- A value that is fed: it is encoded, and eight bytes hold its length. -/
def Cell.IsFed (value : Cell) : Prop :=
  value.encoded = .ok value.bytes ∧ value.bytes.length < 256 ^ 8

/-- The updates for a query. -/
def piece (query : Text × List (List Cell)) : List Bytes :=
  encodeUtf8 query.1 :: query.2.flatMap fun row ↦ row.flatMap Cell.field

variable {capacity : ℤ} {order : RowOrder} {contents : Contents} {fed next : Fed} {value : Cell}

/-- Only such a value is encoded to its bytes. -/
theorem Cell.encoded_eq_ok {encoded : Bytes} (hencoded : value.encoded = .ok encoded) :
    encoded = value.bytes := by
  cases value with
  | null => cases hencoded
  | integer value => cases hencoded
  | real value => exact (Except.ok.inj hencoded).symm
  | text value => exact (Except.ok.inj hencoded).symm
  | blob value => exact (Except.ok.inj hencoded).symm

/-- A value that was taken is fed as a field. -/
theorem feedValue_eq_ok (hfeed : feedValue capacity fed value = .ok next) :
    value.IsFed ∧ next.updates = fed.updates ++ value.field := by
  simp only [feedValue, except_bind_eq_ok, failIf_eq_ok, except_pure_eq_ok] at hfeed
  obtain ⟨encoded, hencoded, -, -, -, hlength, rfl⟩ := hfeed
  obtain rfl := Cell.encoded_eq_ok hencoded
  exact ⟨⟨hencoded, not_le.mp hlength⟩, rfl⟩

/-- A row that was taken is fed field by field. -/
theorem feedRow_eq_ok {row : List Cell} (hfeed : feedRow capacity fed row = .ok next) :
    (∀ value ∈ row, value.IsFed) ∧ next.updates = fed.updates ++ row.flatMap Cell.field :=
  except_foldlM_appends hfeed fun _ _ _ ↦ feedValue_eq_ok

/-- A query that was taken is fed with its rows. -/
theorem feedQuery_eq_ok {query : Text × List (List Cell)}
    (hfeed : feedQuery capacity fed query = .ok next) :
    (∀ row ∈ query.2, ∀ value ∈ row, value.IsFed) ∧ next.updates = fed.updates ++ piece query := by
  obtain ⟨hrows, hupdates⟩ := except_foldlM_appends hfeed fun _ _ _ ↦ feedRow_eq_ok
  refine ⟨hrows, ?_⟩
  rw [hupdates, piece, List.append_assoc, List.singleton_append]

/-- The inventory is fed query by query. -/
theorem inventoryUpdates_eq_ok {updates : List Bytes}
    (hupdates : inventoryUpdates capacity order contents = .ok updates) :
    (∀ query ∈ queries order contents, ∀ row ∈ query.2, ∀ value ∈ row, value.IsFed) ∧
      updates = (queries order contents).flatMap piece := by
  rw [inventoryUpdates, except_bind_eq_ok] at hupdates
  obtain ⟨fed, hfed, hpure⟩ := hupdates
  obtain ⟨hqueries, hall⟩ := except_foldlM_appends hfed fun _ _ _ ↦ feedQuery_eq_ok
  exact ⟨hqueries, (Except.ok.inj hpure).symm.trans hall⟩

/-! ### Unique reading -/

/-- What is written for a value. -/
def Cell.written (value : Cell) : Bytes :=
  toBytes8 value.bytes.length ++ value.bytes

@[simp] theorem length_toBytes8 {value : ℕ} : (toBytes8 value).length = 8 := by
  simp [toBytes8]

/-- The marks of the types. -/
def typeMarks : List Octet :=
  [66, 83, 70]

/-- A value that is fed begins with the mark of its type. -/
theorem Cell.IsFed.head_bytes (hfed : value.IsFed) : ∃ mark ∈ typeMarks,
    ∃ rest, value.bytes = mark :: rest := by
  cases value with
  | null => cases hfed.1
  | integer value => cases hfed.1
  | real value => exact ⟨70, by decide, _, rfl⟩
  | text value => exact ⟨83, by decide, _, rfl⟩
  | blob value => exact ⟨66, by decide, _, rfl⟩

/-- The mark and the value behind it tell a value that is fed. -/
theorem Cell.eq_of_bytes {other : Cell} (hvalue : value.IsFed) (hother : other.IsFed)
    (heq : value.bytes = other.bytes) : value = other := by
  cases value with
  | null => cases hvalue.1
  | integer value => cases hvalue.1
  | real value =>
    cases other with
    | null => cases hother.1
    | integer other => cases hother.1
    | real other =>
      exact congrArg real (Real64.hex_injective (encodeUtf8_injective (List.cons.inj heq).2))
    | text other => exact absurd (List.cons.inj heq).1 (by decide)
    | blob other => exact absurd (List.cons.inj heq).1 (by decide)
  | text value =>
    cases other with
    | null => cases hother.1
    | integer other => cases hother.1
    | real other => exact absurd (List.cons.inj heq).1 (by decide)
    | text other => exact congrArg text (encodeUtf8_injective (List.cons.inj heq).2)
    | blob other => exact absurd (List.cons.inj heq).1 (by decide)
  | blob value =>
    cases other with
    | null => cases hother.1
    | integer other => cases hother.1
    | real other => exact absurd (List.cons.inj heq).1 (by decide)
    | text other => exact absurd (List.cons.inj heq).1 (by decide)
    | blob other => exact congrArg blob (List.cons.inj heq).2

/-- The length before a value lets it be read in one way. -/
theorem prefixFree_written : PrefixFree Cell.IsFed Cell.written := by
  refine prefixFree_framed (prefixFree_of_length 8 (fun _ _ ↦ length_toBytes8) ?_)
    fun value other ↦ Cell.eq_of_bytes
  rintro _ _ ⟨value, hvalue, rfl⟩ ⟨other, hother, rfl⟩ heq
  exact eq_of_toBytes8 hvalue.2 hother.2 heq

/-- A text whose ninth byte is no mark, or that ends before it, is not read as a value. -/
theorem Cell.IsFed.written_ne {rest : Bytes} (hrest : ∀ mark ∈ typeMarks, rest[8]? ≠ some mark)
    (value : Cell) (tail : Bytes) (hfed : value.IsFed) : value.written ++ tail ≠ rest := by
  obtain ⟨mark, hmark, behind, hbytes⟩ := hfed.head_bytes
  rintro rfl
  refine hrest mark hmark ?_
  rw [written, List.append_assoc, List.getElem?_append_right (by simp), length_toBytes8, hbytes]
  rfl


/-- No value is written as nothing. -/
theorem Cell.written_ne_nil : value.written ≠ [] := by
  intro hnil
  have hlength := congrArg List.length (List.append_eq_nil_iff.mp hnil).1
  rw [length_toBytes8] at hlength
  cases hlength

/-- The text of a later query is not read as a value, whatever comes behind it. -/
theorem Cell.IsFed.written_ne_query {query : Text}
    (hquery : query = publicationsQuery ∨ query = dependenciesQuery) (behind : Bytes)
    (value : Cell) (tail : Bytes) (hfed : value.IsFed) :
    value.written ++ tail ≠ encodeUtf8 query ++ behind := by
  have hninth : 8 < (encodeUtf8 query).length ∧
      ∀ mark ∈ typeMarks, (encodeUtf8 query)[8]? ≠ some mark := by
    rcases hquery with rfl | rfl
    · decide +kernel
    · decide +kernel
  refine hfed.written_ne (fun mark hmark ↦ ?_) value tail
  rw [List.getElem?_append_left hninth.1]
  exact hninth.2 mark hmark

/-- The bytes for a query are its text and its values. -/
theorem flatten_piece {ρ : Type} {text : Text} {cells : ρ → List Cell} {rows : List ρ} :
    (piece (text, rows.map cells)).flatten =
      encodeUtf8 text ++ (rows.flatMap cells).flatMap Cell.written := by
  rw [piece, List.flatten_cons, List.flatMap_map, ← List.flatMap_assoc]
  congr 1
  induction rows.flatMap cells with
  | nil => rfl
  | cons value values ih => simp [Cell.field, Cell.written, ih]

/-- All columns of the rows of a query are fed. -/
theorem isFed_of_mem_flatMap {ρ : Type} {cells : ρ → List Cell} {rows : List ρ}
    (hrows : ∀ row ∈ rows.map cells, ∀ value ∈ row, value.IsFed) :
    ∀ value ∈ rows.flatMap cells, value.IsFed := by
  intro value hvalue
  obtain ⟨row, hrow, hmem⟩ := List.mem_flatMap.mp hvalue
  exact hrows (cells row) (List.mem_map_of_mem hrow) value hmem

/-- Rows of five columns are told by the columns one after the other. -/
theorem KeyCells.flatMap_cells_injective :
    Function.Injective fun rows : List KeyCells ↦ rows.flatMap cells := by
  refine flatMap_injective_of_length (Nat.succ_pos 4) (fun _ ↦ rfl) fun row other heq ↦ ?_
  cases row
  cases other
  simpa [cells] using heq

/-- Rows of three columns are told by the columns one after the other. -/
theorem PublicationCells.flatMap_cells_injective :
    Function.Injective fun rows : List PublicationCells ↦ rows.flatMap cells := by
  refine flatMap_injective_of_length (Nat.succ_pos 2) (fun _ ↦ rfl) fun row other heq ↦ ?_
  cases row
  cases other
  simpa [cells] using heq

/-- Rows of two columns are told by the columns one after the other. -/
theorem DependencyCells.flatMap_cells_injective :
    Function.Injective fun rows : List DependencyCells ↦ rows.flatMap cells := by
  refine flatMap_injective_of_length (Nat.succ_pos 1) (fun _ ↦ rfl) fun row other heq ↦ ?_
  cases row
  cases other
  simpa [cells] using heq

/-- Rows that the database yields in the same order are the same rows. -/
theorem perm_of_ordered {ρ : Type} {ordered otherOrdered : List ρ → List ρ}
    (hperm : ∀ rows, (ordered rows).Perm rows) (hotherPerm : ∀ rows, (otherOrdered rows).Perm rows)
    {rows others : List ρ} (heq : ordered rows = otherOrdered others) : rows.Perm others :=
  (hperm rows).symm.trans (heq ▸ hotherPerm others)

/-- The bytes that the inventory of one content feeds to the digest are those of another one only if
the updates are the same and the tables have the same rows: no value is read as the boundary of a
field or of a row, or as the start of the next table. -/
theorem inventory_injective {capacity otherCapacity : ℤ} {order otherOrder : RowOrder}
    {contents other : Contents} {updates otherUpdates : List Bytes}
    (hupdates : inventoryUpdates capacity order contents = .ok updates)
    (hother : inventoryUpdates otherCapacity otherOrder other = .ok otherUpdates)
    (heq : updates.flatten = otherUpdates.flatten) :
    updates = otherUpdates ∧ contents.SameRows other := by
  obtain ⟨hfed, rfl⟩ := inventoryUpdates_eq_ok hupdates
  obtain ⟨hotherFed, rfl⟩ := inventoryUpdates_eq_ok hother
  simp only [queries, List.forall_mem_cons] at hfed hotherFed
  obtain ⟨hkeys, hpublications, hdependencies, -⟩ := hfed
  obtain ⟨hotherKeys, hotherPublications, hotherDependencies, -⟩ := hotherFed
  simp only [queries, List.flatMap_cons, List.flatMap_nil, List.append_nil, List.flatten_append,
    flatten_piece, List.append_assoc, List.append_cancel_left_eq] at heq
  -- the fields of each table end where the text of the next query begins
  obtain ⟨hkeyCells, hmiddle⟩ := prefixFree_written.flatMap (isFed_of_mem_flatMap hkeys)
    (isFed_of_mem_flatMap hotherKeys) (Cell.IsFed.written_ne_query (.inl rfl) _)
    (Cell.IsFed.written_ne_query (.inl rfl) _) heq
  replace hmiddle := List.append_cancel_left hmiddle
  obtain ⟨hpublicationCells, hlast⟩ := prefixFree_written.flatMap
    (isFed_of_mem_flatMap hpublications) (isFed_of_mem_flatMap hotherPublications) (Cell.IsFed.written_ne_query (.inr rfl) _)
    (Cell.IsFed.written_ne_query (.inr rfl) _) hmiddle
  replace hlast := List.append_cancel_left hlast
  have hdependencyCells := prefixFree_written.eq_of_flatMap (isFed_of_mem_flatMap hdependencies)
    (isFed_of_mem_flatMap hotherDependencies) (fun _ _ ↦ Cell.written_ne_nil) hlast
  have hkeyRows := KeyCells.flatMap_cells_injective hkeyCells
  have hpublicationRows := PublicationCells.flatMap_cells_injective hpublicationCells
  have hdependencyRows := DependencyCells.flatMap_cells_injective hdependencyCells
  refine ⟨?_, perm_of_ordered order.byName_perm otherOrder.byName_perm hkeyRows,
    perm_of_ordered order.byPublicationName_perm otherOrder.byPublicationName_perm hpublicationRows,
    perm_of_ordered order.byPublicationAndKeyName_perm otherOrder.byPublicationAndKeyName_perm
      hdependencyRows⟩
  rw [queries, queries, hkeyRows, hpublicationRows, hdependencyRows]

/-- The text of a value that is a text. -/
def Cell.textOf : Cell → Text
  | .text value => value
  | _ => []

/-- The order of the database, for tables whose names are texts. -/
def textOrder : RowOrder where
  byName rows := rows.insertionSort fun row other ↦ row.name.textOf ≤ other.name.textOf
  byPublicationName rows := rows.insertionSort fun row other ↦ row.name.textOf ≤ other.name.textOf
  byPublicationAndKeyName rows := rows.insertionSort fun row other ↦
    row.publication.textOf < other.publication.textOf ∨
      row.publication.textOf = other.publication.textOf ∧
        row.keyName.textOf ≤ other.keyName.textOf
  byName_perm rows := List.perm_insertionSort _ rows
  byPublicationName_perm rows := List.perm_insertionSort _ rows
  byPublicationAndKeyName_perm rows := List.perm_insertionSort _ rows

/-- A key whose name is the text of a query. -/
def queryKey : KeyCells where
  name := .text publicationsQuery
  kind := .text "tls".toList
  publicPart := .blob [1]
  sealedPart := .blob []
  stage := .text "active".toList

/-- A root key. -/
def rootKey : KeyCells where
  name := .text "root".toList
  kind := .text "root".toList
  publicPart := .blob (encodeUtf8 keysQuery)
  sealedPart := .blob [2, 3]
  stage := .text "retired".toList

/-- A publication of the two keys, that were inserted in the one or the other order. -/
def published (keys : List KeyCells) : Contents where
  keys := keys
  publications := [⟨.text "zone".toList, .blob [7], .real ⟨false, 1023, 0, by decide⟩⟩]
  dependencies := [⟨.text "zone".toList, .text "root".toList⟩]

theorem inventory_injective_published :
    (inventoryUpdates 65536 textOrder (published [queryKey, rootKey])).isOk = true ∧
    inventoryUpdates 65536 textOrder (published [queryKey, rootKey]) =
      inventoryUpdates 65536 textOrder (published [rootKey, queryKey]) ∧
    (published [queryKey, rootKey]).SameRows (published [rootKey, queryKey]) := by
  have hok : (inventoryUpdates 65536 textOrder (published [queryKey, rootKey])).isOk = true := by
    decide +kernel
  have hsame : inventoryUpdates 65536 textOrder (published [queryKey, rootKey]) =
      inventoryUpdates 65536 textOrder (published [rootKey, queryKey]) := by
    decide +kernel
  refine ⟨hok, hsame, ?_⟩
  cases hupdates : inventoryUpdates 65536 textOrder (published [queryKey, rootKey]) with
  | error failure =>
    rw [hupdates] at hok
    cases hok
  | ok updates => exact (inventory_injective hupdates (hsame.symm.trans hupdates) rfl).2

/-! ### The store -/

/-- The columns of a key of the store. -/
def keyCells (row : IdentityStore.KeyRow) : KeyCells where
  name := .text row.name
  kind := .text row.kind.text
  publicPart := .blob row.publicPart
  sealedPart := .blob row.sealedPart
  stage := .text row.stage.text

/-- The columns of a publication of the store. -/
def publicationCells (realOf : ℚ → Real64) (row : IdentityStore.PublicationRow) :
    PublicationCells where
  name := .text row.name
  content := .blob row.content
  retainUntil := .real (realOf row.retainUntil)

/-- The columns of a dependency of the store. -/
def dependencyCells (row : IdentityStore.Dependency) : DependencyCells where
  publication := .text row.publication
  keyName := .text row.keyName

/-- The columns of the tables of the store. -/
def contentsOf (realOf : ℚ → Real64) (tables : IdentityStore.IdentityTables) : Contents where
  keys := tables.keys.rows.map keyCells
  publications := tables.publications.rows.map (publicationCells realOf)
  dependencies := tables.dependencies.rows.map dependencyCells

/-- The digest of the store is that of what is fed for the columns of its tables. -/
theorem digest_eq {custody : IdentityStore.Custody} {realOf : ℚ → Real64}
    (hhex : ∀ value, custody.hex value = encodeUtf8 (realOf value).hex) {capacity : ℤ}
    {tables : IdentityStore.IdentityTables} {updates : List Bytes}
    (hupdates : inventoryUpdates capacity textOrder (contentsOf realOf tables) = .ok updates) :
    custody.digest tables = custody.sha256 updates.flatten := by
  obtain ⟨-, rfl⟩ := inventoryUpdates_eq_ok hupdates
  have hlength : IdentityStore.Custody.lengthBytes = toBytes8 := by
    funext value
    simp [IdentityStore.Custody.lengthBytes, toBytes8, fixedDigits, Fin.ofNat]
  have hkeys : textOrder.byName (contentsOf realOf tables).keys =
      (tables.keys.rows.insertionSort fun row other ↦ row.name ≤ other.name).map keyCells := by
    symm
    exact List.map_insertionSort _ _ keyCells _ fun _ _ _ _ ↦ Iff.rfl
  have hpublications : textOrder.byPublicationName (contentsOf realOf tables).publications =
      (tables.publications.rows.insertionSort fun row other ↦ row.name ≤ other.name).map
        (publicationCells realOf) := by
    symm
    exact List.map_insertionSort _ _ (publicationCells realOf) _ fun _ _ _ _ ↦ Iff.rfl
  have hdependencies : textOrder.byPublicationAndKeyName (contentsOf realOf tables).dependencies =
      (tables.dependencies.rows.insertionSort fun row other ↦ row.publication < other.publication ∨
        row.publication = other.publication ∧ row.keyName ≤ other.keyName).map dependencyCells := by
    symm
    exact List.map_insertionSort _ _ dependencyCells _ fun _ _ _ _ ↦ Iff.rfl
  have htext : ∀ text, (Cell.text text).written =
      toBytes8 (custody.encoded (.text text)).length ++ custody.encoded (.text text) := fun _ ↦ rfl
  have hblob : ∀ value, (Cell.blob value).written =
      toBytes8 (custody.encoded (.bytes value)).length ++ custody.encoded (.bytes value) :=
    fun _ ↦ rfl
  have hreal : ∀ value, (Cell.real (realOf value)).written =
      toBytes8 (custody.encoded (.number value)).length ++ custody.encoded (.number value) := by
    intro value
    simp only [Cell.written, Cell.bytes, IdentityStore.Custody.encoded, hhex]
  simp only [queries, hkeys, hpublications, hdependencies, List.flatMap_cons, List.flatMap_nil,
    List.append_nil, List.flatten_append, flatten_piece, List.flatMap_map, List.flatMap_assoc,
    IdentityStore.Custody.digest, IdentityStore.Custody.inventoryQueries, List.append_assoc]
  simp only [keyCells, publicationCells, dependencyCells, KeyCells.cells, PublicationCells.cells,
    DependencyCells.cells, List.flatMap_cons, List.flatMap_nil, List.append_nil, List.append_assoc,
    htext, hblob, hreal, hlength]
  unfold keysQuery publicationsQuery dependenciesQuery
  with_reducible rfl

end Ads.SandboxEgress.InventoryEncoding
