import Mathlib.Data.List.Basic
import Mathlib.Data.List.Nodup
import Mathlib.Logic.Basic

/-!
# Tables with a key

A table of a database holds rows of which no two have the same key. Rows are inserted unless their
key is taken, changed in place under their key, and deleted by a condition. What an operation does
is said by the rows that the table holds afterwards (`mem_insert`, `mem_modify`, `mem_filter`); a
lookup by key finds a row exactly when the table holds it (`find_eq_some_iff`).
-/

set_option autoImplicit false
set_option relaxedAutoImplicit false

namespace Ads.Foundation

/-- Rows of which no two have the same key. -/
@[ext]
structure Table {ρ κ : Type} (key : ρ → κ) where
  rows : List ρ
  nodup : (rows.map key).Nodup

/-- A change of a row that keeps its key. -/
structure Change {ρ κ : Type} (key : ρ → κ) where
  apply : ρ → ρ
  key_apply : ∀ row, key (apply row) = key row

namespace Table

variable {ρ κ : Type} [DecidableEq κ] {key : ρ → κ} {table : Table key} {row other : ρ} {wanted : κ}
  {change : Change key}

instance : Membership ρ (Table key) :=
  ⟨fun table row ↦ row ∈ table.rows⟩

instance [DecidableEq ρ] (row : ρ) (table : Table key) : Decidable (row ∈ table) :=
  inferInstanceAs (Decidable (row ∈ table.rows))

/-- A table without rows. -/
def empty : Table key :=
  ⟨[], List.nodup_nil⟩

/-- The row under a key. -/
def find (table : Table key) (wanted : κ) : Option ρ :=
  table.rows.find? fun row ↦ key row = wanted

/-- The table with a new row, unless its key is taken. -/
def insert (table : Table key) (row : ρ) : Option (Table key) :=
  if htaken : key row ∈ table.rows.map key then none
  else some ⟨row :: table.rows, List.nodup_cons.mpr ⟨htaken, table.nodup⟩⟩

/-- The table with the row under a key changed in place. -/
def modify (table : Table key) (wanted : κ) (change : Change key) : Table key :=
  ⟨table.rows.map fun row ↦ if key row = wanted then change.apply row else row, by
    have hkeys : (key ∘ fun row ↦ if key row = wanted then change.apply row else row) = key := by
      funext row
      change key (if key row = wanted then change.apply row else row) = key row
      split_ifs
      · exact change.key_apply row
      · rfl
    rw [List.map_map, hkeys]
    exact table.nodup⟩

/-- The table with a row in the place of the one with its key. -/
def put (table : Table key) (row : ρ) : Table key :=
  ⟨table.rows.map fun old ↦ if key old = key row then row else old, by
    have hkeys : (key ∘ fun old ↦ if key old = key row then row else old) = key := by
      funext old
      change key (if key old = key row then row else old) = key old
      split_ifs with hold
      · exact hold.symm
      · rfl
    rw [List.map_map, hkeys]
    exact table.nodup⟩

/-- The table with the rows that meet a condition. -/
def filter (table : Table key) (keeps : ρ → Bool) : Table key :=
  ⟨table.rows.filter keeps, table.nodup.sublist (List.filter_sublist.map key)⟩

/-- The table with a row under its key, whether the key was taken or not. -/
def save (table : Table key) (row : ρ) : Table key :=
  ⟨row :: table.rows.filter fun old ↦ key old ≠ key row, by
    rw [List.map_cons, List.nodup_cons]
    refine ⟨fun htaken ↦ ?_, table.nodup.sublist (List.filter_sublist.map key)⟩
    obtain ⟨old, hold, hkey⟩ := List.mem_map.mp htaken
    simp [hkey] at hold⟩

omit [DecidableEq κ] in
@[simp] theorem not_mem_empty : row ∉ (empty : Table key) :=
  List.not_mem_nil

omit [DecidableEq κ] in
/-- Rows with the same key are the same. -/
theorem eq_of_key_eq (hrow : row ∈ table) (hother : other ∈ table) (hkey : key row = key other) :
    row = other :=
  List.inj_on_of_nodup_map table.nodup hrow hother hkey

omit [DecidableEq κ] in
@[simp] theorem mem_rows : row ∈ table.rows ↔ row ∈ table :=
  Iff.rfl

/-- A lookup finds a row exactly when the table holds it under that key. -/
theorem find_eq_some_iff : table.find wanted = some row ↔ row ∈ table ∧ key row = wanted := by
  constructor
  · intro hfind
    exact ⟨List.mem_of_find?_eq_some hfind, by simpa using List.find?_some hfind⟩
  · rintro ⟨hrow, rfl⟩
    cases hfind : table.find (key row) with
    | none =>
      have hnone := List.find?_eq_none.mp hfind row hrow
      simp at hnone
    | some found =>
      have hkey : key found = key row := by simpa using List.find?_some hfind
      rw [eq_of_key_eq (List.mem_of_find?_eq_some hfind) hrow hkey]

/-- A lookup finds nothing exactly when no row has the key. -/
theorem find_eq_none_iff : table.find wanted = none ↔ ∀ row ∈ table, key row ≠ wanted := by
  simp [find, List.find?_eq_none]

/-- The row under its own key. -/
theorem find_key (hrow : row ∈ table) : table.find (key row) = some row :=
  find_eq_some_iff.mpr ⟨hrow, rfl⟩

/-- An insertion fails exactly when the key is taken. -/
theorem insert_eq_none_iff : table.insert row = none ↔ ∃ other ∈ table, key other = key row := by
  simp [insert]

/-- After an insertion the table holds the new row and the old ones, and the key was free. -/
theorem mem_insert {inserted : Table key} (hinsert : table.insert row = some inserted) :
    (∀ other, other ∈ inserted ↔ other = row ∨ other ∈ table) ∧
      ∀ other ∈ table, key other ≠ key row := by
  unfold insert at hinsert
  split_ifs at hinsert with htaken
  obtain rfl := Option.some.inj hinsert
  exact ⟨fun other ↦ List.mem_cons, fun other hother hkey ↦
    htaken (List.mem_map.mpr ⟨other, hother, hkey⟩)⟩

/-- A lookup after an insertion finds the new row under its key. -/
theorem find_insert {inserted : Table key} (hinsert : table.insert row = some inserted) :
    inserted.find wanted = if wanted = key row then some row else table.find wanted := by
  obtain ⟨hmem, hfree⟩ := mem_insert hinsert
  split_ifs with hwanted
  · exact find_eq_some_iff.mpr ⟨(hmem row).mpr (Or.inl rfl), hwanted.symm⟩
  · cases hfind : table.find wanted with
    | none =>
      refine find_eq_none_iff.mpr fun other hother hkey ↦ ?_
      rcases (hmem other).mp hother with rfl | hold
      · exact hwanted hkey.symm
      · exact find_eq_none_iff.mp hfind other hold hkey
    | some other =>
      obtain ⟨hother, hkey⟩ := find_eq_some_iff.mp hfind
      exact find_eq_some_iff.mpr ⟨(hmem other).mpr (Or.inr hother), hkey⟩

/-- Two tables with the same rows under a key find the same row under it. -/
theorem find_congr {other : Table key}
    (hsame : ∀ row, key row = wanted → (row ∈ other ↔ row ∈ table)) :
    other.find wanted = table.find wanted := by
  cases hfind : table.find wanted with
  | none =>
    refine find_eq_none_iff.mpr fun row hrow hkey ↦ ?_
    exact find_eq_none_iff.mp hfind row ((hsame row hkey).mp hrow) hkey
  | some row =>
    obtain ⟨hrow, hkey⟩ := find_eq_some_iff.mp hfind
    exact find_eq_some_iff.mpr ⟨(hsame row hkey).mpr hrow, hkey⟩

/-- After a change in place the table holds the changed row and the other ones. -/
theorem mem_modify : other ∈ table.modify wanted change ↔
    ∃ row ∈ table, (if key row = wanted then change.apply row else row) = other :=
  List.mem_map

/-- A change in place puts the changed row under its key. -/
theorem mem_modify_self (hrow : row ∈ table) :
    change.apply row ∈ table.modify (key row) change :=
  mem_modify.mpr ⟨row, hrow, if_pos rfl⟩

/-- A change in place does not touch the rows of a frame that the changed row is not in. -/
theorem mem_modify_of_frame (frame : ρ → Prop)
    (hrow : ∀ row ∈ table, key row = wanted → ¬ frame row ∧ ¬ frame (change.apply row))
    (hother : frame other) : other ∈ table.modify wanted change ↔ other ∈ table := by
  rw [mem_modify]
  constructor
  · rintro ⟨row, hmem, rfl⟩
    split_ifs at hother ⊢ with hwanted
    · exact absurd hother (hrow row hmem hwanted).2
    · exact hmem
  · intro hmem
    exact ⟨other, hmem, if_neg fun hwanted ↦ (hrow other hmem hwanted).1 hother⟩

/-- A change in place does not touch the rows under other keys. -/
theorem mem_modify_of_ne (hother : key other ≠ wanted) :
    other ∈ table.modify wanted change ↔ other ∈ table := by
  refine mem_modify_of_frame (fun row ↦ key row ≠ wanted) (fun row _ hwanted ↦ ?_) hother
  exact ⟨not_not.mpr hwanted, not_not.mpr ((change.key_apply row).trans hwanted)⟩

/-- After a row is put the table holds it in the place of the one with its key. -/
theorem mem_put : other ∈ table.put row ↔
    (other = row ∧ ∃ old ∈ table, key old = key row) ∨ (other ∈ table ∧ key other ≠ key row) := by
  change other ∈ table.rows.map _ ↔ _
  rw [List.mem_map]
  constructor
  · rintro ⟨old, hold, rfl⟩
    split_ifs with hkey
    · exact Or.inl ⟨rfl, old, hold, hkey⟩
    · exact Or.inr ⟨hold, hkey⟩
  · rintro (⟨rfl, old, hold, hkey⟩ | ⟨hother, hkey⟩)
    · exact ⟨old, hold, if_pos hkey⟩
    · exact ⟨other, hother, if_neg hkey⟩

/-- A lookup after a row is put finds it under its key. -/
theorem find_put : (table.put row).find wanted =
    if wanted = key row then (table.find wanted).map fun _ ↦ row else table.find wanted := by
  cases hfind : table.find wanted with
  | none =>
    have hnone : (table.put row).find wanted = none := by
      refine find_eq_none_iff.mpr fun other hother hkey ↦ ?_
      rcases mem_put.mp hother with ⟨rfl, old, hold, hsame⟩ | ⟨hmem, -⟩
      · exact find_eq_none_iff.mp hfind old hold (hsame.trans hkey)
      · exact find_eq_none_iff.mp hfind other hmem hkey
    rw [hnone]
    split_ifs
    · rfl
    · rfl
  | some old =>
    obtain ⟨hold, hkey⟩ := find_eq_some_iff.mp hfind
    split_ifs with hwanted
    · exact find_eq_some_iff.mpr ⟨mem_put.mpr (Or.inl ⟨rfl, old, hold, hkey.trans hwanted⟩),
        hwanted.symm⟩
    · exact find_eq_some_iff.mpr ⟨mem_put.mpr (Or.inr ⟨hold, fun h ↦ hwanted (hkey ▸ h)⟩), hkey⟩

omit [DecidableEq κ] in
/-- After a deletion the table holds the rows that are kept. -/
theorem mem_filter {keeps : ρ → Bool} :
    row ∈ table.filter keeps ↔ row ∈ table ∧ keeps row = true :=
  List.mem_filter

/-- A lookup after a deletion finds the row if it is kept. -/
theorem find_filter {keeps : ρ → Bool} :
    (table.filter keeps).find wanted = (table.find wanted).filter keeps := by
  cases hfind : table.find wanted with
  | none =>
    rw [Option.filter_none, find_eq_none_iff]
    exact fun row hrow ↦ find_eq_none_iff.mp hfind row (mem_filter.mp hrow).1
  | some row =>
    obtain ⟨hrow, hkey⟩ := find_eq_some_iff.mp hfind
    rw [Option.filter_some]
    split_ifs with hkeeps
    · exact find_eq_some_iff.mpr ⟨mem_filter.mpr ⟨hrow, hkeeps⟩, hkey⟩
    · rw [find_eq_none_iff]
      intro other hother hsame
      obtain ⟨hmem, hkept⟩ := mem_filter.mp hother
      rw [eq_of_key_eq hmem hrow (hsame.trans hkey.symm)] at hkept
      exact hkeeps hkept

/-- After a row is saved the table holds it and the rows with other keys. -/
theorem mem_save : other ∈ table.save row ↔ other = row ∨ (other ∈ table ∧ key other ≠ key row) := by
  change other ∈ row :: table.rows.filter _ ↔ other = row ∨ (other ∈ table.rows ∧ _)
  simp

/-- A lookup after a row is saved finds it under its key. -/
theorem find_save : (table.save row).find wanted =
    if wanted = key row then some row else table.find wanted := by
  unfold find save
  rw [List.find?_cons]
  split_ifs with hwanted
  · simp [hwanted]
  · have hne : decide (key row = wanted) = false := by simpa using fun heq ↦ hwanted heq.symm
    rw [hne]
    simp only [List.find?_filter]
    refine congrArg (fun test ↦ table.rows.find? test) (funext fun old ↦ ?_)
    by_cases hold : key old = wanted <;> simp [hold, hwanted]

/-- A lookup after a change in place finds the changed row under its key. -/
theorem find_modify {changed : κ} :
    (table.modify changed change).find wanted =
      (table.find wanted).map fun row ↦ if key row = changed then change.apply row else row := by
  cases hfind : table.find wanted with
  | none =>
    rw [Option.map_none, find_eq_none_iff]
    intro other hother
    obtain ⟨row, hrow, rfl⟩ := mem_modify.mp hother
    have hnone := find_eq_none_iff.mp hfind row hrow
    split_ifs
    · rwa [change.key_apply]
    · exact hnone
  | some row =>
    obtain ⟨hrow, rfl⟩ := find_eq_some_iff.mp hfind
    rw [Option.map_some, find_eq_some_iff]
    refine ⟨mem_modify.mpr ⟨row, hrow, rfl⟩, ?_⟩
    split_ifs
    · exact change.key_apply row
    · rfl

/-- A change in place under a key that no row has changes nothing. -/
theorem modify_of_find_none (hnone : table.find wanted = none) :
    table.modify wanted change = table :=
  Table.ext ((List.map_congr_left fun row hrow ↦ if_neg (find_eq_none_iff.mp hnone row hrow)).trans
    (List.map_id table.rows))

/-- One row takes the place of another with the same key. -/
structure Replaces (before after : Table key) (old new : ρ) : Prop where
  key_eq : key new = key old
  mem_iff : ∀ row, row ∈ after ↔ row = new ∨ (row ∈ before ∧ key row ≠ key old)

namespace Replaces

variable {before between after : Table key} {old middle new : ρ}

omit [DecidableEq κ] in
/-- The new row is there. -/
theorem mem (hreplaces : Replaces before after old new) : new ∈ after :=
  (hreplaces.mem_iff new).mpr (Or.inl rfl)

omit [DecidableEq κ] in
/-- A row takes its own place. -/
theorem refl (hold : old ∈ before) : Replaces before before old old := by
  refine ⟨rfl, fun row ↦ ⟨fun hrow ↦ ?_, ?_⟩⟩
  · by_cases hkey : key row = key old
    · exact Or.inl (eq_of_key_eq hrow hold hkey)
    · exact Or.inr ⟨hrow, hkey⟩
  · rintro (rfl | ⟨hrow, -⟩)
    · exact hold
    · exact hrow

omit [DecidableEq κ] in
/-- The rows of a frame that neither row is in are the same. -/
theorem mem_iff_of_frame (hreplaces : Replaces before after old new) (hold : old ∈ before)
    (frame : ρ → Prop) (holdFrame : ¬ frame old) (hnewFrame : ¬ frame new) {row : ρ}
    (hrow : frame row) : row ∈ after ↔ row ∈ before := by
  rw [hreplaces.mem_iff]
  constructor
  · rintro (rfl | ⟨hmem, -⟩)
    · exact absurd hrow hnewFrame
    · exact hmem
  · exact fun hmem ↦ Or.inr ⟨hmem, fun hkey ↦ holdFrame (eq_of_key_eq hmem hold hkey ▸ hrow)⟩

omit [DecidableEq κ] in
/-- The places are taken one after the other. -/
theorem trans (hfirst : Replaces before between old middle)
    (hsecond : Replaces between after middle new) : Replaces before after old new := by
  refine ⟨hsecond.key_eq.trans hfirst.key_eq, fun row ↦ ?_⟩
  rw [hsecond.mem_iff, hfirst.mem_iff, hfirst.key_eq]
  constructor
  · rintro (hnew | ⟨rfl | hrow, hkey⟩)
    · exact Or.inl hnew
    · exact absurd hfirst.key_eq hkey
    · exact Or.inr hrow
  · rintro (hnew | hrow)
    · exact Or.inl hnew
    · exact Or.inr ⟨Or.inr hrow, hrow.2⟩

/-- A change in place. -/
theorem modify (hold : old ∈ before) :
    Replaces before (before.modify (key old) change) old (change.apply old) := by
  refine ⟨change.key_apply old, fun row ↦ ?_⟩
  constructor
  · intro hrow
    obtain ⟨changed, hchanged, rfl⟩ := mem_modify.mp hrow
    split_ifs with hkey
    · exact Or.inl (congrArg _ (eq_of_key_eq hchanged hold hkey))
    · exact Or.inr ⟨hchanged, hkey⟩
  · rintro (rfl | ⟨hrow, hkey⟩)
    · exact mem_modify_self hold
    · exact (mem_modify_of_ne hkey).mpr hrow

end Replaces

end Table

end Ads.Foundation
