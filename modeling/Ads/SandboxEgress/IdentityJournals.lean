import Ads.Foundation.PrefixOrder
import Ads.Python.Digits
import Ads.SandboxEgress.IdentityMoves

/-!
# The journals of the identity store

A journal is the publications under a prefix. The rows that the store reads for one are those whose
names extend the prefix (`isPrefix_of_inJournal`), and its head is the one with the greatest name
(`journalHead_eq_some_iff`). Pruning a journal deletes rows before its head, so it keeps the head of
every journal that is not a part of the pruned one (`journalHead_pruned`).
-/

set_option autoImplicit false
set_option relaxedAutoImplicit false

namespace Ads.SandboxEgress.IdentityStore

open Dns Foundation Foundation.StateExcept Foundation.Interrupted Python

variable {tables : IdentityTables} {start other name : Text} {row head : PublicationRow}

/-! ### The rows of a journal -/

/-- The names that the store reads for a journal. -/
def InJournal (start name : Text) : Prop :=
  start ≤ name ∧ name < start ++ ['~']

/-- A name of a journal extends its prefix. -/
theorem isPrefix_of_inJournal (hname : InJournal start name) : start <+: name :=
  PrefixOrder.prefix_of_le_of_le (List.prefix_append start ['~']) hname.1 (le_of_lt hname.2)

/-- A name that extends the prefix is in the journal unless a tilde or a greater character follows
the prefix. -/
theorem inJournal_append {rest : Text} (hrest : ∀ char ∈ rest.head?, char < '~') :
    InJournal start (start ++ rest) := by
  refine ⟨PrefixOrder.le_of_prefix (List.prefix_append start rest), ?_⟩
  refine List.append_left_lt ?_
  cases rest with
  | nil => exact List.nil_lt_cons _ _
  | cons char rest => exact List.cons_lt_cons_iff.mpr (Or.inl (hrest char rfl))

/-- The characters of names come before the tilde. -/
theorem lt_tilde {char : Char} (hchar : isNameChar char = true) : char < '~' := by
  have hnat : char.toNat < 126 := by
    simp only [isNameChar, isDigit, Bool.or_eq_true, Bool.and_eq_true, decide_eq_true_eq,
      beq_iff_eq] at hchar
    rcases hchar with ((((((h | h) | h) | h) | h) | h) | h) | h
    · omega
    · omega
    · omega
    all_goals
      rw [h]
      decide
  exact hnat

theorem mem_journal : row ∈ journal tables start ↔
    row ∈ tables.publications ∧ InJournal start row.name := by
  simp [journal, InJournal]

/-- The head of a journal is one of its rows, and none of them has a greater name. -/
theorem journalHead_spec (hhead : journalHead tables start = some head) :
    head ∈ journal tables start ∧ ∀ row ∈ journal tables start, row.name ≤ head.name := by
  have htotal : Std.Total fun first second : PublicationRow ↦ second.name ≤ first.name :=
    ⟨fun first second ↦ le_total second.name first.name⟩
  have htrans : IsTrans PublicationRow fun first second ↦ second.name ≤ first.name :=
    ⟨fun _ _ _ hfirst hsecond ↦ le_trans hsecond hfirst⟩
  have hsorted := List.pairwise_insertionSort
    (fun first second : PublicationRow ↦ second.name ≤ first.name) (journal tables start)
  unfold journalHead at hhead
  obtain ⟨rest, hrest⟩ := List.head?_eq_some_iff.mp hhead
  rw [hrest] at hsorted
  have hmem : ∀ row, row ∈ journal tables start ↔ row ∈ head :: rest := by
    intro row
    rw [← hrest, List.mem_insertionSort]
  refine ⟨(hmem head).mpr List.mem_cons_self, fun row hrow ↦ ?_⟩
  rcases List.mem_cons.mp ((hmem row).mp hrow) with rfl | hother
  · exact le_refl _
  · exact List.rel_of_pairwise_cons hsorted hother

/-- The head of a journal is its row with the greatest name. -/
theorem journalHead_eq_some_iff : journalHead tables start = some head ↔
    head ∈ tables.publications ∧ InJournal start head.name ∧
      ∀ row ∈ tables.publications, InJournal start row.name → row.name ≤ head.name := by
  constructor
  · intro hhead
    obtain ⟨hmem, hgreatest⟩ := journalHead_spec hhead
    obtain ⟨hrow, hstart⟩ := mem_journal.mp hmem
    exact ⟨hrow, hstart, fun row hrow hname ↦ hgreatest row (mem_journal.mpr ⟨hrow, hname⟩)⟩
  · rintro ⟨hrow, hstart, hgreatest⟩
    have hjournal := mem_journal.mpr ⟨hrow, hstart⟩
    cases hhead : journalHead tables start with
    | none =>
      rw [journalHead, List.head?_eq_none_iff] at hhead
      rw [← List.mem_insertionSort (fun first second : PublicationRow ↦ second.name ≤ first.name),
        hhead] at hjournal
      exact absurd hjournal List.not_mem_nil
    | some found =>
      obtain ⟨hmem, hlast⟩ := journalHead_spec hhead
      obtain ⟨hfound, hfoundStart⟩ := mem_journal.mp hmem
      have hsame : found.name = head.name :=
        le_antisymm (hgreatest found hfound hfoundStart) (hlast head hjournal)
      rw [Table.eq_of_key_eq hfound hrow hsame]

/-- A journal without a head has no rows. -/
theorem journalHead_eq_none_iff : journalHead tables start = none ↔
    ∀ row ∈ tables.publications, ¬ InJournal start row.name := by
  rw [journalHead, List.head?_eq_none_iff, List.eq_nil_iff_forall_not_mem]
  simp only [List.mem_insertionSort, mem_journal, not_and]

/-- A journal with a row has a head. -/
theorem exists_journalHead (hrow : row ∈ tables.publications) (hstart : InJournal start row.name) :
    ∃ head, journalHead tables start = some head := by
  cases hhead : journalHead tables start with
  | none => exact absurd hstart (journalHead_eq_none_iff.mp hhead row hrow)
  | some head => exact ⟨head, rfl⟩

/-! ### Pruning -/

variable {clock : ℚ}

/-- What pruning deletes is told by the name alone. -/
theorem mem_prunedNames (hrow : row ∈ tables.publications) :
    row.name ∈ prunedNames tables start name clock ↔ isPruned start name clock row = true := by
  simp only [prunedNames, List.mem_map, List.mem_filter]
  constructor
  · rintro ⟨other, ⟨hother, hpruned⟩, hsame⟩
    rwa [← Table.eq_of_key_eq hother hrow hsame]
  · exact fun hpruned ↦ ⟨row, ⟨hrow, hpruned⟩, rfl⟩

/-- The publications that pruning keeps. -/
theorem mem_pruned : row ∈ (pruned tables start name clock).publications ↔
    row ∈ tables.publications ∧ isPruned start name clock row = false := by
  simp only [pruned, Table.mem_filter, decide_eq_true_eq, ← Bool.not_eq_true]
  exact and_congr_right fun hrow ↦ not_congr (mem_prunedNames hrow)

/-- Both ways to prune keep the same publications. -/
theorem crlsPruned_publications : (crlsPruned tables start name clock).publications =
    (pruned tables start name clock).publications :=
  rfl

/-- The head of a journal depends on the publications alone. -/
theorem journalHead_congr {changed : IdentityTables}
    (hsame : changed.publications = tables.publications) :
    journalHead changed start = journalHead tables start := by
  simp only [journalHead, journal, hsame]

/-- The head of a journal stays while its row does and no row is added to the journal. -/
theorem journalHead_of_subset {changed : IdentityTables}
    (hhead : journalHead tables start = some head) (hkept : head ∈ changed.publications)
    (hsubset : ∀ row ∈ changed.publications, InJournal start row.name → row ∈ tables.publications) :
    journalHead changed start = some head := by
  obtain ⟨-, hstart, hgreatest⟩ := journalHead_eq_some_iff.mp hhead
  exact journalHead_eq_some_iff.mpr
    ⟨hkept, hstart, fun row hrow hname ↦ hgreatest row (hsubset row hrow hname) hname⟩

/-- What is pruned in one journal and is in another one, makes the one a part of the other. -/
theorem isPrefix_of_pruned (hpruned : start ≤ row.name) (hbefore : row.name < head.name)
    (hhead : InJournal start head.name) (hother : InJournal other row.name) :
    start <+: other ∨ other <+: start := by
  have hrow : InJournal start row.name := ⟨hpruned, lt_trans hbefore hhead.2⟩
  exact List.prefix_or_prefix_of_prefix (isPrefix_of_inJournal hrow) (isPrefix_of_inJournal hother)

/-- Pruning a journal keeps the head of every journal that is not a part of it. -/
theorem journalHead_pruned {kept : PublicationRow} (hname : checkName start = .ok ())
    (hhead : journalHead tables start = some head) (hother : start <+: other → other = start)
    (hkept : journalHead tables other = some kept) :
    journalHead (pruned tables start head.name clock) other = some kept := by
  obtain ⟨hheadRow, hheadStart, -⟩ := journalHead_eq_some_iff.mp hhead
  obtain ⟨hkeptRow, hkeptOther, hgreatest⟩ := journalHead_eq_some_iff.mp hkept
  refine journalHead_of_subset hkept (mem_pruned.mpr ⟨hkeptRow, ?_⟩)
    fun row hrow _ ↦ (mem_pruned.mp hrow).1
  rw [← Bool.not_eq_true]
  intro hpruned
  simp only [isPruned, decide_eq_true_eq] at hpruned
  obtain ⟨hafter, hbefore, -⟩ := hpruned
  have houter : other <+: start := by
    rcases isPrefix_of_pruned hafter hbefore hheadStart hkeptOther with hinner | houter
    · exact (hother hinner).symm ▸ List.prefix_refl _
    · exact houter
  -- The head of the pruned journal is then in the other one, after the row that was its head.
  have hheadOther : InJournal other head.name := by
    obtain ⟨rest, hrest⟩ := isPrefix_of_inJournal hheadStart
    obtain ⟨inner, hinner⟩ := houter
    cases inner with
    | nil =>
      rw [List.append_nil] at hinner
      rw [hinner]
      exact hheadStart
    | cons char inner =>
      rw [← hrest, ← hinner, List.append_assoc]
      refine inJournal_append fun first hfirst ↦ lt_tilde ?_
      obtain rfl : char = first := by simpa using hfirst
      have hchars := (checkName_eq_ok.mp hname).2.2
      rw [List.all_eq_true] at hchars
      exact hchars char (by simp [← hinner])
  exact absurd hbefore (not_lt.mpr (hgreatest head hheadRow hheadOther))

end Ads.SandboxEgress.IdentityStore
