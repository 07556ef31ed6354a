import Ads.Transcript.Chain
import Mathlib.Data.List.Chain

/-!
# The walk along a thread

`walk` follows the links of a session from its latest entry. On tables that hold a thread it meets
exactly the entries of the thread (`Represents.walk_eq`), so that the session is `WellLinked`: the
walk visits every entry of the session once, neighbours point to each other, nothing is before the
first entry or after the latest one.
-/

set_option autoImplicit false
set_option relaxedAutoImplicit false

namespace Ads.Transcript

open Context Foundation Python

/-- The entries of a session are one doubly linked list that ends in its latest entry. -/
structure WellLinked (database : Database) (session : Session) : Prop where
  visits : (database.walk session).Perm (database.listForSession session.id)
  distinct : ((database.walk session).map Entry.id).Nodup
  neighbours : (database.walk session).IsChain fun earlier later ↦
    earlier.nextId = some later.id ∧ later.prevId = some earlier.id
  first : ∀ entry ∈ (database.walk session).head?, entry.prevId = none
  last : ∀ entry ∈ (database.walk session).getLast?, entry.nextId = none
  latest : session.latestEntryId = (database.walk session).getLast?.map Entry.id

/-- The loop of `walk` takes the entries of a linked list, newest first. -/
theorem walkFrom_eq {rows chain : List Entry} {next : Option Uuid} {fuel : ℕ} {seen : List Uuid}
    (hfind : ∀ entry ∈ chain, (rows.find? fun row ↦ row.id = entry.id) = some entry)
    (hlinked : Linked next chain) (hnodup : (chain.map Entry.id).Nodup)
    (hseen : ∀ entry ∈ chain, entry.id ∉ seen) (hfuel : chain.length ≤ fuel) :
    walkFrom rows fuel seen (chain.head?.map Entry.id) = chain := by
  induction chain generalizing next fuel seen with
  | nil => cases fuel <;> rfl
  | cons newest rest ih =>
    cases fuel with
    | zero => exact absurd hfuel (Nat.not_succ_le_zero _)
    | succ fuel =>
      obtain ⟨-, hprev, hrest⟩ := hlinked
      obtain ⟨hnew, hnodupRest⟩ := List.nodup_cons.mp hnodup
      have hunseen : ∀ entry ∈ rest, entry.id ∉ newest.id :: seen := by
        intro entry hentry hmem
        rcases List.mem_cons.mp hmem with heq | hold
        · exact hnew (heq ▸ List.mem_map_of_mem hentry)
        · exact hseen entry (List.mem_cons_of_mem _ hentry) hold
      rw [List.head?_cons, Option.map_some, walkFrom, hfind newest List.mem_cons_self]
      dsimp only
      rw [if_neg (hseen newest List.mem_cons_self), hprev]
      exact congrArg (newest :: ·) (ih (fun entry hentry ↦ hfind entry (List.mem_cons_of_mem _ hentry))
        hrest hnodupRest hunseen (Nat.le_of_succ_le_succ hfuel))

/-- The entries of a thread are those that the session lists. -/
theorem Holds.perm {database : Database} {sessionId : Uuid} {chain : List Entry}
    (hholds : Holds database.entries sessionId chain) :
    chain.Perm (database.listForSession sessionId) := by
  have hrows : (database.listForSession sessionId).Nodup :=
    (List.Nodup.of_map Entry.id database.entries.nodup).filter _
  refine (List.perm_ext_iff_of_nodup (List.Nodup.of_map Entry.id hholds.nodup) hrows).mpr
    fun entry ↦ ?_
  rw [hholds.mem_iff, Database.listForSession, List.mem_filter, decide_eq_true_eq]
  exact Iff.rfl

/-- The walk of a represented session meets the entries of its thread. -/
theorem Represents.walk_eq {database : Database} {thread : Thread}
    (hrepresents : Represents database thread) :
    database.walk thread.session = thread.chain.reverse := by
  have hperm := hrepresents.holds.perm
  have hfind : ∀ entry ∈ thread.chain,
      ((database.listForSession thread.session.id).find? fun row ↦ row.id = entry.id) =
        some entry := by
    intro entry hentry
    have hlisted : entry ∈ database.listForSession thread.session.id := hperm.mem_iff.mp hentry
    cases hfound : (database.listForSession thread.session.id).find? fun row ↦ row.id = entry.id with
    | none => simpa using List.find?_eq_none.mp hfound entry hlisted
    | some row =>
      have hid : row.id = entry.id := by simpa using List.find?_some hfound
      have hrow : row ∈ database.entries := (List.mem_filter.mp (List.mem_of_find?_eq_some hfound)).1
      have hmem : entry ∈ database.entries := (List.mem_filter.mp hlisted).1
      rw [Table.eq_of_key_eq hrow hmem hid]
  unfold Database.walk
  dsimp only
  rw [hrepresents.latest, walkFrom_eq hfind hrepresents.linked hrepresents.holds.nodup
    (fun _ _ ↦ List.not_mem_nil) hperm.length_eq.le]

/-- Neighbours in a linked list point to each other. -/
theorem Linked.isChain {next : Option Uuid} {chain : List Entry} (hlinked : Linked next chain) :
    chain.IsChain fun later earlier ↦
      earlier.nextId = some later.id ∧ later.prevId = some earlier.id := by
  induction chain generalizing next with
  | nil => exact .nil
  | cons newest rest ih =>
    obtain ⟨-, hprev, hrest⟩ := hlinked
    cases rest with
    | nil => exact .singleton newest
    | cons older others => exact .cons_cons ⟨hrest.1, hprev⟩ (ih hrest)

/-- Nothing is before the first entry of a linked list. -/
theorem Linked.prevId_getLast {next : Option Uuid} {chain : List Entry}
    (hlinked : Linked next chain) : ∀ entry ∈ chain.getLast?, entry.prevId = none := by
  induction chain generalizing next with
  | nil => exact fun _ hnone ↦ absurd hnone (Option.not_mem_none _)
  | cons newest rest ih =>
    obtain ⟨-, hprev, hrest⟩ := hlinked
    cases rest with
    | nil =>
      rintro _ ⟨⟩
      exact hprev
    | cons older others =>
      rw [List.getLast?_cons_cons]
      exact ih hrest

/-- A represented session is one doubly linked list. -/
theorem Represents.wellLinked {database : Database} {thread : Thread}
    (hrepresents : Represents database thread) : WellLinked database thread.session := by
  have hlinked := hrepresents.linked
  constructor
  · rw [hrepresents.walk_eq]
    exact (List.reverse_perm _).trans hrepresents.holds.perm
  · rw [hrepresents.walk_eq, List.map_reverse]
    exact List.nodup_reverse.mpr hrepresents.holds.nodup
  · rw [hrepresents.walk_eq]
    exact List.isChain_reverse.mpr hlinked.isChain
  · rw [hrepresents.walk_eq, List.head?_reverse]
    exact hlinked.prevId_getLast
  · rw [hrepresents.walk_eq, List.getLast?_reverse]
    intro entry hentry
    obtain ⟨rest, hchain⟩ := List.head?_eq_some_iff.mp hentry
    rw [hchain] at hlinked
    exact hlinked.1
  · rw [hrepresents.walk_eq, List.getLast?_reverse]
    exact hrepresents.latest

end Ads.Transcript
