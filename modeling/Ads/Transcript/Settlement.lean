import Ads.Transcript.Promotion

/-!
# The end of a turn

A run that finishes settles its turn: all its entries stay, and the newest tombstone among them is
the committed one. A run that breaks leaves its session as it was before the turn: the settled
entries are linked as before, and everything of the run is gone.
-/

set_option autoImplicit false
set_option relaxedAutoImplicit false

namespace Ads.Transcript

open Context Foundation Foundation.StateExcept Python

/-! ### Finishing -/

/-- A turn is settled. -/
structure Finished (before : Store) (thread : Thread) (current : Current) (after : Store)
    (session : Session) : Prop where
  represents : Represents after.toDatabase ⟨session, thread.chain, none⟩
  session_id : session.id = thread.session.id
  runs : Table.Replaces before.runs after.runs current.run current.run.finish
  elsewhere : SameElsewhere thread.session.id before.toDatabase after.toDatabase
  buffer : after.buffer = before.buffer

/-- The newest tombstone of two lists is in the first one or else in the second. -/
theorem newestTombstone_append {front rest : List Entry} :
    newestTombstone (front ++ rest) = (newestTombstone front).or (newestTombstone rest) := by
  unfold newestTombstone
  rw [List.find?_append, Option.map_or]

/-- The tombstone to commit is the newest one of the thread. -/
theorem Represents.newestTombstone_chain {database : Database} {thread : Thread} {current : Current}
    (hrepresents : Represents database thread) (hcurrent : thread.current = some current) :
    newestTombstone thread.chain =
      current.run.candidateTombstoneId.or thread.session.committedTombstoneId := by
  have hturn := hrepresents.isCurrent current hcurrent
  have huser : newestTombstone (current.user :: relink (some current.user.id) thread.settled) =
      newestTombstone (relink (some current.user.id) thread.settled) := by
    unfold newestTombstone
    rw [List.find?_cons, hturn.user.2]
    rfl
  rw [Thread.chain_of_current hcurrent, newestTombstone_append, huser, newestTombstone_relink,
    ← hrepresents.committed, ← hturn.candidate]

/-- The row of the session after the commit of the tombstone of a run. -/
theorem commitTombstone_ensures {store : Store} {session : Session} {run : Run}
    {allowed : Raised → Prop} (hsession : session ∈ store.sessions)
    (hrun : run.sessionId = session.id) :
    Ensures (commitTombstone run) store
      (fun _ final ↦ ∃ sessions, final = { store with sessions := sessions } ∧
        { session with
          committedTombstoneId := run.candidateTombstoneId.or session.committedTombstoneId } ∈
            sessions ∧
        ∀ other : Session, other.id ≠ session.id → (other ∈ sessions ↔ other ∈ store.sessions))
      allowed := by
  unfold commitTombstone
  rw [hrun]
  cases run.candidateTombstoneId with
  | none => exact ⟨store.sessions, rfl, hsession, fun _ _ ↦ Iff.rfl⟩
  | some tombstone =>
    exact ⟨_, rfl, Table.mem_modify_self hsession, fun _ hne ↦ Table.mem_modify_of_ne hne⟩

/-- The tables hold the thread whose turn is settled. -/
theorem Represents.settle {before after : Database} {thread : Thread} {current : Current}
    {session : Session} (hrepresents : Represents before thread)
    (hcurrent : thread.current = some current)
    (hruns : Table.Replaces before.runs after.runs current.run current.run.finish)
    (hsession : session ∈ after.sessions) (hid : session.id = thread.session.id)
    (hlatest : session.latestEntryId = thread.session.latestEntryId)
    (hcommitted : session.committedTombstoneId =
      current.run.candidateTombstoneId.or thread.session.committedTombstoneId)
    (hentries : after.entries = before.entries) :
    Represents after ⟨session, thread.chain, none⟩ := by
  have hturn := hrepresents.isCurrent current hcurrent
  constructor
  · exact hsession
  · exact hlatest.trans hrepresents.latest
  · rw [hentries, hid]
    exact hrepresents.holds
  · exact hrepresents.linked
  · exact hrepresents.linked
  · exact hcommitted.trans (hrepresents.newestTombstone_chain hcurrent).symm
  · intro entry hentry id hentryId
    obtain ⟨run, hrun, hrunId, howned⟩ := hrepresents.runs entry hentry id hentryId
    by_cases hsame : run.id = current.run.id
    · refine ⟨current.run.finish, hruns.mem, hsame.symm.trans hrunId, ?_⟩
      exact hturn.session.trans hid.symm
    · exact ⟨run, (hruns.mem_iff run).mpr (Or.inr ⟨hrun, hsame⟩), hrunId, howned.trans hid.symm⟩
  · intro _ run hrun howned
    rcases (hruns.mem_iff run).mp hrun with rfl | ⟨hbefore, hne⟩
    · rfl
    · by_contra hflight
      have hsame := hturn.only run hbefore (howned.trans hid) (Bool.eq_true_of_not_eq_false hflight)
      exact hne (congrArg Run.id hsame)
  · exact fun _ hnone ↦ absurd hnone (Option.not_mem_none _)

/-- `_finish_run` settles the turn. -/
theorem finishRun_ensures {store : Store} {thread : Thread} {current : Current}
    {allowed : Raised → Prop} (hrepresents : Represents store.toDatabase thread)
    (hcurrent : thread.current = some current) :
    Ensures (finishRun current.run.id) store
      (fun _ final ↦ ∃ session, Finished store thread current final session) allowed := by
  have hturn := hrepresents.isCurrent current hcurrent
  simp only [finishRun, ensures_bind, ensures_getRun]
  rw [Table.find_key hturn.run_mem]
  dsimp only
  rw [ensures_bind]
  refine (commitTombstone_ensures hrepresents.session_mem hturn.session).mono ?_
    fun _ hfailed ↦ hfailed
  rintro _ _ ⟨sessions, rfl, hcommitted, hothers⟩
  rw [ensures_updateRun]
  have hruns : Table.Replaces store.runs (store.runs.modify current.run.id
      ⟨Run.finish, fun _ ↦ rfl⟩) current.run current.run.finish := .modify hturn.run_mem
  have hframe : SameElsewhere thread.session.id store.toDatabase
      { store.toDatabase with
        sessions := sessions, runs := store.runs.modify current.run.id ⟨Run.finish, fun _ ↦ rfl⟩ } :=
    hrepresents.sameElsewhere_of_replaces hcurrent hruns rfl hothers rfl
  exact ⟨_,
    { represents := hrepresents.settle hcurrent hruns hcommitted rfl rfl rfl rfl
      session_id := rfl
      runs := hruns
      elsewhere := hframe
      buffer := rfl }⟩

/-! ### Breaking -/

/-- A turn is gone. -/
structure Broken (before : Store) (thread : Thread) (current : Current) (after : Store)
    (session : Session) : Prop where
  represents : Represents after.toDatabase ⟨session, thread.settled, none⟩
  session_id : session.id = thread.session.id
  runs : ∀ run, run ∈ after.runs ↔ run ∈ before.runs ∧ run.id ≠ current.run.id
  elsewhere : SameElsewhere thread.session.id before.toDatabase after.toDatabase
  buffer : ∀ delta, delta ∈ after.buffer ↔ delta ∈ before.buffer ∧ delta.runId ≠ current.run.id

/-- The user turn of a run is linked to the newest settled entry. -/
theorem Represents.prevId_user {database : Database} {thread : Thread} {current : Current}
    (hrepresents : Represents database thread) (hcurrent : thread.current = some current) :
    current.user.prevId =
      (relink (some current.user.id) thread.settled).head?.map Entry.id := by
  have hlinked := hrepresents.linked
  rw [Thread.chain_of_current hcurrent] at hlinked
  exact hlinked.of_append.1

/-- What is left of the entries of a thread when those of the run in flight are deleted. -/
theorem filter_break {entries : Table Entry.id} {runs : Table Run.id} {thread : Thread}
    {current : Current} (hturn : IsCurrent runs thread current)
    (hholds : Holds entries thread.session.id (current.parts ++ [current.user] ++ thread.settled)) :
    Holds (((entries.modify current.user.id unlink).filter
        (isForeign thread.session.id current.run.id)).filter fun entry ↦ entry.id ≠ current.user.id)
      thread.session.id thread.settled := by
  have hnodup := hholds.nodup
  rw [List.map_append, List.nodup_append] at hnodup
  have hother : ∀ entry ∈ thread.settled, entry.id ≠ current.user.id := fun entry hentry heq ↦
    hnodup.2.2 current.user.id (by simp) entry.id (List.mem_map_of_mem hentry) heq.symm
  refine ⟨fun entry ↦ ?_, hnodup.2.1⟩
  rw [Table.mem_filter, Table.mem_filter, decide_eq_true_eq, isForeign, decide_eq_true_eq]
  constructor
  · intro hentry
    have hmem := (hholds.mem_iff entry).mp (List.mem_append_right _ hentry)
    have hne := hother entry hentry
    exact ⟨⟨⟨(Table.mem_modify_of_ne hne).mpr hmem.1,
      fun howned ↦ hturn.settled entry hentry howned.2⟩, hne⟩, hmem.2⟩
  · rintro ⟨⟨⟨hmem, hforeign⟩, hne⟩, hsession⟩
    have hheld := (hholds.mem_iff entry).mpr ⟨(Table.mem_modify_of_ne hne).mp hmem, hsession⟩
    rcases List.mem_append.mp hheld with hturnEntry | hsettled
    · rcases List.mem_append.mp hturnEntry with hpart | huser
      · exact absurd ⟨hsession, hturn.parts entry hpart⟩ hforeign
      · exact absurd (congrArg Entry.id (List.mem_singleton.mp huser)) hne
    · exact hsettled

/-- The tables hold the thread whose turn is gone. -/
theorem Represents.broken {before after : Database} {thread : Thread} {current : Current}
    {session : Session} (hrepresents : Represents before thread)
    (hcurrent : thread.current = some current) (hsession : session ∈ after.sessions)
    (hid : session.id = thread.session.id)
    (hlatest : session.latestEntryId = thread.settled.head?.map Entry.id)
    (hcommitted : session.committedTombstoneId = thread.session.committedTombstoneId)
    (hruns : ∀ run, run ∈ after.runs ↔ run ∈ before.runs ∧ run.id ≠ current.run.id)
    (hholds : Holds after.entries thread.session.id thread.settled) :
    Represents after ⟨session, thread.settled, none⟩ := by
  have hturn := hrepresents.isCurrent current hcurrent
  constructor
  · exact hsession
  · exact hlatest
  · rw [hid]
    exact hholds
  · exact hrepresents.linked_settled
  · exact hrepresents.linked_settled
  · exact hcommitted.trans hrepresents.committed
  · intro entry hentry id hentryId
    have hrelink : (relink (some current.user.id) thread.settled).map Entry.runId =
        thread.settled.map Entry.runId := map_relink fun _ ↦ rfl
    have hmem : entry.runId ∈ (relink (some current.user.id) thread.settled).map Entry.runId := by
      rw [hrelink]
      exact List.mem_map_of_mem hentry
    obtain ⟨linked, hlinked, hsame⟩ := List.mem_map.mp hmem
    have hchain : linked ∈ thread.chain := by
      rw [Thread.chain_of_current hcurrent]
      exact List.mem_append_right _ (List.mem_cons_of_mem _ hlinked)
    obtain ⟨run, hrun, rfl, howned⟩ := hrepresents.runs linked hchain id (hsame.trans hentryId)
    refine ⟨run, (hruns run).mpr ⟨hrun, fun heq ↦ ?_⟩, rfl, howned.trans hid.symm⟩
    exact hturn.settled entry hentry (hentryId.trans (congrArg some heq))
  · intro _ run hrun howned
    obtain ⟨hbefore, hne⟩ := (hruns run).mp hrun
    by_contra hflight
    have hsame := hturn.only run hbefore (howned.trans hid) (Bool.eq_true_of_not_eq_false hflight)
    exact hne (congrArg Run.id hsame)
  · exact fun _ hnone ↦ absurd hnone (Option.not_mem_none _)

/-- `_break_run` takes the turn away. -/
theorem breakRun_ensures {store : Store} {thread : Thread} {current : Current} {run : Run} {now : ℤ}
    {allowed : Raised → Prop} (hrepresents : Represents store.toDatabase thread)
    (hcurrent : thread.current = some current) (hid : run.id = current.run.id)
    (hsession : run.sessionId = current.run.sessionId)
    (huser : run.userEntryId = current.run.userEntryId) (hflight : run.status ≠ .finished) :
    Ensures (breakRun run now) store
      (fun _ final ↦ ∃ session, Broken store thread current final session) allowed := by
  have hturn := hrepresents.isCurrent current hcurrent
  have hchain := Thread.chain_of_current hcurrent
  have hholds := hrepresents.holds
  rw [hchain, List.append_cons] at hholds
  have huserMem : current.user ∈ thread.chain := by
    rw [hchain]
    exact List.mem_append_right _ List.mem_cons_self
  unfold breakRun
  rw [if_neg hflight, ensures_bind, ensures_getSession, hsession, hturn.session,
    hrepresents.find_session, ensures_bind, ensures_getEntry, huser, hturn.userEntry,
    hrepresents.holds.find huserMem, Option.bind_some, hrepresents.prevId_user hcurrent]
  simp only [unlinkChat, ensures_bind, ensures_updateSession]
  refine (setNext_ensures (current.parts ++ [current.user]) (by exact hholds)).mono ?_
    fun _ hfailed ↦ hfailed
  rintro _ _ ⟨entries, rfl, hlinked, hrelinked⟩
  rw [relink_relink, hrepresents.linked_settled.relink_self] at hlinked
  have hdeleted := filter_break hturn hlinked
  have hmine : current.user.id ∈ (current.parts ++ [current.user] ++ thread.settled).map Entry.id :=
    List.mem_map_of_mem (List.mem_append_left _ (List.mem_append_right _ List.mem_cons_self))
  have hunlinked : Relinked thread.session.id entries (entries.modify current.user.id unlink) :=
    hlinked.relinked (fun _ ↦ rfl) hmine
  have hforeign : Relinked thread.session.id (entries.modify current.user.id unlink)
      ((entries.modify current.user.id unlink).filter
        (isForeign thread.session.id current.run.id)) :=
    .filter fun row _ hrow ↦ decide_eq_true fun howned ↦ hrow howned.1
  have huserGone : Relinked thread.session.id
      ((entries.modify current.user.id unlink).filter (isForeign thread.session.id current.run.id))
      (((entries.modify current.user.id unlink).filter
        (isForeign thread.session.id current.run.id)).filter
          fun entry ↦ entry.id ≠ current.user.id) := by
    refine .filter fun row hrow howned ↦ decide_eq_true fun heq ↦ howned ?_
    exact hlinked.sessionId_of_id_mem hmine
      ((hunlinked.frame row howned).mp (Table.mem_filter.mp hrow).1) heq
  have hall := ((hrelinked.trans hunlinked).trans hforeign).trans huserGone
  have hruns : ∀ row, row ∈ store.runs.filter (fun row ↦ row.id ≠ current.run.id) ↔
      row ∈ store.runs ∧ row.id ≠ current.run.id := fun row ↦
    Table.mem_filter.trans (by rw [decide_eq_true_eq])
  rw [hid]
  exact ⟨_,
    { represents := hrepresents.broken hcurrent (Table.mem_modify_self hrepresents.session_mem) rfl
        head?_relink rfl hruns hdeleted
      session_id := rfl
      runs := hruns
      elsewhere := ⟨fun _ hne ↦ Table.mem_modify_of_ne hne, hall.frame, fun row hrow ↦
        (hruns row).trans (and_iff_left_of_imp fun hmem heq ↦ hrow
          ((congrArg Run.sessionId (Table.eq_of_key_eq hmem hturn.run_mem heq)).trans
            hturn.session))⟩
      buffer := fun delta ↦ Table.mem_filter.trans (by rw [decide_eq_true_eq]) }⟩

end Ads.Transcript
