import Ads.Transcript.Delivery
import Ads.Transcript.Watchdog

/-!
# Finished runs are frozen

A run that is finished keeps its row and its entries (`frozen_of_timely`), unless the watchdog breaks
it: `_due` may name a run that finishes before the tick comes to it, and both `break_run` and
`abort_and_break` write the error text before `_break_run` looks at the status
(`frozen_counterexample`). What a transaction does in front of the settled entries of a thread is in
`Advances`.
-/

set_option autoImplicit false
set_option relaxedAutoImplicit false

namespace Ads.Transcript

open Context Foundation Foundation.StateExcept Python

/-! ### Settled entries -/

/-- A list keeps the entries of another one behind new ones. The newest kept entry may point
elsewhere. -/
def Extends (chain older : List Entry) : Prop :=
  ∃ front link, chain = front ++ relink link older

section Extends

variable {first second third : List Entry}

theorem Extends.refl (hlinked : Linked none first) : Extends first first :=
  ⟨[], none, hlinked.relink_self.symm⟩

/-- The newest entry points elsewhere. -/
theorem Extends.relink (link : Option Uuid) (hextends : Extends first second) :
    Extends (relink link first) second := by
  obtain ⟨front, other, rfl⟩ := hextends
  cases front with
  | nil => exact ⟨[], link, relink_relink⟩
  | cons entry rest => exact ⟨{ entry with nextId := link } :: rest, other, rfl⟩

/-- More entries in front. -/
theorem Extends.append (front : List Entry) (hextends : Extends first second) :
    Extends (front ++ first) second := by
  obtain ⟨middle, link, rfl⟩ := hextends
  exact ⟨front ++ middle, link, (List.append_assoc _ _ _).symm⟩

theorem Extends.trans (hfirst : Extends first second) (hsecond : Extends second third) :
    Extends first third := by
  obtain ⟨front, link, rfl⟩ := hfirst
  exact (hsecond.relink link).append front

/-- A kept entry. -/
theorem Extends.kept (hextends : Extends first second) {entry : Entry} (hentry : entry ∈ second) :
    ∃ kept ∈ first, kept = { entry with nextId := kept.nextId } := by
  obtain ⟨front, link, rfl⟩ := hextends
  cases second with
  | nil => cases hentry
  | cons newest rest =>
    rcases List.mem_cons.mp hentry with rfl | hrest
    · exact ⟨_, List.mem_append_right _ List.mem_cons_self, rfl⟩
    · exact ⟨entry, List.mem_append_right _ (List.mem_cons_of_mem _ hrest), rfl⟩

end Extends

/-- All entries of a thread are behind its open turn. -/
theorem Thread.extends_settled {database : Database} {thread : Thread}
    (hrepresents : Represents database thread) : Extends thread.chain thread.settled := by
  cases hcurrent : thread.current with
  | none =>
    rw [Thread.chain_of_none hcurrent]
    exact .refl hrepresents.linked_settled
  | some current =>
    rw [Thread.chain_of_current hcurrent]
    exact ⟨current.parts ++ [current.user], some current.user.id, by simp⟩

/-- The entries of a finished run are settled. -/
theorem Represents.settled_of_finished {database : Database} {thread : Thread} {run : Run}
    {entry : Entry} (hrepresents : Represents database thread) (hrun : run ∈ database.runs)
    (hfinished : run.status = .finished) (hentry : entry ∈ thread.chain)
    (howned : entry.runId = some run.id) :
    ∃ old ∈ thread.settled, entry = { old with nextId := entry.nextId } := by
  cases hcurrent : thread.current with
  | none =>
    rw [Thread.chain_of_none hcurrent] at hentry
    exact ⟨entry, hentry, rfl⟩
  | some current =>
    have hturn := hrepresents.isCurrent current hcurrent
    rw [Thread.chain_of_current hcurrent] at hentry
    rcases List.mem_append.mp hentry with hpart | hrest
    · have hsame : run.id = current.run.id :=
        Option.some.inj (howned.symm.trans (hturn.parts entry hpart))
      exact absurd (Table.eq_of_key_eq hrun hturn.run_mem hsame ▸ hfinished) hturn.not_finished
    · rcases List.mem_cons.mp hrest with rfl | hsettled
      · rw [hturn.user.1] at howned
        cases howned
      · exact mem_relink hsettled

/-! ### What a transaction leaves of finished turns -/

/-- A transaction moves on the thread of a session: the settled entries stay behind what it settles,
and runs that are finished stay as they are. -/
structure Advances (opens : Prop) (before after : Database) (thread next : Thread) : Prop where
  represents : Represents after next
  session_id : next.session.id = thread.session.id
  elsewhere : SameElsewhere thread.session.id before after
  runs : ∀ run ∈ before.runs, run.status = .finished → run ∈ after.runs
  settled : Extends next.settled thread.settled
  ends : ∀ run ∈ after.runs, run.status = .finished → run ∈ before.runs ∨
    run.sessionId = next.session.id ∧ run.userEntryId ∈ next.settled.map Entry.id
  fresh : ∀ run ∈ before.runs, run.status = .finished → ∀ entry ∈ next.chain,
    entry.runId = some run.id → ∃ old ∈ thread.settled, entry = { old with nextId := entry.nextId }
  idle : ¬ opens → thread.current = none → next = thread

/-- Nothing changes. -/
theorem Advances.refl {opens : Prop} {database : Database} {thread : Thread}
    (hrepresents : Represents database thread) : Advances opens database database thread thread :=
  ⟨hrepresents, rfl, .refl _ _, fun _ hrun _ ↦ hrun, .refl hrepresents.linked_settled,
    fun _ hrun _ ↦ Or.inl hrun,
    fun _ hrun hfinished _ hentry howned ↦
      hrepresents.settled_of_finished hrun hfinished hentry howned, fun _ _ ↦ rfl⟩

/-- A row takes the place of that of a run that is not finished. -/
theorem finished_of_replaces {before after : Table Run.id} {old new run : Run}
    (hruns : Table.Replaces before after old new) (hold : old ∈ before)
    (hopen : old.status ≠ .finished) (hrun : run ∈ before) (hfinished : run.status = .finished) :
    run ∈ after := by
  have hne : run.id ≠ old.id := fun heq ↦ hopen (Table.eq_of_key_eq hrun hold heq ▸ hfinished)
  exact (hruns.mem_iff run).mpr (Or.inr ⟨hrun, hne⟩)

section Outcomes

variable {opens : Prop} {before after : Store} {thread : Thread} {current : Current}
  {deltas : List Delta} {progress : Run.Progress}

/-- A turn that goes on. -/
theorem Continued.advances {session : Session} {next : Current}
    (hrepresents : Represents before.toDatabase thread) (hcurrent : thread.current = some current)
    (hcontinued : Continued before thread current deltas progress after session next) :
    Advances opens before.toDatabase after.toDatabase thread
      ⟨session, thread.settled, some next⟩ where
  represents := hcontinued.represents
  session_id := hcontinued.session_id
  elsewhere := hcontinued.elsewhere
  runs run hrun hfinished :=
    have hturn := hrepresents.isCurrent current hcurrent
    finished_of_replaces hcontinued.runs hturn.run_mem hturn.not_finished hrun hfinished
  settled := .refl hrepresents.linked_settled
  ends run hrun hfinished := by
    rcases (hcontinued.runs.mem_iff run).mp hrun with rfl | ⟨hbefore, -⟩
    · exact absurd hfinished (hcontinued.represents.isCurrent next rfl).not_finished
    · exact Or.inl hbefore
  fresh run hrun hfinished entry hentry howned := by
    have hturn := hrepresents.isCurrent current hcurrent
    have hkept : run ∈ after.runs :=
      finished_of_replaces hcontinued.runs hturn.run_mem hturn.not_finished hrun hfinished
    exact hcontinued.represents.settled_of_finished hkept hfinished hentry howned
  idle _ hnone := by
    rw [hcurrent] at hnone
    cases hnone

/-- One after the other. -/
theorem Advances.trans {between last : Database} {middle final : Thread}
    (hfirst : Advances opens before.toDatabase between thread middle)
    (hsecond : Advances opens between last middle final) (hopen : thread.current ≠ none) :
    Advances opens before.toDatabase last thread final where
  represents := hsecond.represents
  session_id := hsecond.session_id.trans hfirst.session_id
  elsewhere := hfirst.elsewhere.trans (hfirst.session_id ▸ hsecond.elsewhere)
  runs run hrun hfinished := hsecond.runs run (hfirst.runs run hrun hfinished) hfinished
  settled := hsecond.settled.trans hfirst.settled
  ends run hrun hfinished := by
    rcases hsecond.ends run hrun hfinished with hmiddle | hlast
    · rcases hfirst.ends run hmiddle hfinished with hold | ⟨hsession, huser⟩
      · exact Or.inl hold
      · refine Or.inr ⟨hsession.trans hsecond.session_id.symm, ?_⟩
        obtain ⟨entry, hentry, hid⟩ := List.mem_map.mp huser
        obtain ⟨kept, hkept, hsame⟩ := hsecond.settled.kept hentry
        refine List.mem_map.mpr ⟨kept, hkept, ?_⟩
        rw [hsame]
        exact hid
    · exact Or.inr hlast
  fresh run hrun hfinished entry hentry howned := by
    obtain ⟨old, hold, hsame⟩ :=
      hsecond.fresh run (hfirst.runs run hrun hfinished) hfinished entry hentry howned
    obtain ⟨kept, hkept, hagain⟩ := (Thread.extends_settled hfirst.represents).kept hold
    have hkeptOwned : kept.runId = some run.id := by
      rw [hagain]
      rw [hsame] at howned
      exact howned
    obtain ⟨older, holder, horiginal⟩ := hfirst.fresh run hrun hfinished kept hkept hkeptOwned
    refine ⟨older, holder, ?_⟩
    rw [hagain] at horiginal
    rw [hsame]
    simp only [Entry.mk.injEq] at horiginal ⊢
    exact ⟨horiginal.1, horiginal.2.1, horiginal.2.2.1, trivial, horiginal.2.2.2.2⟩
  idle _ hnone := absurd hnone hopen

/-- A turn that goes on and is settled. -/
theorem Finished.advances {between : Store} {session last : Session} {next : Current}
    (hrepresents : Represents before.toDatabase thread) (hcurrent : thread.current = some current)
    (hcontinued : Continued before thread current deltas progress between session next)
    (hfinished : Finished between ⟨session, thread.settled, some next⟩ next after last) :
    Advances opens before.toDatabase after.toDatabase thread
      ⟨last, Thread.chain ⟨session, thread.settled, some next⟩, none⟩ := by
  have hfirst : Advances opens before.toDatabase between.toDatabase thread
      ⟨session, thread.settled, some next⟩ := hcontinued.advances hrepresents hcurrent
  have hturn := hcontinued.represents.isCurrent next rfl
  have hsecond : Advances opens between.toDatabase after.toDatabase
      ⟨session, thread.settled, some next⟩
      ⟨last, Thread.chain ⟨session, thread.settled, some next⟩, none⟩ :=
    { represents := hfinished.represents
      session_id := hfinished.session_id
      elsewhere := hfinished.elsewhere
      runs := fun run hrun hdone ↦
        finished_of_replaces hfinished.runs hturn.run_mem hturn.not_finished hrun hdone
      settled := Thread.extends_settled hcontinued.represents
      ends := by
        intro run hrun hdone
        rcases (hfinished.runs.mem_iff run).mp hrun with rfl | ⟨hbefore, -⟩
        · refine Or.inr ⟨hturn.session.trans hfinished.session_id.symm, ?_⟩
          refine List.mem_map.mpr ⟨next.user, ?_, hturn.userEntry.symm⟩
          rw [Thread.chain_of_current rfl]
          exact List.mem_append_right _ List.mem_cons_self
        · exact Or.inl hbefore
      fresh := fun run hrun hdone entry hentry howned ↦
        hcontinued.represents.settled_of_finished hrun hdone hentry howned
      idle := fun _ hnone ↦ absurd hnone (Option.some_ne_none _) }
  exact hfirst.trans hsecond (by rw [hcurrent]; exact Option.some_ne_none _)

/-- A turn that is settled. -/
theorem Settles.advances (hrepresents : Represents before.toDatabase thread)
    (hcurrent : thread.current = some current)
    (hsettles : Settles before thread current deltas progress after) :
    ∃ next, Advances opens before.toDatabase after.toDatabase thread next := by
  obtain ⟨between, session, next, last, hcontinued, hfinished⟩ := hsettles
  exact ⟨_, hfinished.advances hrepresents hcurrent hcontinued⟩

/-- A turn that goes on and is gone. -/
theorem Broken.advances {between : Store} {session last : Session} {next : Current}
    (hrepresents : Represents before.toDatabase thread) (hcurrent : thread.current = some current)
    (hcontinued : Continued before thread current deltas progress between session next)
    (hbroken : Broken between ⟨session, thread.settled, some next⟩ next after last) :
    Advances opens before.toDatabase after.toDatabase thread ⟨last, thread.settled, none⟩ := by
  have hfirst : Advances opens before.toDatabase between.toDatabase thread
      ⟨session, thread.settled, some next⟩ := hcontinued.advances hrepresents hcurrent
  have hturn := hcontinued.represents.isCurrent next rfl
  have hsecond : Advances opens between.toDatabase after.toDatabase
      ⟨session, thread.settled, some next⟩ ⟨last, thread.settled, none⟩ :=
    { represents := hbroken.represents
      session_id := hbroken.session_id
      elsewhere := hbroken.elsewhere
      runs := by
        intro run hrun hdone
        refine (hbroken.runs run).mpr ⟨hrun, fun heq ↦ hturn.not_finished ?_⟩
        rw [← Table.eq_of_key_eq hrun hturn.run_mem heq]
        exact hdone
      settled := .refl hrepresents.linked_settled
      ends := fun run hrun _ ↦ Or.inl ((hbroken.runs run).mp hrun).1
      fresh := fun _ _ _ entry hentry _ ↦ ⟨entry, hentry, rfl⟩
      idle := fun _ hnone ↦ absurd hnone (Option.some_ne_none _) }
  exact hfirst.trans hsecond (by rw [hcurrent]; exact Option.some_ne_none _)

/-- A turn that is gone. -/
theorem Breaks.advances (hrepresents : Represents before.toDatabase thread)
    (hcurrent : thread.current = some current) (hbreaks : Breaks before thread current after) :
    ∃ next, Advances opens before.toDatabase after.toDatabase thread next := by
  obtain ⟨between, session, next, last, progress, hcontinued, hbroken⟩ := hbreaks
  exact ⟨_, hbroken.advances hrepresents hcurrent hcontinued⟩

/-- A turn that is opened. -/
theorem Started.advances {run : Run} {session : Session} {user : Entry}
    (hrepresents : Represents before.toDatabase thread)
    (hstarted : Started before thread run after session user) :
    Advances True before.toDatabase after.toDatabase thread
      ⟨session, thread.settled, some ⟨run, user, []⟩⟩ where
  represents := hstarted.represents
  session_id := hstarted.session_id
  elsewhere := hstarted.elsewhere
  runs row hrow _ := (hstarted.runs row).mpr (Or.inr hrow)
  settled := .refl hrepresents.linked_settled
  ends row hrow hfinished := by
    rcases (hstarted.runs row).mp hrow with rfl | hbefore
    · exact absurd hfinished (hstarted.represents.isCurrent ⟨row, user, []⟩ rfl).not_finished
    · exact Or.inl hbefore
  fresh row hrow hfinished entry hentry howned :=
    hstarted.represents.settled_of_finished ((hstarted.runs row).mpr (Or.inr hrow)) hfinished hentry
      howned
  idle hclosed _ := absurd trivial hclosed

end Outcomes

/-! ### What a transaction leaves of the tables -/

/-- What one transaction leaves of all threads. Only sessions that `opens` names get another turn. -/
structure Froze (opens : Uuid → Prop) (before after : Database) : Prop where
  runs : ∀ run ∈ before.runs, run.status = .finished → run ∈ after.runs
  threads : ∀ thread, Represents before thread → ∃ next, Represents after next ∧
    next.session.id = thread.session.id ∧ Extends next.settled thread.settled ∧
      (∀ run ∈ before.runs, run.status = .finished → ∀ entry ∈ next.chain,
        entry.runId = some run.id →
          ∃ old ∈ thread.settled, entry = { old with nextId := entry.nextId }) ∧
        (¬ opens thread.session.id → thread.current = none → next = thread)
  ends : ∀ run ∈ after.runs, run.status = .finished → run ∈ before.runs ∨
    ∃ next, Represents after next ∧ run.sessionId = next.session.id ∧
      run.userEntryId ∈ next.settled.map Entry.id

/-- Nothing changes. -/
theorem Froze.refl {opens : Uuid → Prop} (database : Database) : Froze opens database database where
  runs _ hrun _ := hrun
  threads thread hrepresents := ⟨thread, hrepresents, rfl, .refl hrepresents.linked_settled,
    fun _ hrun hfinished _ hentry howned ↦
      hrepresents.settled_of_finished hrun hfinished hentry howned, fun _ _ ↦ rfl⟩
  ends _ hrun _ := Or.inl hrun

namespace Sound

variable {opens : Uuid → Prop} {before after database : Database} {supply : ℕ → Uuid}

/-- A transaction that moves on the threads of one session. -/
theorem froze_of_advances (hsound : Sound before) {sessionId : Uuid}
    (hsession : ∃ session ∈ before.sessions, session.id = sessionId)
    (hadvances : ∀ thread, Represents before thread → thread.session.id = sessionId →
      ∃ next, Advances (opens sessionId) before after thread next) : Froze opens before after := by
  obtain ⟨session, hmem, rfl⟩ := hsession
  obtain ⟨mine, rfl, hmine⟩ := hsound.threads session hmem
  obtain ⟨moved, hmoved⟩ := hadvances mine hmine rfl
  refine ⟨hmoved.runs, fun thread hrepresents ↦ ?_, fun run hrun hfinished ↦ ?_⟩
  · by_cases hid : thread.session.id = mine.session.id
    · obtain ⟨next, hnext⟩ := hadvances thread hrepresents hid
      refine ⟨next, hnext.represents, hnext.session_id, hnext.settled, hnext.fresh, fun hclosed ↦ ?_⟩
      exact hnext.idle (hid ▸ hclosed)
    · have hother := hrepresents.of_sameElsewhere hid hmoved.elsewhere
      refine ⟨thread, hother, rfl, .refl hother.linked_settled, ?_, fun _ _ ↦ rfl⟩
      exact fun run hrun hfinished _ hentry howned ↦
        hrepresents.settled_of_finished hrun hfinished hentry howned
  · exact (hmoved.ends run hrun hfinished).imp id fun hended ↦ ⟨moved, hmoved.represents, hended⟩

/-- A transaction on one session, if there is one. -/
theorem froze_of_session {computation : Transaction Unit} (sessionId : Uuid) (hsound : Sound database)
    (hfound : ∀ thread, Represents database thread → thread.session.id = sessionId →
      Ensures computation ⟨database, supply⟩
        (fun _ final ↦ ∃ next, Advances (opens sessionId) database final.toDatabase thread next)
        fun _ ↦ True)
    (habsent : (∀ session ∈ database.sessions, session.id ≠ sessionId) →
      Ensures computation ⟨database, supply⟩ (fun _ final ↦ final.toDatabase = database)
        fun _ ↦ True) : Froze opens database (commit computation database supply) := by
  by_cases hsession : ∃ session ∈ database.sessions, session.id = sessionId
  · refine hsound.froze_of_advances hsession fun thread hrepresents hid ↦ ?_
    exact commit_of_ensures
      (fun after ↦ ∃ next, Advances (opens sessionId) database after thread next)
      ((hfound thread hrepresents hid).mono (fun _ _ hnext ↦ hnext)
        fun _ _ ↦ ⟨thread, .refl hrepresents⟩)
  · have hnone := habsent fun session hmem hid ↦ hsession ⟨session, hmem, hid⟩
    have hsame : commit computation database supply = database :=
      commit_of_ensures (· = database) (hnone.mono (fun _ _ heq ↦ heq) fun _ _ ↦ rfl)
    rw [hsame]
    exact .refl database

/-- A change of the row of a run in flight. -/
theorem froze_of_updateRun {runId : Uuid} {change : Change Run.id} (hsound : Sound database)
    (hidentity : ∀ run, (change.apply run).identity = run.identity)
    (hstatus : ∀ run, (change.apply run).status = run.status)
    (hcandidate : ∀ run, (change.apply run).candidateTombstoneId = run.candidateTombstoneId)
    (htimely : ∀ run ∈ database.runs, run.id = runId → run.status ≠ .finished) :
    Froze opens database (commit (updateRun runId change) database supply) := by
  change Froze opens database { database with runs := database.runs.modify runId change }
  cases hfind : database.runs.find runId with
  | none =>
    rw [Table.modify_of_find_none hfind]
    exact .refl database
  | some run =>
    obtain ⟨hrun, rfl⟩ := Table.find_eq_some_iff.mp hfind
    have hflight : run.status.inFlight = true := by
      cases hrunStatus : run.status with
      | finished => exact absurd hrunStatus (htimely run hrun rfl)
      | pending => rfl
      | running => rfl
      | finishing => rfl
    refine hsound.froze_of_advances (hsound.runs run hrun) fun thread hrepresents hid ↦ ?_
    obtain ⟨current, hcurrent, rfl⟩ := hrepresents.current_of_inFlight hrun hid hflight
    have hcontinued : Continued ⟨database, supply⟩ thread current [] _ _ _ _ :=
      continued_of_updateRun change hrepresents hcurrent (hidentity _) rfl
        (by rw [hstatus, hflight]) (hcandidate _)
    exact ⟨_, hcontinued.advances hrepresents hcurrent⟩

/-- A run in flight that is broken for a reason. -/
theorem breakFor_froze {runId : Uuid} {reason : Text} {now : ℤ} (hsound : Sound database)
    (htimely : ∀ run ∈ database.runs, run.id = runId → run.status ≠ .finished) :
    Froze opens database
      (commit (EngineOutputService.breakFor runId reason now) database supply) := by
  cases hfind : database.runs.find runId with
  | none =>
    refine commit_of_ensures _ ?_
    simp only [EngineOutputService.breakFor, ensures_bind, ensures_getRun]
    rw [hfind]
    exact .refl database
  | some run =>
    obtain ⟨hrun, rfl⟩ := Table.find_eq_some_iff.mp hfind
    have hflight : run.status.inFlight = true := by
      cases hrunStatus : run.status with
      | finished => exact absurd hrunStatus (htimely run hrun rfl)
      | pending => rfl
      | running => rfl
      | finishing => rfl
    refine hsound.froze_of_advances (hsound.runs run hrun) fun thread hrepresents hid ↦ ?_
    obtain ⟨current, hcurrent, rfl⟩ := hrepresents.current_of_inFlight hrun hid hflight
    refine commit_of_ensures (fun after ↦ ∃ next, Advances _ database after thread next) ?_
    have hbroken : Ensures (EngineOutputService.breakFor current.run.id reason now)
        ⟨database, supply⟩ (fun _ final ↦ Breaks _ thread current final) fun _ ↦ False :=
      breakFor_ensures (by exact hrepresents) hcurrent
    exact hbroken.mono
      (fun _ _ hbreaks ↦ Breaks.advances (by exact hrepresents) hcurrent hbreaks)
      fun _ hfailed ↦ hfailed.elim

/-- A new session. -/
theorem createSession_froze {userId : Uuid} {now : ℤ} :
    Froze opens database (commit (createSession userId now) database supply) := by
  refine commit_of_ensures _ ?_
  simp only [createSession, ensures_bind, ensures_uuid4, ensures_insertSession]
  cases hinsert : database.sessions.insert
      { id := supply 0
        userId := userId
        latestEntryId := none
        committedTombstoneId := none
        updatedAt := now } with
  | none => exact .refl database
  | some sessions =>
    have hmem := (Table.mem_insert hinsert).1
    refine ⟨fun _ hrun _ ↦ hrun, fun thread hrepresents ↦ ?_, fun _ hrun _ ↦ Or.inl hrun⟩
    have hkept : thread.session ∈ sessions :=
      (hmem thread.session).mpr (Or.inr hrepresents.session_mem)
    refine ⟨thread, ⟨hkept, hrepresents.latest, hrepresents.holds, hrepresents.linked,
      hrepresents.linked_settled, hrepresents.committed, hrepresents.runs, hrepresents.idle,
      hrepresents.isCurrent⟩, rfl, .refl hrepresents.linked_settled, ?_, fun _ _ ↦ rfl⟩
    exact fun run hrun hfinished _ hentry howned ↦
      hrepresents.settled_of_finished hrun hfinished hentry howned

end Sound

section Reports

variable {opens : Prop} {before after : Store} {thread : Thread} {current : Current}

/-- A turn that goes on. -/
theorem Proceeds.advances {deltas : List Delta} {progress : Run.Progress}
    (hrepresents : Represents before.toDatabase thread) (hcurrent : thread.current = some current)
    (hproceeds : Proceeds before thread current deltas progress after) :
    ∃ next, Advances opens before.toDatabase after.toDatabase thread next := by
  obtain ⟨session, next, hcontinued⟩ := hproceeds
  exact ⟨_, hcontinued.advances hrepresents hcurrent⟩

/-- A report that the engine is alive. -/
theorem KeepsAlive.advances (hrepresents : Represents before.toDatabase thread)
    (hkeeps : KeepsAlive before thread after) :
    ∃ next, Advances opens before.toDatabase after.toDatabase thread next := by
  rcases hkeeps with rfl | ⟨current, hcurrent, status, hproceeds⟩
  · exact ⟨thread, .refl hrepresents⟩
  · exact hproceeds.advances hrepresents hcurrent

/-- A turn that goes on or is settled. -/
theorem Promotes.advances (hrepresents : Represents before.toDatabase thread)
    (hcurrent : thread.current = some current) (hpromotes : Promotes before thread current after) :
    ∃ next, Advances opens before.toDatabase after.toDatabase thread next := by
  unfold Promotes at hpromotes
  dsimp only at hpromotes
  split_ifs at hpromotes
  · exact hpromotes.advances hrepresents hcurrent
  · exact hpromotes.advances hrepresents hcurrent

/-- A part of the output. -/
theorem Receives.advances {order : ℤ} {kind : Kind} {text : Text} {pressure : Option Pressure}
    {messageId : Option Uuid} (hrepresents : Represents before.toDatabase thread)
    (hreceives : Receives before thread order kind text pressure messageId after) :
    ∃ next, Advances opens before.toDatabase after.toDatabase thread next := by
  rcases hreceives with ⟨rfl, -⟩ | ⟨current, hcurrent, buffer, hinsert, -, hpromotes⟩
  · exact ⟨thread, .refl hrepresents⟩
  · have hinserted : Represents { before.toDatabase with buffer := buffer } thread :=
      hrepresents.withBuffer
    obtain ⟨next, hnext⟩ :=
      @Promotes.advances opens _ _ _ _ (by exact hinserted) hcurrent hpromotes
    have hsame := hnext.elsewhere
    exact ⟨next, hnext.represents, hnext.session_id,
      ⟨hsame.sessions, hsame.entries, hsame.runs⟩, hnext.runs, hnext.settled, hnext.ends,
      hnext.fresh, hnext.idle⟩

/-- The announcement of the last part. -/
theorem Finishes.advances {lastOrder : Option ℤ}
    (hrepresents : Represents before.toDatabase thread) (hcurrent : thread.current = some current)
    (hfinishes : Finishes before thread current lastOrder after) :
    ∃ next, Advances opens before.toDatabase after.toDatabase thread next := by
  cases lastOrder with
  | none => exact Breaks.advances hrepresents hcurrent hfinishes
  | some last =>
    unfold Finishes at hfinishes
    dsimp only at hfinishes
    split_ifs at hfinishes
    · exact hfinishes.advances hrepresents hcurrent
    · exact hfinishes.advances hrepresents hcurrent
    · obtain ⟨status, hproceeds⟩ := hfinishes
      exact hproceeds.advances hrepresents hcurrent

end Reports

/-! ### One transaction -/

/-- The operation opens a turn in a session. -/
def Operation.Opens (sessionId : Uuid) : Operation → Prop
  | .send _ target _ _ => target = sessionId
  | _ => False

/-- The operation writes to no run that has finished: a break, or the last transaction of `send`,
comes before the end of its run. -/
def Operation.Timely (database : Database) : Operation → Prop
  | .produced runId => ∀ run ∈ database.runs, run.id = runId → run.status ≠ .finished
  | .abortAndBreak runId => ∀ run ∈ database.runs, run.id = runId → run.status ≠ .finished
  | .breakRun runId _ => ∀ run ∈ database.runs, run.id = runId → run.status ≠ .finished
  | _ => True

/-- A transaction that writes to no finished run freezes the finished ones. -/
theorem step_froze {codec : Codec} {database : Database} (hsound : Sound database) (event : Event)
    (htimely : event.operation.Timely database) :
    Froze (fun sessionId ↦ event.operation.Opens sessionId) database (step codec database event) := by
  obtain ⟨operation, now, supply⟩ := event
  cases operation with
  | create userId => exact Sound.createSession_froze
  | send userId sessionId userInput modelId =>
    refine hsound.froze_of_session sessionId ?_ fun habsent ↦ ?_
    · rintro thread hrepresents rfl
      change Ensures (SendService.send _ _ _ _ _ _ >>= fun _ ↦ pure ()) _ _ _
      rw [ensures_bind]
      refine (send_ensures hrepresents).mono ?_ fun _ _ ↦ trivial
      rintro _ final ⟨run, session, user, -, -, -, -, hstarted⟩
      have hadvances := Started.advances (by exact hrepresents) hstarted
      exact ⟨_, hadvances.represents, hadvances.session_id, hadvances.elsewhere, hadvances.runs,
        hadvances.settled, hadvances.ends, hadvances.fresh, fun hclosed ↦ absurd rfl hclosed⟩
    · change Ensures (SendService.send _ _ _ _ _ _ >>= fun _ ↦ pure ()) _ _ _
      rw [ensures_bind, SendService.send, ensures_bind, SendService.loadOwned, ensures_bind,
        ensures_getSession, Table.find_eq_none_iff.mpr habsent]
      trivial
  | produced runId =>
    exact hsound.froze_of_updateRun (fun _ ↦ rfl) (fun _ ↦ rfl) (fun _ ↦ rfl) htimely
  | acknowledge sessionId messageId =>
    refine hsound.froze_of_session sessionId ?_ fun habsent ↦ hsound.ensures_absent habsent
    rintro thread hrepresents rfl
    exact (acknowledge_ensures hrepresents).mono
      (fun _ _ hkeeps ↦ KeepsAlive.advances (by exact hrepresents) hkeeps)
      fun _ hraised ↦ hraised
  | partialResponse sessionId order kind text pressure messageId =>
    refine hsound.froze_of_session sessionId ?_ fun habsent ↦ hsound.ensures_absent habsent
    rintro thread hrepresents rfl
    exact (partialResponse_ensures hrepresents).mono
      (fun _ _ hreceives ↦ Receives.advances (by exact hrepresents) hreceives) fun _ _ ↦ trivial
  | ping sessionId =>
    refine hsound.froze_of_session sessionId ?_ fun habsent ↦ hsound.ensures_absent habsent
    rintro thread hrepresents rfl
    exact (ping_ensures hrepresents).mono
      (fun _ _ hkeeps ↦ KeepsAlive.advances (by exact hrepresents) hkeeps)
      fun _ hraised ↦ hraised
  | finish sessionId lastOrder messageId =>
    refine hsound.froze_of_session sessionId ?_ fun habsent ↦ hsound.ensures_absent habsent
    rintro thread hrepresents rfl
    refine (finish_ensures hrepresents).mono ?_ fun _ hraised ↦ hraised
    rintro _ _ (⟨rfl, -⟩ | ⟨current, hcurrent, -, hfinishes⟩)
    · exact ⟨thread, .refl hrepresents⟩
    · exact Finishes.advances (by exact hrepresents) hcurrent hfinishes
  | error sessionId messageId text =>
    refine hsound.froze_of_session sessionId ?_ fun habsent ↦ hsound.ensures_absent habsent
    rintro thread hrepresents rfl
    refine (error_ensures hrepresents).mono ?_ fun _ hraised ↦ hraised
    rintro _ _ (⟨rfl, -⟩ | ⟨current, hcurrent, -, hbreaks⟩)
    · exact ⟨thread, .refl hrepresents⟩
    · exact Breaks.advances (by exact hrepresents) hcurrent hbreaks
  | abortAndBreak runId => exact hsound.breakFor_froze htimely
  | breakRun runId reason => exact hsound.breakFor_froze htimely

/-! ### Runs of the system -/

/-- An entry is one of the transcript of a run: the turn of the user, or one that the engine brought. -/
def Entry.BelongsTo (run : Run) (entry : Entry) : Prop :=
  entry.id = run.userEntryId ∨ entry.runId = some run.id

/-- A run and its entries are as they were. The newest entry of a session points to the one after it
when there is one, so where an entry points is no part of its turn. -/
structure Unchanged (run : Run) (before after : Database) : Prop where
  run_mem : run ∈ after.runs
  kept : ∀ entry ∈ before.entries, entry.BelongsTo run →
    ∃ later ∈ after.entries, later = { entry with nextId := later.nextId }
  added : ∀ entry ∈ after.entries, entry.BelongsTo run →
    ∃ old ∈ before.entries, entry = { old with nextId := entry.nextId }

/-- Where an entry points does not decide to which run it belongs. -/
theorem Entry.BelongsTo.of_eq {run : Run} {first second : Entry} {link : Option Uuid}
    (hsame : first = { second with nextId := link }) (hsecond : second.BelongsTo run) :
    first.BelongsTo run := by
  rw [hsame]
  exact hsecond

theorem Entry.BelongsTo.of_eq' {run : Run} {first second : Entry} {link : Option Uuid}
    (hsame : first = { second with nextId := link }) (hfirst : first.BelongsTo run) :
    second.BelongsTo run := by
  rw [hsame] at hfirst
  exact hfirst

theorem Unchanged.refl {run : Run} {database : Database} (hrun : run ∈ database.runs) :
    Unchanged run database database :=
  ⟨hrun, fun entry hentry _ ↦ ⟨entry, hentry, rfl⟩, fun entry hentry _ ↦ ⟨entry, hentry, rfl⟩⟩

theorem Unchanged.trans {run : Run} {before between after : Database}
    (hfirst : Unchanged run before between) (hsecond : Unchanged run between after) :
    Unchanged run before after where
  run_mem := hsecond.run_mem
  kept entry hentry howned := by
    obtain ⟨middle, hmiddle, hsame⟩ := hfirst.kept entry hentry howned
    obtain ⟨later, hlater, hagain⟩ := hsecond.kept middle hmiddle (howned.of_eq hsame)
    refine ⟨later, hlater, ?_⟩
    rw [hsame] at hagain
    exact hagain
  added entry hentry howned := by
    obtain ⟨middle, hmiddle, hsame⟩ := hsecond.added entry hentry howned
    obtain ⟨old, hold, hagain⟩ := hfirst.added middle hmiddle (howned.of_eq' hsame)
    refine ⟨old, hold, ?_⟩
    rw [hagain] at hsame
    exact hsame

/-- The turn of the user of a run is settled. -/
def Anchored (database : Database) (run : Run) : Prop :=
  ∃ thread, Represents database thread ∧ run.sessionId = thread.session.id ∧
    run.userEntryId ∈ thread.settled.map Entry.id

/-- The turns of the users of all finished runs are settled. -/
def AllAnchored (database : Database) : Prop :=
  ∀ run ∈ database.runs, run.status = .finished → Anchored database run

section Froze

variable {opens : Uuid → Prop} {before after : Database} {run : Run}

/-- A settled turn stays settled. -/
theorem Anchored.froze (hanchored : Anchored before run) (hfroze : Froze opens before after) :
    Anchored after run := by
  obtain ⟨thread, hrepresents, hsession, huser⟩ := hanchored
  obtain ⟨next, hnext, hid, hextends, -⟩ := hfroze.threads thread hrepresents
  obtain ⟨entry, hentry, hentryId⟩ := List.mem_map.mp huser
  obtain ⟨kept, hkept, hsame⟩ := hextends.kept hentry
  refine ⟨next, hnext, hsession.trans hid.symm, List.mem_map.mpr ⟨kept, hkept, ?_⟩⟩
  rw [hsame]
  exact hentryId

theorem AllAnchored.froze (hanchored : AllAnchored before) (hfroze : Froze opens before after) :
    AllAnchored after := by
  intro run hrun hfinished
  rcases hfroze.ends run hrun hfinished with hbefore | hended
  · exact (hanchored run hbefore hfinished).froze hfroze
  · exact hended

/-- A thread of an entry. -/
theorem Sound.thread_of_mem {database : Database} (hsound : Sound database) {entry : Entry}
    (hentry : entry ∈ database.entries) :
    ∃ thread, Represents database thread ∧ entry ∈ thread.chain := by
  obtain ⟨session, hsession, hid⟩ := hsound.entries entry hentry
  obtain ⟨thread, rfl, hrepresents⟩ := hsound.threads session hsession
  exact ⟨thread, hrepresents, (hrepresents.holds.mem_iff entry).mpr ⟨hentry, hid.symm⟩⟩

/-- A settled entry under another one's identifier is that one, but for where it points. -/
theorem Represents.settled_eq {database : Database} {thread : Thread} {entry : Entry}
    (hrepresents : Represents database thread) (hentry : entry ∈ database.entries)
    (hid : entry.id ∈ thread.settled.map Entry.id) :
    ∃ old ∈ thread.settled, entry = { old with nextId := entry.nextId } := by
  obtain ⟨old, hold, hsame⟩ := List.mem_map.mp hid
  obtain ⟨kept, hkept, hagain⟩ := (Thread.extends_settled hrepresents).kept hold
  have hmem := ((hrepresents.holds.mem_iff kept).mp hkept).1
  have hkey : kept.id = entry.id := by
    rw [hagain]
    exact hsame
  have heq : kept = entry := Table.eq_of_key_eq hmem hentry hkey
  exact ⟨old, hold, heq ▸ hagain⟩

/-- A settled entry is in the table, but for where it points. -/
theorem Represents.settled_mem {database : Database} {thread : Thread} {entry : Entry}
    (hrepresents : Represents database thread) (hentry : entry ∈ thread.settled) :
    ∃ kept ∈ database.entries, kept = { entry with nextId := kept.nextId } := by
  obtain ⟨kept, hkept, hsame⟩ := (Thread.extends_settled hrepresents).kept hentry
  exact ⟨kept, ((hrepresents.holds.mem_iff kept).mp hkept).1, hsame⟩

/-- A transaction that freezes finished runs changes none of them. -/
theorem Froze.unchanged (hfroze : Froze opens before after) (hbefore : Sound before)
    (hafter : Sound after) (hanchored : AllAnchored before) (hrun : run ∈ before.runs)
    (hfinished : run.status = .finished) : Unchanged run before after := by
  -- Every entry of the run is settled before, and what is settled stays settled.
  have hsettled : ∀ entry ∈ before.entries, entry.BelongsTo run → ∃ thread,
      Represents before thread ∧ ∃ old ∈ thread.settled, entry = { old with nextId := entry.nextId } := by
    rintro entry hentry (huser | howned)
    · obtain ⟨thread, hrepresents, -, hid⟩ := hanchored run hrun hfinished
      exact ⟨thread, hrepresents, hrepresents.settled_eq hentry (huser ▸ hid)⟩
    · obtain ⟨thread, hrepresents, hchain⟩ := hbefore.thread_of_mem hentry
      exact ⟨thread, hrepresents, hrepresents.settled_of_finished hrun hfinished hchain howned⟩
  refine ⟨hfroze.runs run hrun hfinished, fun entry hentry howned ↦ ?_, ?_⟩
  · obtain ⟨thread, hrepresents, old, hold, hsame⟩ := hsettled entry hentry howned
    obtain ⟨next, hnext, -, hextends, -⟩ := hfroze.threads thread hrepresents
    obtain ⟨kept, hkept, hagain⟩ := hextends.kept hold
    obtain ⟨later, hlater, hlast⟩ := hnext.settled_mem hkept
    refine ⟨later, hlater, ?_⟩
    rw [hlast, hagain, hsame]
  · rintro entry hentry (huser | howned)
    · obtain ⟨thread, hrepresents, -, hid⟩ := hanchored run hrun hfinished
      obtain ⟨next, hnext, -, hextends, -⟩ := hfroze.threads thread hrepresents
      obtain ⟨old, hold, hsame⟩ := List.mem_map.mp hid
      obtain ⟨kept, hkept, hagain⟩ := hextends.kept hold
      obtain ⟨later, hlater, hlast⟩ := hnext.settled_mem hkept
      obtain ⟨first, hfirst, horiginal⟩ := hrepresents.settled_mem hold
      have hkey : later.id = entry.id := by
        rw [hlast, hagain, huser]
        exact hsame
      have heq : later = entry := Table.eq_of_key_eq hlater hentry hkey
      refine ⟨first, hfirst, ?_⟩
      rw [← heq, hlast, hagain, horiginal]
    · obtain ⟨session, hsession, hid⟩ := hbefore.runs run hrun
      obtain ⟨thread, rfl, hrepresents⟩ := hbefore.threads session hsession
      obtain ⟨next, hnext, hnextId, -, hfresh, -⟩ := hfroze.threads thread hrepresents
      obtain ⟨other, hother, hchain⟩ := hafter.thread_of_mem hentry
      obtain ⟨row, hrow, hrowId, hrowSession⟩ := hother.runs entry hchain run.id howned
      have hsame : row = run := Table.eq_of_key_eq hrow (hfroze.runs run hrun hfinished) hrowId
      have hentrySession : entry.sessionId = next.session.id := by
        rw [((hother.holds.mem_iff entry).mp hchain).2, ← hrowSession, hsame, hnextId, hid]
      obtain ⟨old, hold, heq⟩ := hfresh run hrun hfinished entry
        ((hnext.holds.mem_iff entry).mpr ⟨hentry, hentrySession⟩) howned
      obtain ⟨first, hfirst, horiginal⟩ := hrepresents.settled_mem hold
      refine ⟨first, hfirst, ?_⟩
      rw [heq, horiginal]

/-- A thread without an open turn stays as it is, and so do the entries of its session. -/
theorem Froze.idle (hfroze : Froze opens before after) {thread : Thread}
    (hrepresents : Represents before thread) (hidle : thread.current = none)
    (hclosed : ¬ opens thread.session.id) : Represents after thread := by
  obtain ⟨next, hnext, -, -, -, hsame⟩ := hfroze.threads thread hrepresents
  exact hsame hclosed hidle ▸ hnext

end Froze

namespace Watched

variable {codec : Codec} {settings : Watchdog.Settings} {state : Watched} {input : Input}

/-- The operation of an input on the tables, if it has one. -/
def operationOf (state : Watched) : Input → Option Operation
  | .service event => if isBreak event.operation then none else some event.operation
  | .abort _ _ => state.aborting.map .abortAndBreak
  | .gap _ _ =>
    if state.dead = [] ∧ state.aborting = none then
      state.gapped.head?.map (.breakRun · "gapped finish timed out".toList)
    else none
  | _ => none

/-- The input writes to no run that has finished. -/
def Timely (state : Watched) (input : Input) : Prop :=
  ∀ operation ∈ state.operationOf input, operation.Timely state.database

/-- The input opens a turn in a session. -/
def Opens (sessionId : Uuid) (state : Watched) (input : Input) : Prop :=
  ∃ operation ∈ state.operationOf input, operation.Opens sessionId

/-- What an input does to the tables. -/
theorem database_step (input : Input) :
    (state.step codec settings input).database = state.database ∧ state.operationOf input = none ∨
      ∃ event, state.operationOf input = some event.operation ∧
        (state.step codec settings input).database =
          Transcript.step codec state.database event := by
  cases input with
  | service event =>
    unfold step operationOf
    dsimp only
    split_ifs
    · exact Or.inl ⟨rfl, rfl⟩
    · exact Or.inr ⟨event, rfl, rfl⟩
  | tick now =>
    refine Or.inl ⟨?_, rfl⟩
    unfold step
    dsimp only
    split_ifs <;> rfl
  | check =>
    refine Or.inl ⟨?_, rfl⟩
    unfold step
    dsimp only
    split <;> rfl
  | abort now supply =>
    unfold step operationOf
    dsimp only
    cases state.aborting with
    | none => exact Or.inl ⟨rfl, rfl⟩
    | some runId => exact Or.inr ⟨_, rfl, rfl⟩
  | gap now supply =>
    unfold step operationOf
    dsimp only
    cases hdead : state.dead with
    | cons runId rest => exact Or.inl ⟨rfl, by simp⟩
    | nil =>
      cases haborting : state.aborting with
      | some runId => exact Or.inl ⟨rfl, by simp⟩
      | none =>
        cases hgapped : state.gapped with
        | nil => exact Or.inl ⟨rfl, by simp⟩
        | cons runId rest => exact Or.inr ⟨_, by simp, rfl⟩
  | fail => exact Or.inl ⟨rfl, rfl⟩

/-- The tables of the watched system are sound, and its finished runs anchored. -/
structure Settled (state : Watched) : Prop where
  sound : Sound state.database
  anchored : AllAnchored state.database

/-- Every input writes to no run that has finished when it comes. -/
def TimelyRun (codec : Codec) (settings : Watchdog.Settings) : Watched → List Input → Prop
  | _, [] => True
  | state, input :: rest =>
    state.Timely input ∧ TimelyRun codec settings (state.step codec settings input) rest

/-- No input opens a turn in a session. -/
def ClosedRun (codec : Codec) (settings : Watchdog.Settings) (sessionId : Uuid) :
    Watched → List Input → Prop
  | _, [] => True
  | state, input :: rest => ¬ Opens sessionId state input ∧
      ClosedRun codec settings sessionId (state.step codec settings input) rest

/-- The system before its first session. -/
theorem settled_initial : Settled .initial :=
  ⟨sound_empty, fun _ hrun _ ↦ absurd hrun Table.not_mem_empty⟩

/-- A timely input freezes the finished runs. -/
theorem Settled.froze (hsettled : Settled state) (htimely : state.Timely input) :
    Froze (fun sessionId ↦ Opens sessionId state input) state.database
      (state.step codec settings input).database := by
  rcases database_step input with ⟨hsame, hnone⟩ | ⟨event, hoperation, hstep⟩
  · rw [hsame]
    exact .refl _
  · have hfroze : Froze _ state.database (Transcript.step codec state.database event) :=
      step_froze hsettled.sound event (htimely _ hoperation)
    rw [hstep]
    refine ⟨hfroze.runs, fun thread hrepresents ↦ ?_, hfroze.ends⟩
    obtain ⟨next, hnext, hid, hextends, hfresh, hidle⟩ := hfroze.threads thread hrepresents
    refine ⟨next, hnext, hid, hextends, hfresh, fun hclosed ↦ hidle fun hopens ↦ hclosed ?_⟩
    exact ⟨_, hoperation, hopens⟩

theorem Settled.step (hsettled : Settled state) (htimely : state.Timely input) :
    Settled (state.step codec settings input) := by
  refine ⟨?_, hsettled.anchored.froze (hsettled.froze htimely)⟩
  rcases @database_step codec settings state input with
    ⟨hsame, -⟩ | ⟨event, -, hstep⟩
  · rw [hsame]
    exact hsettled.sound
  · rw [hstep]
    exact hsettled.sound.of_stepped (step_stepped hsettled.sound event)

theorem Settled.run {first second : List Input} (hsettled : Settled state)
    (htimely : TimelyRun codec settings state (first ++ second)) :
    Settled (state.run codec settings first) ∧
      TimelyRun codec settings (state.run codec settings first) second := by
  induction first generalizing state with
  | nil => exact ⟨hsettled, htimely⟩
  | cons input rest ih => exact ih (hsettled.step htimely.1) htimely.2

/-- Timely inputs change no finished run. -/
theorem Settled.unchanged {inputs : List Input} {run : Run} (hsettled : Settled state)
    (htimely : TimelyRun codec settings state inputs) (hrun : run ∈ state.database.runs)
    (hfinished : run.status = .finished) :
    Unchanged run state.database (state.run codec settings inputs).database := by
  induction inputs generalizing state with
  | nil => exact .refl hrun
  | cons input rest ih =>
    have hnext : Settled (state.step codec settings input) := hsettled.step htimely.1
    have hstep := (hsettled.froze htimely.1).unchanged hsettled.sound hnext.sound hsettled.anchored
      hrun hfinished
    exact hstep.trans (ih hnext htimely.2 hstep.run_mem)

/-- Timely inputs keep a thread without an open turn, unless they open one. -/
theorem Settled.idle {inputs : List Input} {thread : Thread} (hsettled : Settled state)
    (htimely : TimelyRun codec settings state inputs)
    (hclosed : ClosedRun codec settings thread.session.id state inputs)
    (hrepresents : Represents state.database thread) (hidle : thread.current = none) :
    Represents (state.run codec settings inputs).database thread := by
  induction inputs generalizing state with
  | nil => exact hrepresents
  | cons input rest ih =>
    exact ih (hsettled.step htimely.1) htimely.2 hclosed.2
      ((hsettled.froze htimely.1).idle hrepresents hidle hclosed.1)

end Watched

/-- A run that is finished keeps its row and its entries, as long as no break of the watchdog and no
last transaction of `send` comes to a run that has finished. If its session has no open turn and gets
no other one, not even where an entry points changes. -/
theorem frozen_of_timely (codec : Codec) (settings : Watchdog.Settings)
    (first second : List Watched.Input)
    (htimely : Watched.TimelyRun codec settings .initial (first ++ second)) (run : Run)
    (hrun : run ∈ (Watched.initial.run codec settings first).database.runs)
    (hfinished : run.status = .finished) :
    Unchanged run (Watched.initial.run codec settings first).database
      (Watched.initial.run codec settings (first ++ second)).database ∧
    ((∀ other ∈ (Watched.initial.run codec settings first).database.runs,
        other.sessionId = run.sessionId → other.status = .finished) →
      Watched.ClosedRun codec settings run.sessionId (Watched.initial.run codec settings first)
        second →
      ∀ entry : Entry, entry.sessionId = run.sessionId →
        (entry ∈ (Watched.initial.run codec settings (first ++ second)).database.entries ↔
          entry ∈ (Watched.initial.run codec settings first).database.entries)) := by
  obtain ⟨hsettled, hlater⟩ := Watched.settled_initial.run htimely
  have happend : Watched.initial.run codec settings (first ++ second) =
      (Watched.initial.run codec settings first).run codec settings second := List.foldl_append
  rw [happend]
  refine ⟨hsettled.unchanged hlater hrun hfinished, fun hothers hclosed entry howned ↦ ?_⟩
  obtain ⟨session, hsession, hid⟩ := hsettled.sound.runs run hrun
  obtain ⟨thread, rfl, hrepresents⟩ := hsettled.sound.threads session hsession
  have hidle : thread.current = none := by
    by_contra hopen
    obtain ⟨current, hcurrent⟩ := Option.ne_none_iff_exists'.mp hopen
    have hturn := hrepresents.isCurrent current hcurrent
    exact hturn.not_finished (hothers _ hturn.run_mem (hturn.session.trans hid))
  have hlast := hsettled.idle hlater (hid ▸ hclosed) hrepresents hidle
  have hnew := hlast.holds.mem_iff entry
  have hold := hrepresents.holds.mem_iff entry
  rw [and_iff_left (howned.trans hid.symm)] at hnew hold
  exact hnew.symm.trans hold

/-! ### A run that finishes after the watchdog read it -/

/-- A ping may take thirty seconds, and the missing parts of an announced end ten. -/
def seconds : Watchdog.Settings where
  pingDeathSeconds := 30
  finishGapSeconds := 10

/-- A run of one part whose end is announced first. The watchdog reads that the part is overdue, and
then it arrives. -/
def lateFinish : List Watched.Input :=
  [.service ⟨.create 1, 0, countFrom 10⟩,
    .service ⟨.send 1 10 "hi".toList (some 5), 0, countFrom 20⟩,
    .service ⟨.finish 10 (some 0) none, 1, countFrom 30⟩, .tick 60,
    .service ⟨.partialResponse 10 0 .message "yes".toList none none, 61, countFrom 40⟩]

/-- The run that is finished then. -/
def lateRun : Run where
  id := 21
  sessionId := 10
  messageId := 20
  userEntryId := 22
  modelId := 5
  status := .finished
  watermark := 0
  lastOrder := some 0
  lastEventAt := 61
  finishAt := none
  errorText := none
  candidateTombstoneId := none
  totalContext := none
  usedContext := none
  createdAt := 0
  updatedAt := 61

/-- The tick comes to the run that it read as overdue, and writes to the row of a finished run. -/
theorem frozen_counterexample :
    lateRun ∈ (Watched.initial.run mute seconds lateFinish).database.runs ∧
      lateRun.status = .finished ∧
      ¬ Unchanged lateRun (Watched.initial.run mute seconds lateFinish).database
        (Watched.initial.run mute seconds (lateFinish ++ [.gap 62 (countFrom 50)])).database := by
  have hbefore : lateRun ∈ (Watched.initial.run mute seconds lateFinish).database.runs.rows := by
    decide +kernel
  have hafter : lateRun ∉ (Watched.initial.run mute seconds
      (lateFinish ++ [.gap 62 (countFrom 50)])).database.runs.rows := by
    decide +kernel
  exact ⟨hbefore, rfl, fun hunchanged ↦ hafter hunchanged.run_mem⟩

/-- A ping after the end of the run. -/
def latePing : Watched.Input :=
  .service ⟨.ping 10, 62, countFrom 50⟩

theorem frozen_of_timely_ping :
    Unchanged lateRun (Watched.initial.run mute seconds lateFinish).database
      (Watched.initial.run mute seconds (lateFinish ++ [latePing])).database := by
  have hbefore : lateRun ∈ (Watched.initial.run mute seconds lateFinish).database.runs.rows := by
    decide +kernel
  have htimely : Watched.TimelyRun mute seconds .initial (lateFinish ++ [latePing]) := by
    refine ⟨?_, ?_, ?_, ?_, ?_, ?_, trivial⟩
    all_goals
      intro operation hoperation
      cases hoperation
    all_goals trivial
  exact (frozen_of_timely mute seconds lateFinish [latePing] htimely lateRun hbefore rfl).1

end Ads.Transcript
