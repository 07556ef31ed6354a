import Ads.Transcript.Sending

/-!
# The invariant of the transcript

`Sound` says that every session of the tables holds a thread, and that every row belongs to one.
`Transition` says what a transaction does to the thread of its session: a turn is opened, goes on, is
settled or is broken. `Stepped` says what it does to all threads, which keeps the tables sound
(`Sound.of_stepped`).
-/

set_option autoImplicit false
set_option relaxedAutoImplicit false

namespace Ads.Transcript

open Context Foundation Foundation.StateExcept Python

/-- Every part in the buffer belongs to a run. -/
def Owned (database : Database) : Prop :=
  ∀ delta ∈ database.buffer, ∃ run ∈ database.runs, run.id = delta.runId

/-- Every session holds a thread, and every row belongs to one. -/
structure Sound (database : Database) : Prop where
  threads : ∀ session ∈ database.sessions,
    ∃ thread, thread.session = session ∧ Represents database thread
  entries : ∀ entry ∈ database.entries, ∃ session ∈ database.sessions, session.id = entry.sessionId
  runs : ∀ run ∈ database.runs, ∃ session ∈ database.sessions, session.id = run.sessionId
  owned : Owned database

/-- The tables are sound before the first session. -/
theorem sound_empty : Sound .empty where
  threads _ hsession := absurd hsession Table.not_mem_empty
  entries _ hentry := absurd hentry Table.not_mem_empty
  runs _ hrun := absurd hrun Table.not_mem_empty
  owned _ hdelta := absurd hdelta Table.not_mem_empty

/-! ### What a transaction does to a thread -/

/-- Finished runs stay finished. -/
def KeepsFinished (before after : Table Run.id) : Prop :=
  ∀ run ∈ before, run.status = .finished → ∃ kept ∈ after, kept.id = run.id ∧ kept.status = .finished

theorem KeepsFinished.refl (runs : Table Run.id) : KeepsFinished runs runs :=
  fun run hrun hfinished ↦ ⟨run, hrun, rfl, hfinished⟩

theorem KeepsFinished.trans {before between after : Table Run.id}
    (hfirst : KeepsFinished before between) (hsecond : KeepsFinished between after) :
    KeepsFinished before after := by
  intro run hrun hfinished
  obtain ⟨middle, hmiddle, hmiddleId, hmiddleFinished⟩ := hfirst run hrun hfinished
  obtain ⟨kept, hkept, hkeptId, hkeptFinished⟩ := hsecond middle hmiddle hmiddleFinished
  exact ⟨kept, hkept, hkeptId.trans hmiddleId, hkeptFinished⟩

/-- A row takes the place of that of a run that is not finished. -/
theorem KeepsFinished.of_replaces {before after : Table Run.id} {old new : Run}
    (hruns : Table.Replaces before after old new) (hold : old ∈ before)
    (hopen : old.status ≠ .finished) : KeepsFinished before after := by
  intro run hrun hfinished
  have hne : run.id ≠ old.id := fun heq ↦ hopen (Table.eq_of_key_eq hrun hold heq ▸ hfinished)
  exact ⟨run, (hruns.mem_iff run).mpr (Or.inr ⟨hrun, hne⟩), rfl, hfinished⟩

/-- What becomes of a thread. A broken turn leaves the settled entries and the committed tombstone
as they were. -/
inductive Moved (runs : Table Run.id) (thread : Thread) : Thread → Prop where
  | keeps {session : Session} {current : Option Current}
      (committed : session.committedTombstoneId = thread.session.committedTombstoneId)
      (same : current.map (fun current ↦ current.run.id) =
        thread.current.map fun current ↦ current.run.id) :
      Moved runs thread ⟨session, thread.settled, current⟩
  | starts {session : Session} {current : Current}
      (committed : session.committedTombstoneId = thread.session.committedTombstoneId)
      (idle : thread.current = none) : Moved runs thread ⟨session, thread.settled, some current⟩
  | settles {session : Session} {settled : List Entry} {current : Current} {run : Run}
      (turn : thread.current = some current) (mem : run ∈ runs) (same : run.id = current.run.id)
      (finished : run.status = .finished) : Moved runs thread ⟨session, settled, none⟩
  | breaks {session : Session} {current : Current}
      (committed : session.committedTombstoneId = thread.session.committedTombstoneId)
      (turn : thread.current = some current) (gone : ∀ run ∈ runs, run.id ≠ current.run.id) :
      Moved runs thread ⟨session, thread.settled, none⟩

/-- A transaction moves the thread of one session. -/
structure Transition (before after : Database) (thread next : Thread) : Prop where
  represents : Represents after next
  session_id : next.session.id = thread.session.id
  moved : Moved after.runs thread next
  elsewhere : SameElsewhere thread.session.id before after
  finished : KeepsFinished before.runs after.runs
  owned : Owned before → Owned after

/-- Parts of runs that are all still there. -/
theorem Owned.of_replaces {before after : Database} {old new : Run}
    (hruns : Table.Replaces before.runs after.runs old new) (hbuffer : after.buffer = before.buffer)
    (howned : Owned before) : Owned after := by
  intro delta hdelta
  rw [hbuffer] at hdelta
  obtain ⟨run, hrun, hid⟩ := howned delta hdelta
  by_cases hsame : run.id = old.id
  · exact ⟨new, hruns.mem, hruns.key_eq.trans (hsame.symm.trans hid)⟩
  · exact ⟨run, (hruns.mem_iff run).mpr (Or.inr ⟨hrun, hsame⟩), hid⟩

/-- Nothing changes. -/
theorem Transition.refl {database : Database} {thread : Thread}
    (hrepresents : Represents database thread) : Transition database database thread thread :=
  ⟨hrepresents, rfl, .keeps rfl rfl, .refl _ _, .refl _, id⟩

section Outcomes

variable {before after : Store} {thread : Thread} {current : Current} {deltas : List Delta}
  {progress : Run.Progress}

/-- A turn that goes on. -/
theorem Continued.transition {session : Session} {next : Current}
    (hrepresents : Represents before.toDatabase thread) (hcurrent : thread.current = some current)
    (hcontinued : Continued before thread current deltas progress after session next) :
    Transition before.toDatabase after.toDatabase thread ⟨session, thread.settled, some next⟩ := by
  have hturn := hrepresents.isCurrent current hcurrent
  have hcommitted : session.committedTombstoneId = thread.session.committedTombstoneId :=
    hcontinued.represents.committed.trans hrepresents.committed.symm
  have hsame : (some next).map (fun current ↦ current.run.id) =
      thread.current.map fun current ↦ current.run.id := by
    rw [hcurrent]
    exact congrArg some hcontinued.runs.key_eq
  exact
    { represents := hcontinued.represents
      session_id := hcontinued.session_id
      moved := .keeps hcommitted hsame
      elsewhere := hcontinued.elsewhere
      finished := .of_replaces hcontinued.runs hturn.run_mem hturn.not_finished
      owned := Owned.of_replaces hcontinued.runs hcontinued.buffer }

/-- A turn that goes on. -/
theorem Proceeds.transition (hrepresents : Represents before.toDatabase thread)
    (hcurrent : thread.current = some current)
    (hproceeds : Proceeds before thread current deltas progress after) :
    ∃ next, Transition before.toDatabase after.toDatabase thread next := by
  obtain ⟨session, next, hcontinued⟩ := hproceeds
  exact ⟨_, hcontinued.transition hrepresents hcurrent⟩

/-- A turn that is settled. -/
theorem Settles.transition (hrepresents : Represents before.toDatabase thread)
    (hcurrent : thread.current = some current)
    (hsettles : Settles before thread current deltas progress after) :
    ∃ next, Transition before.toDatabase after.toDatabase thread next := by
  obtain ⟨between, session, next, last, hcontinued, hfinished⟩ := hsettles
  have hfirst := hcontinued.transition hrepresents hcurrent
  have hnext := hcontinued.represents.isCurrent next rfl
  exact ⟨_,
    { represents := hfinished.represents
      session_id := hfinished.session_id.trans hcontinued.session_id
      moved := .settles hcurrent hfinished.runs.mem
        (hfinished.runs.key_eq.trans hcontinued.runs.key_eq) rfl
      elsewhere := hfirst.elsewhere.trans (hcontinued.session_id ▸ hfinished.elsewhere)
      finished := hfirst.finished.trans
        (.of_replaces hfinished.runs hnext.run_mem hnext.not_finished)
      owned := fun howned ↦
        Owned.of_replaces hfinished.runs hfinished.buffer (hfirst.owned howned) }⟩

/-- A turn that is gone. -/
theorem Breaks.transition (hrepresents : Represents before.toDatabase thread)
    (hcurrent : thread.current = some current) (hbreaks : Breaks before thread current after) :
    ∃ next, Transition before.toDatabase after.toDatabase thread next := by
  obtain ⟨between, session, next, last, progress, hcontinued, hbroken⟩ := hbreaks
  have hfirst := hcontinued.transition hrepresents hcurrent
  have hnext := hcontinued.represents.isCurrent next rfl
  have hid : next.run.id = current.run.id := hcontinued.runs.key_eq
  refine ⟨_,
    { represents := hbroken.represents
      session_id := hbroken.session_id.trans hcontinued.session_id
      moved := .breaks (hbroken.represents.committed.trans hrepresents.committed.symm) hcurrent
        fun run hrun heq ↦ ((hbroken.runs run).mp hrun).2 (heq.trans hid.symm)
      elsewhere := hfirst.elsewhere.trans (hcontinued.session_id ▸ hbroken.elsewhere)
      finished := hfirst.finished.trans fun run hrun hfinished ↦ ⟨run, ?_, rfl, hfinished⟩
      owned := fun howned delta hdelta ↦ ?_ }⟩
  · refine (hbroken.runs run).mpr ⟨hrun, fun heq ↦ hnext.not_finished ?_⟩
    rw [← Table.eq_of_key_eq hrun hnext.run_mem heq]
    exact hfinished
  · obtain ⟨hbefore, hne⟩ := (hbroken.buffer delta).mp hdelta
    obtain ⟨run, hrun, hrunId⟩ := hfirst.owned howned delta hbefore
    exact ⟨run, (hbroken.runs run).mpr ⟨hrun, fun heq ↦ hne (hrunId.symm.trans heq)⟩, hrunId⟩

/-- A turn that goes on or is settled. -/
theorem Promotes.transition (hrepresents : Represents before.toDatabase thread)
    (hcurrent : thread.current = some current) (hpromotes : Promotes before thread current after) :
    ∃ next, Transition before.toDatabase after.toDatabase thread next := by
  unfold Promotes at hpromotes
  dsimp only at hpromotes
  split_ifs at hpromotes
  · exact hpromotes.transition hrepresents hcurrent
  · exact hpromotes.transition hrepresents hcurrent

/-- A report that the engine is alive. -/
theorem KeepsAlive.transition (hrepresents : Represents before.toDatabase thread)
    (hkeeps : KeepsAlive before thread after) :
    ∃ next, Transition before.toDatabase after.toDatabase thread next := by
  rcases hkeeps with rfl | ⟨current, hcurrent, status, hproceeds⟩
  · exact ⟨thread, .refl hrepresents⟩
  · exact hproceeds.transition hrepresents hcurrent

/-- A part of the output. -/
theorem Receives.transition {order : ℤ} {kind : Kind} {text : Text} {pressure : Option Pressure}
    {messageId : Option Uuid} (hrepresents : Represents before.toDatabase thread)
    (hreceives : Receives before thread order kind text pressure messageId after) :
    ∃ next, Transition before.toDatabase after.toDatabase thread next := by
  rcases hreceives with ⟨rfl, -⟩ | ⟨current, hcurrent, buffer, hinsert, -, hpromotes⟩
  · exact ⟨thread, .refl hrepresents⟩
  · have hinserted : Represents { before.toDatabase with buffer := buffer } thread :=
      hrepresents.withBuffer
    obtain ⟨next, htransition⟩ :=
      Promotes.transition (by exact hinserted) hcurrent hpromotes
    have hsame := htransition.elsewhere
    refine ⟨next, htransition.represents, htransition.session_id, htransition.moved,
      ⟨hsame.sessions, hsame.entries, hsame.runs⟩, htransition.finished,
      fun howned ↦ htransition.owned ?_⟩
    intro delta hdelta
    rcases ((Table.mem_insert hinsert).1 delta).mp hdelta with rfl | hbefore
    · exact ⟨current.run, (hrepresents.isCurrent current hcurrent).run_mem, rfl⟩
    · exact howned delta hbefore

/-- The announcement of the last part. -/
theorem Finishes.transition {lastOrder : Option ℤ}
    (hrepresents : Represents before.toDatabase thread) (hcurrent : thread.current = some current)
    (hfinishes : Finishes before thread current lastOrder after) :
    ∃ next, Transition before.toDatabase after.toDatabase thread next := by
  cases lastOrder with
  | none => exact Breaks.transition hrepresents hcurrent hfinishes
  | some last =>
    unfold Finishes at hfinishes
    dsimp only at hfinishes
    split_ifs at hfinishes
    · exact hfinishes.transition hrepresents hcurrent
    · exact hfinishes.transition hrepresents hcurrent
    · obtain ⟨status, hproceeds⟩ := hfinishes
      exact hproceeds.transition hrepresents hcurrent

/-- A turn that is opened. -/
theorem Started.transition {run : Run} {session : Session} {user : Entry}
    (hstarted : Started before thread run after session user) :
    ∃ next, Transition before.toDatabase after.toDatabase thread next := by
  refine ⟨_,
    { represents := hstarted.represents
      session_id := hstarted.session_id
      moved := .starts hstarted.committed hstarted.idle
      elsewhere := hstarted.elsewhere
      finished := fun row hrow hfinished ↦
        ⟨row, (hstarted.runs row).mpr (Or.inr hrow), rfl, hfinished⟩
      owned := fun howned delta hdelta ↦ ?_ }⟩
  rw [hstarted.buffer] at hdelta
  obtain ⟨row, hrow, hid⟩ := howned delta hdelta
  exact ⟨row, (hstarted.runs row).mpr (Or.inr hrow), hid⟩

end Outcomes

/-! ### What a transaction does to the tables -/

/-- What one transaction does to all threads. -/
structure Stepped (before after : Database) : Prop where
  moves : ∀ thread, Represents before thread → ∃ next, Represents after next ∧
    next.session.id = thread.session.id ∧ Moved after.runs thread next
  sessions : ∀ session ∈ after.sessions, (∃ old ∈ before.sessions, old.id = session.id) ∨
    Represents after ⟨session, [], none⟩
  kept : ∀ session ∈ before.sessions, ∃ kept ∈ after.sessions, kept.id = session.id
  entries : ∀ entry ∈ after.entries, ∃ session ∈ after.sessions, session.id = entry.sessionId
  runs : ∀ run ∈ after.runs, ∃ session ∈ after.sessions, session.id = run.sessionId
  owned : Owned after
  finished : KeepsFinished before.runs after.runs

namespace Sound

variable {database before after : Database}

/-- A transaction keeps the tables sound. -/
theorem of_stepped (hsound : Sound before) (hstepped : Stepped before after) : Sound after where
  threads := by
    intro session hsession
    rcases hstepped.sessions session hsession with ⟨old, hold, hid⟩ | hnew
    · obtain ⟨thread, rfl, hrepresents⟩ := hsound.threads old hold
      obtain ⟨next, hnext, hsame, -⟩ := hstepped.moves thread hrepresents
      exact ⟨next, Table.eq_of_key_eq hnext.session_mem hsession (hsame.trans hid), hnext⟩
    · exact ⟨_, rfl, hnew⟩
  entries := hstepped.entries
  runs := hstepped.runs
  owned := hstepped.owned

/-- Nothing changes. -/
theorem stepped_refl (hsound : Sound database) : Stepped database database where
  moves thread hrepresents := ⟨thread, hrepresents, rfl, .keeps rfl rfl⟩
  sessions session hsession := Or.inl ⟨session, hsession, rfl⟩
  kept session hsession := ⟨session, hsession, rfl⟩
  entries := hsound.entries
  runs := hsound.runs
  owned := hsound.owned
  finished := .refl _

/-- A transaction that moves the threads of one session. -/
theorem stepped_of_transition (hsound : Sound before) {sessionId : Uuid}
    (hsession : ∃ session ∈ before.sessions, session.id = sessionId)
    (hmoves : ∀ thread, Represents before thread → thread.session.id = sessionId →
      ∃ next, Transition before after thread next) : Stepped before after := by
  obtain ⟨session, hmem, rfl⟩ := hsession
  obtain ⟨mine, rfl, hmine⟩ := hsound.threads session hmem
  obtain ⟨moved, htransition⟩ := hmoves mine hmine rfl
  have hothers := htransition.elsewhere
  have hkept : ∀ old ∈ before.sessions, ∃ kept ∈ after.sessions, kept.id = old.id := by
    intro old hold
    by_cases hid : old.id = mine.session.id
    · exact ⟨_, htransition.represents.session_mem, htransition.session_id.trans hid.symm⟩
    · exact ⟨old, (hothers.sessions old hid).mpr hold, rfl⟩
  constructor
  · intro thread hrepresents
    by_cases hid : thread.session.id = mine.session.id
    · obtain ⟨next, hnext⟩ := hmoves thread hrepresents hid
      exact ⟨next, hnext.represents, hnext.session_id, hnext.moved⟩
    · exact ⟨thread, hrepresents.of_sameElsewhere hid hothers, rfl, .keeps rfl rfl⟩
  · intro session hsession
    by_cases hid : session.id = mine.session.id
    · exact Or.inl ⟨_, hmem, hid.symm⟩
    · exact Or.inl ⟨session, (hothers.sessions session hid).mp hsession, rfl⟩
  · exact hkept
  · intro entry hentry
    by_cases hid : entry.sessionId = mine.session.id
    · exact ⟨_, htransition.represents.session_mem, htransition.session_id.trans hid.symm⟩
    · obtain ⟨old, hold, holdId⟩ := hsound.entries entry ((hothers.entries entry hid).mp hentry)
      obtain ⟨kept, hkeptMem, hkeptId⟩ := hkept old hold
      exact ⟨kept, hkeptMem, hkeptId.trans holdId⟩
  · intro run hrun
    by_cases hid : run.sessionId = mine.session.id
    · exact ⟨_, htransition.represents.session_mem, htransition.session_id.trans hid.symm⟩
    · obtain ⟨old, hold, holdId⟩ := hsound.runs run ((hothers.runs run hid).mp hrun)
      obtain ⟨kept, hkeptMem, hkeptId⟩ := hkept old hold
      exact ⟨kept, hkeptMem, hkeptId.trans holdId⟩
  · exact htransition.owned hsound.owned
  · exact htransition.finished

/-- Without a session there is no run in flight for it. -/
theorem find_inFlight (hsound : Sound database) {sessionId : Uuid}
    (habsent : ∀ session ∈ database.sessions, session.id ≠ sessionId) :
    (database.runs.rows.find? fun run ↦ run.sessionId = sessionId ∧ run.status.inFlight = true) =
      none := by
  refine List.find?_eq_none.mpr fun run hrun hflight ↦ ?_
  obtain ⟨session, hsession, hid⟩ := hsound.runs run hrun
  exact habsent session hsession (hid.trans (of_decide_eq_true hflight).1)

end Sound

/-- The turn of a run in flight. -/
theorem Represents.current_of_inFlight {database : Database} {thread : Thread} {run : Run} (hrepresents : Represents database thread)
    (hrun : run ∈ database.runs) (hsession : thread.session.id = run.sessionId)
    (hflight : run.status.inFlight = true) :
    ∃ current, thread.current = some current ∧ current.run = run := by
  obtain hcurrent | ⟨current, hcurrent⟩ := Option.eq_none_or_eq_some thread.current
  · have hidle := hrepresents.idle hcurrent run hrun hsession.symm
    rw [hflight] at hidle
    cases hidle
  · exact ⟨current, hcurrent,
      ((hrepresents.isCurrent current hcurrent).only run hrun hsession.symm hflight).symm⟩

end Ads.Transcript
