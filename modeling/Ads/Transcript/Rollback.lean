import Ads.Transcript.Execution

/-!
# The list and its rollback

In every state of every run of the system each session is one doubly linked list, and when a run
breaks its session is as it was just before the `send` that started the run: `execute_wellLinked`
states both for all runs. The second part follows the turn of the run: until the row of the run goes
away the turn is open over the same settled entries, or it is settled for good (`Follows`).
-/

set_option autoImplicit false
set_option relaxedAutoImplicit false

namespace Ads.Transcript

open Context Foundation Foundation.StateExcept Python

/-- A session has the same entries, latest entry, walk and committed tombstone in two states. -/
structure SameSession (sessionId : Uuid) (before after : Database) : Prop where
  entries : ∀ entry : Entry, entry.sessionId = sessionId →
    (entry ∈ after.entries ↔ entry ∈ before.entries)
  rows : ∃ old ∈ before.sessions, ∃ new ∈ after.sessions, old.id = sessionId ∧ new.id = sessionId ∧
    new.latestEntryId = old.latestEntryId ∧
      new.committedTombstoneId = old.committedTombstoneId ∧ after.walk new = before.walk old

/-- Two threads without an open turn and with the same settled entries. -/
theorem Represents.sameSession {before after : Database} {first second : Thread}
    (hbefore : Represents before first) (hafter : Represents after second)
    (hfirst : first.current = none) (hsecond : second.current = none)
    (hid : second.session.id = first.session.id) (hsettled : second.settled = first.settled) :
    SameSession first.session.id before after := by
  have hchain : second.chain = first.chain := by
    rw [Thread.chain_of_none hfirst, Thread.chain_of_none hsecond, hsettled]
  refine ⟨fun entry howned ↦ ?_, _, hbefore.session_mem, _, hafter.session_mem, rfl, hid, ?_, ?_, ?_⟩
  · have hold := hbefore.holds.mem_iff entry
    have hnew := hafter.holds.mem_iff entry
    rw [hchain, hid] at hnew
    rw [and_iff_left howned] at hold hnew
    exact hnew.symm.trans hold
  · rw [hafter.latest, hbefore.latest, hchain]
  · rw [hafter.committed, hbefore.committed, hsettled]
  · rw [hafter.walk_eq, hbefore.walk_eq, hchain]

/-- The turn of a run is open over the settled entries of a thread, or settled for good. -/
def Follows (start : Thread) (runId : Uuid) (database : Database) : Prop :=
  (∃ thread current, Represents database thread ∧ thread.session.id = start.session.id ∧
    thread.settled = start.settled ∧ thread.current = some current ∧ current.run.id = runId) ∨
      ∃ run ∈ database.runs, run.id = runId ∧ run.status = .finished

/-- The turn of a run is gone. -/
def Restored (start : Thread) (runId : Uuid) (database : Database) : Prop :=
  (∃ thread, Represents database thread ∧ thread.session.id = start.session.id ∧
    thread.settled = start.settled ∧ thread.current = none) ∧
      ∀ run ∈ database.runs, run.id ≠ runId

/-- After one transaction the turn is still followed, or it is gone. -/
theorem Follows.stepped {start : Thread} {runId : Uuid} {before after : Database}
    (hfollows : Follows start runId before) (hstepped : Stepped before after) :
    Follows start runId after ∨ Restored start runId after := by
  rcases hfollows with ⟨thread, current, hrepresents, hid, hsettled, hcurrent, rfl⟩ |
    ⟨run, hrun, rfl, hfinished⟩
  · obtain ⟨next, hnext, hnextId, hmoved⟩ := hstepped.moves thread hrepresents
    have hsame := hnextId.trans hid
    cases hmoved with
    | @keeps session now committed same =>
      rw [hcurrent] at same
      obtain ⟨going, rfl, hgoing⟩ := Option.map_eq_some_iff.mp same
      exact Or.inl (Or.inl ⟨_, going, hnext, hsame, hsettled, rfl, hgoing⟩)
    | starts committed idle =>
      rw [hcurrent] at idle
      cases idle
    | settles turn mem same finished =>
      rw [hcurrent] at turn
      obtain rfl := Option.some.inj turn
      exact Or.inl (Or.inr ⟨_, mem, same, finished⟩)
    | breaks committed turn gone =>
      rw [hcurrent] at turn
      obtain rfl := Option.some.inj turn
      exact Or.inr ⟨⟨_, hnext, hsame, hsettled, rfl⟩, gone⟩
  · obtain ⟨kept, hkept, hkeptId, hkeptFinished⟩ := hstepped.finished run hrun hfinished
    exact Or.inl (Or.inr ⟨kept, hkept, hkeptId, hkeptFinished⟩)

/-- The turn is followed as long as the row of its run is there. -/
theorem Follows.execute {codec : Codec} {start : Thread} {runId : Uuid} {database : Database}
    (hsound : Sound database) (hfollows : Follows start runId database) (events : List Event)
    (hpresent : ∀ front back, events = front ++ back →
      ∃ run ∈ (execute codec database front).runs, run.id = runId) :
    Follows start runId (execute codec database events) := by
  induction events generalizing database with
  | nil => exact hfollows
  | cons event rest ih =>
    have hstepped : Stepped database (step codec database event) := step_stepped hsound event
    refine ih (hsound.of_stepped hstepped) ?_ fun front back hsplit ↦ ?_
    · refine (hfollows.stepped hstepped).resolve_right fun hrestored ↦ ?_
      obtain ⟨run, hrun, hid⟩ := hpresent [event] rest rfl
      exact hrestored.2 run hrun hid
    · exact hpresent (event :: front) back (congrArg (event :: ·) hsplit)

/-- The operation breaks a run in flight. -/
def Operation.Breaks (run : Run) : Operation → Prop
  | .finish sessionId lastOrder messageId => run.sessionId = sessionId ∧
      run.isOther messageId = false ∧ ∀ last ∈ lastOrder, last < 0 ∨ last < run.watermark
  | .error sessionId messageId _ => run.sessionId = sessionId ∧ run.messageId = messageId
  | .abortAndBreak runId => run.id = runId
  | .breakRun runId _ => run.id = runId
  | _ => False

/-- The row of a broken run is gone. -/
theorem Breaks.gone {before after : Store} {thread : Thread} {current : Current}
    (hbreaks : Breaks before thread current after) : ∀ row ∈ after.runs, row.id ≠ current.run.id := by
  obtain ⟨between, session, next, last, progress, hcontinued, hbroken⟩ := hbreaks
  intro row hrow heq
  exact ((hbroken.runs row).mp hrow).2 (heq.trans hcontinued.runs.key_eq.symm)

/-- An operation that breaks a run takes its row away. -/
theorem Operation.Breaks.gone {codec : Codec} {database : Database} {run : Run} {event : Event}
    (hsound : Sound database) (hrun : run ∈ database.runs) (hflight : run.status.inFlight = true)
    (hbreaks : event.operation.Breaks run) :
    ∀ row ∈ (step codec database event).runs, row.id ≠ run.id := by
  obtain ⟨session, hsession, hid⟩ := hsound.runs run hrun
  obtain ⟨thread, rfl, hrepresents⟩ := hsound.threads session hsession
  obtain ⟨current, hcurrent, rfl⟩ := hrepresents.current_of_inFlight hrun hid hflight
  obtain ⟨operation, now, supply⟩ := event
  have hcommit : Ensures (operation.transaction codec now) ⟨database, supply⟩
      (fun _ final ↦ Transcript.Breaks ⟨database, supply⟩ thread current final) fun _ ↦ False := by
    have hother : ∀ other ∈ thread.current, other = current := by
      intro other hmem
      rw [hcurrent] at hmem
      exact (Option.some.inj hmem).symm
    cases operation with
    | finish sessionId lastOrder messageId =>
      obtain ⟨hsame, hmine, hinvalid⟩ := hbreaks
      obtain rfl : thread.session.id = sessionId := hid.trans hsame
      refine (finish_ensures (by exact hrepresents)).mono ?_ fun _ hraised ↦ hraised
      rintro _ final (⟨-, hall⟩ | ⟨other, hmem, -, hfinishes⟩)
      · rw [hall current hcurrent] at hmine
        cases hmine
      · obtain rfl := hother other hmem
        cases lastOrder with
        | none => exact hfinishes
        | some last =>
          rw [Finishes, if_pos (hinvalid last rfl)] at hfinishes
          exact hfinishes
    | error sessionId messageId text =>
      obtain ⟨hsame, hmine⟩ := hbreaks
      obtain rfl : thread.session.id = sessionId := hid.trans hsame
      refine (error_ensures (by exact hrepresents)).mono ?_ fun _ hraised ↦ hraised
      rintro _ final (⟨-, hall⟩ | ⟨other, hmem, -, hbroken⟩)
      · exact absurd hmine (hall current hcurrent)
      · obtain rfl := hother other hmem
        exact hbroken
    | abortAndBreak runId =>
      obtain rfl : current.run.id = runId := hbreaks
      exact breakFor_ensures (by exact hrepresents) hcurrent
    | breakRun runId reason =>
      obtain rfl : current.run.id = runId := hbreaks
      exact breakFor_ensures (by exact hrepresents) hcurrent
    | create | send | produced | acknowledge | partialResponse | ping => exact hbreaks.elim
  exact commit_of_ensures (fun after ↦ ∀ row ∈ after.runs, row.id ≠ current.run.id)
    (hcommit.mono (fun _ _ hbroken ↦ hbroken.gone) fun _ hraised ↦ hraised.elim)

section Send

variable {codec : Codec} {database : Database} {userId sessionId : Uuid} {userInput : Text}
  {modelId : Option Uuid} {now : ℤ} {supply : ℕ → Uuid} {result : Uuid × List HistoryTurn}
  {store : Store}

/-- A `send` succeeds for a session only. -/
theorem send_hasSession (hsend : SendService.send codec userId sessionId userInput modelId now
    ⟨database, supply⟩ = .ok (result, store)) :
    ∃ session ∈ database.sessions, session.id = sessionId := by
  by_contra habsent
  have hnone : database.sessions.find sessionId = none :=
    Table.find_eq_none_iff.mpr fun session hmem hid ↦ habsent ⟨session, hmem, hid⟩
  have hraises : Ensures (SendService.send codec userId sessionId userInput modelId now)
      ⟨database, supply⟩ (fun _ _ ↦ False) fun _ ↦ True := by
    rw [SendService.send, ensures_bind, SendService.loadOwned, ensures_bind, ensures_getSession,
      hnone]
    trivial
  exact hraises.of_eq_ok hsend

/-- A `send` that succeeds opens the turn of a run. -/
theorem send_started {start : Thread} (hstart : Represents database start)
    (hid : start.session.id = sessionId)
    (hsend : SendService.send codec userId sessionId userInput modelId now ⟨database, supply⟩ =
      .ok (result, store)) :
    ∃ run session user, run.id = supply 1 ∧ run.messageId = result.1 ∧
      Started ⟨database, supply⟩ start run store session user := by
  rw [← hid] at hsend
  obtain ⟨run, session, user, hrunId, hmessageId, -, -, hstarted⟩ :=
    (send_ensures (by exact hstart)).of_eq_ok hsend
  exact ⟨run, session, user, hrunId, hmessageId, hstarted⟩

/-- The turn of the run that a `send` starts is followed from there on. -/
theorem send_follows (hsound : Sound database)
    (hsend : SendService.send codec userId sessionId userInput modelId now ⟨database, supply⟩ =
      .ok (result, store)) :
    ∃ start, Represents database start ∧ start.session.id = sessionId ∧ start.current = none ∧
      Sound store.toDatabase ∧ Follows start (supply 1) store.toDatabase := by
  have hsession := send_hasSession hsend
  obtain ⟨session, hmem, rfl⟩ := hsession
  obtain ⟨thread, rfl, hrepresents⟩ := hsound.threads session hmem
  obtain ⟨run, after, user, hrunId, -, hstarted⟩ := send_started hrepresents rfl hsend
  refine ⟨thread, hrepresents, rfl, hstarted.idle, ?_, Or.inl ⟨_, _, hstarted.represents,
    hstarted.session_id, rfl, rfl, hrunId⟩⟩
  refine hsound.of_stepped (hsound.stepped_of_transition ⟨_, hmem, rfl⟩ fun start hstart hid ↦ ?_)
  obtain ⟨other, row, entry, -, -, hother⟩ := send_started hstart hid hsend
  exact hother.transition

end Send

/-- In every state of every run of the system each session is one doubly linked list that ends in
its latest entry. When the row of a run goes away, the session is as it was just before the `send`
that started the run; and an operation that breaks a run in flight makes its row go away. -/
theorem execute_wellLinked (codec : Codec) (events : List Event) :
    (∀ session ∈ (execute codec .empty events).sessions,
      WellLinked (execute codec .empty events) session) ∧
    ∀ userId sessionId userInput modelId now supply result store,
      SendService.send codec userId sessionId userInput modelId now
        ⟨execute codec .empty events, supply⟩ = .ok (result, store) →
      ∀ middle last, (∀ front back, middle = front ++ back →
        ∃ run ∈ (execute codec store.toDatabase front).runs, run.id = supply 1) →
        ((∀ run ∈ (execute codec store.toDatabase (middle ++ [last])).runs, run.id ≠ supply 1) →
          SameSession sessionId (execute codec .empty events)
            (execute codec store.toDatabase (middle ++ [last]))) ∧
        ∀ run ∈ (execute codec store.toDatabase middle).runs, run.id = supply 1 →
          run.status.inFlight = true → last.operation.Breaks run →
            ∀ row ∈ (execute codec store.toDatabase (middle ++ [last])).runs, row.id ≠ supply 1 := by
  have hsound : Sound (execute codec .empty events) := execute_sound sound_empty events
  refine ⟨fun session hsession ↦ ?_, ?_⟩
  · obtain ⟨thread, rfl, hrepresents⟩ := hsound.threads session hsession
    exact hrepresents.wellLinked
  intro userId sessionId userInput modelId now supply result store hsend middle last hpresent
  obtain ⟨start, hstart, rfl, hidle, hstored, hfollows⟩ := send_follows hsound hsend
  have hmiddle := hfollows.execute hstored middle hpresent
  have hmiddleSound : Sound (execute codec store.toDatabase middle) := execute_sound hstored middle
  have hlast : execute codec store.toDatabase (middle ++ [last]) =
      step codec (execute codec store.toDatabase middle) last := List.foldl_append
  rw [hlast]
  refine ⟨fun hgone ↦ ?_, fun run hrun hid hflight hbreaks ↦ ?_⟩
  · rcases hmiddle.stepped (step_stepped hmiddleSound last) with hopen | hrestored
    · rcases hopen with ⟨thread, current, hthread, -, -, hcurrent, hid⟩ | ⟨run, hrun, hid, -⟩
      · exact absurd hid (hgone _ (hthread.isCurrent current hcurrent).run_mem)
      · exact absurd hid (hgone run hrun)
    · obtain ⟨⟨thread, hthread, hid, hsettled, hnone⟩, -⟩ := hrestored
      exact hstart.sameSession hthread hidle hnone hid hsettled
  · rw [← hid]
    exact hbreaks.gone hmiddleSound hrun hflight

end Ads.Transcript
