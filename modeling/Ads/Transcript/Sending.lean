import Ads.Transcript.Output
import Ads.Transcript.Walk

/-!
# Starting a run

The specification of the transaction of `SendService.send` on tables that hold the thread of its
session: it runs only while no turn is open, hands on the history that the settled entries say, and
opens a turn with the entry of the user.
-/

set_option autoImplicit false
set_option relaxedAutoImplicit false

namespace Ads.Transcript

open Context Foundation Foundation.StateExcept Python

/-- A turn is opened. -/
structure Started (before : Store) (thread : Thread) (run : Run) (after : Store) (session : Session)
    (user : Entry) : Prop where
  idle : thread.current = none
  represents : Represents after.toDatabase ⟨session, thread.settled, some ⟨run, user, []⟩⟩
  session_id : session.id = thread.session.id
  committed : session.committedTombstoneId = thread.session.committedTombstoneId
  runs : ∀ row, row ∈ after.runs ↔ row = run ∨ row ∈ before.runs
  free : ∀ row ∈ before.runs, row.id ≠ run.id
  progress : run.progress = ⟨.pending, -1, none⟩
  elsewhere : SameElsewhere thread.session.id before.toDatabase after.toDatabase
  buffer : after.buffer = before.buffer

/-- The tables hold the thread whose turn is opened. -/
theorem Represents.start {before after : Store} {thread : Thread} {user : Entry} {run : Run}
    {now : ℤ} {runs : Table Run.id} (hrepresents : Represents before.toDatabase thread)
    (hidle : thread.current = none) (happended : Appended before thread user now after)
    (hinsert : before.runs.insert run = some runs) (hnextId : user.nextId = none)
    (hprevId : user.prevId = thread.session.latestEntryId) (hrunId : user.runId = none)
    (hkind : user.kind = .message) (hsession : run.sessionId = thread.session.id)
    (huser : run.userEntryId = user.id) (hflight : run.status.inFlight = true)
    (hcandidate : run.candidateTombstoneId = none) :
    Represents { after.toDatabase with runs := runs }
      ⟨{ thread.session with latestEntryId := some user.id, updatedAt := now }, thread.settled,
        some ⟨run, user, []⟩⟩ := by
  obtain ⟨hruns, hfree⟩ := Table.mem_insert hinsert
  have hchain := Thread.chain_of_none hidle
  have hholds := happended.holds
  have hlinked := hrepresents.linked
  rw [hchain] at hholds hlinked
  have howned : ∀ entry ∈ thread.settled, ∀ id ∈ entry.runId,
      ∃ row ∈ before.runs, row.id = id ∧ row.sessionId = thread.session.id := by
    rw [← hchain]
    exact hrepresents.runs
  constructor
  · exact happended.session_mem
  · rfl
  · exact hholds
  · exact hlinked.cons hnextId (hprevId.trans (hrepresents.latest.trans (by rw [hchain])))
  · exact hrepresents.linked_settled
  · exact hrepresents.committed
  · intro entry hentry id hid
    rcases List.mem_cons.mp hentry with rfl | hsettled
    · rw [hrunId] at hid
      cases hid
    · obtain ⟨old, hold, hsame⟩ := mem_relink hsettled
      obtain ⟨row, hrow, hrowId, hrowSession⟩ := howned old hold id (by rw [hsame] at hid; exact hid)
      exact ⟨row, (hruns row).mpr (Or.inr hrow), hrowId, hrowSession⟩
  · exact nofun
  · rintro _ ⟨⟩
    exact
      { run_mem := (hruns run).mpr (Or.inl rfl)
        session := hsession
        inFlight := hflight
        only := by
          intro row hrow hrowSession hrowFlight
          rcases (hruns row).mp hrow with rfl | hbefore
          · rfl
          · rw [hrepresents.idle hidle row hbefore hrowSession] at hrowFlight
            cases hrowFlight
        userEntry := huser
        user := ⟨hrunId, hkind⟩
        candidate := hcandidate
        parts := nofun
        settled := by
          intro entry hentry hrun
          obtain ⟨row, hrow, hrowId, -⟩ := howned entry hentry run.id hrun
          exact hfree row hrow hrowId }

/-- `_load_owned` hands on the row of the session. -/
theorem loadOwned_ensures {store : Store} {row : Session} {userId sessionId : Uuid}
    {post : Session → Store → Prop} (hfind : store.sessions.find sessionId = some row)
    (hpost : post row store) :
    Ensures (SendService.loadOwned userId sessionId) store post fun _ ↦ True := by
  simp only [SendService.loadOwned, ensures_bind, ensures_getSession]
  rw [hfind]
  dsimp only
  rw [ensures_bind, ensures_raiseIf]
  split_ifs
  exact hpost

/-- `send` opens a turn. -/
theorem send_ensures {codec : Codec} {store : Store} {thread : Thread} {userId : Uuid}
    {userInput : Text} {modelId : Option Uuid} {now : ℤ}
    (hrepresents : Represents store.toDatabase thread) :
    Ensures (SendService.send codec userId thread.session.id userInput modelId now) store
      (fun result final ↦ ∃ run session user,
        run.id = store.supply 1 ∧ run.messageId = result.1 ∧
          user.content = ⟨.message, some .user, stripText userInput⟩ ∧
            historyFromEntries codec thread.chain.reverse thread.session.committedTombstoneId =
              .ok result.2 ∧
              Started store thread run final session user)
      (fun _ ↦ True) := by
  unfold SendService.send
  rw [ensures_bind]
  refine loadOwned_ensures hrepresents.find_session ?_
  simp only [ensures_bind, ensures_raiseIf]
  split_ifs
  cases modelId with
  | none => trivial
  | some modelId =>
    simp only [ensures_bind, ensures_uuid4]
    refine loadOwned_ensures hrepresents.find_session ?_
    simp only [ensures_inFlightForSession, ensures_raiseIf, ensures_get, ensures_liftM]
    rw [hrepresents.find_inFlight, hrepresents.walk_eq]
    split_ifs with hrunning
    have hidle : thread.current = none := Option.map_eq_none_iff.mp (not_not.mp hrunning)
    cases hhistory : historyFromEntries codec thread.chain.reverse
        thread.session.committedTombstoneId with
    | error failure => trivial
    | ok history =>
      dsimp only
      refine (appendEntry_ensures (by exact hrepresents) _ _ _ _ _).mono ?_ fun _ _ ↦ trivial
      intro id after happended
      rw [ensures_insertRun, happended.runs]
      split_ifs
      split
      · trivial
      next runs hinsert =>
        obtain ⟨hruns, hfree⟩ := Table.mem_insert hinsert
        have hstarted : Represents _ _ := Represents.start (by exact hrepresents) hidle happended
          hinsert rfl rfl rfl rfl rfl rfl rfl rfl
        refine ⟨_, _, newEntry thread.session .message (some .user) (stripText userInput) none now id,
          by rfl, by rfl, rfl, rfl,
          { idle := hidle
            represents := hstarted
            session_id := rfl
            committed := rfl
            runs := hruns
            free := hfree
            progress := rfl
            elsewhere := ⟨happended.sessions, happended.entries, fun row hrow ↦ ?_⟩
            buffer := happended.buffer }⟩
        exact (hruns row).trans (or_iff_right fun heq ↦ hrow (heq ▸ rfl))

end Ads.Transcript
