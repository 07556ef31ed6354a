import Ads.Transcript.Invariant

/-!
# Runs of the system

Every transaction moves the thread of one session at most (`step_stepped`), so every run from sound
tables ends in sound tables (`execute_sound`).
-/

set_option autoImplicit false
set_option relaxedAutoImplicit false

namespace Ads.Transcript

open Context Foundation Foundation.StateExcept Python

/-! ### Rows of runs that are not in flight -/

/-- The row of a run that is not in flight has no part in a thread. -/
theorem Represents.updateIdle {database : Database} {thread : Thread} {run : Run}
    {change : Change Run.id} (hrepresents : Represents database thread) (hrun : run ∈ database.runs)
    (hidle : run.status.inFlight = false)
    (hsession : (change.apply run).sessionId = run.sessionId)
    (hstatus : (change.apply run).status = run.status) :
    Represents { database with runs := database.runs.modify run.id change } thread := by
  have hreplaces : Table.Replaces database.runs (database.runs.modify run.id change) run
      (change.apply run) := .modify hrun
  have hchanged : (change.apply run).status.inFlight = false := by rw [hstatus, hidle]
  refine ⟨hrepresents.session_mem, hrepresents.latest, hrepresents.holds, hrepresents.linked,
    hrepresents.linked_settled, hrepresents.committed, ?_, ?_, ?_⟩
  · intro entry hentry id hid
    obtain ⟨row, hrow, hrowId, hrowSession⟩ := hrepresents.runs entry hentry id hid
    by_cases hsame : row.id = run.id
    · obtain rfl := Table.eq_of_key_eq hrow hrun hsame
      exact ⟨_, hreplaces.mem, hreplaces.key_eq.trans hrowId, hsession.trans hrowSession⟩
    · exact ⟨row, (hreplaces.mem_iff row).mpr (Or.inr ⟨hrow, hsame⟩), hrowId, hrowSession⟩
  · intro hnone row hrow howned
    rcases (hreplaces.mem_iff row).mp hrow with rfl | ⟨hbefore, -⟩
    · exact hchanged
    · exact hrepresents.idle hnone row hbefore howned
  · intro current hcurrent
    have hturn := hrepresents.isCurrent current hcurrent
    have hne : current.run.id ≠ run.id := by
      intro heq
      have hflight := hturn.inFlight
      rw [Table.eq_of_key_eq hturn.run_mem hrun heq, hidle] at hflight
      cases hflight
    refine ⟨(hreplaces.mem_iff _).mpr (Or.inr ⟨hturn.run_mem, hne⟩), hturn.session, hturn.inFlight,
      fun row hrow howned hflight ↦ ?_, hturn.userEntry, hturn.user, hturn.candidate, hturn.parts,
      hturn.settled⟩
    rcases (hreplaces.mem_iff row).mp hrow with rfl | ⟨hbefore, -⟩
    · rw [hchanged] at hflight
      cases hflight
    · exact hturn.only row hbefore howned hflight

/-- A change of the row of a run that is not in flight. -/
theorem Sound.stepped_of_updateIdle {database : Database} {run : Run} {change : Change Run.id}
    (hsound : Sound database) (hrun : run ∈ database.runs) (hidle : run.status.inFlight = false)
    (hsession : (change.apply run).sessionId = run.sessionId)
    (hstatus : (change.apply run).status = run.status) :
    Stepped database { database with runs := database.runs.modify run.id change } := by
  have hreplaces : Table.Replaces database.runs (database.runs.modify run.id change) run
      (change.apply run) := .modify hrun
  constructor
  · exact fun thread hrepresents ↦
      ⟨thread, hrepresents.updateIdle hrun hidle hsession hstatus, rfl, .keeps rfl rfl⟩
  · exact fun session hmem ↦ Or.inl ⟨session, hmem, rfl⟩
  · exact fun session hmem ↦ ⟨session, hmem, rfl⟩
  · exact hsound.entries
  · intro row hrow
    rcases (hreplaces.mem_iff row).mp hrow with rfl | ⟨hbefore, -⟩
    · obtain ⟨session, hmem, hid⟩ := hsound.runs run hrun
      exact ⟨session, hmem, hid.trans hsession.symm⟩
    · exact hsound.runs row hbefore
  · exact Owned.of_replaces hreplaces rfl hsound.owned
  · intro row hrow hfinished
    by_cases hsame : row.id = run.id
    · obtain rfl := Table.eq_of_key_eq hrow hrun hsame
      exact ⟨_, hreplaces.mem, hreplaces.key_eq, hstatus.trans hfinished⟩
    · exact ⟨row, (hreplaces.mem_iff row).mpr (Or.inr ⟨hrow, hsame⟩), rfl, hfinished⟩

/-! ### One transaction -/

/-- What a transaction ensures of the tables that it leaves. -/
theorem commit_of_ensures {computation : Transaction Unit} {database : Database}
    {supply : ℕ → Uuid} (post : Database → Prop)
    (hensures : Ensures computation ⟨database, supply⟩ (fun _ final ↦ post final.toDatabase)
      fun _ ↦ post database) : post (commit computation database supply) := by
  unfold commit
  unfold Ensures at hensures
  cases hrun : computation ⟨database, supply⟩ with
  | error failure => rwa [hrun] at hensures
  | ok pair => rwa [hrun] at hensures

/-- A transaction on one session, if there is one. -/
theorem Sound.stepped_of_session {computation : Transaction Unit} {database : Database}
    {supply : ℕ → Uuid} (sessionId : Uuid) (hsound : Sound database)
    (hfound : ∀ thread, Represents database thread → thread.session.id = sessionId →
      Ensures computation ⟨database, supply⟩
        (fun _ final ↦ ∃ next, Transition database final.toDatabase thread next) fun _ ↦ True)
    (habsent : (∀ session ∈ database.sessions, session.id ≠ sessionId) →
      Ensures computation ⟨database, supply⟩ (fun _ final ↦ final.toDatabase = database)
        fun _ ↦ True) : Stepped database (commit computation database supply) := by
  by_cases hsession : ∃ session ∈ database.sessions, session.id = sessionId
  · refine hsound.stepped_of_transition hsession fun thread hrepresents hid ↦ ?_
    exact commit_of_ensures (fun after ↦ ∃ next, Transition database after thread next)
      ((hfound thread hrepresents hid).mono (fun _ _ hnext ↦ hnext)
        fun _ _ ↦ ⟨thread, .refl hrepresents⟩)
  · have hnone := habsent fun session hmem hid ↦ hsession ⟨session, hmem, hid⟩
    have hsame : commit computation database supply = database :=
      commit_of_ensures (· = database) (hnone.mono (fun _ _ heq ↦ heq) fun _ _ ↦ rfl)
    rw [hsame]
    exact hsound.stepped_refl

/-- A change of the row of a run that keeps what its thread depends on. -/
theorem Sound.stepped_of_updateRun {database : Database} {supply : ℕ → Uuid} {runId : Uuid}
    {change : Change Run.id} (hsound : Sound database)
    (hidentity : ∀ run, (change.apply run).identity = run.identity)
    (hstatus : ∀ run, (change.apply run).status = run.status)
    (hcandidate : ∀ run, (change.apply run).candidateTombstoneId = run.candidateTombstoneId) :
    Stepped database (commit (updateRun runId change) database supply) := by
  change Stepped database { database with runs := database.runs.modify runId change }
  cases hfind : database.runs.find runId with
  | none =>
    rw [Table.modify_of_find_none hfind]
    exact hsound.stepped_refl
  | some run =>
    obtain ⟨hrun, rfl⟩ := Table.find_eq_some_iff.mp hfind
    have hsession : (change.apply run).sessionId = run.sessionId :=
      congrArg Run.Identity.sessionId (hidentity run)
    cases hflight : run.status.inFlight with
    | false => exact hsound.stepped_of_updateIdle hrun hflight hsession (hstatus run)
    | true =>
      refine hsound.stepped_of_transition (hsound.runs run hrun) fun thread hrepresents hid ↦ ?_
      obtain ⟨current, hcurrent, rfl⟩ := hrepresents.current_of_inFlight hrun hid hflight
      have hcontinued : Continued ⟨database, supply⟩ thread current [] _ _ _ _ :=
        continued_of_updateRun change hrepresents hcurrent (hidentity _) rfl
          (by rw [hstatus, hflight]) (hcandidate _)
      exact ⟨_, hcontinued.transition hrepresents hcurrent⟩

/-- A report for a session without a run in flight changes nothing. -/
theorem Sound.ensures_absent {database : Database} {supply : ℕ → Uuid} {sessionId : Uuid}
    {report : Run → Transaction Unit} {allowed : Raised → Prop} (hsound : Sound database)
    (habsent : ∀ session ∈ database.sessions, session.id ≠ sessionId) :
    Ensures (do
        match ← inFlightForSession sessionId with
        | none => pure ()
        | some run => report run) ⟨database, supply⟩
      (fun _ final ↦ final.toDatabase = database) allowed := by
  rw [ensures_bind, ensures_inFlightForSession, hsound.find_inFlight habsent]
  rfl

/-- A new session. -/
theorem Sound.createSession_stepped {database : Database} {supply : ℕ → Uuid} {userId : Uuid}
    {now : ℤ} (hsound : Sound database) :
    Stepped database (commit (createSession userId now) database supply) := by
  refine commit_of_ensures _ ?_
  simp only [createSession, ensures_bind, ensures_uuid4, ensures_insertSession]
  cases hinsert : database.sessions.insert
      { id := supply 0
        userId := userId
        latestEntryId := none
        committedTombstoneId := none
        updatedAt := now } with
  | none => exact hsound.stepped_refl
  | some sessions =>
    obtain ⟨hmem, hfree⟩ := Table.mem_insert hinsert
    have hkept : ∀ session ∈ database.sessions, session ∈ sessions :=
      fun session hsession ↦ (hmem session).mpr (Or.inr hsession)
    dsimp only
    constructor
    · intro thread hrepresents
      exact ⟨thread, ⟨hkept _ hrepresents.session_mem, hrepresents.latest, hrepresents.holds,
        hrepresents.linked, hrepresents.linked_settled, hrepresents.committed, hrepresents.runs,
        hrepresents.idle, hrepresents.isCurrent⟩, rfl, .keeps rfl rfl⟩
    · intro session hsession
      rcases (hmem session).mp hsession with rfl | hold
      · refine Or.inr ⟨hsession, rfl, ⟨fun entry ↦ ?_, List.nodup_nil⟩, trivial, trivial, rfl,
          fun _ hentry ↦ absurd hentry List.not_mem_nil,
          fun _ run hrun howned ↦ ?_, fun _ hnone ↦ absurd hnone (Option.not_mem_none _)⟩
        · refine ⟨fun hentry ↦ absurd hentry List.not_mem_nil, fun howner ↦ ?_⟩
          obtain ⟨hentry, howned⟩ := howner
          obtain ⟨old, hold, hid⟩ := hsound.entries entry hentry
          exact absurd (hid.trans howned) (hfree old hold)
        · obtain ⟨old, hold, hid⟩ := hsound.runs run hrun
          exact absurd (hid.trans howned) (hfree old hold)
      · exact Or.inl ⟨session, hold, rfl⟩
    · exact fun session hsession ↦ ⟨session, hkept session hsession, rfl⟩
    · intro entry hentry
      obtain ⟨old, hold, hid⟩ := hsound.entries entry hentry
      exact ⟨old, hkept old hold, hid⟩
    · intro run hrun
      obtain ⟨old, hold, hid⟩ := hsound.runs run hrun
      exact ⟨old, hkept old hold, hid⟩
    · exact hsound.owned
    · exact .refl _

/-- A run that is broken for a reason. -/
theorem Sound.breakFor_stepped {database : Database} {supply : ℕ → Uuid} {runId : Uuid}
    {reason : Text} {now : ℤ} (hsound : Sound database) :
    Stepped database (commit (EngineOutputService.breakFor runId reason now) database supply) := by
  cases hfind : database.runs.find runId with
  | none =>
    refine commit_of_ensures _ ?_
    simp only [EngineOutputService.breakFor, ensures_bind, ensures_getRun]
    rw [hfind]
    exact hsound.stepped_refl
  | some run =>
    obtain ⟨hrun, rfl⟩ := Table.find_eq_some_iff.mp hfind
    cases hflight : run.status.inFlight with
    | false =>
      have hfinished : run.status = .finished := by
        cases hstatus : run.status with
        | finished => rfl
        | pending => rw [hstatus] at hflight; cases hflight
        | running => rw [hstatus] at hflight; cases hflight
        | finishing => rw [hstatus] at hflight; cases hflight
      refine commit_of_ensures _ ?_
      simp only [EngineOutputService.breakFor, ensures_bind, ensures_getRun]
      rw [hfind]
      dsimp only
      rw [ensures_bind, ensures_updateRun, breakRun, if_pos hfinished]
      exact hsound.stepped_of_updateIdle hrun hflight rfl rfl
    | true =>
      refine hsound.stepped_of_transition (hsound.runs run hrun) fun thread hrepresents hid ↦ ?_
      obtain ⟨current, hcurrent, rfl⟩ := hrepresents.current_of_inFlight hrun hid hflight
      refine commit_of_ensures (fun after ↦ ∃ next, Transition database after thread next) ?_
      have hbroken : Ensures (EngineOutputService.breakFor current.run.id reason now)
          ⟨database, supply⟩ (fun _ final ↦ Breaks _ thread current final) fun _ ↦ False :=
        breakFor_ensures (by exact hrepresents) hcurrent
      exact hbroken.mono
        (fun _ _ hbreaks ↦ Breaks.transition (by exact hrepresents) hcurrent hbreaks)
        fun _ hfailed ↦ hfailed.elim

/-- Every transaction moves the thread of one session at most. -/
theorem step_stepped {codec : Codec} {database : Database} (hsound : Sound database)
    (event : Event) : Stepped database (step codec database event) := by
  obtain ⟨operation, now, supply⟩ := event
  cases operation with
  | create userId => exact hsound.createSession_stepped
  | send userId sessionId userInput modelId =>
    refine hsound.stepped_of_session sessionId ?_ fun habsent ↦ ?_
    · rintro thread hrepresents rfl
      change Ensures (SendService.send _ _ _ _ _ _ >>= fun _ ↦ pure ()) _ _ _
      rw [ensures_bind]
      refine (send_ensures hrepresents).mono ?_ fun _ _ ↦ trivial
      rintro _ _ ⟨run, session, user, -, -, -, -, hstarted⟩
      exact hstarted.transition
    · change Ensures (SendService.send _ _ _ _ _ _ >>= fun _ ↦ pure ()) _ _ _
      rw [ensures_bind, SendService.send, ensures_bind, SendService.loadOwned, ensures_bind,
        ensures_getSession, Table.find_eq_none_iff.mpr habsent]
      trivial
  | produced runId =>
    exact hsound.stepped_of_updateRun (fun _ ↦ rfl) (fun _ ↦ rfl) fun _ ↦ rfl
  | acknowledge sessionId messageId =>
    refine hsound.stepped_of_session sessionId ?_ fun habsent ↦ hsound.ensures_absent habsent
    rintro thread hrepresents rfl
    exact (acknowledge_ensures hrepresents).mono
      (fun _ _ hkeeps ↦ KeepsAlive.transition (by exact hrepresents) hkeeps)
      fun _ hraised ↦ hraised
  | partialResponse sessionId order kind text pressure messageId =>
    refine hsound.stepped_of_session sessionId ?_ fun habsent ↦ hsound.ensures_absent habsent
    rintro thread hrepresents rfl
    exact (partialResponse_ensures hrepresents).mono
      (fun _ _ hreceives ↦ Receives.transition (by exact hrepresents) hreceives) fun _ _ ↦ trivial
  | ping sessionId =>
    refine hsound.stepped_of_session sessionId ?_ fun habsent ↦ hsound.ensures_absent habsent
    rintro thread hrepresents rfl
    exact (ping_ensures hrepresents).mono
      (fun _ _ hkeeps ↦ KeepsAlive.transition (by exact hrepresents) hkeeps)
      fun _ hraised ↦ hraised
  | finish sessionId lastOrder messageId =>
    refine hsound.stepped_of_session sessionId ?_ fun habsent ↦ hsound.ensures_absent habsent
    rintro thread hrepresents rfl
    refine (finish_ensures hrepresents).mono ?_ fun _ hraised ↦ hraised
    rintro _ _ (⟨rfl, -⟩ | ⟨current, hcurrent, -, hfinishes⟩)
    · exact ⟨thread, .refl hrepresents⟩
    · exact Finishes.transition (by exact hrepresents) hcurrent hfinishes
  | error sessionId messageId text =>
    refine hsound.stepped_of_session sessionId ?_ fun habsent ↦ hsound.ensures_absent habsent
    rintro thread hrepresents rfl
    refine (error_ensures hrepresents).mono ?_ fun _ hraised ↦ hraised
    rintro _ _ (⟨rfl, -⟩ | ⟨current, hcurrent, -, hbreaks⟩)
    · exact ⟨thread, .refl hrepresents⟩
    · exact Breaks.transition (by exact hrepresents) hcurrent hbreaks
  | abortAndBreak runId => exact hsound.breakFor_stepped
  | breakRun runId reason => exact hsound.breakFor_stepped

/-- Every run of the system keeps the tables sound. -/
theorem execute_sound {codec : Codec} {database : Database} (hsound : Sound database)
    (events : List Event) : Sound (execute codec database events) := by
  induction events generalizing database with
  | nil => exact hsound
  | cons event rest ih => exact ih (hsound.of_stepped (step_stepped hsound event))

end Ads.Transcript
