import Ads.Foundation.Runs
import Ads.SandboxManager.Records
import Mathlib.Data.List.Sort

/-!
# Pings and death verdicts

`ping_scan` claims a probe for each ready session that is due, publishes the ping and confirms the
publication on the probe. A reply within the timeout refreshes the session and consumes the probe; a
session whose confirmed probe stays unanswered gets a verdict, and `RECOVER` is emitted for it.

A transaction is one step; what happens between two transactions is separate steps, and a pass may
crash between any two. The time that a function reads before its transaction is a part of the step
and not later than the clock. Of a session only the columns that pings read have a part in the
state, and of its other transitions only that they leave the ready state, pass on the transition
timestamp and may draw a new sandbox id.
-/

set_option autoImplicit false
set_option relaxedAutoImplicit false

namespace Ads.ManagerPing

open Foundation Foundation.Runs Python SandboxManager

/-! ### The database -/

/-- The settings of the scan. -/
structure Settings where
  /-- `ping_interval_seconds`. -/
  interval : Time
  /-- `ping_timeout_seconds`. -/
  timeout : Time
  /-- `lifecycle_batch`. -/
  batch : ℕ

/-- The columns of `SandboxSession` that pings use. -/
structure Session where
  /-- The key. -/
  sessionId : Uuid
  /-- `sandbox_id`. -/
  sandboxId : Uuid
  /-- `status`. -/
  status : Status
  /-- `status_changed_at`. -/
  statusChangedAt : Time
  /-- `last_ping_at`. -/
  lastPingAt : Option Time
  /-- `last_ping_sent_at`. -/
  lastPingSentAt : Option Time
deriving DecidableEq

/-- `PingProbe`. -/
structure PingProbe where
  /-- The key. -/
  pingId : Uuid
  /-- `sandbox_id`. -/
  sandboxId : Uuid
  /-- `sent_at`. -/
  sentAt : Time
  /-- `published_at`. -/
  publishedAt : Option Time
deriving DecidableEq

/-- The tables. -/
structure Database where
  /-- `sandbox_session`. -/
  sessions : Table Session.sessionId
  /-- `ping_probe`. -/
  probes : Table PingProbe.pingId

/-- The session of a sandbox. -/
def Database.bySandbox (db : Database) (sandboxId : Uuid) : Option Session :=
  db.sessions.rows.find? fun row ↦ row.sandboxId = sandboxId

/-- The probe is deleted at the start of a pass: it is older than the timeout, and it was not
confirmed or no ready session waits for it. -/
def Database.expired (db : Database) (settings : Settings) (now : Time) (probe : PingProbe) : Bool :=
  probe.sentAt < now - settings.timeout &&
    match probe.publishedAt with
    | none => true
    | some published => !db.sessions.rows.any fun row ↦
        row.sandboxId = probe.sandboxId ∧ row.status = .ready ∧ row.lastPingAt.all (· < published)

/-- The session is to be pinged. -/
def Session.due (settings : Settings) (now : Time) (row : Session) : Bool :=
  row.status = .ready ∧ row.lastPingSentAt.all (· ≤ now - settings.interval)

/-- The order of the scan: by `last_ping_sent_at`, nulls first. -/
def Session.earlier (first second : Session) : Bool :=
  match first.lastPingSentAt, second.lastPingSentAt with
  | none, _ => true
  | some _, none => false
  | some sent, some other => sent ≤ other

/-- The rows a pass observes. -/
def Database.dueRows (db : Database) (settings : Settings) (now : Time) : List Session :=
  ((db.sessions.rows.filter (Session.due settings now)).insertionSort
    fun first second ↦ first.earlier second).take settings.batch

/-- The probe is evidence of a death: it was confirmed a timeout ago, and later than the last
sign of life. -/
def PingProbe.condemns (settings : Settings) (now : Time) (row : Session) (probe : PingProbe) :
    Bool :=
  probe.sandboxId = row.sandboxId ∧ probe.publishedAt.any fun published ↦
    published ≤ now - settings.timeout ∧ row.lastPingAt.getD row.statusChangedAt < published

/-! ### The world -/

/-- Where a pass is between two transactions. -/
inductive Phase
  /-- Before the next observed row. -/
  | rows
  /-- Before `RECOVER` is emitted. -/
  | emission (sandboxId : Uuid)
  /-- In the publication of a ping. -/
  | publication (pingId : Uuid)
deriving DecidableEq

/-- A pass of `ping_scan`. -/
structure Pass where
  /-- Its time. -/
  now : Time
  /-- The observed rows that are left. -/
  rows : List Session
  /-- Where it is. -/
  phase : Phase
deriving DecidableEq

/-- The database, the pass under the scheduler lock and the broker. -/
structure World where
  /-- The clock. -/
  clock : Time
  /-- The database. -/
  db : Database
  /-- The pass that has the scheduler lock. -/
  pass : Option Pass
  /-- The pings handed to the producer, with their sandboxes. -/
  sending : List (Uuid × Uuid)
  /-- The pings the broker has. -/
  published : List Uuid
  /-- The identifiers drawn so far. -/
  drawn : List Uuid

/-- What can be observed of a run. -/
inductive Event
  /-- A ping is claimed in the ready period that began at a transition timestamp. -/
  | claimed (pingId sandboxId : Uuid) (period : Time)
  /-- The broker has a ping. -/
  | published (pingId sandboxId : Uuid) (time : Time)
  /-- The publication of a ping is confirmed. -/
  | confirmed (pingId sandboxId : Uuid) (time : Time)
  /-- `ping_reply` receives a reply, the session being ready. -/
  | replied (pingId sandboxId : Uuid) (received : Time)
  /-- A pass decides that a sandbox is dead, in a ready period. -/
  | verdict (sandboxId : Uuid) (period now : Time)
  /-- `RECOVER` is emitted. -/
  | recover (sandboxId : Uuid) (time : Time)
deriving DecidableEq

/-- A step. -/
inductive Input
  /-- Time passes. -/
  | tick (time : Time)
  /-- A pass starts. -/
  | begins
  /-- The transaction for the next observed row, which draws a ping. -/
  | treats (pingId : Uuid)
  /-- The emission, which may reach the broker and may return. -/
  | emits (reaches returns : Bool)
  /-- The broker takes a ping. -/
  | publishes (pingId : Uuid)
  /-- The publication has returned, and its confirmation is committed. -/
  | confirms
  /-- The publication has failed, and the probe is deleted. -/
  | fails
  /-- The process with the lock crashes. -/
  | crashes
  /-- `ping_reply`. -/
  | reply (sandboxId pingId : Uuid) (now : Time)
  /-- `mark_ready`. -/
  | markReady (sandboxId : Uuid) (now expected : Time)
  /-- Another transition of a session, which may draw a sandbox id and clear the pings. -/
  | leaves (sessionId : Uuid) (status : Status) (now : Time) (drawn : Option Uuid)
  /-- A session is inserted. -/
  | inserts (sessionId sandboxId : Uuid) (now : Time)
  /-- A session is deleted. -/
  | deletes (sessionId : Uuid)

/-- The first transaction of `ping_scan`. -/
def World.begins (world : World) (settings : Settings) : World :=
  let now := world.clock
  let db := { world.db with
    probes := world.db.probes.filter fun probe ↦ ¬ world.db.expired settings now probe }
  { world with db, pass := some ⟨now, db.dueRows settings now, .rows⟩ }

/-- The transaction of `ping_scan` for an observed row. -/
def World.treats (world : World) (settings : Settings) (pass : Pass) (observed : Session)
    (rest : List Session) (pingId : Uuid) : World × List Event :=
  let skipped := { world with pass := some { pass with rows := rest } }
  match world.db.sessions.find observed.sessionId with
  | none => (skipped, [])
  | some row =>
    if row.sandboxId ≠ observed.sandboxId ∨ row.status ≠ .ready then (skipped, [])
    else
      let sessions := world.db.sessions.put { row with lastPingSentAt := some pass.now }
      if world.db.probes.rows.any (PingProbe.condemns settings pass.now row) then
        ({ world with
            db := { world.db with sessions }
            pass := some { pass with rows := rest, phase := .emission row.sandboxId } },
          [.verdict row.sandboxId row.statusChangedAt pass.now])
      else
        match world.db.probes.insert ⟨pingId, row.sandboxId, pass.now, none⟩ with
        | none => ({ world with pass := none }, [])
        | some probes =>
          ({ world with
              db := ⟨sessions, probes⟩
              pass := some { pass with rows := rest, phase := .publication pingId }
              sending := (pingId, row.sandboxId) :: world.sending
              drawn := pingId :: world.drawn },
            [.claimed pingId row.sandboxId row.statusChangedAt])

/-- `ping_reply`. -/
def World.reply (world : World) (settings : Settings) (sandboxId pingId : Uuid) (now : Time) :
    World × List Event :=
  match world.db.bySandbox sandboxId with
  | none => (world, [])
  | some row =>
    if row.status ≠ .ready then (world, [])
    else
      let event := .replied pingId sandboxId now
      match world.db.probes.find pingId with
      | none => (world, [event])
      | some probe =>
        if probe.sandboxId ≠ row.sandboxId ∨ probe.sentAt < now - settings.timeout then
          (world, [event])
        else
          ({ world with db :=
              { sessions := world.db.sessions.put
                  { row with lastPingAt := some (max (row.lastPingAt.getD now) now) }
                probes := world.db.probes.filter fun other ↦ other.pingId ≠ pingId } }, [event])

/-- `mark_ready`, where the rest of what it checks is in order. -/
def World.markReady (world : World) (sandboxId : Uuid) (now expected : Time) : World :=
  match world.db.bySandbox sandboxId with
  | none => world
  | some row =>
    if row.statusChangedAt ≠ expected ∨ row.status ≠ .creating then world
    else
      { world with db := { world.db with
          sessions := world.db.sessions.put { row with
            status := .ready
            statusChangedAt := advance row.statusChangedAt now
            lastPingAt := some now
            lastPingSentAt := none } } }

/-- A transition of a session to a state in which it is not ready. -/
def World.leaves (world : World) (sessionId : Uuid) (status : Status) (now : Time)
    (drawn : Option Uuid) : World :=
  match world.db.sessions.find sessionId with
  | none => world
  | some row =>
    let moved := { row with status, statusChangedAt := advance row.statusChangedAt now }
    match drawn with
    | none => { world with db := { world.db with sessions := world.db.sessions.put moved } }
    | some sandboxId =>
      { world with
        db := { world.db with
          sessions := world.db.sessions.put
            { moved with sandboxId, lastPingAt := none, lastPingSentAt := none } }
        drawn := sandboxId :: world.drawn }

/-- One step. What cannot happen leaves everything as it is: no identifier is drawn twice, and no
time is later than the clock. -/
def step (settings : Settings) (world : World) : Input → World × List Event
  | .tick time => ({ world with clock := max world.clock time }, [])
  | .begins => if world.pass.isSome then (world, []) else (world.begins settings, [])
  | .treats pingId =>
    match world.pass with
    | some ⟨_, [], .rows⟩ => ({ world with pass := none }, [])
    | some ⟨now, observed :: rest, .rows⟩ =>
      if pingId ∈ world.drawn then (world, [])
      else world.treats settings ⟨now, observed :: rest, .rows⟩ observed rest pingId
    | _ => (world, [])
  | .emits reaches returns =>
    match world.pass with
    | some ⟨now, rows, .emission sandboxId⟩ =>
      ({ world with pass := if returns then some ⟨now, rows, .rows⟩ else none },
        if reaches then [.recover sandboxId world.clock] else [])
    | _ => (world, [])
  | .publishes pingId =>
    match world.sending.lookup pingId with
    | some sandboxId =>
      ({ world with published := pingId :: world.published },
        [.published pingId sandboxId world.clock])
    | none => (world, [])
  | .confirms =>
    match world.pass with
    | some ⟨now, rows, .publication pingId⟩ =>
      if pingId ∉ world.published then (world, [])
      else
        let next := some ⟨now, rows, .rows⟩
        match world.db.probes.find pingId with
        | none => ({ world with pass := next }, [])
        | some probe =>
          ({ world with
              db := { world.db with
                probes := world.db.probes.put { probe with publishedAt := some world.clock } }
              pass := next },
            [.confirmed pingId probe.sandboxId world.clock])
    | _ => (world, [])
  | .fails =>
    match world.pass with
    | some ⟨_, _, .publication pingId⟩ =>
      ({ world with
          db := { world.db with
            probes := world.db.probes.filter fun probe ↦ probe.pingId ≠ pingId }
          pass := none }, [])
    | _ => (world, [])
  | .crashes => ({ world with pass := none }, [])
  | .reply sandboxId pingId now =>
    if world.clock < now then (world, []) else world.reply settings sandboxId pingId now
  | .markReady sandboxId now expected =>
    if world.clock < now then (world, []) else (world.markReady sandboxId now expected, [])
  | .leaves sessionId status now drawn =>
    if status = .ready ∨ drawn.any (· ∈ world.drawn) then (world, [])
    else (world.leaves sessionId status now drawn, [])
  | .inserts sessionId sandboxId now =>
    if sandboxId ∈ world.drawn then (world, [])
    else
      match world.db.sessions.insert ⟨sessionId, sandboxId, .pending, now, none, none⟩ with
      | none => (world, [])
      | some sessions =>
        ({ world with
            db := { world.db with sessions }
            drawn := sandboxId :: world.drawn }, [])
  | .deletes sessionId =>
    ({ world with db := { world.db with
        sessions := world.db.sessions.filter fun row ↦ row.sessionId ≠ sessionId } }, [])

/-- A world without sessions. -/
def start : World :=
  ⟨0, ⟨.empty, .empty⟩, none, [], [], []⟩

/-- The run of some steps. -/
def run (settings : Settings) (inputs : List Input) : World × List Event :=
  runFrom (step settings) start inputs

end Ads.ManagerPing
