import Ads.ManagerPing.Scan

/-!
# When a death verdict is true

`NoFalseDeath` says that every verdict rests on a ping of the current ready period whose publication
was confirmed a timeout ago, with no reply that counts since. The scan keeps to it in every run in
which no reply that counts is dropped while evidence stands, and no ping of an earlier ready period
becomes evidence in a later one (`verdicts_justified`). A reply is measured from the start of the
pass that claimed the ping, and not from its publication, so the first condition may fail
(`late_publication_condemns`).
-/

set_option autoImplicit false
set_option relaxedAutoImplicit false

namespace Ads.ManagerPing

open Foundation Foundation.Runs Python SandboxManager

variable {settings : Settings} {trace : List Event} {world : World}

/-! ### What a verdict rests on -/

/-- A reply counts: it is the first to its ping, and the ping was published at most one timeout
before. -/
def Counts (settings : Settings) (before : List Event) (pingId sandboxId : Uuid)
    (received : Time) : Prop :=
  (∀ earlier, .replied pingId sandboxId earlier ∉ before) ∧
    ∃ time, (.published pingId sandboxId time ∈ before ∨
      .confirmed pingId sandboxId time ∈ before) ∧ received ≤ time + settings.timeout

/-- No reply that counts was received after a publication. -/
def Unanswered (settings : Settings) (trace : List Event) (sandboxId : Uuid)
    (published : Time) : Prop :=
  ∀ earlier pingId received later,
    trace = earlier ++ .replied pingId sandboxId received :: later →
      Counts settings earlier pingId sandboxId received → received ≤ published

/-- What an event may rest on. -/
def Event.Justified (settings : Settings) (before : List Event) : Event → Prop
  | .verdict sandboxId period now => ∃ pingId published,
      .claimed pingId sandboxId period ∈ before ∧
      .confirmed pingId sandboxId published ∈ before ∧ published ≤ now - settings.timeout ∧
      Unanswered settings before sandboxId published
  | .recover sandboxId time => ∃ period now, .verdict sandboxId period now ∈ before ∧ now ≤ time
  | _ => True

/-- `RECOVER` is emitted on verdicts only, and every verdict is true. -/
def NoFalseDeath (settings : Settings) (trace : List Event) : Prop :=
  ∀ before event after, trace = before ++ event :: after → event.Justified settings before

/-- A probe of the sandbox is evidence at the time of a reply: it was confirmed after the last sign
of life and before the reply. -/
def Database.Accused (db : Database) (row : Session) (received : Time) : Prop :=
  ∃ probe ∈ db.probes, probe.sandboxId = row.sandboxId ∧
    ∃ published last, probe.publishedAt = some published ∧ row.lastPingAt = some last ∧
      last < published ∧ published < received

/-- A reply that counts while evidence stands is accepted, no ping is confirmed in a later ready
period than its own, and none was confirmed later than the start of a ready period. -/
def Timely (settings : Settings) (trace : List Event) (world : World) : Input → Prop
  | .reply sandboxId pingId now => now ≤ world.clock →
      ∀ row, world.db.bySandbox sandboxId = some row → row.status = .ready →
        Counts settings trace pingId sandboxId now → world.db.Accused row now →
          ∃ probe, world.db.probes.find pingId = some probe ∧ probe.sandboxId = sandboxId ∧
            now - settings.timeout ≤ probe.sentAt
  | .confirms => ∀ now rows pingId, world.pass = some ⟨now, rows, .publication pingId⟩ →
      pingId ∈ world.published → ∀ row ∈ world.db.sessions, row.status = .ready →
        ∀ probe, world.db.probes.find pingId = some probe → probe.sandboxId = row.sandboxId →
          .claimed pingId row.sandboxId row.statusChangedAt ∈ trace
  | .markReady sandboxId now expected => now ≤ world.clock →
      ∀ row, world.db.bySandbox sandboxId = some row → row.status = .creating →
        row.statusChangedAt = expected → ∀ probe ∈ world.db.probes, probe.sandboxId = sandboxId →
          ∀ published, probe.publishedAt = some published → published ≤ now
  | _ => True

/-- Every step of a run is timely. -/
def AllTimely (settings : Settings) (inputs : List Input) : Prop :=
  ∀ before input after, inputs = before ++ input :: after →
    Timely settings (run settings before).2 (run settings before).1 input

/-! ### Traces -/

/-- One more event. -/
theorem NoFalseDeath.snoc {event : Event} (htrace : NoFalseDeath settings trace)
    (hevent : event.Justified settings trace) : NoFalseDeath settings (trace ++ [event]) := by
  intro before other after hsplit
  rcases List.eq_nil_or_concat after with rfl | ⟨rest, last, rfl⟩
  · obtain ⟨rfl, hlast⟩ := List.append_inj' hsplit rfl
    obtain rfl : event = other := by simpa using hlast
    exact hevent
  · rw [List.concat_eq_append, ← List.cons_append, ← List.append_assoc] at hsplit
    exact htrace before other rest (List.append_inj' hsplit rfl).1

/-- One more event that is no reply that counts and comes later. -/
theorem Unanswered.snoc {sandboxId : Uuid} {published : Time} {event : Event}
    (hunanswered : Unanswered settings trace sandboxId published)
    (hevent : ∀ pingId received, event = .replied pingId sandboxId received →
      Counts settings trace pingId sandboxId received → received ≤ published) :
    Unanswered settings (trace ++ [event]) sandboxId published := by
  intro earlier pingId received later hsplit hcounts
  rcases List.eq_nil_or_concat later with rfl | ⟨rest, last, rfl⟩
  · obtain ⟨rfl, hlast⟩ := List.append_inj' hsplit rfl
    exact hevent pingId received (by simpa using hlast) hcounts
  · rw [List.concat_eq_append, ← List.cons_append, ← List.append_assoc] at hsplit
    exact hunanswered earlier pingId received rest (List.append_inj' hsplit rfl).1 hcounts

/-! ### The invariant -/

/-- Sandboxes are drawn and belong to one session each, and a ready session has a sign of life. -/
structure Rows (drawn : List Uuid) (sessions : Table Session.sessionId) : Prop where
  /-- A sandbox belongs to one session. -/
  unique : ∀ row ∈ sessions, ∀ other ∈ sessions, row.sandboxId = other.sandboxId → row = other
  /-- Sandboxes are drawn. -/
  drawn : ∀ row ∈ sessions, row.sandboxId ∈ drawn
  /-- A ready session has a sign of life. -/
  alive : ∀ row ∈ sessions, row.status = .ready → ∃ last, row.lastPingAt = some last

/-- Every confirmed probe later than the last sign of life of its ready session is of the current
ready period and unanswered. -/
def Evidence (settings : Settings) (trace : List Event) (sessions : Table Session.sessionId)
    (probes : Table PingProbe.pingId) : Prop :=
  ∀ row ∈ sessions, row.status = .ready → ∀ last, row.lastPingAt = some last →
    ∀ probe ∈ probes, probe.sandboxId = row.sandboxId →
      ∀ published, probe.publishedAt = some published → last < published →
        .claimed probe.pingId row.sandboxId row.statusChangedAt ∈ trace ∧
          Unanswered settings trace row.sandboxId published

/-- The invariant of the scan. -/
structure Sound (settings : Settings) (trace : List Event) (world : World) : Prop where
  /-- The time of the pass is past. -/
  past : ∀ pass, world.pass = some pass → pass.now ≤ world.clock
  /-- Replies were received in the past. -/
  received : ∀ pingId sandboxId received, .replied pingId sandboxId received ∈ trace →
    received ≤ world.clock
  /-- The sessions. -/
  rows : Rows world.drawn world.db.sessions
  /-- A confirmed probe was confirmed. -/
  confirmed : ∀ probe ∈ world.db.probes, ∀ published, probe.publishedAt = some published →
    .confirmed probe.pingId probe.sandboxId published ∈ trace
  /-- The evidence stands. -/
  evidence : Evidence settings trace world.db.sessions world.db.probes
  /-- What is emitted was decided. -/
  decided : ∀ now rows sandboxId, world.pass = some ⟨now, rows, .emission sandboxId⟩ →
    ∃ period, .verdict sandboxId period now ∈ trace
  /-- No verdict so far was false. -/
  lawful : NoFalseDeath settings trace

/-- A row is replaced by another one of the same session. -/
theorem Rows.put {drawn drawn' : List Uuid} {sessions : Table Session.sessionId}
    (hrows : Rows drawn sessions) {row row' : Session} (hrow : row ∈ sessions)
    (hid : row'.sessionId = row.sessionId) (hdrawn : drawn ⊆ drawn')
    (hsandbox : row'.sandboxId = row.sandboxId ∨ row'.sandboxId ∉ drawn ∧ row'.sandboxId ∈ drawn')
    (halive : row'.status = .ready → ∃ last, row'.lastPingAt = some last) :
    Rows drawn' (sessions.put row') := by
  have hother : ∀ other ∈ sessions, other.sessionId ≠ row'.sessionId →
      row'.sandboxId ≠ other.sandboxId := by
    intro other hmem hne hsame
    rcases hsandbox with hold | ⟨hnew, -⟩
    · exact hne (hid ▸ congrArg Session.sessionId
        (hrows.unique other hmem row hrow (hsame.symm.trans hold)))
    · exact hnew (hsame ▸ hrows.drawn other hmem)
  constructor
  · intro first hfirst second hsecond hsame
    rcases Table.mem_put.mp hfirst with ⟨rfl, -⟩ | ⟨hold₁, hne₁⟩ <;>
      rcases Table.mem_put.mp hsecond with ⟨rfl, -⟩ | ⟨hold₂, hne₂⟩
    · rfl
    · exact absurd hsame (hother second hold₂ hne₂)
    · exact absurd hsame.symm (hother first hold₁ hne₁)
    · exact hrows.unique first hold₁ second hold₂ hsame
  · intro other hmem
    rcases Table.mem_put.mp hmem with ⟨rfl, -⟩ | ⟨hmem, -⟩
    · rcases hsandbox with hold | ⟨-, hnew⟩
      · exact hdrawn (hold ▸ hrows.drawn row hrow)
      · exact hnew
    · exact hdrawn (hrows.drawn other hmem)
  · intro other hmem hready
    rcases Table.mem_put.mp hmem with ⟨rfl, -⟩ | ⟨hmem, -⟩
    · exact halive hready
    · exact hrows.alive other hmem hready

/-- The evidence stands after events that are no replies that count. -/
theorem Evidence.mono {events : List Event} {sessions sessions' : Table Session.sessionId}
    {probes probes' : Table PingProbe.pingId}
    (hevidence : Evidence settings trace sessions probes)
    (hsessions : ∀ row ∈ sessions', row.status = .ready → ∃ old ∈ sessions, old.status = .ready ∧
      old.sandboxId = row.sandboxId ∧ old.statusChangedAt = row.statusChangedAt ∧
      old.lastPingAt = row.lastPingAt)
    (hprobes : ∀ probe ∈ probes', probe.publishedAt ≠ none → probe ∈ probes)
    (hevents : events = [] ∨ ∃ event, events = [event] ∧
      ∀ pingId sandboxId received, event ≠ .replied pingId sandboxId received) :
    Evidence settings (trace ++ events) sessions' probes' := by
  intro row hrow hready last hlast probe hprobe hsandbox published hpublished hlater
  obtain ⟨old, hold, holdReady, holdSandbox, holdChanged, holdLast⟩ := hsessions row hrow hready
  have hstands := hevidence old hold holdReady last (holdLast.trans hlast) probe
    (hprobes probe hprobe (by rw [hpublished]; exact nofun)) (hsandbox.trans holdSandbox.symm)
    published hpublished hlater
  rw [holdSandbox, holdChanged] at hstands
  refine ⟨List.mem_append_left _ hstands.1, ?_⟩
  rcases hevents with rfl | ⟨event, rfl, hevent⟩
  · rw [List.append_nil]
    exact hstands.2
  · exact hstands.2.snoc fun pingId received hsame ↦ absurd hsame (hevent _ _ _)

/-- The evidence stands when sessions leave the ready state and probes are deleted. -/
theorem Evidence.shrink {sessions sessions' : Table Session.sessionId}
    {probes probes' : Table PingProbe.pingId}
    (hevidence : Evidence settings trace sessions probes)
    (hsessions : ∀ row ∈ sessions', row.status = .ready → row ∈ sessions)
    (hprobes : ∀ probe ∈ probes', probe ∈ probes) :
    Evidence settings trace sessions' probes' := by
  have hmono : Evidence settings (trace ++ []) sessions' probes' :=
    hevidence.mono (fun row hrow hready ↦ ⟨row, hsessions row hrow hready, hready, rfl, rfl, rfl⟩)
      (fun probe hprobe _ ↦ hprobes probe hprobe) (Or.inl rfl)
  rwa [List.append_nil] at hmono

/-! ### The steps -/

/-- The session that is found under a sandbox. -/
theorem bySandbox_eq_some {db : Database} {sandboxId : Uuid} {row : Session}
    (hfind : db.bySandbox sandboxId = some row) :
    row ∈ db.sessions ∧ row.sandboxId = sandboxId :=
  ⟨List.mem_of_find?_eq_some hfind, by simpa using List.find?_some hfind⟩

/-- A step of the environment that shows nothing and touches neither sessions nor probes. -/
theorem Sound.idle {world' : World} (hsound : Sound settings trace world)
    (hclock : world.clock ≤ world'.clock) (hdb : world'.db = world.db)
    (hdrawn : world'.drawn = world.drawn)
    (hpast : ∀ pass, world'.pass = some pass → pass.now ≤ world'.clock)
    (hdecided : ∀ now rows sandboxId, world'.pass = some ⟨now, rows, .emission sandboxId⟩ →
      ∃ period, .verdict sandboxId period now ∈ trace) : Sound settings trace world' where
  past := hpast
  received pingId sandboxId received hmem :=
    (hsound.received pingId sandboxId received hmem).trans hclock
  rows := by
    rw [hdb, hdrawn]
    exact hsound.rows
  confirmed := by
    rw [hdb]
    exact hsound.confirmed
  evidence := by
    rw [hdb]
    exact hsound.evidence
  decided := hdecided
  lawful := hsound.lawful

/-- The first transaction of a pass only deletes probes. -/
theorem Sound.begins (hsound : Sound settings trace world) :
    Sound settings trace (world.begins settings) where
  past pass hpass := by
    obtain rfl := Option.some.inj hpass
    exact le_rfl
  received := hsound.received
  rows := hsound.rows
  confirmed probe hprobe := hsound.confirmed probe (Table.mem_filter.mp hprobe).1
  evidence := hsound.evidence.shrink (fun _ hrow _ ↦ hrow)
    fun probe hprobe ↦ (Table.mem_filter.mp hprobe).1
  decided now rows sandboxId hpass := by
    obtain ⟨-, -, hphase⟩ := Pass.mk.inj (Option.some.inj hpass)
    cases hphase
  lawful := hsound.lawful

/-- A row whose ping was sent is as it was for everything else. -/
theorem mem_put_sent {sessions : Table Session.sessionId} {row other : Session}
    (hrow : row ∈ sessions) {sent : Option Time}
    (hmem : other ∈ sessions.put { row with lastPingSentAt := sent }) :
    ∃ old ∈ sessions, old.status = other.status ∧ old.sandboxId = other.sandboxId ∧
      old.statusChangedAt = other.statusChangedAt ∧ old.lastPingAt = other.lastPingAt := by
  rcases Table.mem_put.mp hmem with ⟨rfl, -⟩ | ⟨hmem, -⟩
  · exact ⟨row, hrow, rfl, rfl, rfl, rfl⟩
  · exact ⟨other, hmem, rfl, rfl, rfl, rfl⟩

/-- The transaction for an observed row. -/
theorem Sound.treats {pass : Pass} {observed : Session} {rest : List Session} {pingId : Uuid}
    (hsound : Sound settings trace world) (hpass : world.pass = some pass)
    (hphase : pass.phase = .rows) :
    Sound settings (trace ++ (world.treats settings pass observed rest pingId).2)
      (world.treats settings pass observed rest pingId).1 := by
  have hskipped : Sound settings trace { world with pass := some { pass with rows := rest } } := by
    refine hsound.idle le_rfl rfl rfl ?_ ?_
    · intro later hlater
      obtain rfl := Option.some.inj hlater
      exact hsound.past pass hpass
    · intro now rows sandboxId hlater
      obtain ⟨-, -, hsame⟩ := Pass.mk.inj (Option.some.inj hlater)
      rw [hphase] at hsame
      cases hsame
  unfold World.treats
  dsimp only
  split
  · rw [List.append_nil]
    exact hskipped
  rename_i row hfind
  obtain ⟨hrow, -⟩ := Table.find_eq_some_iff.mp hfind
  by_cases hskip : row.sandboxId ≠ observed.sandboxId ∨ row.status ≠ .ready
  · rw [if_pos hskip, List.append_nil]
    exact hskipped
  rw [if_neg hskip]
  have hready := not_not.mp (not_or.mp hskip).2
  have hrows : ∀ drawn, world.drawn ⊆ drawn →
      Rows drawn (world.db.sessions.put { row with lastPingSentAt := some pass.now }) := by
    intro drawn hdrawn
    exact hsound.rows.put hrow rfl hdrawn (Or.inl rfl) fun _ ↦ hsound.rows.alive row hrow hready
  have hsessions : ∀ other ∈ world.db.sessions.put { row with lastPingSentAt := some pass.now },
      other.status = .ready → ∃ old ∈ world.db.sessions, old.status = .ready ∧
        old.sandboxId = other.sandboxId ∧ old.statusChangedAt = other.statusChangedAt ∧
        old.lastPingAt = other.lastPingAt := by
    intro other hother hotherReady
    obtain ⟨old, hold, hstatus, hrest⟩ := mem_put_sent hrow hother
    exact ⟨old, hold, hstatus.trans hotherReady, hrest⟩
  by_cases hcondemned :
      world.db.probes.rows.any (PingProbe.condemns settings pass.now row) = true
  · -- The probe that condemns is the ping that the verdict rests on.
    rw [if_pos hcondemned]
    obtain ⟨probe, hprobe, hcondemns⟩ := List.any_eq_true.mp hcondemned
    obtain ⟨last, hlast⟩ := hsound.rows.alive row hrow hready
    have hjustified : Event.Justified settings trace
        (.verdict row.sandboxId row.statusChangedAt pass.now) := by
      unfold PingProbe.condemns at hcondemns
      obtain ⟨hsandbox, hpublished⟩ := of_decide_eq_true hcondemns
      obtain ⟨published, hsome, htimes⟩ := (Option.any_eq_true _ _).mp hpublished
      obtain ⟨hold, hlater⟩ := of_decide_eq_true htimes
      rw [hlast] at hlater
      obtain ⟨hclaimed, hunanswered⟩ :=
        hsound.evidence row hrow hready last hlast probe hprobe hsandbox published hsome hlater
      exact ⟨probe.pingId, published, hclaimed,
        hsandbox ▸ hsound.confirmed probe hprobe published hsome, hold, hunanswered⟩
    exact {
      past := fun later hlater ↦ by
        obtain rfl := Option.some.inj hlater
        exact hsound.past pass hpass
      received := fun pingId sandboxId received hmem ↦
        hsound.received pingId sandboxId received
          ((List.mem_append.mp hmem).resolve_right (by simp))
      rows := hrows _ (List.Subset.refl _)
      confirmed := fun other hother published hpublished ↦
        List.mem_append_left _ (hsound.confirmed other hother published hpublished)
      evidence := hsound.evidence.mono hsessions (fun other hother _ ↦ hother)
        (Or.inr ⟨_, rfl, nofun⟩)
      decided := fun now rows sandboxId hlater ↦ by
        obtain ⟨rfl, -, hsame⟩ := Pass.mk.inj (Option.some.inj hlater)
        obtain rfl := Phase.emission.inj hsame
        exact ⟨row.statusChangedAt, List.mem_append_right _ (List.mem_singleton.mpr rfl)⟩
      lawful := hsound.lawful.snoc hjustified }
  · rw [if_neg hcondemned]
    split
    · rw [List.append_nil]
      exact hsound.idle le_rfl rfl rfl nofun nofun
    · rename_i probes hinsert
      obtain ⟨hmem, -⟩ := Table.mem_insert hinsert
      exact {
        past := fun later hlater ↦ by
          obtain rfl := Option.some.inj hlater
          exact hsound.past pass hpass
        received := fun pingId sandboxId received hreplied ↦
          hsound.received pingId sandboxId received
            ((List.mem_append.mp hreplied).resolve_right (by simp))
        rows := hrows _ (List.subset_cons_self _ _)
        confirmed := fun other hother published hpublished ↦ by
          rcases (hmem other).mp hother with rfl | hold
          · cases hpublished
          · exact List.mem_append_left _ (hsound.confirmed other hold published hpublished)
        evidence := by
          refine hsound.evidence.mono hsessions (fun other hother hpublished ↦ ?_)
            (Or.inr ⟨_, rfl, nofun⟩)
          rcases (hmem other).mp hother with rfl | hold
          · exact absurd rfl hpublished
          · exact hold
        decided := fun now rows sandboxId hlater ↦ by
          obtain ⟨-, -, hsame⟩ := Pass.mk.inj (Option.some.inj hlater)
          cases hsame
        lawful := hsound.lawful.snoc trivial }

/-- The confirmation of a publication. -/
theorem Sound.confirms {now : Time} {rows : List Session} {pingId : Uuid} {probe : PingProbe}
    (hsound : Sound settings trace world)
    (hpass : world.pass = some ⟨now, rows, .publication pingId⟩)
    (hfind : world.db.probes.find pingId = some probe)
    (hcurrent : ∀ row ∈ world.db.sessions, row.status = .ready → probe.sandboxId = row.sandboxId →
      .claimed pingId row.sandboxId row.statusChangedAt ∈ trace) :
    Sound settings (trace ++ [.confirmed pingId probe.sandboxId world.clock])
      { world with
        db := { world.db with
          probes := world.db.probes.put { probe with publishedAt := some world.clock } }
        pass := some ⟨now, rows, .rows⟩ } := by
  obtain ⟨hprobe, rfl⟩ := Table.find_eq_some_iff.mp hfind
  constructor
  case past =>
    intro later hlater
    obtain rfl := Option.some.inj hlater
    have hpast := hsound.past _ hpass
    exact hpast
  case received =>
    intro pingId sandboxId received hreplied
    exact hsound.received pingId sandboxId received
      ((List.mem_append.mp hreplied).resolve_right (by simp))
  case rows => exact hsound.rows
  case confirmed =>
    intro other hother published hpublished
    rcases Table.mem_put.mp hother with ⟨rfl, -⟩ | ⟨hother, -⟩
    · obtain rfl := Option.some.inj hpublished
      exact List.mem_append_right _ (List.mem_singleton.mpr rfl)
    · exact List.mem_append_left _ (hsound.confirmed other hother published hpublished)
  case evidence =>
    intro row hrow hready last hlast other hother hsandbox published hpublished hlater
    have hsnoc : ∀ published, Unanswered settings trace row.sandboxId published →
        Unanswered settings (trace ++ [.confirmed probe.pingId probe.sandboxId world.clock])
          row.sandboxId published :=
      fun published hunanswered ↦ hunanswered.snoc fun _ _ hsame ↦ (nomatch hsame)
    rcases Table.mem_put.mp hother with ⟨rfl, -⟩ | ⟨hother, -⟩
    · -- Every reply so far was received before the confirmation.
      obtain rfl := Option.some.inj hpublished
      refine ⟨List.mem_append_left _ (hcurrent row hrow hready hsandbox), hsnoc _ ?_⟩
      intro earlier ping received later hsplit _
      exact hsound.received ping row.sandboxId received (hsplit ▸ by simp)
    · obtain ⟨hclaimed, hunanswered⟩ :=
        hsound.evidence row hrow hready last hlast other hother hsandbox published hpublished hlater
      exact ⟨List.mem_append_left _ hclaimed, hsnoc _ hunanswered⟩
  case decided =>
    intro now rows sandboxId hlater
    obtain ⟨-, -, hsame⟩ := Pass.mk.inj (Option.some.inj hlater)
    cases hsame
  case lawful => exact hsound.lawful.snoc trivial

/-- The evidence stands after a reply to a sandbox, where the reply refutes what it should. -/
theorem Evidence.reply {pingId sandboxId : Uuid} {now : Time}
    {sessions : Table Session.sessionId} {probes : Table PingProbe.pingId}
    (hevidence : Evidence settings trace sessions probes)
    (hreply : ∀ row ∈ sessions, row.status = .ready → row.sandboxId = sandboxId →
      ∀ last, row.lastPingAt = some last → ∀ probe ∈ probes, probe.sandboxId = sandboxId →
        ∀ published, probe.publishedAt = some published → last < published →
          Counts settings trace pingId sandboxId now → now ≤ published) :
    Evidence settings (trace ++ [.replied pingId sandboxId now]) sessions probes := by
  intro row hrow hready last hlast probe hprobe hsandbox published hpublished hlater
  obtain ⟨hclaimed, hunanswered⟩ :=
    hevidence row hrow hready last hlast probe hprobe hsandbox published hpublished hlater
  refine ⟨List.mem_append_left _ hclaimed, hunanswered.snoc fun ping received hsame hcounts ↦ ?_⟩
  obtain ⟨rfl, rfl, rfl⟩ := Event.replied.inj hsame
  exact hreply row hrow hready rfl last hlast probe hprobe hsandbox published hpublished hlater
    hcounts

/-- `ping_reply`, where a reply that counts while evidence stands is accepted. -/
theorem Sound.reply {sandboxId pingId : Uuid} {now : Time} (hsound : Sound settings trace world)
    (hnow : now ≤ world.clock)
    (htimely : Timely settings trace world (.reply sandboxId pingId now)) :
    Sound settings (trace ++ (world.reply settings sandboxId pingId now).2)
      (world.reply settings sandboxId pingId now).1 := by
  unfold World.reply
  split
  · rw [List.append_nil]
    exact hsound
  rename_i row hfind
  obtain ⟨hrow, rfl⟩ := bySandbox_eq_some hfind
  by_cases hskip : row.status ≠ .ready
  · rw [if_pos hskip, List.append_nil]
    exact hsound
  rw [if_neg hskip]
  have hready := not_not.mp hskip
  dsimp only
  have hreceived : ∀ ping sandbox received,
      .replied ping sandbox received ∈ trace ++ [.replied pingId row.sandboxId now] →
        received ≤ world.clock := by
    intro ping sandbox received hmem
    rcases List.mem_append.mp hmem with hold | hnew
    · exact hsound.received ping sandbox received hold
    · obtain ⟨-, -, rfl⟩ := Event.replied.inj (List.mem_singleton.mp hnew)
      exact hnow
  -- A reply that is dropped does not count, or nothing stood against the session.
  have hdropped : (∀ probe, world.db.probes.find pingId = some probe →
        probe.sandboxId ≠ row.sandboxId ∨ probe.sentAt < now - settings.timeout) →
      Sound settings (trace ++ [.replied pingId row.sandboxId now]) world := by
    intro hdrop
    refine ⟨hsound.past, hreceived, hsound.rows, fun probe hprobe published hpublished ↦
      List.mem_append_left _ (hsound.confirmed probe hprobe published hpublished), ?_,
      fun later rows sandbox hpass ↦ ?_, hsound.lawful.snoc trivial⟩
    · refine hsound.evidence.reply fun other hother hotherReady hsame last hlast probe hprobe
        hsandbox published hpublished hlater hcounts ↦ ?_
      obtain rfl := hsound.rows.unique other hother row hrow hsame
      by_contra hlate
      obtain ⟨asked, hasked, hsandbox', hsent⟩ := htimely hnow other hfind hready hcounts
        ⟨probe, hprobe, hsandbox, published, last, hpublished, hlast, hlater, not_le.mp hlate⟩
      rcases hdrop asked hasked with hne | hold
      · exact hne hsandbox'
      · exact absurd hsent (not_le.mpr hold)
    · obtain ⟨period, hverdict⟩ := hsound.decided later rows sandbox hpass
      exact ⟨period, List.mem_append_left _ hverdict⟩
  split
  · rename_i hnone
    exact hdropped fun probe hprobe ↦ (nomatch hnone.symm.trans hprobe)
  rename_i probe hprobe
  by_cases hdrop : probe.sandboxId ≠ row.sandboxId ∨ probe.sentAt < now - settings.timeout
  · rw [if_pos hdrop]
    refine hdropped fun other hother ↦ ?_
    obtain rfl : probe = other := Option.some.inj (hprobe.symm.trans hother)
    exact hdrop
  rw [if_neg hdrop]
  constructor
  case past => exact hsound.past
  case received => exact hreceived
  case rows =>
    exact hsound.rows.put hrow rfl (List.Subset.refl _) (Or.inl rfl) fun _ ↦ ⟨_, rfl⟩
  case confirmed =>
    intro other hother published hpublished
    exact List.mem_append_left _
      (hsound.confirmed other (Table.mem_filter.mp hother).1 published hpublished)
  case evidence =>
    intro other hother hotherReady last hlast probe' hprobe' hsandbox published hpublished hlater
    have hold := (Table.mem_filter.mp hprobe').1
    rcases Table.mem_put.mp hother with ⟨rfl, -⟩ | ⟨hother, hne⟩
    · -- What still is evidence against the session was confirmed after the reply.
      obtain rfl := Option.some.inj hlast
      obtain ⟨before, hbefore⟩ := hsound.rows.alive row hrow hready
      rw [hbefore, Option.getD_some] at hlater
      obtain ⟨hclaimed, hunanswered⟩ := hsound.evidence row hrow hready before hbefore probe' hold
        hsandbox published hpublished (lt_of_le_of_lt (le_max_left _ _) hlater)
      refine ⟨List.mem_append_left _ hclaimed, hunanswered.snoc fun ping received hsame _ ↦ ?_⟩
      obtain ⟨-, -, rfl⟩ := Event.replied.inj hsame
      exact (le_max_right before now).trans hlater.le
    · obtain ⟨hclaimed, hunanswered⟩ :=
        hsound.evidence other hother hotherReady last hlast probe' hold hsandbox published
          hpublished hlater
      refine ⟨List.mem_append_left _ hclaimed, hunanswered.snoc fun ping received hsame _ ↦ ?_⟩
      obtain ⟨-, hsame, -⟩ := Event.replied.inj hsame
      exact absurd (congrArg Session.sessionId (hsound.rows.unique other hother row hrow hsame.symm))
        hne
  case decided =>
    intro later rows sandbox hpass
    obtain ⟨period, hverdict⟩ := hsound.decided later rows sandbox hpass
    exact ⟨period, List.mem_append_left _ hverdict⟩
  case lawful => exact hsound.lawful.snoc trivial

/-- A step of the environment on sessions. -/
theorem Sound.turns {sessions : Table Session.sessionId} {drawn : List Uuid}
    (hsound : Sound settings trace world) (hrows : Rows drawn sessions)
    (hevidence : Evidence settings trace sessions world.db.probes) :
    Sound settings trace { world with db := { world.db with sessions }, drawn } where
  past := hsound.past
  received := hsound.received
  rows := hrows
  confirmed := hsound.confirmed
  evidence := hevidence
  decided := hsound.decided
  lawful := hsound.lawful

/-- `mark_ready`, where no probe was confirmed later. -/
theorem Sound.markReady {sandboxId : Uuid} {now expected : Time}
    (hsound : Sound settings trace world) (hnow : now ≤ world.clock)
    (htimely : Timely settings trace world (.markReady sandboxId now expected)) :
    Sound settings trace (world.markReady sandboxId now expected) := by
  unfold World.markReady
  split
  · exact hsound
  rename_i row hfind
  by_cases hskip : row.statusChangedAt ≠ expected ∨ row.status ≠ .creating
  · rw [if_pos hskip]
    exact hsound
  rw [if_neg hskip]
  obtain ⟨hexpected, hcreating⟩ := not_or.mp hskip
  have hconfirmed := htimely hnow row hfind (not_not.mp hcreating) (not_not.mp hexpected)
  obtain ⟨hrow, rfl⟩ := bySandbox_eq_some hfind
  refine hsound.turns
    (hsound.rows.put hrow rfl (List.Subset.refl _) (Or.inl rfl) fun _ ↦ ⟨now, rfl⟩) ?_
  intro other hother hready last hlast probe hprobe hsandbox published hpublished hlater
  rcases Table.mem_put.mp hother with ⟨rfl, -⟩ | ⟨hother, -⟩
  · obtain rfl := Option.some.inj hlast
    exact absurd (hconfirmed probe hprobe hsandbox published hpublished) (not_le.mpr hlater)
  · exact hsound.evidence other hother hready last hlast probe hprobe hsandbox published hpublished
      hlater

/-- A transition to a state in which the session is not ready. -/
theorem Sound.leaves {sessionId : Uuid} {status : Status} {now : Time} {drawn : Option Uuid}
    (hsound : Sound settings trace world) (hstatus : status ≠ .ready)
    (hdrawn : drawn.all (· ∉ world.drawn)) :
    Sound settings trace (world.leaves sessionId status now drawn) := by
  have hshrink : ∀ row ∈ world.db.sessions, ∀ moved : Session, moved.status = status →
      Evidence settings trace (world.db.sessions.put moved) world.db.probes := by
    intro row hrow moved hmoved
    refine hsound.evidence.shrink (fun other hother hready ↦ ?_) fun _ hprobe ↦ hprobe
    rcases Table.mem_put.mp hother with ⟨rfl, -⟩ | ⟨hother, -⟩
    · exact absurd (hmoved.symm.trans hready) hstatus
    · exact hother
  unfold World.leaves
  split
  · exact hsound
  rename_i row hfind
  obtain ⟨hrow, -⟩ := Table.find_eq_some_iff.mp hfind
  cases drawn with
  | none =>
    exact hsound.turns (hsound.rows.put hrow rfl (List.Subset.refl _) (Or.inl rfl)
      fun hready ↦ absurd hready hstatus) (hshrink row hrow _ rfl)
  | some sandboxId =>
    have hfresh : sandboxId ∉ world.drawn := by simpa using hdrawn
    exact hsound.turns (hsound.rows.put hrow rfl (List.subset_cons_self _ _)
      (Or.inr ⟨hfresh, List.mem_cons_self⟩) fun hready ↦ absurd hready hstatus)
      (hshrink row hrow _ rfl)

/-- A new session. -/
theorem Sound.inserts {sessionId sandboxId : Uuid} {now : Time}
    {sessions : Table Session.sessionId} (hsound : Sound settings trace world)
    (hfresh : sandboxId ∉ world.drawn)
    (hinsert : world.db.sessions.insert ⟨sessionId, sandboxId, .pending, now, none, none⟩ =
      some sessions) :
    Sound settings trace
      { world with db := { world.db with sessions }, drawn := sandboxId :: world.drawn } := by
  obtain ⟨hmem, -⟩ := Table.mem_insert hinsert
  have hother : ∀ other ∈ world.db.sessions, sandboxId ≠ other.sandboxId :=
    fun other hold hsame ↦ hfresh (hsame ▸ hsound.rows.drawn other hold)
  refine hsound.turns ⟨?_, ?_, ?_⟩ (hsound.evidence.shrink ?_ fun _ hprobe ↦ hprobe)
  · intro first hfirst second hsecond hsame
    rcases (hmem first).mp hfirst with rfl | hold₁ <;> rcases (hmem second).mp hsecond with rfl | hold₂
    · rfl
    · exact absurd hsame (hother second hold₂)
    · exact absurd hsame.symm (hother first hold₁)
    · exact hsound.rows.unique first hold₁ second hold₂ hsame
  · intro row hrow
    rcases (hmem row).mp hrow with rfl | hold
    · exact List.mem_cons_self
    · exact List.mem_cons_of_mem _ (hsound.rows.drawn row hold)
  · intro row hrow hready
    rcases (hmem row).mp hrow with rfl | hold
    · cases hready
    · exact hsound.rows.alive row hold hready
  · intro row hrow hready
    rcases (hmem row).mp hrow with rfl | hold
    · cases hready
    · exact hold

/-- A session that is deleted. -/
theorem Sound.deletes {sessionId : Uuid} (hsound : Sound settings trace world) :
    Sound settings trace { world with db := { world.db with
      sessions := world.db.sessions.filter fun row ↦ row.sessionId ≠ sessionId } } := by
  have hold : ∀ row ∈ world.db.sessions.filter fun row ↦ row.sessionId ≠ sessionId,
      row ∈ world.db.sessions := fun row hrow ↦ (Table.mem_filter.mp hrow).1
  refine hsound.turns ⟨?_, ?_, ?_⟩
    (hsound.evidence.shrink (fun row hrow _ ↦ hold row hrow) fun _ hprobe ↦ hprobe)
  · intro first hfirst second hsecond
    exact hsound.rows.unique first (hold first hfirst) second (hold second hsecond)
  · exact fun row hrow ↦ hsound.rows.drawn row (hold row hrow)
  · exact fun row hrow ↦ hsound.rows.alive row (hold row hrow)

/-- A publication that failed. -/
theorem Sound.fails {pingId : Uuid} (hsound : Sound settings trace world) :
    Sound settings trace { world with
      db := { world.db with
        probes := world.db.probes.filter fun probe ↦ probe.pingId ≠ pingId }
      pass := none } where
  past := nofun
  received := hsound.received
  rows := hsound.rows
  confirmed probe hprobe := hsound.confirmed probe (Table.mem_filter.mp hprobe).1
  evidence := hsound.evidence.shrink (fun _ hrow _ ↦ hrow)
    fun _ hprobe ↦ (Table.mem_filter.mp hprobe).1
  decided := nofun
  lawful := hsound.lawful

/-- An event of the broker. -/
theorem Sound.shows {event : Event} (hsound : Sound settings trace world)
    (hevent : event.Justified settings trace)
    (hreply : ∀ pingId sandboxId received, event ≠ .replied pingId sandboxId received) :
    Sound settings (trace ++ [event]) world where
  past := hsound.past
  received pingId sandboxId received hmem :=
    hsound.received pingId sandboxId received ((List.mem_append.mp hmem).resolve_right
      fun hnew ↦ hreply _ _ _ (List.mem_singleton.mp hnew).symm)
  rows := hsound.rows
  confirmed probe hprobe published hpublished :=
    List.mem_append_left _ (hsound.confirmed probe hprobe published hpublished)
  evidence := hsound.evidence.mono (fun row hrow hready ↦ ⟨row, hrow, hready, rfl, rfl, rfl⟩)
    (fun _ hprobe _ ↦ hprobe) (Or.inr ⟨event, rfl, hreply⟩)
  decided now rows sandboxId hpass := by
    obtain ⟨period, hverdict⟩ := hsound.decided now rows sandboxId hpass
    exact ⟨period, List.mem_append_left _ hverdict⟩
  lawful := hsound.lawful.snoc hevent

/-- The emission of what was decided. -/
theorem Sound.emits {now : Time} {rows : List Session} {sandboxId : Uuid} {reaches returns : Bool}
    (hsound : Sound settings trace world)
    (hpass : world.pass = some ⟨now, rows, .emission sandboxId⟩) :
    Sound settings (trace ++ if reaches then [.recover sandboxId world.clock] else [])
      { world with pass := if returns then some ⟨now, rows, .rows⟩ else none } := by
  have hpast := hsound.past _ hpass
  have hquiet : Sound settings trace
      { world with pass := if returns then some ⟨now, rows, .rows⟩ else none } := by
    refine hsound.idle le_rfl rfl rfl ?_ ?_
    · intro pass hlater
      cases returns with
      | false => cases hlater
      | true =>
        obtain rfl := Option.some.inj hlater
        exact hpast
    · intro later others sandbox hlater
      cases returns with
      | false => cases hlater
      | true =>
        obtain ⟨-, -, hsame⟩ := Pass.mk.inj (Option.some.inj hlater)
        cases hsame
  cases reaches with
  | false =>
    rw [if_neg Bool.false_ne_true, List.append_nil]
    exact hquiet
  | true =>
    rw [if_pos rfl]
    obtain ⟨period, hverdict⟩ := hsound.decided now rows sandboxId hpass
    exact hquiet.shows ⟨period, now, hverdict, hpast⟩ nofun

/-! ### Runs -/

/-- The pass of a sound state may be dropped. -/
theorem Sound.dropped (hsound : Sound settings trace world) :
    Sound settings trace { world with pass := none } := by
  refine hsound.idle le_rfl rfl rfl (fun pass hpass ↦ ?_) fun now rows sandboxId hpass ↦ ?_
  · cases hpass
  · cases hpass

/-- A timely step keeps the invariant. -/
theorem Sound.step (hsound : Sound settings trace world) (input : Input)
    (htimely : Timely settings trace world input) :
    Sound settings (trace ++ (step settings world input).2) (step settings world input).1 := by
  have hstays : Sound settings (trace ++ []) world := by
    rw [List.append_nil]
    exact hsound
  cases input with
  | tick time =>
    show Sound settings (trace ++ []) { world with clock := max world.clock time }
    rw [List.append_nil]
    exact hsound.idle (le_max_left _ _) rfl rfl
      (fun pass hpass ↦ (hsound.past pass hpass).trans (le_max_left _ _)) hsound.decided
  | begins =>
    unfold ManagerPing.step
    dsimp only
    split_ifs
    · exact hstays
    · rw [List.append_nil]
      exact hsound.begins
  | treats pingId =>
    unfold ManagerPing.step
    dsimp only
    split
    · rw [List.append_nil]
      exact hsound.dropped
    · rename_i now observed rest hpass
      split_ifs
      · exact hstays
      · exact hsound.treats hpass rfl
    · exact hstays
  | emits reaches returns =>
    unfold ManagerPing.step
    dsimp only
    split
    · rename_i now rows sandboxId hpass
      exact hsound.emits hpass
    · exact hstays
  | publishes pingId =>
    unfold ManagerPing.step
    dsimp only
    split
    · have hquiet : Sound settings trace { world with published := pingId :: world.published } :=
        hsound.idle le_rfl rfl rfl hsound.past hsound.decided
      exact hquiet.shows trivial fun _ _ _ hsame ↦ Event.noConfusion hsame
    · exact hstays
  | confirms =>
    unfold ManagerPing.step
    dsimp only
    split
    · rename_i now rows pingId hpass
      split_ifs with hpublished
      · split
        · rw [List.append_nil]
          refine hsound.idle le_rfl rfl rfl ?_ ?_
          · intro later hlater
            obtain rfl := Option.some.inj hlater
            have hpast := hsound.past _ hpass
            exact hpast
          · intro later others sandboxId hlater
            obtain ⟨-, -, hsame⟩ := Pass.mk.inj (Option.some.inj hlater)
            cases hsame
        · rename_i probe hfind
          exact hsound.confirms hpass hfind fun row hrow hready hsandbox ↦
            htimely now rows pingId hpass hpublished row hrow hready probe hfind hsandbox
      · exact hstays
    · exact hstays
  | fails =>
    unfold ManagerPing.step
    dsimp only
    split
    · rw [List.append_nil]
      exact hsound.fails
    · exact hstays
  | crashes =>
    show Sound settings (trace ++ []) { world with pass := none }
    rw [List.append_nil]
    exact hsound.dropped
  | reply sandboxId pingId now =>
    unfold ManagerPing.step
    dsimp only
    split_ifs with hlate
    · exact hstays
    · exact hsound.reply (not_lt.mp hlate) htimely
  | markReady sandboxId now expected =>
    unfold ManagerPing.step
    dsimp only
    split_ifs with hlate
    · exact hstays
    · rw [List.append_nil]
      exact hsound.markReady (not_lt.mp hlate) htimely
  | leaves sessionId status now drawn =>
    unfold ManagerPing.step
    dsimp only
    split_ifs with hskip
    · exact hstays
    · rw [List.append_nil]
      obtain ⟨hstatus, hdrawn⟩ := not_or.mp hskip
      refine hsound.leaves hstatus ?_
      cases drawn with
      | none => rfl
      | some sandboxId => simpa using hdrawn
  | inserts sessionId sandboxId now =>
    unfold ManagerPing.step
    dsimp only
    split_ifs with hdrawn
    · exact hstays
    · split
      · exact hstays
      · rename_i sessions hinsert
        rw [List.append_nil]
        exact hsound.inserts hdrawn hinsert
  | deletes sessionId =>
    show Sound settings (trace ++ []) _
    rw [List.append_nil]
    exact hsound.deletes

/-- The world without sessions. -/
theorem Sound.start : Sound settings [] start where
  past := nofun
  received := nofun
  rows := ⟨nofun, nofun, nofun⟩
  confirmed := nofun
  evidence := nofun
  decided := nofun
  lawful before event after hsplit := by
    rcases List.append_eq_nil_iff.mp hsplit.symm with ⟨-, hnil⟩
    cases hnil

/-- The steps before the last one are timely. -/
theorem AllTimely.init {inputs : List Input} {input : Input}
    (hinputs : AllTimely settings (inputs ++ [input])) : AllTimely settings inputs := by
  intro before earlier after hsplit
  exact hinputs before earlier (after ++ [input]) (by rw [hsplit]; simp)

/-- One more timely step. -/
theorem AllTimely.snoc {inputs : List Input} (hinputs : AllTimely settings inputs) (input : Input)
    (hinput : Timely settings (run settings inputs).2 (run settings inputs).1 input) :
    AllTimely settings (inputs ++ [input]) := by
  intro before other after hsplit
  rcases List.eq_nil_or_concat after with rfl | ⟨rest, last, rfl⟩
  · obtain ⟨rfl, hlast⟩ := List.append_inj' hsplit rfl
    obtain rfl : input = other := by simpa using hlast
    exact hinput
  · rw [List.concat_eq_append, ← List.cons_append, ← List.append_assoc] at hsplit
    exact hinputs before other rest (List.append_inj' hsplit rfl).1

/-- The invariant holds after a run whose steps are all timely. -/
theorem AllTimely.sound {inputs : List Input} (hinputs : AllTimely settings inputs) :
    Sound settings (run settings inputs).2 (run settings inputs).1 := by
  induction inputs using List.reverseRecOn with
  | nil => exact Sound.start
  | append_singleton inputs input ih =>
    unfold run
    rw [runFrom_snoc]
    exact (ih hinputs.init).step input (hinputs inputs input [] rfl)

/-- In a run whose steps are all timely no sandbox is condemned that is alive. -/
theorem verdicts_justified (settings : Settings) (inputs : List Input)
    (hinputs : AllTimely settings inputs) : NoFalseDeath settings (run settings inputs).2 :=
  hinputs.sound.lawful

/-- The verdict on a sandbox that does not answer. -/
theorem verdicts_justified_silence :
    ∃ trace, (run ⟨10, 30, 5⟩ [.inserts 1 100 0, .leaves 1 .creating 0 none, .markReady 100 0 1,
      .tick 10, .begins, .treats 7, .tick 12, .publishes 7, .confirms, .treats 8, .tick 50, .begins,
      .treats 8, .emits true true]).2 = trace ∧
      .recover 100 50 ∈ trace ∧ NoFalseDeath ⟨10, 30, 5⟩ trace := by
  have hstart : AllTimely ⟨10, 30, 5⟩ [] := by
    intro before input after hsplit
    cases (List.append_eq_nil_iff.mp hsplit.symm).2
  have hready := ((hstart.snoc (.inserts 1 100 0) trivial).snoc (.leaves 1 .creating 0 none)
    trivial).snoc (.markReady 100 0 1) fun _ _ _ _ _ _ hprobe ↦ (nomatch hprobe)
  have hsent := ((((hready.snoc (.tick 10) trivial).snoc .begins trivial).snoc (.treats 7)
    trivial).snoc (.tick 12) trivial).snoc (.publishes 7) trivial
  have hconfirmed := hsent.snoc .confirms <| by
    intro now rows pingId hpass _ row hrow _ probe _ _
    have hsessions : row = ⟨1, 100, .ready, 2, some 0, some 10⟩ := by
      have hrows : (run ⟨10, 30, 5⟩ [.inserts 1 100 0, .leaves 1 .creating 0 none,
          .markReady 100 0 1, .tick 10, .begins, .treats 7, .tick 12,
          .publishes 7]).1.db.sessions.rows = [⟨1, 100, .ready, 2, some 0, some 10⟩] := by
        decide +kernel
      exact List.mem_singleton.mp (hrows ▸ hrow)
    have hping : (run ⟨10, 30, 5⟩ [.inserts 1 100 0, .leaves 1 .creating 0 none,
        .markReady 100 0 1, .tick 10, .begins, .treats 7, .tick 12, .publishes 7]).1.pass =
          some ⟨10, [], .publication 7⟩ := by
      decide +kernel
    obtain ⟨-, -, hphase⟩ := Pass.mk.inj (Option.some.inj (hping.symm.trans hpass))
    obtain rfl := Phase.publication.inj hphase
    rw [hsessions]
    decide +kernel
  have hcondemned := (((hconfirmed.snoc (.treats 8) trivial).snoc (.tick 50) trivial).snoc .begins
    trivial).snoc (.treats 8) trivial
  exact ⟨_, rfl, by decide +kernel,
    verdicts_justified _ _ (hcondemned.snoc (.emits true true) trivial)⟩

/-- A ping of a pass at time 10 is published at time 19 only and answered at time 45, within 30
seconds; the reply is dropped, and at time 50 the sandbox is condemned. -/
theorem late_publication_condemns :
    ¬ NoFalseDeath ⟨10, 30, 5⟩ (run ⟨10, 30, 5⟩ [.inserts 1 100 0, .leaves 1 .creating 0 none,
      .markReady 100 0 1, .tick 10, .begins, .treats 7, .tick 19, .publishes 7, .confirms,
      .treats 8, .tick 45, .reply 100 7 45, .tick 50, .begins, .treats 8, .emits true true]).2 := by
  have htrace : (run ⟨10, 30, 5⟩ [.inserts 1 100 0, .leaves 1 .creating 0 none,
      .markReady 100 0 1, .tick 10, .begins, .treats 7, .tick 19, .publishes 7, .confirms,
      .treats 8, .tick 45, .reply 100 7 45, .tick 50, .begins, .treats 8, .emits true true]).2 =
      [.claimed 7 100 2, .published 7 100 19, .confirmed 7 100 19, .replied 7 100 45,
        .verdict 100 2 50, .recover 100 50] := by
    decide +kernel
  intro hlawful
  rw [htrace] at hlawful
  obtain ⟨pingId, published, -, hconfirmed, -, hunanswered⟩ :=
    hlawful [.claimed 7 100 2, .published 7 100 19, .confirmed 7 100 19, .replied 7 100 45]
      (.verdict 100 2 50) [.recover 100 50] rfl
  obtain rfl : published = 19 := by
    simp only [List.mem_cons, reduceCtorEq, Event.confirmed.injEq, List.not_mem_nil] at hconfirmed
    tauto
  have hcounts : Counts ⟨10, 30, 5⟩
      [.claimed 7 100 2, .published 7 100 19, .confirmed 7 100 19] 7 100 45 := by
    refine ⟨fun earlier hmem ↦ ?_, 19, Or.inl (by decide), by decide⟩
    simp at hmem
  have hlate : (45 : Time) ≤ 19 := hunanswered _ 7 45 [] rfl hcounts
  exact absurd hlate (by decide)

end Ads.ManagerPing
