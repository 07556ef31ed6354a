import Ads.Transcript.Services

/-!
# The list of entries of a session

What the tables say about one session is a `Thread`: its row, the entries of its settled turns, and
the turn of the run in flight, if there is one. A list of entries is written with the newest entry
first, the way `walk` meets them. `Represents` connects the tables to a thread: the entries of the
session are exactly those of the thread, the links agree with their order, the session points to the
newest one, and the run in flight owns the entries behind its user turn.

Opening, extending, settling and breaking a turn are operations on threads, so that what a break
restores is plain: the settled entries of a thread do not change while a turn is open.
-/

set_option autoImplicit false
set_option relaxedAutoImplicit false

namespace Ads.Transcript

open Context Foundation Foundation.StateExcept Python

/-! ### Linked lists -/

/-- The links of a list with the newest entry first agree with its order, and its newest entry
points to the given one. -/
def Linked (next : Option Uuid) : List Entry → Prop
  | [] => True
  | entry :: rest =>
    entry.nextId = next ∧ entry.prevId = rest.head?.map Entry.id ∧ Linked (some entry.id) rest

/-- The list with its newest entry pointed to another one. -/
def relink (next : Option Uuid) : List Entry → List Entry
  | [] => []
  | entry :: rest => { entry with nextId := next } :: rest

section Links

variable {next other : Option Uuid} {chain front : List Entry} {entry : Entry}

/-- Pointing the newest entry elsewhere keeps everything but where it points. -/
theorem map_relink {α : Type} {read : Entry → α}
    (hread : ∀ entry, read { entry with nextId := next } = read entry) :
    (relink next chain).map read = chain.map read := by
  cases chain with
  | nil => rfl
  | cons entry rest => exact congrArg (· :: rest.map read) (hread entry)

@[simp] theorem map_id_relink : (relink next chain).map Entry.id = chain.map Entry.id :=
  map_relink fun _ ↦ rfl

@[simp] theorem head?_relink :
    (relink next chain).head?.map Entry.id = chain.head?.map Entry.id := by
  cases chain <;> rfl

@[simp] theorem relink_relink : relink next (relink other chain) = relink next chain := by
  cases chain <;> rfl

/-- An entry of the list with its newest entry pointed elsewhere. -/
theorem mem_relink (hentry : entry ∈ relink next chain) :
    ∃ old ∈ chain, entry = { old with nextId := entry.nextId } := by
  cases chain with
  | nil => cases hentry
  | cons newest rest =>
    rcases List.mem_cons.mp hentry with rfl | hrest
    · exact ⟨newest, List.mem_cons_self, rfl⟩
    · exact ⟨entry, List.mem_cons_of_mem _ hrest, rfl⟩

/-- Pointing the newest entry elsewhere keeps the other links. -/
theorem Linked.relink (hlinked : Linked other chain) : Linked next (relink next chain) := by
  cases chain with
  | nil => trivial
  | cons entry rest => exact ⟨rfl, hlinked.2⟩

/-- Pointing the newest entry where it points changes nothing. -/
theorem Linked.relink_self (hlinked : Linked next chain) : Transcript.relink next chain = chain := by
  cases chain with
  | nil => rfl
  | cons entry rest =>
    obtain ⟨rfl, -⟩ := hlinked
    rfl

/-- A new newest entry. -/
theorem Linked.cons (hlinked : Linked other chain) (hnext : entry.nextId = next)
    (hprev : entry.prevId = chain.head?.map Entry.id) :
    Linked next (entry :: Transcript.relink (some entry.id) chain) :=
  ⟨hnext, hprev.trans head?_relink.symm, hlinked.relink⟩

/-- The links behind an entry of the list. -/
theorem Linked.of_append {rest : List Entry} (hlinked : Linked next (front ++ entry :: rest)) :
    entry.prevId = rest.head?.map Entry.id ∧ Linked (some entry.id) rest := by
  induction front generalizing next with
  | nil => exact hlinked.2
  | cons newest front ih => exact ih hlinked.2.2

/-- With different identifiers, a change under the key of the newest entry changes it only. -/
theorem map_newest {rest : List Entry} (hnodup : ((entry :: rest).map Entry.id).Nodup)
    (change : Entry → Entry) :
    (entry :: rest).map (fun row ↦ if row.id = entry.id then change row else row) =
      change entry :: rest := by
  rw [List.map_cons, if_pos rfl]
  refine congrArg (_ :: ·) ((List.map_congr_left fun older holder ↦ ?_).trans (List.map_id rest))
  have hne : older.id ≠ entry.id := fun heq ↦
    (List.nodup_cons.mp hnodup).1 (heq ▸ List.mem_map_of_mem holder)
  exact if_neg hne

/-- Pointing the newest entry elsewhere is a change under its key. -/
theorem map_setNext (hnodup : (chain.map Entry.id).Nodup) {id : Uuid}
    (hhead : chain.head?.map Entry.id = some id) :
    chain.map (fun entry ↦ if entry.id = id then { entry with nextId := next } else entry) =
      relink next chain := by
  cases chain with
  | nil => rfl
  | cons entry rest =>
    obtain rfl : entry.id = id := Option.some.inj hhead
    exact map_newest hnodup fun entry ↦ { entry with nextId := next }

/-! ### The entries of one session -/

/-- A list holds exactly the entries of a session. -/
structure Holds (entries : Table Entry.id) (sessionId : Uuid) (chain : List Entry) : Prop where
  mem_iff : ∀ entry, entry ∈ chain ↔ entry ∈ entries ∧ entry.sessionId = sessionId
  nodup : (chain.map Entry.id).Nodup

namespace Holds

variable {entries : Table Entry.id} {sessionId id : Uuid}

/-- A change in place changes the list in place. -/
theorem modify (hholds : Holds entries sessionId chain) {change : Change Entry.id}
    (hsession : ∀ row, (change.apply row).sessionId = row.sessionId) :
    Holds (entries.modify id change) sessionId
      (chain.map fun entry ↦ if entry.id = id then change.apply entry else entry) := by
  constructor
  · intro entry
    rw [List.mem_map, Table.mem_modify]
    constructor
    · rintro ⟨row, hrow, rfl⟩
      have hmem := (hholds.mem_iff row).mp hrow
      refine ⟨⟨row, hmem.1, rfl⟩, ?_⟩
      split_ifs
      · exact (hsession row).trans hmem.2
      · exact hmem.2
    · rintro ⟨⟨row, hrow, rfl⟩, howned⟩
      refine ⟨row, (hholds.mem_iff row).mpr ⟨hrow, ?_⟩, rfl⟩
      split_ifs at howned
      · exact (hsession row).symm.trans howned
      · exact howned
  · have hids : (chain.map fun entry ↦ if entry.id = id then change.apply entry else entry).map Entry.id =
        chain.map Entry.id := by
      rw [List.map_map]
      refine List.map_congr_left fun entry _ ↦ ?_
      change (if entry.id = id then change.apply entry else entry).id = entry.id
      split_ifs
      · exact change.key_apply entry
      · rfl
    rw [hids]
    exact hholds.nodup

/-- A change of the newest entry. -/
theorem modify_newest {rest : List Entry} (hholds : Holds entries sessionId (entry :: rest))
    {change : Change Entry.id}
    (hsession : ∀ row, (change.apply row).sessionId = row.sessionId) :
    Holds (entries.modify entry.id change) sessionId (change.apply entry :: rest) := by
  rw [← map_newest hholds.nodup]
  exact hholds.modify hsession

/-- Pointing one entry of the list elsewhere keeps what is in front of it. -/
theorem setNext (hholds : Holds entries sessionId (front ++ chain))
    (hhead : chain.head?.map Entry.id = some id) :
    Holds (entries.modify id (pointTo next)) sessionId (front ++ relink next chain) := by
  have hmodified : Holds (entries.modify id (pointTo next)) sessionId ((front ++ chain).map fun entry ↦
      if entry.id = id then { entry with nextId := next } else entry) :=
    hholds.modify fun _ ↦ rfl
  have hnodup := hholds.nodup
  rw [List.map_append, List.nodup_append] at hnodup
  obtain ⟨-, hchain, hdisjoint⟩ := hnodup
  rw [List.map_append, map_setNext hchain hhead] at hmodified
  have hfront : front.map (fun entry ↦ if entry.id = id then { entry with nextId := next } else entry) =
      front := by
    refine (List.map_congr_left fun newer hnewer ↦ ?_).trans (List.map_id front)
    refine if_neg (hdisjoint _ (List.mem_map_of_mem hnewer) id ?_)
    rw [Option.map_eq_some_iff] at hhead
    obtain ⟨tail, htail, rfl⟩ := hhead
    exact List.mem_map_of_mem (List.mem_of_mem_head? htail)
  rwa [hfront] at hmodified

/-- A new entry of the session is added to the list. -/
theorem insert (hholds : Holds entries sessionId chain) {inserted : Table Entry.id}
    (hinsert : entries.insert entry = some inserted) (hsession : entry.sessionId = sessionId) :
    Holds inserted sessionId (entry :: chain) := by
  obtain ⟨hmem, hfresh⟩ := Table.mem_insert hinsert
  constructor
  · intro row
    rw [List.mem_cons, hmem, hholds.mem_iff]
    constructor
    · rintro (rfl | ⟨hrow, howned⟩)
      · exact ⟨Or.inl rfl, hsession⟩
      · exact ⟨Or.inr hrow, howned⟩
    · rintro ⟨rfl | hrow, howned⟩
      · exact Or.inl rfl
      · exact Or.inr ⟨hrow, howned⟩
  · refine List.nodup_cons.mpr ⟨fun htaken ↦ ?_, hholds.nodup⟩
    obtain ⟨row, hrow, hid⟩ := List.mem_map.mp htaken
    exact hfresh row ((hholds.mem_iff row).mp hrow).1 hid

/-- A deletion takes the deleted entries out of the list. -/
theorem filter (hholds : Holds entries sessionId chain) {keeps : Entry → Bool} :
    Holds (entries.filter keeps) sessionId (chain.filter keeps) := by
  constructor
  · intro entry
    rw [List.mem_filter, Table.mem_filter, hholds.mem_iff]
    tauto
  · exact hholds.nodup.sublist (List.filter_sublist.map _)

/-- The session of an entry in the list. -/
theorem sessionId_of_id_mem (hholds : Holds entries sessionId chain) (hid : id ∈ chain.map Entry.id)
    {row : Entry} (hrow : row ∈ entries) (hrowId : row.id = id) : row.sessionId = sessionId := by
  obtain ⟨entry, hentry, rfl⟩ := List.mem_map.mp hid
  obtain ⟨hmem, howned⟩ := (hholds.mem_iff entry).mp hentry
  rw [Table.eq_of_key_eq hrow hmem hrowId]
  exact howned

/-- A lookup of an entry in the list. -/
theorem find (hholds : Holds entries sessionId chain) (hentry : entry ∈ chain) :
    entries.find entry.id = some entry :=
  Table.find_key ((hholds.mem_iff entry).mp hentry).1

end Holds

end Links

/-! ### Threads -/

/-- The turn of a run in flight: its row, the entry of the user and the entries of the engine, the
newest first. -/
structure Current where
  run : Run
  user : Entry
  parts : List Entry

/-- A session with the entries of its settled turns, the newest first, and the turn of its run in
flight. -/
structure Thread where
  session : Session
  settled : List Entry
  current : Option Current

/-- All entries of a thread, the newest first. -/
def Thread.chain (thread : Thread) : List Entry :=
  match thread.current with
  | none => thread.settled
  | some current =>
    current.parts ++ current.user :: relink (some current.user.id) thread.settled

theorem Thread.chain_of_current {thread : Thread} {current : Current}
    (hcurrent : thread.current = some current) : thread.chain =
      current.parts ++ current.user :: relink (some current.user.id) thread.settled := by
  unfold Thread.chain
  rw [hcurrent]

theorem Thread.chain_of_none {thread : Thread} (hcurrent : thread.current = none) :
    thread.chain = thread.settled := by
  unfold Thread.chain
  rw [hcurrent]

/-- The newest tombstone of a list of entries. -/
def newestTombstone (chain : List Entry) : Option Uuid :=
  (chain.find? fun entry ↦ entry.kind = .tombstone).map Entry.id

@[simp] theorem newestTombstone_relink {next : Option Uuid} {chain : List Entry} :
    newestTombstone (relink next chain) = newestTombstone chain := by
  cases chain with
  | nil => rfl
  | cons entry rest =>
    unfold newestTombstone relink
    rw [List.find?_cons, List.find?_cons]
    cases hkind : decide (entry.kind = .tombstone) with
    | true => rfl
    | false => rfl

/-- The run in flight of a thread is the only one of its session, owns the entries behind its user
turn, and remembers the newest tombstone among them. -/
structure IsCurrent (runs : Table Run.id) (thread : Thread) (current : Current) : Prop where
  run_mem : current.run ∈ runs
  session : current.run.sessionId = thread.session.id
  inFlight : current.run.status.inFlight = true
  only : ∀ run ∈ runs, run.sessionId = thread.session.id → run.status.inFlight = true →
    run = current.run
  userEntry : current.run.userEntryId = current.user.id
  user : current.user.runId = none ∧ current.user.kind = .message
  candidate : current.run.candidateTombstoneId = newestTombstone current.parts
  parts : ∀ entry ∈ current.parts, entry.runId = some current.run.id
  settled : ∀ entry ∈ thread.settled, entry.runId ≠ some current.run.id

/-- The tables hold a thread. -/
structure Represents (database : Database) (thread : Thread) : Prop where
  session_mem : thread.session ∈ database.sessions
  latest : thread.session.latestEntryId = thread.chain.head?.map Entry.id
  holds : Holds database.entries thread.session.id thread.chain
  linked : Linked none thread.chain
  linked_settled : Linked none thread.settled
  committed : thread.session.committedTombstoneId = newestTombstone thread.settled
  runs : ∀ entry ∈ thread.chain, ∀ id ∈ entry.runId,
    ∃ run ∈ database.runs, run.id = id ∧ run.sessionId = thread.session.id
  idle : thread.current = none → ∀ run ∈ database.runs, run.sessionId = thread.session.id →
    run.status.inFlight = false
  isCurrent : ∀ current ∈ thread.current, IsCurrent database.runs thread current

/-- Two states of the tables differ in one session at most. -/
structure SameElsewhere (sessionId : Uuid) (before after : Database) : Prop where
  sessions : ∀ session : Session, session.id ≠ sessionId →
    (session ∈ after.sessions ↔ session ∈ before.sessions)
  entries : ∀ entry : Entry, entry.sessionId ≠ sessionId →
    (entry ∈ after.entries ↔ entry ∈ before.entries)
  runs : ∀ run : Run, run.sessionId ≠ sessionId → (run ∈ after.runs ↔ run ∈ before.runs)

theorem SameElsewhere.refl (sessionId : Uuid) (database : Database) :
    SameElsewhere sessionId database database :=
  ⟨fun _ _ ↦ Iff.rfl, fun _ _ ↦ Iff.rfl, fun _ _ ↦ Iff.rfl⟩

theorem SameElsewhere.trans {sessionId : Uuid} {before between after : Database}
    (hfirst : SameElsewhere sessionId before between)
    (hsecond : SameElsewhere sessionId between after) : SameElsewhere sessionId before after :=
  ⟨fun session hne ↦ (hsecond.sessions session hne).trans (hfirst.sessions session hne),
    fun entry hne ↦ (hsecond.entries entry hne).trans (hfirst.entries entry hne),
    fun run hne ↦ (hsecond.runs run hne).trans (hfirst.runs run hne)⟩

/-- What the tables say about a session is not changed elsewhere. -/
theorem Represents.of_sameElsewhere {sessionId : Uuid} {before after : Database} {thread : Thread}
    (hrepresents : Represents before thread) (hne : thread.session.id ≠ sessionId)
    (hsame : SameElsewhere sessionId before after) : Represents after thread where
  session_mem := (hsame.sessions _ hne).mpr hrepresents.session_mem
  latest := hrepresents.latest
  holds := by
    refine ⟨fun entry ↦ (hrepresents.holds.mem_iff entry).trans ?_, hrepresents.holds.nodup⟩
    constructor
    · rintro ⟨hentry, howned⟩
      exact ⟨(hsame.entries entry (howned ▸ hne)).mpr hentry, howned⟩
    · rintro ⟨hentry, howned⟩
      exact ⟨(hsame.entries entry (howned ▸ hne)).mp hentry, howned⟩
  linked := hrepresents.linked
  linked_settled := hrepresents.linked_settled
  committed := hrepresents.committed
  runs := by
    intro entry hentry id hid
    obtain ⟨run, hrun, hrunId, howned⟩ := hrepresents.runs entry hentry id hid
    exact ⟨run, (hsame.runs run (howned ▸ hne)).mpr hrun, hrunId, howned⟩
  idle hidle run hrun howned :=
    hrepresents.idle hidle run ((hsame.runs run (howned ▸ hne)).mp hrun) howned
  isCurrent current hcurrent := by
    have hold := hrepresents.isCurrent current hcurrent
    exact
      { run_mem := (hsame.runs _ (hold.session ▸ hne)).mpr hold.run_mem
        session := hold.session
        inFlight := hold.inFlight
        only := fun run hrun howned ↦
          hold.only run ((hsame.runs run (howned ▸ hne)).mp hrun) howned
        userEntry := hold.userEntry
        user := hold.user
        candidate := hold.candidate
        parts := hold.parts
        settled := hold.settled }

/-- A turn goes on: its run keeps its identity and stays in flight. -/
structure Current.GoesOn (current next : Current) : Prop where
  session : next.run.sessionId = current.run.sessionId
  userEntry : next.run.userEntryId = current.run.userEntryId
  inFlight : next.run.status.inFlight = true
  user_id : next.user.id = current.user.id
  user : next.user.runId = current.user.runId ∧ next.user.kind = current.user.kind
  candidate : next.run.candidateTombstoneId = newestTombstone next.parts
  parts : ∀ entry ∈ next.parts, entry.runId = some current.run.id

/-- The tables hold the thread whose turn goes on. -/
theorem Represents.goesOn {before after : Database} {thread : Thread} {current next : Current}
    {session : Session} (hrepresents : Represents before thread)
    (hcurrent : thread.current = some current) (hnext : current.GoesOn next)
    (hruns : Table.Replaces before.runs after.runs current.run next.run)
    (hsession : session ∈ after.sessions) (hid : session.id = thread.session.id)
    (hcommitted : session.committedTombstoneId = thread.session.committedTombstoneId)
    (hlatest : session.latestEntryId =
      (Thread.chain ⟨session, thread.settled, some next⟩).head?.map Entry.id)
    (hholds : Holds after.entries session.id (Thread.chain ⟨session, thread.settled, some next⟩))
    (hlinked : Linked none (Thread.chain ⟨session, thread.settled, some next⟩)) :
    Represents after ⟨session, thread.settled, some next⟩ := by
  have hold := hrepresents.isCurrent current hcurrent
  have hrun : next.run ∈ after.runs := hruns.mem
  have howned : next.run.sessionId = session.id := hnext.session.trans (hold.session.trans hid.symm)
  have hsettledRuns : ∀ entry ∈ thread.settled, entry.runId ≠ some current.run.id := hold.settled
  refine ⟨hsession, hlatest, hholds, hlinked, hrepresents.linked_settled,
    hcommitted.trans hrepresents.committed, ?_, nofun, ?_⟩
  · intro entry hentry id hentryId
    have hmine : entry.runId = some current.run.id → ∃ run ∈ after.runs, run.id = id ∧
        run.sessionId = session.id := by
      intro hrunId
      refine ⟨next.run, hrun, ?_, howned⟩
      exact hruns.key_eq.trans (Option.some.inj (hrunId.symm.trans hentryId))
    rcases List.mem_append.mp hentry with hpart | hrest
    · exact hmine (hnext.parts entry hpart)
    · rcases List.mem_cons.mp hrest with rfl | hsettled
      · rw [hnext.user.1, hold.user.1] at hentryId
        cases hentryId
      · have hmem : entry ∈ thread.chain := by
          rw [Thread.chain_of_current hcurrent]
          rw [hnext.user_id] at hsettled
          exact List.mem_append_right _ (List.mem_cons_of_mem _ hsettled)
        obtain ⟨run, hrunMem, hrunId, hrunSession⟩ := hrepresents.runs entry hmem id hentryId
        by_cases heq : run.id = current.run.id
        · exact hmine (hentryId.trans (congrArg some (hrunId.symm.trans heq)))
        · exact ⟨run, (hruns.mem_iff run).mpr (Or.inr ⟨hrunMem, heq⟩), hrunId,
            hrunSession.trans hid.symm⟩
  · rintro _ ⟨⟩
    exact
      { run_mem := hrun
        session := howned
        inFlight := hnext.inFlight
        only := by
          intro run hmem hsessionId hflight
          rcases (hruns.mem_iff run).mp hmem with heq | ⟨hbefore, hne⟩
          · exact heq
          · exact absurd (congrArg Run.id (hold.only run hbefore (hsessionId.trans hid) hflight)) hne
        userEntry := hnext.userEntry.trans (hold.userEntry.trans hnext.user_id.symm)
        user := ⟨hnext.user.1.trans hold.user.1, hnext.user.2.trans hold.user.2⟩
        candidate := hnext.candidate
        parts := fun entry hentry ↦
          (hnext.parts entry hentry).trans (congrArg some hruns.key_eq.symm)
        settled := fun entry hentry heq ↦
          hsettledRuns entry hentry (heq.trans (congrArg some hruns.key_eq)) }

end Ads.Transcript
