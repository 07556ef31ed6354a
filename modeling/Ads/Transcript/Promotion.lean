import Ads.Transcript.Chain

/-!
# Promotion of the engine's output

One specification for each step of `_promote`, as what it does to the thread of the run. Appending
an entry links it in front of the newest one; appending a part extends the newest entry of the run
or adds one.
-/

set_option autoImplicit false
set_option relaxedAutoImplicit false

namespace Ads.Transcript

open Context Foundation Foundation.StateExcept Python

/-- The next identifiers of the supply are different, and no entry has one of them. -/
def Store.Fresh (store : Store) (count : ℕ) : Prop :=
  ∀ index < count, (∀ earlier < index, store.supply earlier ≠ store.supply index) ∧
    ∀ entry ∈ store.entries.rows, entry.id ≠ store.supply index

instance (store : Store) (count : ℕ) : Decidable (store.Fresh count) :=
  inferInstanceAs (Decidable (∀ _ < _, _))

/-- Fewer identifiers are fresh as well. -/
theorem Store.Fresh.of_le {store : Store} {count fewer : ℕ} (hfresh : store.Fresh count)
    (hle : fewer ≤ count) : store.Fresh fewer :=
  fun index hindex ↦ hfresh index (hindex.trans_le hle)

/-- Two tables of entries differ in one session at most, and in no identifier. -/
structure Relinked (sessionId : Uuid) (before after : Table Entry.id) : Prop where
  frame : ∀ row : Entry, row.sessionId ≠ sessionId → (row ∈ after ↔ row ∈ before)
  ids : ∀ row ∈ after, ∃ old ∈ before, old.id = row.id

theorem Relinked.trans {sessionId : Uuid} {before between after : Table Entry.id}
    (hfirst : Relinked sessionId before between) (hsecond : Relinked sessionId between after) :
    Relinked sessionId before after := by
  refine ⟨fun row hrow ↦ (hsecond.frame row hrow).trans (hfirst.frame row hrow), fun row hrow ↦ ?_⟩
  obtain ⟨middle, hmiddle, hmiddleId⟩ := hsecond.ids row hrow
  obtain ⟨old, hold, holdId⟩ := hfirst.ids middle hmiddle
  exact ⟨old, hold, holdId.trans hmiddleId⟩

/-- A deletion of entries of the session. -/
theorem Relinked.filter {sessionId : Uuid} {entries : Table Entry.id} {keeps : Entry → Bool}
    (hkeeps : ∀ row ∈ entries, row.sessionId ≠ sessionId → keeps row = true) :
    Relinked sessionId entries (entries.filter keeps) := by
  refine ⟨fun row hrow ↦ ?_, fun row hrow ↦ ⟨row, (Table.mem_filter.mp hrow).1, rfl⟩⟩
  rw [Table.mem_filter]
  exact and_iff_left_of_imp fun hmem ↦ hkeeps row hmem hrow

/-- Entries with the same identifiers leave the supply fresh. -/
theorem Relinked.fresh {store : Store} {entries : Table Entry.id} {sessionId : Uuid} {count : ℕ}
    (hrelinked : Relinked sessionId store.entries entries) (hfresh : store.Fresh count) :
    Store.Fresh { store with entries := entries } count := by
  refine fun index hindex ↦ ⟨(hfresh index hindex).1, fun row hrow hid ↦ ?_⟩
  obtain ⟨old, hold, holdId⟩ := hrelinked.ids row hrow
  exact (hfresh index hindex).2 old hold (holdId.trans hid)

/-- A change in place of an entry of the session. -/
theorem Holds.relinked {entries : Table Entry.id} {sessionId : Uuid} {chain : List Entry}
    (hholds : Holds entries sessionId chain) {id : Uuid} {change : Change Entry.id}
    (hsession : ∀ row, (change.apply row).sessionId = row.sessionId) (hid : id ∈ chain.map Entry.id) :
    Relinked sessionId entries (entries.modify id change) := by
  constructor
  · intro row hrow
    refine Table.mem_modify_of_frame (fun row : Entry ↦ row.sessionId ≠ sessionId)
      (fun changed hchanged hwanted ↦ ?_) hrow
    have howned := hholds.sessionId_of_id_mem hid hchanged hwanted
    exact ⟨not_not.mpr howned, not_not.mpr ((hsession changed).trans howned)⟩
  · intro row hrow
    obtain ⟨old, hold, rfl⟩ := Table.mem_modify.mp hrow
    refine ⟨old, hold, ?_⟩
    split_ifs
    · exact (change.key_apply old).symm
    · rfl

/-- Pointing the newest entry behind some others elsewhere. -/
theorem setNext_ensures {store : Store} {sessionId : Uuid} (front : List Entry) {chain : List Entry}
    {next : Option Uuid} {allowed : Raised → Prop}
    (hholds : Holds store.entries sessionId (front ++ chain)) :
    Ensures (setNext (chain.head?.map Entry.id) next) store
      (fun _ final ↦ ∃ entries, final = { store with entries := entries } ∧
        Holds entries sessionId (front ++ relink next chain) ∧
        Relinked sessionId store.entries entries) allowed := by
  cases chain with
  | nil => exact ⟨store.entries, rfl, hholds, fun _ _ ↦ Iff.rfl, fun row hrow ↦ ⟨row, hrow, rfl⟩⟩
  | cons tail rest =>
    refine ⟨_, rfl, hholds.setNext rfl, hholds.relinked (fun _ ↦ rfl) ?_⟩
    exact List.mem_map_of_mem (List.mem_append_right _ List.mem_cons_self)

/-- What appending an entry to a thread leaves. -/
structure Appended (before : Store) (thread : Thread) (entry : Entry) (now : ℤ) (after : Store) :
    Prop where
  id_eq : entry.id = before.supply 0
  session_mem : { thread.session with latestEntryId := some entry.id, updatedAt := now } ∈
    after.sessions
  sessions : ∀ session : Session, session.id ≠ thread.session.id →
    (session ∈ after.sessions ↔ session ∈ before.sessions)
  holds : Holds after.entries thread.session.id (entry :: relink (some entry.id) thread.chain)
  entries : ∀ row : Entry, row.sessionId ≠ thread.session.id →
    (row ∈ after.entries ↔ row ∈ before.entries)
  runs : after.runs = before.runs
  buffer : after.buffer = before.buffer
  fresh : ∀ count, before.Fresh (count + 1) → after.Fresh count

/-- `append_entry` on the tail of a thread. -/
theorem appendEntry_ensures {store : Store} {thread : Thread}
    (hrepresents : Represents store.toDatabase thread) (kind : Kind) (role : Option Role)
    (text : Text) (runId : Option Uuid) (now : ℤ) :
    Ensures (appendEntry thread.session kind role text runId now) store
      (fun id final ↦
        Appended store thread (newEntry thread.session kind role text runId now id) now final)
      (fun _ ↦ ¬ store.Fresh 1) := by
  have hlatest := hrepresents.latest
  simp only [appendEntry, ensures_bind, ensures_uuid4, ensures_insertEntry]
  cases hinsert : store.entries.insert
      (newEntry thread.session kind role text runId now (store.supply 0)) with
  | none =>
    obtain ⟨taken, htaken, hid⟩ := Table.insert_eq_none_iff.mp hinsert
    exact fun hfresh ↦ (hfresh 0 Nat.one_pos).2 taken htaken hid
  | some entries =>
    have hinserted := hrepresents.holds.insert hinsert rfl
    obtain ⟨hmem, hfree⟩ := Table.mem_insert hinsert
    dsimp only
    rw [hlatest]
    refine (setNext_ensures [_] hinserted).mono ?_ fun _ hfailed ↦ hfailed
    rintro _ _ ⟨linked, rfl, hlinked, hrelinked⟩
    rw [ensures_updateSession, ensures_pure]
    exact
      { id_eq := rfl
        session_mem := Table.mem_modify_self hrepresents.session_mem
        sessions := fun session hne ↦ Table.mem_modify_of_ne hne
        holds := hlinked
        entries := by
          intro row hrow
          rw [hrelinked.frame row hrow, hmem]
          exact or_iff_right fun heq ↦ hrow (heq ▸ rfl)
        runs := rfl
        buffer := rfl
        fresh := by
          intro count hfresh index hindex
          obtain ⟨hdifferent, hunused⟩ := hfresh (index + 1) (Nat.succ_lt_succ hindex)
          refine ⟨fun earlier hearlier ↦ hdifferent _ (Nat.succ_lt_succ hearlier), ?_⟩
          intro row hrow hid
          obtain ⟨old, hold, holdId⟩ := hrelinked.ids row hrow
          rcases (hmem old).mp hold with rfl | hbefore
          · exact hdifferent 0 index.succ_pos (holdId.trans hid)
          · exact hunused old hbefore (holdId.trans hid) }

/-! ### One part -/

/-- What an entry says. -/
structure Content where
  kind : Kind
  role : Option Role
  text : Text
  deriving DecidableEq

/-- What an entry says. -/
def Entry.content (entry : Entry) : Content :=
  ⟨entry.kind, entry.role, entry.text⟩

/-- What the entry for a part says. -/
def Delta.content (delta : Delta) : Content :=
  ⟨delta.kind, roleOf delta, delta.text⟩

/-- The part continues the text of an entry of its own run that says this. -/
def Delta.extends (delta : Delta) (last : Content) : Bool :=
  (delta.kind = .message ∨ delta.kind = .reasoning) ∧ last.kind = delta.kind

/-- What the entries of a run say after a part, the newest first. -/
def addPart (parts : List Content) (delta : Delta) : List Content :=
  match parts with
  | [] => [delta.content]
  | last :: rest =>
    if delta.extends last then { last with text := last.text ++ delta.text } :: rest
    else delta.content :: last :: rest

/-- The turn after a new entry. -/
def Current.push (current : Current) (entry : Entry) : Current where
  run :=
    if entry.kind = .tombstone then { current.run with candidateTombstoneId := some entry.id }
    else current.run
  user :=
    if current.parts.isEmpty then { current.user with nextId := some entry.id } else current.user
  parts := entry :: relink (some entry.id) current.parts

/-- The entries of a thread after a new one. -/
theorem chain_push {first second : Session} {settled : List Entry} {current : Current}
    {entry : Entry} : Thread.chain ⟨first, settled, some (current.push entry)⟩ =
      entry :: relink (some entry.id) (Thread.chain ⟨second, settled, some current⟩) := by
  obtain ⟨run, user, parts⟩ := current
  cases parts <;> rfl

/-- What a run keeps as long as it is there. -/
structure Run.Identity where
  id : Uuid
  sessionId : Uuid
  messageId : Uuid
  userEntryId : Uuid

/-- What a run keeps as long as it is there. -/
def Run.identity (run : Run) : Run.Identity :=
  ⟨run.id, run.sessionId, run.messageId, run.userEntryId⟩

/-- How far a run is. -/
structure Run.Progress where
  status : Status
  watermark : ℤ
  lastOrder : Option ℤ

/-- How far a run is. -/
def Run.progress (run : Run) : Run.Progress :=
  ⟨run.status, run.watermark, run.lastOrder⟩

/-- A turn went on by some parts, up to a point. -/
structure Continued (before : Store) (thread : Thread) (current : Current) (deltas : List Delta)
    (progress : Run.Progress) (after : Store) (session : Session) (next : Current) : Prop where
  represents : Represents after.toDatabase ⟨session, thread.settled, some next⟩
  session_id : session.id = thread.session.id
  identity : next.run.identity = current.run.identity
  progress_eq : next.run.progress = progress
  runs : Table.Replaces before.runs after.runs current.run next.run
  user : next.user.content = current.user.content
  parts : next.parts.map Entry.content = deltas.foldl addPart (current.parts.map Entry.content)
  elsewhere : SameElsewhere thread.session.id before.toDatabase after.toDatabase
  buffer : after.buffer = before.buffer
  fresh : ∀ count, before.Fresh (deltas.length + count) → after.Fresh count

/-- The row of a represented session. -/
theorem Represents.find_session {database : Database} {thread : Thread}
    (hrepresents : Represents database thread) :
    database.sessions.find thread.session.id = some thread.session :=
  Table.find_key hrepresents.session_mem

/-- The entry that a represented session points to is its newest one. -/
theorem latestEntry_ensures {store : Store} {thread : Thread} {allowed : Raised → Prop}
    (hrepresents : Represents store.toDatabase thread) :
    Ensures (latestEntry thread.session) store
      (fun tail final ↦ tail = thread.chain.head? ∧ store = final) allowed := by
  unfold latestEntry
  rw [hrepresents.latest]
  cases hchain : thread.chain with
  | nil => exact ⟨rfl, rfl⟩
  | cons tail rest =>
    have htail : tail ∈ thread.chain := hchain ▸ List.mem_cons_self
    exact ⟨hrepresents.holds.find htail, rfl⟩

/-- A part continues the newest entry of the session exactly if that is an entry of its run that it
extends. -/
theorem filter_continues {database : Database} {thread : Thread} {current : Current} {run : Run}
    {delta : Delta} (hrepresents : Represents database thread)
    (hcurrent : thread.current = some current) (hrun : run.id = current.run.id) :
    thread.chain.head?.filter (continues run delta) =
      current.parts.head?.filter fun tail ↦ delta.extends tail.content := by
  have hturn := hrepresents.isCurrent current hcurrent
  rw [Thread.chain_of_current hcurrent]
  cases hparts : current.parts with
  | nil => simp [continues, hturn.user.1]
  | cons tail rest =>
    have hmine : tail.runId = some run.id :=
      (hturn.parts tail (hparts ▸ List.mem_cons_self)).trans (congrArg some hrun.symm)
    have hsame : continues run delta tail = delta.extends tail.content :=
      decide_eq_decide.mpr (and_congr_right fun _ ↦ and_iff_right hmine)
    simp only [List.cons_append, List.head?_cons, Option.filter_some, hsame]

/-- A part that continues the newest entry of its run. -/
theorem continued_of_extends {store : Store} {thread : Thread} {current : Current} {delta : Delta}
    {tail : Entry} {rest : List Entry} (hrepresents : Represents store.toDatabase thread)
    (hcurrent : thread.current = some current) (hparts : current.parts = tail :: rest)
    (hextends : delta.extends tail.content = true) :
    Continued store thread current [delta] current.run.progress
      { store with entries := store.entries.modify tail.id (appendText delta.text) } thread.session
      { current with parts := { tail with text := tail.text ++ delta.text } :: rest } := by
  have hturn := hrepresents.isCurrent current hcurrent
  have hchain := Thread.chain_of_current hcurrent
  rw [hparts, List.cons_append] at hchain
  have hkind : tail.kind ≠ .tombstone := by
    intro heq
    simp only [Delta.extends, Entry.content, heq, decide_eq_true_eq] at hextends
    obtain ⟨hmessage | hreasoning, hsame⟩ := hextends
    · rw [hmessage] at hsame; cases hsame
    · rw [hreasoning] at hsame; cases hsame
  have hholds := hrepresents.holds
  have hlinked := hrepresents.linked
  have hlatest := hrepresents.latest
  rw [hchain] at hholds hlinked hlatest
  have hmodified : Holds (store.entries.modify tail.id (appendText delta.text)) thread.session.id
      ({ tail with text := tail.text ++ delta.text } ::
        (rest ++ current.user :: relink (some current.user.id) thread.settled)) :=
    hholds.modify_newest fun _ ↦ rfl
  have hrelinked : Relinked thread.session.id store.entries
      (store.entries.modify tail.id (appendText delta.text)) :=
    hholds.relinked (fun _ ↦ rfl) (List.mem_map_of_mem List.mem_cons_self)
  have hnext : current.GoesOn
      { current with parts := { tail with text := tail.text ++ delta.text } :: rest } := by
    refine ⟨rfl, rfl, hturn.inFlight, rfl, ⟨rfl, rfl⟩, ?_, ?_⟩
    · rw [hturn.candidate, hparts]
      simp [newestTombstone, hkind]
    · intro entry hentry
      have hpart := hturn.parts
      rw [hparts] at hpart
      rcases List.mem_cons.mp hentry with rfl | hrest
      · exact hpart tail List.mem_cons_self
      · exact hpart entry (List.mem_cons_of_mem _ hrest)
  exact
    { represents := hrepresents.goesOn hcurrent hnext (.refl hturn.run_mem) hrepresents.session_mem
        rfl rfl hlatest hmodified ⟨hlinked.1, hlinked.2.1, hlinked.2.2⟩
      session_id := rfl
      identity := rfl
      progress_eq := rfl
      runs := .refl hturn.run_mem
      user := rfl
      parts := by
        rw [hparts, List.foldl_cons, List.foldl_nil, List.map_cons, List.map_cons, addPart,
          if_pos hextends]
        rfl
      elsewhere := ⟨fun _ _ ↦ Iff.rfl, hrelinked.frame, fun _ _ ↦ Iff.rfl⟩
      buffer := rfl
      fresh := fun count hfresh ↦ hrelinked.fresh (hfresh.of_le (Nat.le_add_left count _)) }

/-- A turn goes on with a new entry of its run. -/
theorem goesOn_push {runs : Table Run.id} {thread : Thread} {current : Current} {entry : Entry}
    (hturn : IsCurrent runs thread current) (hrunId : entry.runId = some current.run.id) :
    current.GoesOn (current.push entry) := by
  have hcandidate : newestTombstone (current.push entry).parts =
      if entry.kind = .tombstone then some entry.id else newestTombstone current.parts := by
    unfold Current.push
    dsimp only
    rw [newestTombstone, List.find?_cons]
    split_ifs with hkind
    · simp [hkind]
    · simp only [hkind, decide_false]
      exact newestTombstone_relink
  constructor
  · unfold Current.push
    split_ifs <;> rfl
  · unfold Current.push
    split_ifs <;> rfl
  · unfold Current.push
    split_ifs <;> exact hturn.inFlight
  · unfold Current.push
    split_ifs <;> rfl
  · unfold Current.push
    split_ifs <;> exact ⟨rfl, rfl⟩
  · rw [hcandidate]
    unfold Current.push
    split_ifs
    · rfl
    · rfl
    · exact hturn.candidate
    · exact hturn.candidate
  · intro part hpart
    rcases List.mem_cons.mp hpart with rfl | hold
    · exact hrunId
    · obtain ⟨old, hmem, heq⟩ := mem_relink hold
      rw [heq]
      exact hturn.parts old hmem

/-- What the entries of a run say after a new entry. -/
theorem map_content_push {current : Current} {entry : Entry} {delta : Delta}
    (hcontent : entry.content = delta.content)
    (hextends : current.parts.head?.filter (fun tail ↦ delta.extends tail.content) = none) :
    (current.push entry).parts.map Entry.content =
      addPart (current.parts.map Entry.content) delta := by
  have hrelink : (relink (some entry.id) current.parts).map Entry.content =
      current.parts.map Entry.content := map_relink fun _ ↦ rfl
  change entry.content :: (relink (some entry.id) current.parts).map Entry.content = _
  rw [hrelink, hcontent]
  cases hparts : current.parts with
  | nil => rfl
  | cons tail rest =>
    rw [hparts] at hextends
    have hnot : ¬ delta.extends tail.content = true := by
      simpa [Option.filter_some] using hextends
    rw [List.map_cons, addPart, if_neg hnot]

/-- A part that gets an entry of its own. -/
theorem continued_of_appended {before after : Store} {thread : Thread} {current : Current}
    {delta : Delta} {now : ℤ} {entry : Entry} {runs : Table Run.id}
    (hrepresents : Represents before.toDatabase thread) (hcurrent : thread.current = some current)
    (happended : Appended before thread entry now after) (hcontent : entry.content = delta.content)
    (hrunId : entry.runId = some current.run.id) (hnextId : entry.nextId = none)
    (hprevId : entry.prevId = thread.session.latestEntryId)
    (hextends : current.parts.head?.filter (fun tail ↦ delta.extends tail.content) = none)
    (hruns : Table.Replaces before.runs runs current.run (current.push entry).run) :
    Continued before thread current [delta] current.run.progress { after with runs := runs }
      { thread.session with latestEntryId := some entry.id, updatedAt := now }
      (current.push entry) := by
  have hturn := hrepresents.isCurrent current hcurrent
  have hchain : Thread.chain
      ⟨{ thread.session with latestEntryId := some entry.id, updatedAt := now }, thread.settled,
        some (current.push entry)⟩ = entry :: relink (some entry.id) thread.chain := by
    obtain ⟨session, settled, _⟩ := thread
    obtain rfl := hcurrent
    exact chain_push
  have hgoes := goesOn_push hturn hrunId
  have hlinked : Linked none (entry :: relink (some entry.id) thread.chain) :=
    hrepresents.linked.cons hnextId (hprevId.trans hrepresents.latest)
  have hrunSession : ¬ (current.push entry).run.sessionId ≠ thread.session.id :=
    not_not.mpr (hgoes.session.trans hturn.session)
  have hrepresented : Represents { after.toDatabase with runs := runs } ⟨_, _, _⟩ :=
    hrepresents.goesOn hcurrent hgoes hruns happended.session_mem rfl rfl (by rw [hchain]; rfl)
      (by rw [hchain]; exact happended.holds) (by rw [hchain]; exact hlinked)
  exact
    { represents := hrepresented
      session_id := rfl
      identity := by
        unfold Current.push
        split_ifs <;> rfl
      progress_eq := by
        unfold Current.push
        split_ifs <;> rfl
      runs := hruns
      user := by
        unfold Current.push
        split_ifs <;> rfl
      parts := map_content_push hcontent hextends
      elsewhere := ⟨happended.sessions, happended.entries, fun run hrun ↦
        hruns.mem_iff_of_frame hturn.run_mem (fun run : Run ↦ run.sessionId ≠ thread.session.id)
          (not_not.mpr hturn.session) hrunSession hrun⟩
      buffer := happended.buffer
      fresh := fun count hfresh ↦ happended.fresh count (by rwa [Nat.add_comm]) }

/-- `_append_delta` on the turn of the run. -/
theorem appendDelta_ensures {store : Store} {thread : Thread} {current : Current} {run : Run}
    {delta : Delta} {now : ℤ} (hrepresents : Represents store.toDatabase thread)
    (hcurrent : thread.current = some current) (hrun : run.id = current.run.id)
    (hsession : run.sessionId = current.run.sessionId) :
    Ensures (appendDelta run delta now) store
      (fun _ final ↦ ∃ session next,
        Continued store thread current [delta] current.run.progress final session next)
      (fun _ ↦ ¬ store.Fresh 1) := by
  have hturn := hrepresents.isCurrent current hcurrent
  simp only [appendDelta, ensures_bind, ensures_getSession]
  rw [hsession, hturn.session, hrepresents.find_session]
  dsimp only
  rw [ensures_bind]
  refine (latestEntry_ensures hrepresents).mono ?_ fun _ hfailed ↦ hfailed
  rintro _ _ ⟨rfl, rfl⟩
  rw [filter_continues hrepresents hcurrent hrun]
  cases hfilter : current.parts.head?.filter fun tail ↦ delta.extends tail.content with
  | some tail =>
    obtain ⟨hhead, hextends⟩ := Option.filter_eq_some_iff.mp hfilter
    obtain ⟨rest, hparts⟩ := List.head?_eq_some_iff.mp hhead
    exact ⟨_, _, continued_of_extends hrepresents hcurrent hparts hextends⟩
  | none =>
    dsimp only
    rw [ensures_bind]
    refine (appendEntry_ensures hrepresents _ _ _ _ _).mono ?_ fun _ hfailed ↦ hfailed
    intro id after happended
    have hcontinued : ∀ runs, Table.Replaces store.runs runs current.run (current.push _).run →
        ∃ session next, Continued store thread current [delta] current.run.progress
          { after with runs := runs } session next :=
      fun runs hruns ↦ ⟨_, _, continued_of_appended hrepresents hcurrent happended rfl
        (congrArg some hrun) rfl rfl hfilter hruns⟩
    split_ifs with hkind
    · rw [ensures_updateRun, hrun, happended.runs]
      refine hcontinued _ ?_
      unfold Current.push
      rw [if_pos (by exact hkind)]
      exact .modify hturn.run_mem
    · refine hcontinued after.runs ?_
      unfold Current.push
      rw [if_neg (by exact hkind), happended.runs]
      exact .refl hturn.run_mem

/-! ### The loop over the parts -/

/-- A change of the row of a run that goes on. -/
theorem Represents.updateRun {database : Database} {thread : Thread} {current : Current}
    {change : Change Run.id} (hrepresents : Represents database thread)
    (hcurrent : thread.current = some current)
    (hsession : (change.apply current.run).sessionId = current.run.sessionId)
    (huser : (change.apply current.run).userEntryId = current.run.userEntryId)
    (hflight : (change.apply current.run).status.inFlight = true)
    (hcandidate : (change.apply current.run).candidateTombstoneId =
      current.run.candidateTombstoneId) :
    Represents { database with runs := database.runs.modify current.run.id change }
      ⟨thread.session, thread.settled, some { current with run := change.apply current.run }⟩ := by
  have hturn := hrepresents.isCurrent current hcurrent
  have hchain : Thread.chain
      ⟨thread.session, thread.settled, some { current with run := change.apply current.run }⟩ =
        thread.chain := (Thread.chain_of_current hcurrent).symm
  have hgoes : current.GoesOn { current with run := change.apply current.run } :=
    ⟨hsession, huser, hflight, rfl, ⟨rfl, rfl⟩, hcandidate.trans hturn.candidate, hturn.parts⟩
  refine hrepresents.goesOn hcurrent hgoes (.modify hturn.run_mem) hrepresents.session_mem rfl rfl
    ?_ ?_ ?_
  · rw [hchain]
    exact hrepresents.latest
  · rw [hchain]
    exact hrepresents.holds
  · rw [hchain]
    exact hrepresents.linked

/-- The rows of runs elsewhere are not changed with the row of a run. -/
theorem Represents.sameElsewhere_of_replaces {before after : Database} {thread : Thread}
    {current : Current} {run : Run} (hrepresents : Represents before thread)
    (hcurrent : thread.current = some current)
    (hruns : Table.Replaces before.runs after.runs current.run run)
    (hsession : run.sessionId = current.run.sessionId)
    (hsessions : ∀ session : Session, session.id ≠ thread.session.id →
      (session ∈ after.sessions ↔ session ∈ before.sessions))
    (hentries : after.entries = before.entries) :
    SameElsewhere thread.session.id before after := by
  have hturn := hrepresents.isCurrent current hcurrent
  refine ⟨hsessions, fun _ _ ↦ by rw [hentries], fun row hrow ↦ ?_⟩
  exact hruns.mem_iff_of_frame hturn.run_mem (fun run : Run ↦ run.sessionId ≠ thread.session.id)
    (not_not.mpr hturn.session) (not_not.mpr (hsession.trans hturn.session)) hrow

/-- A turn goes on by no parts. -/
theorem Continued.refl {store : Store} {thread : Thread} {current : Current}
    (hrepresents : Represents store.toDatabase thread) (hcurrent : thread.current = some current) :
    Continued store thread current [] current.run.progress store thread.session current := by
  have hturn := hrepresents.isCurrent current hcurrent
  obtain ⟨session, settled, _⟩ := thread
  obtain rfl := hcurrent
  exact ⟨hrepresents, rfl, rfl, rfl, .refl hturn.run_mem, rfl, rfl, .refl _ _, rfl,
    fun count hfresh ↦ hfresh.of_le (Nat.le_add_left count _)⟩

/-- Parts are taken one after the other. -/
theorem Continued.trans {before between after : Store} {thread : Thread} {current middle next : Current}
    {session last : Session} {first second : List Delta} {progress later : Run.Progress}
    (hfirst : Continued before thread current first progress between session middle)
    (hsecond : Continued between ⟨session, thread.settled, some middle⟩ middle second later after last
      next) :
    Continued before thread current (first ++ second) later after last next where
  represents := hsecond.represents
  session_id := hsecond.session_id.trans hfirst.session_id
  identity := hsecond.identity.trans hfirst.identity
  progress_eq := hsecond.progress_eq
  runs := hfirst.runs.trans hsecond.runs
  user := hsecond.user.trans hfirst.user
  parts := by rw [hsecond.parts, hfirst.parts, List.foldl_append]
  elsewhere := hfirst.elsewhere.trans (hfirst.session_id ▸ hsecond.elsewhere)
  buffer := hsecond.buffer.trans hfirst.buffer
  fresh count hfresh := by
    rw [List.length_append, Nat.add_assoc] at hfresh
    exact hsecond.fresh count (hfirst.fresh _ hfresh)

/-- A turn goes on with a change of the row of its run. -/
theorem continued_of_updateRun {store : Store} {thread : Thread} {current : Current}
    {progress : Run.Progress} (change : Change Run.id)
    (hrepresents : Represents store.toDatabase thread) (hcurrent : thread.current = some current)
    (hidentity : (change.apply current.run).identity = current.run.identity)
    (hprogress : (change.apply current.run).progress = progress)
    (hflight : (change.apply current.run).status.inFlight = true)
    (hcandidate : (change.apply current.run).candidateTombstoneId =
      current.run.candidateTombstoneId) :
    Continued store thread current [] progress
      { store with runs := store.runs.modify current.run.id change } thread.session
      { current with run := change.apply current.run } := by
  have hturn := hrepresents.isCurrent current hcurrent
  have hruns : Table.Replaces store.runs (store.runs.modify current.run.id change) current.run
      (change.apply current.run) := .modify hturn.run_mem
  have hsession : (change.apply current.run).sessionId = current.run.sessionId :=
    congrArg Run.Identity.sessionId hidentity
  have huser : (change.apply current.run).userEntryId = current.run.userEntryId :=
    congrArg Run.Identity.userEntryId hidentity
  exact
    { represents := hrepresents.updateRun hcurrent hsession huser hflight hcandidate
      session_id := rfl
      identity := hidentity
      progress_eq := hprogress
      runs := hruns
      user := rfl
      parts := rfl
      elsewhere := hrepresents.sameElsewhere_of_replaces hcurrent hruns hsession
        (fun _ _ ↦ Iff.rfl) rfl
      buffer := rfl
      fresh := fun count hfresh ↦ hfresh.of_le (Nat.le_add_left count _) }

/-- One round of the loop of `_promote` takes the part with the order, if it is there. -/
theorem promoteOrder_ensures {store : Store} {thread : Thread} {current : Current} {run : Run}
    {now orderNo : ℤ} (hrepresents : Represents store.toDatabase thread)
    (hcurrent : thread.current = some current) (hrun : run.id = current.run.id)
    (hsession : run.sessionId = current.run.sessionId) :
    Ensures (promoteOrder run now orderNo) store
      (fun _ final ↦ ∃ session next, Continued store thread current
        (store.buffer.find (current.run.id, orderNo)).toList current.run.progress final session next)
      (fun _ ↦ ¬ store.Fresh 1) := by
  simp only [promoteOrder, ensures_bind, ensures_getDelta]
  rw [hrun]
  cases store.buffer.find (current.run.id, orderNo) with
  | none => exact ⟨_, _, .refl hrepresents hcurrent⟩
  | some delta =>
    dsimp only
    rw [ensures_bind]
    refine (appendDelta_ensures hrepresents hcurrent hrun hsession).mono ?_ fun _ hfailed ↦ hfailed
    rintro _ after ⟨session, next, hcontinued⟩
    split_ifs with hpressure
    · have hid : current.run.id = next.run.id := hcontinued.runs.key_eq.symm
      have hflight := (hcontinued.represents.isCurrent next rfl).inFlight
      have hshown := continued_of_updateRun (showPressure delta.totalContext delta.usedContext)
        hcontinued.represents rfl rfl hcontinued.progress_eq hflight rfl
      rw [ensures_updateRun, hid]
      exact ⟨_, _, hcontinued.trans hshown⟩
    · exact ⟨_, _, hcontinued⟩

/-- The loop of `_promote` takes the parts with the orders, in order. -/
theorem promoteOrders_ensures {store : Store} {thread : Thread} {current : Current} {run : Run}
    {now : ℤ} {orderNos : List ℤ} (hrepresents : Represents store.toDatabase thread)
    (hcurrent : thread.current = some current) (hrun : run.id = current.run.id)
    (hsession : run.sessionId = current.run.sessionId) :
    Ensures (orderNos.forM (promoteOrder run now)) store
      (fun _ final ↦ ∃ session next, Continued store thread current
        (orderNos.filterMap fun orderNo ↦ store.buffer.find (current.run.id, orderNo))
        current.run.progress final session next)
      (fun _ ↦ ¬ store.Fresh orderNos.length) := by
  have hloop : Ensures (orderNos.forM (promoteOrder run now)) store
      (fun _ final ↦ ∃ taken session next, taken ++ [] = orderNos ∧
        Continued store thread current
          (taken.filterMap fun orderNo ↦ store.buffer.find (current.run.id, orderNo))
          current.run.progress final session next) (fun _ ↦ ¬ store.Fresh orderNos.length) := by
    refine Ensures.forM (fun rest final ↦ ∃ taken session next,
      taken ++ rest = orderNos ∧ Continued store thread current
        (taken.filterMap fun orderNo ↦ store.buffer.find (current.run.id, orderNo))
        current.run.progress final session next) ?_ ⟨[], _, _, rfl, .refl hrepresents hcurrent⟩
    rintro orderNo rest state ⟨taken, session, next, hsplit, hcontinued⟩
    have hid : current.run.id = next.run.id := hcontinued.runs.key_eq.symm
    have hmine : current.run.sessionId = next.run.sessionId :=
      (congrArg Run.Identity.sessionId hcontinued.identity).symm
    have hfresh : store.Fresh orderNos.length → state.Fresh 1 := by
      intro hfresh
      have htaken : (taken.filterMap fun orderNo ↦ store.buffer.find (current.run.id, orderNo)).length
          ≤ taken.length := List.length_filterMap_le _ _
      have hlength := congrArg List.length hsplit
      rw [List.length_append, List.length_cons] at hlength
      exact hcontinued.fresh 1 (hfresh.of_le (by omega))
    refine (promoteOrder_ensures hcontinued.represents rfl (hrun.trans hid)
      (hsession.trans hmine)).mono ?_ fun _ hfailed hdraws ↦ hfailed (hfresh hdraws)
    rintro _ final ⟨last, later, hlater⟩
    refine ⟨taken ++ [orderNo], last, later, by rw [List.append_assoc]; exact hsplit, ?_⟩
    have hone : [orderNo].filterMap (fun orderNo ↦ store.buffer.find (current.run.id, orderNo)) =
        (state.buffer.find (next.run.id, orderNo)).toList := by
      rw [hcontinued.buffer, ← hid]
      cases hfind : store.buffer.find (current.run.id, orderNo) with
      | none => simp [hfind]
      | some delta => simp [hfind]
    rw [List.filterMap_append, hone]
    rw [hcontinued.progress_eq] at hlater
    exact hcontinued.trans hlater
  refine hloop.mono ?_ fun _ hfailed ↦ hfailed
  rintro _ final ⟨taken, session, next, hsplit, hcontinued⟩
  rw [List.append_nil] at hsplit
  exact ⟨session, next, hsplit ▸ hcontinued⟩

end Ads.Transcript
