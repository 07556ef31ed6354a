import Ads.Transcript.Rollback

/-!
# Delivery of the engine's output

The engine emits the parts of its output with the orders from zero on and announces the last order
when it finishes. The messages arrive in any order and any number of times, with reports that the
engine is alive in between. At every point the entries of the run are the fold of the parts up to
its watermark, each applied once; and the run is finished exactly when all parts and the
announcement have arrived: `deliver_confluent`.
-/

set_option autoImplicit false
set_option relaxedAutoImplicit false

namespace Ads.Transcript

open Context Foundation Foundation.StateExcept Python

/-! ### Messages -/

/-- A part of the output, as the engine emits it. -/
structure Part where
  kind : Kind
  text : Text
  pressure : Option Pressure

/-- The messages about a run of so many parts. -/
inductive Message (count : ℕ) where
  | part (order : Fin count)
  | finish
  | acknowledge (messageId : Uuid)
  | ping
  deriving DecidableEq

/-- The transaction for a message about the run with a message id. -/
def Message.operation (sessionId messageId : Uuid) (outputs : List Part) :
    Message outputs.length → Operation
  | .part order => .partialResponse sessionId (order : ℕ) (outputs.get order).kind
      (outputs.get order).text (outputs.get order).pressure (some messageId)
  | .finish => .finish sessionId (some ((outputs.length : ℤ) - 1)) (some messageId)
  | .acknowledge acknowledged => .acknowledge sessionId acknowledged
  | .ping => .ping sessionId

/-- The delivery of a message, with its time and the identifiers that its transaction draws. -/
structure Arrival (count : ℕ) where
  message : Message count
  now : ℤ
  supply : ℕ → Uuid

/-- The event of a delivery. -/
def Arrival.event (sessionId messageId : Uuid) (outputs : List Part)
    (arrival : Arrival outputs.length) : Event :=
  ⟨arrival.message.operation sessionId messageId outputs, arrival.now, arrival.supply⟩

/-- The orders of the parts that arrived. -/
def arrivedOrders {count : ℕ} (messages : List (Message count)) : List ℤ :=
  messages.filterMap fun message ↦
    match message with
    | .part order => some (order : ℕ)
    | _ => none

/-- All parts and the announcement of the last one arrived. -/
def Complete {count : ℕ} (messages : List (Message count)) : Prop :=
  .finish ∈ messages ∧ ∀ order, .part order ∈ messages

/-- The parts of a run as the buffer stores them. -/
def deltasOf (runId : Uuid) (outputs : List Part) : List Delta :=
  outputs.mapIdx fun order part ↦
    EngineOutputService.received runId order part.kind part.text part.pressure

/-- What the entries of a run say after some parts, from the first entry on. -/
def foldParts (deltas : List Delta) : List Content :=
  (deltas.foldl addPart []).reverse

/-- What the entries of a run say, from the first one on. -/
def transcriptOf (database : Database) (session : Session) (runId : Uuid) : List Content :=
  ((database.walk session).filter fun entry ↦ entry.runId = some runId).map Entry.content

/-- The identifiers that the transactions draw are different, and not those of entries. -/
def FreshDraws (codec : Codec) (database : Database) (events : List Event) (count : ℕ) : Prop :=
  ∀ front event back, events = front ++ event :: back →
    Store.Fresh ⟨execute codec database front, event.supply⟩ count

theorem freshDraws_nil {codec : Codec} {database : Database} {count : ℕ} :
    FreshDraws codec database [] count :=
  fun front event back hsplit ↦ absurd hsplit.symm (by simp)

/-- The draws of the first transaction and those of the others. -/
theorem freshDraws_cons {codec : Codec} {database : Database} {event : Event} {rest : List Event}
    {count : ℕ} : FreshDraws codec database (event :: rest) count ↔
      Store.Fresh ⟨database, event.supply⟩ count ∧
        FreshDraws codec (step codec database event) rest count := by
  constructor
  · intro hfresh
    refine ⟨hfresh [] event rest rfl, fun front other back hsplit ↦ ?_⟩
    exact hfresh (event :: front) other back (congrArg (event :: ·) hsplit)
  · rintro ⟨hfirst, hrest⟩ front other back hsplit
    cases front with
    | nil =>
      obtain ⟨rfl, -⟩ := List.cons.inj hsplit
      exact hfirst
    | cons first front =>
      obtain ⟨rfl, htail⟩ := List.cons.inj hsplit
      exact hrest front other back htail

section Orders

variable {count : ℕ} {messages : List (Message count)} {order : ℤ}

theorem mem_arrivedOrders :
    order ∈ arrivedOrders messages ↔ ∃ index : Fin count, .part index ∈ messages ∧ order = (index : ℕ) := by
  unfold arrivedOrders
  rw [List.mem_filterMap]
  constructor
  · rintro ⟨message, hmessage, heq⟩
    cases message with
    | part index => exact ⟨index, hmessage, (Option.some.inj heq).symm⟩
    | finish | acknowledge | ping => cases heq
  · rintro ⟨index, hmessage, rfl⟩
    exact ⟨_, hmessage, rfl⟩

/-- The orders are those of parts. -/
theorem arrivedOrders_bounds (horder : order ∈ arrivedOrders messages) : 0 ≤ order ∧ order < count := by
  obtain ⟨index, -, rfl⟩ := mem_arrivedOrders.mp horder
  exact ⟨Int.natCast_nonneg _, Int.ofNat_lt.mpr index.isLt⟩

/-- The watermark after the orders that arrived. -/
theorem ReachesTo.bounds {watermark : ℤ} (hreaches : ReachesTo (arrivedOrders messages) (-1) watermark) :
    -1 ≤ watermark ∧ watermark < count := by
  refine ⟨hreaches.le, ?_⟩
  rcases hreaches.le.eq_or_lt with heq | hlt
  · omega
  · exact (arrivedOrders_bounds (hreaches.mem watermark hlt (le_refl _))).2

/-- All parts arrived exactly if the watermark is at the last of them. -/
theorem ReachesTo.all_iff {watermark : ℤ} (hreaches : ReachesTo (arrivedOrders messages) (-1) watermark) :
    (∀ index, .part index ∈ messages) ↔ (count : ℤ) - 1 ≤ watermark := by
  constructor
  · intro hall
    by_contra hbelow
    have hbounds := hreaches.bounds
    have hnext : (watermark + 1).toNat < count := by omega
    refine hreaches.stops (mem_arrivedOrders.mpr ⟨⟨_, hnext⟩, hall _, ?_⟩)
    change watermark + 1 = ((watermark + 1).toNat : ℤ)
    omega
  · intro hlast index
    have hindex := index.isLt
    obtain ⟨other, hother, heq⟩ :=
      mem_arrivedOrders.mp (hreaches.mem (index : ℕ) (by omega) (by omega))
    have hsame : index = other := Fin.ext (Int.ofNat_inj.mp heq)
    exact hsame ▸ hother

end Orders

/-! ### The buffer -/

/-- The buffer holds the parts that arrived. -/
def Buffered (buffer : Table Delta.key) (runId : Uuid) (deltas : List Delta) (present : List ℤ) :
    Prop :=
  ∀ order, buffer.find (runId, order) = if order ∈ present then deltas[order.toNat]? else none

/-- Parts that follow without a gap are the next ones of the output. -/
theorem Buffered.take_append {buffer : Table Delta.key} {runId : Uuid} {deltas : List Delta}
    {present : List ℤ} {first : ℤ} (hbuffered : Buffered buffer runId deltas present)
    (hfirst : -1 ≤ first) (count : ℕ)
    (hpresent : ∀ order, first < order → order ≤ first + count → order ∈ present) :
    deltas.take (first + 1).toNat ++
      ((List.range count).map fun index : ℕ ↦ first + 1 + index).filterMap
        (fun order ↦ buffer.find (runId, order)) = deltas.take (first + 1 + count).toNat := by
  induction count with
  | zero => simp
  | succ count ih =>
    have hnext : first + 1 + count ∈ present := hpresent _ (by omega) (by omega)
    have hindex : (first + 1 + (count + 1 : ℕ)).toNat = (first + 1 + count).toNat + 1 := by omega
    have hone : [first + 1 + (count : ℤ)].filterMap (fun order ↦ buffer.find (runId, order)) =
        deltas[(first + 1 + count).toNat]?.toList := by
      rw [List.filterMap_cons, List.filterMap_nil, hbuffered, if_pos hnext]
      cases deltas[(first + 1 + (count : ℤ)).toNat]? <;> rfl
    rw [List.range_succ, List.map_append, List.filterMap_append, ← List.append_assoc,
      ih fun order hlow hhigh ↦ hpresent order hlow (by omega), List.map_singleton, hone, hindex,
      List.take_add_one]

/-- The parts up to the watermark after a promotion. -/
theorem Buffered.take_promoted {buffer : Table Delta.key} {runId : Uuid} {deltas : List Delta}
    {present : List ℤ} {watermark : ℤ} (hbuffered : Buffered buffer runId deltas present)
    (hwatermark : -1 ≤ watermark)
    (hreaches : ReachesTo present watermark (promotedTo buffer runId watermark)) :
    deltas.take (watermark + 1).toNat ++ promotedDeltas buffer runId watermark =
      deltas.take (promotedTo buffer runId watermark + 1).toNat := by
  have hle := hreaches.le
  have hcount : ((promotedTo buffer runId watermark - watermark).toNat : ℤ) =
      promotedTo buffer runId watermark - watermark := Int.toNat_of_nonneg (by omega)
  have htake := hbuffered.take_append hwatermark
    (promotedTo buffer runId watermark - watermark).toNat
    fun order hlow hhigh ↦ hreaches.mem order hlow (by omega)
  rw [hcount] at htake
  unfold promotedDeltas ordersBetween
  rw [htake]
  congr 2
  omega

/-- The orders in the buffer are those that arrived. -/
theorem Buffered.mem_iff {buffer : Table Delta.key} {runId : Uuid} {deltas : List Delta}
    {present : List ℤ} (hbuffered : Buffered buffer runId deltas present)
    (hpresent : ∀ order ∈ present, order.toNat < deltas.length) {order : ℤ} :
    order ∈ presentOrders buffer runId ↔ order ∈ present := by
  rw [mem_presentOrders, hbuffered]
  split_ifs with hmem
  · refine iff_of_true ?_ hmem
    rw [List.getElem?_eq_getElem (hpresent order hmem)]
    rfl
  · exact iff_of_false (fun hnone ↦ by cases hnone) hmem

/-- One more part in the buffer. -/
theorem Buffered.insert {buffer inserted : Table Delta.key} {runId : Uuid} {deltas : List Delta}
    {present more : List ℤ} {delta : Delta} {index : ℕ}
    (hbuffered : Buffered buffer runId deltas present)
    (hinsert : buffer.insert delta = some inserted) (hkey : delta.key = (runId, (index : ℤ)))
    (hdelta : deltas[index]? = some delta)
    (hmore : ∀ order, order ∈ more ↔ order = (index : ℤ) ∨ order ∈ present) :
    Buffered inserted runId deltas more := by
  intro order
  rw [Table.find_insert hinsert, hkey, hbuffered]
  by_cases hsame : order = (index : ℤ)
  · rw [if_pos (congrArg (runId, ·) hsame), if_pos ((hmore order).mpr (Or.inl hsame)), hsame,
      Int.toNat_natCast, hdelta]
  · have hne : ¬ (runId, order) = (runId, (index : ℤ)) := fun heq ↦ hsame (Prod.mk.inj heq).2
    rw [if_neg hne]
    refine if_congr ?_ rfl rfl
    rw [hmore, or_iff_right hsame]

/-- A gap that is not closed stops the watermark as before. -/
theorem ReachesTo.trans {present more : List ℤ} {first middle last : ℤ}
    (hfirst : ReachesTo present first middle) (hsecond : ReachesTo more middle last)
    (hmore : ∀ order ∈ present, order ∈ more) : ReachesTo more first last := by
  refine ⟨hfirst.le.trans hsecond.le, fun order hlow hhigh ↦ ?_, hsecond.stops⟩
  rcases le_or_gt order middle with hle | hgt
  · exact hmore order (hfirst.mem order hlow hle)
  · exact hsecond.mem order hgt hhigh

/-- The watermark depends on which orders are there only. -/
theorem ReachesTo.congr {present other : List ℤ} {first last : ℤ}
    (hreaches : ReachesTo present first last) (hsame : ∀ order, order ∈ present ↔ order ∈ other) :
    ReachesTo other first last :=
  ⟨hreaches.le, fun order hlow hhigh ↦ (hsame order).mp (hreaches.mem order hlow hhigh),
    fun hnext ↦ hreaches.stops ((hsame _).mpr hnext)⟩

/-! ### The turn of the run -/

/-- The entries of a run in a thread. -/
theorem IsCurrent.filter_chain {runs : Table Run.id} {thread : Thread} {current : Current}
    (hturn : IsCurrent runs thread current) (hcurrent : thread.current = some current) :
    (thread.chain.filter fun entry ↦ entry.runId = some current.run.id) = current.parts := by
  have hparts : (current.parts.filter fun entry ↦ entry.runId = some current.run.id) =
      current.parts :=
    List.filter_eq_self.mpr fun entry hentry ↦ decide_eq_true (hturn.parts entry hentry)
  have hsettled : ((relink (some current.user.id) thread.settled).filter fun entry ↦
      entry.runId = some current.run.id) = [] := by
    refine List.filter_eq_nil_iff.mpr fun entry hentry hrunId ↦ ?_
    obtain ⟨old, hold, hsame⟩ := mem_relink hentry
    rw [hsame] at hrunId
    exact hturn.settled old hold (of_decide_eq_true hrunId)
  have huser : ¬ current.user.runId = some current.run.id := by
    rw [hturn.user.1]
    exact nofun
  rw [Thread.chain_of_current hcurrent, List.filter_append, hparts, List.filter_cons_of_neg
    (by rw [decide_eq_true_eq]; exact huser), hsettled, List.append_nil]

/-- What the entries of a run say. -/
theorem Represents.transcriptOf_eq {database : Database} {thread : Thread} {runId : Uuid}
    (hrepresents : Represents database thread) :
    transcriptOf database thread.session runId =
      ((thread.chain.filter fun entry ↦ entry.runId = some runId).map Entry.content).reverse := by
  rw [transcriptOf, hrepresents.walk_eq, List.filter_reverse, List.map_reverse]

/-! ### One delivery -/

/-- The run waits for messages: it took the parts up to the first gap. -/
structure Waiting (sessionId runId messageId : Uuid) (outputs : List Part)
    (messages : List (Message outputs.length)) (database : Database) (thread : Thread)
    (current : Current) : Prop where
  represents : Represents database thread
  session_id : thread.session.id = sessionId
  turn : thread.current = some current
  run_id : current.run.id = runId
  message_id : current.run.messageId = messageId
  buffer : Buffered database.buffer runId (deltasOf runId outputs) (arrivedOrders messages)
  lastOrder : current.run.lastOrder =
    if .finish ∈ messages then some ((outputs.length : ℤ) - 1) else none
  watermark : ReachesTo (arrivedOrders messages) (-1) current.run.watermark
  parts : current.parts.map Entry.content =
    ((deltasOf runId outputs).take (current.run.watermark + 1).toNat).foldl addPart []
  incomplete : ¬ Complete messages

/-- The run is finished: it took all parts. -/
structure Ended (sessionId runId : Uuid) (outputs : List Part)
    (messages : List (Message outputs.length)) (database : Database) (thread : Thread) (run : Run) :
    Prop where
  represents : Represents database thread
  session_id : thread.session.id = sessionId
  idle : thread.current = none
  run_mem : run ∈ database.runs
  run_id : run.id = runId
  finished : run.status = .finished
  watermark : run.watermark = (outputs.length : ℤ) - 1
  parts : (thread.chain.filter fun entry ↦ entry.runId = some runId).map Entry.content =
    (deltasOf runId outputs).foldl addPart []
  complete : Complete messages

/-- What holds after some messages arrived. -/
def Received (sessionId runId messageId : Uuid) (outputs : List Part)
    (messages : List (Message outputs.length)) (database : Database) : Prop :=
  (∃ thread current, Waiting sessionId runId messageId outputs messages database thread current) ∨
    ∃ thread run, Ended sessionId runId outputs messages database thread run

section Delivery

variable {sessionId runId messageId : Uuid} {outputs : List Part}
  {messages more : List (Message outputs.length)} {database : Database} {thread : Thread}
  {current : Current}

theorem length_deltasOf : (deltasOf runId outputs).length = outputs.length :=
  List.length_mapIdx

/-- The run waits as before after messages that bring nothing new. -/
theorem Waiting.same (hwaiting : Waiting sessionId runId messageId outputs messages database thread current)
    (hparts : ∀ index, .part index ∈ more ↔ .part index ∈ messages)
    (hfinish : .finish ∈ more ↔ .finish ∈ messages) :
    Waiting sessionId runId messageId outputs more database thread current := by
  have horders : ∀ order, order ∈ arrivedOrders messages ↔ order ∈ arrivedOrders more := by
    intro order
    rw [mem_arrivedOrders, mem_arrivedOrders]
    exact exists_congr fun index ↦ and_congr_left fun _ ↦ (hparts index).symm
  refine { hwaiting with
    buffer := fun order ↦ (hwaiting.buffer order).trans (if_congr (horders order) rfl rfl)
    lastOrder := hwaiting.lastOrder.trans (if_congr hfinish.symm rfl rfl)
    watermark := hwaiting.watermark.congr horders
    incomplete := fun hcomplete ↦ hwaiting.incomplete ⟨hfinish.mp hcomplete.1, fun index ↦
      (hparts index).mp (hcomplete.2 index)⟩ }

/-- A turn that went on by the next parts waits. -/
theorem Waiting.proceeds {before after : Store} {deltas : List Delta} {progress : Run.Progress}
    (hwaiting : Waiting sessionId runId messageId outputs messages database thread current)
    (hproceeds : Proceeds before thread current deltas progress after)
    (hbuffer : Buffered before.buffer runId (deltasOf runId outputs) (arrivedOrders more))
    (hlastOrder : progress.lastOrder =
      if .finish ∈ more then some ((outputs.length : ℤ) - 1) else none)
    (hwatermark : ReachesTo (arrivedOrders more) (-1) progress.watermark)
    (htake : (deltasOf runId outputs).take (current.run.watermark + 1).toNat ++ deltas =
      (deltasOf runId outputs).take (progress.watermark + 1).toNat)
    (hincomplete : ¬ Complete more) :
    Received sessionId runId messageId outputs more after.toDatabase := by
  obtain ⟨session, next, hcontinued⟩ := hproceeds
  refine Or.inl ⟨_, next,
    { represents := hcontinued.represents
      session_id := hcontinued.session_id.trans hwaiting.session_id
      turn := rfl
      run_id := hcontinued.runs.key_eq.trans hwaiting.run_id
      message_id := (congrArg Run.Identity.messageId hcontinued.identity).trans hwaiting.message_id
      buffer := hcontinued.buffer ▸ hbuffer
      lastOrder := (congrArg Run.Progress.lastOrder hcontinued.progress_eq).trans hlastOrder
      watermark := ?_
      parts := ?_
      incomplete := hincomplete }⟩
  · have hsame : next.run.watermark = progress.watermark :=
      congrArg Run.Progress.watermark hcontinued.progress_eq
    rw [hsame]
    exact hwatermark
  · have hsame : next.run.watermark = progress.watermark :=
      congrArg Run.Progress.watermark hcontinued.progress_eq
    rw [hcontinued.parts, hwaiting.parts, ← List.foldl_append, htake, hsame]

/-- A turn that went on by the last parts and is settled has ended. -/
theorem Waiting.settles {before after : Store} {deltas : List Delta} {progress : Run.Progress}
    (hwaiting : Waiting sessionId runId messageId outputs messages database thread current)
    (hsettles : Settles before thread current deltas progress after)
    (htake : (deltasOf runId outputs).take (current.run.watermark + 1).toNat ++ deltas =
      (deltasOf runId outputs).take (progress.watermark + 1).toNat)
    (hwatermark : progress.watermark = (outputs.length : ℤ) - 1) (hcomplete : Complete more) :
    Received sessionId runId messageId outputs more after.toDatabase := by
  obtain ⟨between, session, next, last, hcontinued, hfinished⟩ := hsettles
  have hid : next.run.id = runId := hcontinued.runs.key_eq.trans hwaiting.run_id
  have hsame : next.run.watermark = progress.watermark :=
    congrArg Run.Progress.watermark hcontinued.progress_eq
  have hnext := hcontinued.represents.isCurrent next rfl
  refine Or.inr ⟨_, _,
    { represents := hfinished.represents
      session_id := hfinished.session_id.trans (hcontinued.session_id.trans hwaiting.session_id)
      idle := rfl
      run_mem := hfinished.runs.mem
      run_id := hid
      finished := rfl
      watermark := hsame.trans hwatermark
      parts := ?_
      complete := hcomplete }⟩
  have hall : (progress.watermark + 1).toNat = (deltasOf runId outputs).length := by
    rw [length_deltasOf]
    omega
  rw [hall, List.take_length] at htake
  rw [Thread.chain_of_none rfl, ← hid, hnext.filter_chain rfl, hcontinued.parts, hwaiting.parts,
    ← List.foldl_append, hid, htake]

/-- A report that the engine is alive. -/
theorem Waiting.keepsAlive {before after : Store}
    (hwaiting : Waiting sessionId runId messageId outputs messages before.toDatabase thread current)
    (hkeeps : KeepsAlive before thread after) :
    Received sessionId runId messageId outputs messages after.toDatabase := by
  rcases hkeeps with rfl | ⟨other, hother, status, hproceeds⟩
  · exact Or.inl ⟨thread, current, hwaiting⟩
  · rw [hwaiting.turn] at hother
    obtain rfl := Option.some.inj hother
    exact hwaiting.proceeds hproceeds hwaiting.buffer hwaiting.lastOrder hwaiting.watermark
      (List.append_nil _) hwaiting.incomplete

/-- The part with an order, as the buffer stores it. -/
theorem getElem?_deltasOf (order : Fin outputs.length) :
    (deltasOf runId outputs)[(order : ℕ)]? = some (EngineOutputService.received runId (order : ℕ)
      (outputs.get order).kind (outputs.get order).text (outputs.get order).pressure) := by
  rw [deltasOf, List.getElem?_mapIdx, List.getElem?_eq_getElem order.isLt]
  rfl

/-- The orders that arrived with one more part. -/
theorem mem_arrivedOrders_part {count : ℕ} {messages : List (Message count)} (order : Fin count)
    (wanted : ℤ) : wanted ∈ arrivedOrders (messages ++ [.part order]) ↔
      wanted = (order : ℕ) ∨ wanted ∈ arrivedOrders messages := by
  have happend : arrivedOrders (messages ++ [.part order]) =
      arrivedOrders messages ++ [((order : ℕ) : ℤ)] := List.filterMap_append
  rw [happend, List.mem_append, List.mem_singleton, or_comm]

/-- The buffer with one more part, and where the watermark gets. -/
theorem Waiting.inserted {order : Fin outputs.length} {buffer : Table Delta.key}
    (hwaiting : Waiting sessionId runId messageId outputs messages database thread current)
    (hinsert : database.buffer.insert (EngineOutputService.received runId (order : ℕ)
      (outputs.get order).kind (outputs.get order).text (outputs.get order).pressure) =
        some buffer) :
    Buffered buffer runId (deltasOf runId outputs) (arrivedOrders (messages ++ [.part order])) ∧
      ReachesTo (arrivedOrders (messages ++ [.part order])) current.run.watermark
        (promotedTo buffer runId current.run.watermark) ∧
      ReachesTo (arrivedOrders (messages ++ [.part order])) (-1)
        (promotedTo buffer runId current.run.watermark) := by
  have hbuffer : Buffered buffer runId (deltasOf runId outputs)
      (arrivedOrders (messages ++ [.part order])) :=
    hwaiting.buffer.insert hinsert rfl (getElem?_deltasOf order) (mem_arrivedOrders_part order)
  have hlength : ∀ wanted ∈ arrivedOrders (messages ++ [.part order]),
      wanted.toNat < (deltasOf runId outputs).length := by
    intro wanted hwanted
    have hbounds := arrivedOrders_bounds hwanted
    rw [length_deltasOf]
    omega
  have hstep : ReachesTo (arrivedOrders (messages ++ [.part order])) current.run.watermark
      (promotedTo buffer runId current.run.watermark) :=
    promotedTo_reaches.congr fun wanted ↦ hbuffer.mem_iff hlength
  exact ⟨hbuffer, hstep, hwaiting.watermark.trans hstep fun wanted hwanted ↦
    (mem_arrivedOrders_part order wanted).mpr (Or.inr hwanted)⟩

/-- A part that was not there before is promoted with those that follow it. -/
theorem Waiting.promotes {store final : Store} {order : Fin outputs.length}
    {buffer : Table Delta.key}
    (hwaiting : Waiting sessionId runId messageId outputs messages store.toDatabase thread current)
    (hinsert : store.buffer.insert (EngineOutputService.received runId (order : ℕ)
      (outputs.get order).kind (outputs.get order).text (outputs.get order).pressure) = some buffer)
    (hnew : ((order : ℕ) : ℤ) ∉ arrivedOrders messages)
    (hpromotes : Promotes { store with buffer := buffer } thread current final) :
    Received sessionId runId messageId outputs (messages ++ [.part order]) final.toDatabase := by
  obtain ⟨hbuffer, hstep, hreaches⟩ := hwaiting.inserted hinsert
  have hlow := hwaiting.watermark.bounds.1
  have hhigh := hreaches.bounds.2
  have htake := hbuffer.take_promoted hlow hstep
  have hfinish : .finish ∈ messages ++ [.part order] ↔ .finish ∈ messages := by
    rw [List.mem_append, List.mem_singleton]
    exact or_iff_left nofun
  have hlastOrder := hwaiting.lastOrder.trans (if_congr hfinish.symm rfl rfl)
  have hcomplete : Complete (messages ++ [.part order]) ↔
      .finish ∈ messages ∧ (outputs.length : ℤ) - 1 ≤
        promotedTo buffer runId current.run.watermark := by
    rw [Complete, hfinish, hreaches.all_iff]
  have hsettled : (∃ last ∈ current.run.lastOrder,
      last ≤ promotedTo buffer runId current.run.watermark) ↔
        Complete (messages ++ [.part order]) := by
    rw [hcomplete, hwaiting.lastOrder]
    split_ifs with hannounced
    · simp [hannounced]
    · simp [hannounced]
  unfold Promotes at hpromotes
  rw [hwaiting.run_id] at hpromotes
  dsimp only at hpromotes
  split_ifs at hpromotes with hlast
  · have hall := hsettled.mp hlast.2
    have hreached := (hcomplete.mp hall).2
    exact hwaiting.settles hpromotes htake (by change promotedTo _ _ _ = _; omega) hall
  · refine hwaiting.proceeds hpromotes hbuffer hlastOrder hreaches htake fun hall ↦ ?_
    -- All parts are there only if the new one closed a gap.
    refine hlast ⟨lt_of_le_of_ne hstep.le fun heq ↦ hnew ?_, hsettled.mpr hall⟩
    have hreached := (hcomplete.mp hall).2
    have horder := order.isLt
    exact hwaiting.watermark.mem _ (by omega) (by omega)

/-- The arrival of a part. -/
theorem Waiting.part {supply : ℕ → Uuid} {now : ℤ}
    (hwaiting : Waiting sessionId runId messageId outputs messages database thread current)
    (hfresh : Store.Fresh ⟨database, supply⟩ outputs.length) (order : Fin outputs.length) :
    Ensures (EngineOutputService.partialResponse sessionId (order : ℕ) (outputs.get order).kind
        (outputs.get order).text (outputs.get order).pressure (some messageId) now)
      ⟨database, supply⟩
      (fun _ final ↦ Received sessionId runId messageId outputs (messages ++ [.part order])
        final.toDatabase) fun _ ↦ False := by
  have hrepresents := hwaiting.represents
  have hmine : current.run.isOther (some messageId) = false := by
    rw [Run.isOther, Option.any_some, hwaiting.message_id]
    exact decide_eq_false (not_not.mpr rfl)
  have horder := order.isLt
  have hpresent : (database.buffer.find (current.run.id, ((order : ℕ) : ℤ))).isSome = true ↔
      ((order : ℕ) : ℤ) ∈ arrivedOrders messages := by
    rw [hwaiting.run_id, hwaiting.buffer, Int.toNat_natCast, getElem?_deltasOf]
    split_ifs with hmem
    · exact iff_of_true rfl hmem
    · exact iff_of_false nofun hmem
  have hignored : Ignored database.buffer current.run (order : ℕ) (some messageId) ↔
      ((order : ℕ) : ℤ) ∈ arrivedOrders messages := by
    rw [← hpresent]
    refine ⟨?_, fun hthere ↦ Or.inr (Or.inr (Or.inr hthere))⟩
    rintro (hother | hnegative | ⟨last, hlast, hbeyond⟩ | hthere)
    · rw [hmine] at hother
      cases hother
    · omega
    · rw [hwaiting.lastOrder] at hlast
      split_ifs at hlast
      · obtain rfl := Option.some.inj hlast
        omega
      · exact absurd hlast (Option.not_mem_none _)
    · exact hthere
  have hother : ∀ other ∈ thread.current, other = current := by
    intro other hmem
    rw [hwaiting.turn] at hmem
    exact (Option.some.inj hmem).symm
  obtain rfl := hwaiting.session_id
  refine (partialResponse_ensures (by exact hrepresents)).mono ?_ ?_
  · rintro _ final (⟨rfl, hold⟩ | ⟨other, hmem, buffer, hinsert, htaken, hpromotes⟩)
    · have hmem := hignored.mp (hold current hwaiting.turn)
      refine Or.inl ⟨thread, current, hwaiting.same (fun index ↦ ?_) ?_⟩
      · rw [List.mem_append, List.mem_singleton, Message.part.injEq]
        refine or_iff_left_of_imp fun heq ↦ ?_
        obtain ⟨there, hthere, hsame⟩ := mem_arrivedOrders.mp hmem
        rw [heq, Fin.ext (Int.ofNat_inj.mp hsame)]
        exact hthere
      · rw [List.mem_append, List.mem_singleton]
        exact or_iff_left nofun
    · obtain rfl := hother other hmem
      rw [hwaiting.run_id] at hinsert
      exact Waiting.promotes (by exact hwaiting) hinsert
        (fun hthere ↦ htaken (hignored.mpr hthere)) hpromotes
  · rintro _ ⟨other, hmem, buffer, hinsert, hraised⟩
    obtain rfl := hother other hmem
    rw [hwaiting.run_id] at hinsert hraised
    have hlow := hwaiting.watermark.bounds.1
    have hhigh := (hwaiting.inserted hinsert).2.2.bounds.2
    exact hraised (hfresh.of_le (by omega))

/-- The arrival of the announcement of the last part. -/
theorem Waiting.finish {supply : ℕ → Uuid} {now : ℤ}
    (hwaiting : Waiting sessionId runId messageId outputs messages database thread current)
    (houtputs : outputs ≠ []) :
    Ensures (EngineOutputService.finish sessionId (some ((outputs.length : ℤ) - 1)) (some messageId)
        now) ⟨database, supply⟩
      (fun _ final ↦ Received sessionId runId messageId outputs (messages ++ [.finish])
        final.toDatabase) fun _ ↦ False := by
  have hrepresents := hwaiting.represents
  have hlength := List.length_pos_of_ne_nil houtputs
  have hhigh := hwaiting.watermark.bounds.2
  have hmine : current.run.isOther (some messageId) = false := by
    rw [Run.isOther, Option.any_some, hwaiting.message_id]
    exact decide_eq_false (not_not.mpr rfl)
  have horders : ∀ order, order ∈ arrivedOrders messages ↔
      order ∈ arrivedOrders (messages ++ [.finish]) := by
    intro order
    have happend : arrivedOrders (messages ++ [.finish]) = arrivedOrders messages ++ [] :=
      List.filterMap_append
    rw [happend, List.append_nil]
  have hbuffer : Buffered database.buffer runId (deltasOf runId outputs)
      (arrivedOrders (messages ++ [.finish])) := fun order ↦
    (hwaiting.buffer order).trans (if_congr (horders order) rfl rfl)
  have hreaches := hwaiting.watermark.congr horders
  have hfinish : .finish ∈ messages ++ [.finish] := List.mem_append_right _ (List.mem_singleton_self _)
  have hcomplete : Complete (messages ++ [.finish]) ↔
      (outputs.length : ℤ) - 1 ≤ current.run.watermark := by
    rw [Complete, and_iff_right hfinish, hreaches.all_iff]
  have hannounced : EngineOutputService.announced current.run ((outputs.length : ℤ) - 1) =
      (outputs.length : ℤ) - 1 := by
    rw [EngineOutputService.announced, hwaiting.lastOrder]
    split_ifs <;> rfl
  obtain rfl := hwaiting.session_id
  refine (finish_ensures (by exact hrepresents)).mono ?_ fun _ hraised ↦ hraised
  rintro _ final (⟨-, hall⟩ | ⟨other, hmem, -, hfinishes⟩)
  · rw [hall current hwaiting.turn] at hmine
    cases hmine
  · rw [hwaiting.turn] at hmem
    obtain rfl := Option.some.inj hmem
    unfold Finishes at hfinishes
    dsimp only at hfinishes
    rw [hannounced, if_neg (by omega)] at hfinishes
    split_ifs at hfinishes with hreached
    · refine hwaiting.settles hfinishes (List.append_nil _) ?_ (hcomplete.mpr hreached)
      change current.run.watermark = _
      omega
    · obtain ⟨status, hproceeds⟩ := hfinishes
      exact hwaiting.proceeds hproceeds hbuffer (if_pos hfinish).symm hreaches (List.append_nil _)
        fun hall ↦ hreached (hcomplete.mp hall)

/-- More messages keep a finished run as it is. -/
theorem Ended.same {run : Run} (hended : Ended sessionId runId outputs messages database thread run)
    (message : Message outputs.length) :
    Ended sessionId runId outputs (messages ++ [message]) database thread run :=
  { hended with complete := ⟨List.mem_append_left _ hended.complete.1,
    fun order ↦ List.mem_append_left _ (hended.complete.2 order)⟩ }

/-- The transaction for a message does what the message says. -/
theorem Received.arrive {codec : Codec} {arrival : Arrival outputs.length}
    (hreceived : Received sessionId runId messageId outputs messages database)
    (houtputs : outputs ≠ []) (hfresh : Store.Fresh ⟨database, arrival.supply⟩ outputs.length) :
    Received sessionId runId messageId outputs (messages ++ [arrival.message])
      (step codec database (arrival.event sessionId messageId outputs)) := by
  obtain ⟨message, now, supply⟩ := arrival
  refine commit_of_ensures _ ?_
  suffices hensures : Ensures
      ((message.operation sessionId messageId outputs).transaction codec now) ⟨database, supply⟩
      (fun _ final ↦ Received sessionId runId messageId outputs (messages ++ [message])
        final.toDatabase) fun _ ↦ False from
    hensures.mono (fun _ _ hdone ↦ hdone) fun _ hraised ↦ hraised.elim
  rcases hreceived with ⟨thread, current, hwaiting⟩ | ⟨thread, run, hended⟩
  · have hrepresents := hwaiting.represents
    have hsame : ∀ quiet : Message outputs.length, (∀ index, .part index ≠ quiet) →
        .finish ≠ quiet → Waiting sessionId runId messageId outputs (messages ++ [quiet]) database
          thread current := by
      intro quiet hpart hfinish
      refine hwaiting.same (fun index ↦ ?_) ?_
      · rw [List.mem_append, List.mem_singleton, or_iff_left (hpart index)]
      · rw [List.mem_append, List.mem_singleton, or_iff_left hfinish]
    cases message with
    | part order => exact hwaiting.part hfresh order
    | finish => exact hwaiting.finish houtputs
    | acknowledge acknowledged =>
      have hquiet := hsame (.acknowledge acknowledged) (fun _ h ↦ by cases h)
        fun h ↦ by cases h
      obtain rfl := hwaiting.session_id
      exact (acknowledge_ensures (by exact hrepresents)).mono
        (fun _ _ hkeeps ↦ Waiting.keepsAlive (by exact hquiet) hkeeps) fun _ hraised ↦ hraised
    | ping =>
      have hquiet := hsame .ping (fun _ h ↦ by cases h) fun h ↦ by cases h
      obtain rfl := hwaiting.session_id
      exact (ping_ensures (by exact hrepresents)).mono
        (fun _ _ hkeeps ↦ Waiting.keepsAlive (by exact hquiet) hkeeps) fun _ hraised ↦ hraised
  · have hdone : Received sessionId runId messageId outputs (messages ++ [message]) database :=
      Or.inr ⟨thread, run, hended.same message⟩
    have hfind := hended.represents.find_inFlight
    rw [hended.idle, Option.map_none, hended.session_id] at hfind
    have hnone : ∀ next : Option Run → Transaction Unit, next none = pure () →
        Ensures (inFlightForSession sessionId >>= next) ⟨database, supply⟩
          (fun _ final ↦ Received sessionId runId messageId outputs (messages ++ [message])
            final.toDatabase) fun _ ↦ False := by
      intro next hnext
      rw [ensures_bind, ensures_inFlightForSession, hfind, hnext]
      exact hdone
    cases message with
    | part order => exact hnone _ rfl
    | finish => exact hnone _ rfl
    | acknowledge acknowledged => exact hnone _ rfl
    | ping => exact hnone _ rfl

/-- What holds after all deliveries. -/
theorem Received.execute {codec : Codec} (houtputs : outputs ≠ [])
    (arrivals : List (Arrival outputs.length))
    (hreceived : Received sessionId runId messageId outputs messages database)
    (hfresh : FreshDraws codec database (arrivals.map (Arrival.event sessionId messageId outputs))
      outputs.length) :
    Received sessionId runId messageId outputs (messages ++ arrivals.map Arrival.message)
      (execute codec database (arrivals.map (Arrival.event sessionId messageId outputs))) := by
  induction arrivals generalizing database messages with
  | nil =>
    rw [List.map_nil, List.append_nil]
    exact hreceived
  | cons arrival rest ih =>
    obtain ⟨hfirst, hlater⟩ := freshDraws_cons.mp hfresh
    have hnext : Received sessionId runId messageId outputs (messages ++ [arrival.message])
        (step codec database (arrival.event sessionId messageId outputs)) :=
      hreceived.arrive houtputs hfirst
    have hrest := ih hnext hlater
    rwa [List.append_assoc] at hrest

end Delivery

/-! ### All deliveries -/

/-- The entries of a run are the fold of the parts up to its watermark, and the run is finished
exactly when all parts and the announcement of the last one arrived. -/
def Delivered (sessionId runId : Uuid) (outputs : List Part)
    (messages : List (Message outputs.length)) (database : Database) : Prop :=
  ∃ session ∈ database.sessions, ∃ run ∈ database.runs, session.id = sessionId ∧ run.id = runId ∧
    -1 ≤ run.watermark ∧ run.watermark < outputs.length ∧
      transcriptOf database session runId =
        foldParts ((deltasOf runId outputs).take (run.watermark + 1).toNat) ∧
          (run.status = .finished ↔ Complete messages)

/-- What the tables say about the run after some messages. -/
theorem Received.delivered {sessionId runId messageId : Uuid} {outputs : List Part}
    {messages : List (Message outputs.length)} {database : Database}
    (hreceived : Received sessionId runId messageId outputs messages database) :
    Delivered sessionId runId outputs messages database := by
  rcases hreceived with ⟨thread, current, hwaiting⟩ | ⟨thread, run, hended⟩
  · have hturn := hwaiting.represents.isCurrent current hwaiting.turn
    have hbounds := hwaiting.watermark.bounds
    refine ⟨_, hwaiting.represents.session_mem, _, hturn.run_mem, hwaiting.session_id,
      hwaiting.run_id, hbounds.1, hbounds.2, ?_,
      iff_of_false hturn.not_finished hwaiting.incomplete⟩
    rw [hwaiting.represents.transcriptOf_eq, ← hwaiting.run_id, hturn.filter_chain hwaiting.turn,
      hwaiting.parts, hwaiting.run_id, foldParts]
  · have hwatermark := hended.watermark
    have hall : (run.watermark + 1).toNat = (deltasOf runId outputs).length := by
      rw [length_deltasOf]
      omega
    refine ⟨_, hended.represents.session_mem, _, hended.run_mem, hended.session_id, hended.run_id,
      by omega, by omega, ?_, iff_of_true hended.finished hended.complete⟩
    rw [hended.represents.transcriptOf_eq, hended.parts, hall, List.take_length, foldParts]

/-- A run that is just started waits for its first message. -/
theorem send_received {codec : Codec} {database : Database} {userId sessionId : Uuid}
    {userInput : Text} {modelId : Option Uuid} {now : ℤ} {supply : ℕ → Uuid}
    {result : Uuid × List HistoryTurn} {store : Store} {outputs : List Part}
    (hsound : Sound database)
    (hsend : SendService.send codec userId sessionId userInput modelId now ⟨database, supply⟩ =
      .ok (result, store)) :
    Received sessionId (supply 1) result.1 outputs [] store.toDatabase := by
  obtain ⟨session, hmem, rfl⟩ := send_hasSession hsend
  obtain ⟨thread, rfl, hrepresents⟩ := hsound.threads session hmem
  obtain ⟨run, after, user, hrunId, hmessageId, hstarted⟩ := send_started hrepresents rfl hsend
  have hwatermark : run.watermark = -1 := congrArg Run.Progress.watermark hstarted.progress
  refine Or.inl ⟨_, _,
    { represents := hstarted.represents
      session_id := hstarted.session_id
      turn := rfl
      run_id := hrunId
      message_id := hmessageId
      buffer := fun order ↦ ?_
      lastOrder := congrArg Run.Progress.lastOrder hstarted.progress
      watermark := ?_
      parts := ?_
      incomplete := fun hcomplete ↦ absurd hcomplete.1 List.not_mem_nil }⟩
  · rw [if_neg (by exact List.not_mem_nil), hstarted.buffer]
    refine Table.find_eq_none_iff.mpr fun delta hdelta hkey ↦ ?_
    obtain ⟨owner, howner, hid⟩ := hsound.owned delta hdelta
    exact hstarted.free owner howner (hid.trans ((congrArg Prod.fst hkey).trans hrunId.symm))
  · dsimp only
    rw [hwatermark]
    exact ⟨le_refl _, fun order hlow hhigh ↦ absurd (hlow.trans_le hhigh) (lt_irrefl _),
      List.not_mem_nil⟩
  · dsimp only
    rw [hwatermark]
    rfl

/-- The messages about a run that a `send` started may arrive in any order and any number of times:
at every point the entries of the run are the fold of the parts up to its watermark, with the run
finished exactly when everything arrived; and once everything arrived, they are the fold of all
parts. -/
theorem deliver_confluent {codec : Codec} {events : List Event} {userId sessionId : Uuid}
    {userInput : Text} {modelId : Option Uuid} {now : ℤ} {supply : ℕ → Uuid}
    {result : Uuid × List HistoryTurn} {store : Store} {outputs : List Part}
    {arrivals : List (Arrival outputs.length)}
    (hsend : SendService.send codec userId sessionId userInput modelId now
      ⟨execute codec .empty events, supply⟩ = .ok (result, store))
    (houtputs : outputs ≠ [])
    (hfresh : FreshDraws codec store.toDatabase
      (arrivals.map (Arrival.event sessionId result.1 outputs)) outputs.length) :
    (∀ front back, arrivals = front ++ back →
      Delivered sessionId (supply 1) outputs (front.map Arrival.message)
        (execute codec store.toDatabase (front.map (Arrival.event sessionId result.1 outputs)))) ∧
    (Complete (arrivals.map Arrival.message) →
      ∃ session ∈ (execute codec store.toDatabase
          (arrivals.map (Arrival.event sessionId result.1 outputs))).sessions,
        ∃ run ∈ (execute codec store.toDatabase
            (arrivals.map (Arrival.event sessionId result.1 outputs))).runs,
          session.id = sessionId ∧ run.id = supply 1 ∧ run.status = .finished ∧
            transcriptOf (execute codec store.toDatabase
              (arrivals.map (Arrival.event sessionId result.1 outputs))) session (supply 1) =
                foldParts (deltasOf (supply 1) outputs)) := by
  have hstart : Received sessionId (supply 1) result.1 outputs [] store.toDatabase :=
    send_received (execute_sound sound_empty events) hsend
  constructor
  · rintro front back rfl
    have hdraws : FreshDraws codec store.toDatabase
        (front.map (Arrival.event sessionId result.1 outputs)) outputs.length := by
      intro earlier event later hsplit
      refine hfresh earlier event (later ++ back.map (Arrival.event sessionId result.1 outputs)) ?_
      rw [List.map_append, hsplit, List.append_assoc, List.cons_append]
    have hreceived := hstart.execute houtputs front hdraws
    exact hreceived.delivered
  · intro hcomplete
    rcases hstart.execute houtputs arrivals hfresh with ⟨thread, current, hwaiting⟩ |
      ⟨thread, run, hended⟩
    · exact absurd hcomplete hwaiting.incomplete
    · refine ⟨_, hended.represents.session_mem, _, hended.run_mem, hended.session_id, hended.run_id,
        hended.finished, ?_⟩
      rw [hended.represents.transcriptOf_eq, hended.parts, foldParts]

/-! ### A run of one part -/

/-- A codec that decodes nothing. -/
def mute : Codec :=
  ⟨fun _ ↦ [], fun _ ↦ none, fun _ ↦ [], fun _ ↦ none, fun _ ↦ [], fun _ ↦ none⟩

/-- Identifiers from a number on. -/
def countFrom (first : ℕ) : ℕ → Uuid :=
  fun index ↦ BitVec.ofNat 128 (first + index)

/-- The tables with one session. -/
def oneSession : List Event :=
  [⟨.create 1, 0, countFrom 10⟩]

/-- What a `send` in the session leaves. -/
def oneSend : Store :=
  match SendService.send mute 1 10 "hi".toList (some 5) 0
      ⟨execute mute .empty oneSession, countFrom 20⟩ with
  | .ok (_, store) => store
  | .error _ => ⟨.empty, countFrom 20⟩

/-- An answer of one part. -/
def oneOutput : List Part :=
  [⟨.message, "yes".toList, none⟩]

/-- The announcement overtakes the part. -/
def overtaken : List (Arrival oneOutput.length) :=
  [⟨.finish, 0, countFrom 30⟩, ⟨.part ⟨0, by decide⟩, 0, countFrom 40⟩]

theorem deliver_confluent_example :
    Delivered 10 21 oneOutput (overtaken.map Arrival.message)
      (execute mute oneSend.toDatabase (overtaken.map (Arrival.event 10 20 oneOutput))) := by
  have hsend : SendService.send mute 1 10 "hi".toList (some 5) 0
      ⟨execute mute .empty oneSession, countFrom 20⟩ = .ok ((20, []), oneSend) := rfl
  have hfresh : FreshDraws mute oneSend.toDatabase (overtaken.map (Arrival.event 10 20 oneOutput))
      oneOutput.length :=
    freshDraws_cons.mpr ⟨by decide, freshDraws_cons.mpr ⟨by decide, freshDraws_nil⟩⟩
  have houtput : oneOutput ≠ [] := List.cons_ne_nil _ _
  exact (deliver_confluent hsend houtput hfresh).1 overtaken [] rfl

end Ads.Transcript
