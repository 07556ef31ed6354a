import Ads.Transcript.Settlement

/-!
# What the engine reports

One specification for each transaction of `EngineOutputService`, on tables that hold the thread of
its session. A report without a run in flight changes nothing. With one, the turn `Proceeds` by the
parts that became continuous, `Settles` when the announced last part is among them, or `Breaks`.
-/

set_option autoImplicit false
set_option relaxedAutoImplicit false

namespace Ads.Transcript

open Context Foundation Foundation.StateExcept Python

/-! ### The watermark -/

/-- The last of the orders that follow a first one without a gap. -/
structure ReachesTo (present : List ℤ) (first last : ℤ) : Prop where
  le : first ≤ last
  mem : ∀ order, first < order → order ≤ last → order ∈ present
  stops : last + 1 ∉ present

/-- The loop that advances the watermark stops at the first gap, as every round takes another
order. -/
theorem advance_reaches {present : List ℤ} {fuel : ℕ} {watermark : ℤ}
    (hfuel : (present.filter fun order ↦ watermark < order).length ≤ fuel) :
    ReachesTo present watermark (advance present fuel watermark) := by
  induction fuel generalizing watermark with
  | zero =>
    refine ⟨le_refl _, fun order hfirst hlast ↦ absurd (hfirst.trans_le hlast) (lt_irrefl _), ?_⟩
    intro hnext
    have hempty := List.eq_nil_of_length_eq_zero (Nat.le_zero.mp hfuel)
    have hmem : watermark + 1 ∈ present.filter fun order ↦ watermark < order :=
      List.mem_filter.mpr ⟨hnext, decide_eq_true (by omega)⟩
    rw [hempty] at hmem
    exact List.not_mem_nil hmem
  | succ fuel ih =>
    unfold advance
    split_ifs with hnext
    · have hfilter : (present.filter fun order ↦ watermark + 1 < order) =
          (present.filter fun order ↦ watermark < order).filter fun order ↦ watermark + 1 < order := by
        rw [List.filter_filter]
        refine List.filter_congr fun order _ ↦ ?_
        rw [← Bool.decide_and, decide_eq_decide]
        exact ⟨fun hlater ↦ ⟨hlater, by omega⟩, And.left⟩
      have hfewer : (present.filter fun order ↦ watermark + 1 < order).length <
          (present.filter fun order ↦ watermark < order).length := by
        rw [hfilter]
        exact List.length_filter_lt_length_iff_exists.mpr ⟨watermark + 1,
          List.mem_filter.mpr ⟨hnext, decide_eq_true (by omega)⟩, by simp⟩
      have hrest := ih (Nat.le_of_lt_succ (hfewer.trans_le hfuel))
      refine ⟨(Int.le_add_one (le_refl _)).trans hrest.le, fun order hfirst hlast ↦ ?_, hrest.stops⟩
      rcases (Int.add_one_le_iff.mpr hfirst).eq_or_lt with rfl | hlater
      · exact hnext
      · exact hrest.mem order hlater hlast
    · exact ⟨le_refl _, fun order hfirst hlast ↦ absurd (hfirst.trans_le hlast) (lt_irrefl _), hnext⟩

/-- The orders of a run that are in the buffer. -/
def presentOrders (buffer : Table Delta.key) (runId : Uuid) : List ℤ :=
  (buffer.rows.filter fun delta ↦ delta.runId = runId).map Delta.orderNo

@[simp] theorem ensures_orders {store : Store} {runId : Uuid} {post : List ℤ → Store → Prop}
    {allowed : Raised → Prop} : Ensures (orders runId) store post allowed ↔
      post (presentOrders store.buffer runId) store :=
  Iff.rfl

/-- An order is in the buffer when its part is. -/
theorem mem_presentOrders {buffer : Table Delta.key} {runId : Uuid} {order : ℤ} :
    order ∈ presentOrders buffer runId ↔ (buffer.find (runId, order)).isSome = true := by
  rw [presentOrders, List.mem_map, Option.isSome_iff_exists]
  constructor
  · rintro ⟨delta, hdelta, rfl⟩
    obtain ⟨hmem, hrun⟩ := List.mem_filter.mp hdelta
    exact ⟨delta, Table.find_eq_some_iff.mpr ⟨hmem, by rw [Delta.key, of_decide_eq_true hrun]⟩⟩
  · rintro ⟨delta, hfind⟩
    obtain ⟨hmem, hkey⟩ := Table.find_eq_some_iff.mp hfind
    obtain ⟨hrun, horder⟩ := Prod.mk.inj hkey
    exact ⟨delta, List.mem_filter.mpr ⟨hmem, decide_eq_true hrun⟩, horder⟩

/-- The watermark of a run after the parts in the buffer. -/
def promotedTo (buffer : Table Delta.key) (runId : Uuid) (watermark : ℤ) : ℤ :=
  advance (presentOrders buffer runId) (presentOrders buffer runId).length watermark

/-- The parts that become continuous. -/
def promotedDeltas (buffer : Table Delta.key) (runId : Uuid) (watermark : ℤ) : List Delta :=
  (ordersBetween watermark (promotedTo buffer runId watermark)).filterMap fun order ↦
    buffer.find (runId, order)

/-- The watermark advances to the first gap in the buffer. -/
theorem promotedTo_reaches {buffer : Table Delta.key} {runId : Uuid} {watermark : ℤ} :
    ReachesTo (presentOrders buffer runId) watermark (promotedTo buffer runId watermark) :=
  advance_reaches (List.length_filter_le _ _)

/-! ### What becomes of a turn -/

/-- The turn went on by some parts. -/
def Proceeds (before : Store) (thread : Thread) (current : Current) (deltas : List Delta)
    (progress : Run.Progress) (after : Store) : Prop :=
  ∃ session next, Continued before thread current deltas progress after session next

/-- The turn went on by some parts and is settled. -/
def Settles (before : Store) (thread : Thread) (current : Current) (deltas : List Delta)
    (progress : Run.Progress) (after : Store) : Prop :=
  ∃ between session next last,
    Continued before thread current deltas progress between session next ∧
      Finished between ⟨session, thread.settled, some next⟩ next after last

/-- The turn is gone. -/
def Breaks (before : Store) (thread : Thread) (current : Current) (after : Store) : Prop :=
  ∃ between session next last progress,
    Continued before thread current [] progress between session next ∧
      Broken between ⟨session, thread.settled, some next⟩ next after last

/-- The turn went on by the parts in the buffer, up to the first gap, and is settled if the
announced last part is among them. -/
def Promotes (before : Store) (thread : Thread) (current : Current) (after : Store) : Prop :=
  let watermark := promotedTo before.buffer current.run.id current.run.watermark
  let deltas := promotedDeltas before.buffer current.run.id current.run.watermark
  let progress := { current.run.progress with watermark := watermark }
  if current.run.watermark < watermark ∧ ∃ last ∈ current.run.lastOrder, last ≤ watermark then
    Settles before thread current deltas progress after
  else Proceeds before thread current deltas progress after

/-- A turn that went on before goes on. -/
theorem Continued.promotes {before between after : Store} {thread : Thread} {current next : Current}
    {session : Session}
    (hcontinued : Continued before thread current [] current.run.progress between session next)
    (hpromotes : Promotes between ⟨session, thread.settled, some next⟩ next after) :
    Promotes before thread current after := by
  have hid : next.run.id = current.run.id := hcontinued.runs.key_eq
  have hwatermark : next.run.watermark = current.run.watermark :=
    congrArg Run.Progress.watermark hcontinued.progress_eq
  have hlast : next.run.lastOrder = current.run.lastOrder :=
    congrArg Run.Progress.lastOrder hcontinued.progress_eq
  unfold Promotes at *
  rw [hid, hwatermark, hlast, hcontinued.buffer, hcontinued.progress_eq] at hpromotes
  dsimp only at *
  split_ifs at hpromotes ⊢
  · obtain ⟨middle, _, _, last, hparts, hfinished⟩ := hpromotes
    exact ⟨middle, _, _, last, hcontinued.trans hparts, hfinished⟩
  · obtain ⟨_, _, hparts⟩ := hpromotes
    exact ⟨_, _, hcontinued.trans hparts⟩

/-- A change of the row of a run after some parts. -/
theorem Continued.updateRun {before between : Store} {thread : Thread} {current next : Current}
    {session : Session} {deltas : List Delta} {progress later : Run.Progress}
    (change : Change Run.id)
    (hcontinued : Continued before thread current deltas progress between session next)
    (hidentity : (change.apply next.run).identity = next.run.identity)
    (hprogress : (change.apply next.run).progress = later)
    (hflight : (change.apply next.run).status.inFlight = true)
    (hcandidate : (change.apply next.run).candidateTombstoneId = next.run.candidateTombstoneId) :
    Continued before thread current deltas later
      { between with runs := between.runs.modify current.run.id change } session
      { next with run := change.apply next.run } := by
  have hid : current.run.id = next.run.id := hcontinued.runs.key_eq.symm
  have hchanged := continued_of_updateRun change hcontinued.represents rfl hidentity hprogress hflight
    hcandidate
  rw [hid, ← List.append_nil deltas]
  exact hcontinued.trans hchanged

/-- A finished run settles its turn. -/
theorem Continued.settles {before between : Store} {thread : Thread} {current next : Current}
    {session : Session} {deltas : List Delta} {progress : Run.Progress} {allowed : Raised → Prop}
    (hcontinued : Continued before thread current deltas progress between session next) :
    Ensures (finishRun current.run.id) between
      (fun _ final ↦ Settles before thread current deltas progress final) allowed := by
  have hid : current.run.id = next.run.id := hcontinued.runs.key_eq.symm
  rw [hid]
  refine (finishRun_ensures hcontinued.represents rfl).mono ?_ fun _ hfailed ↦ hfailed
  rintro _ final ⟨last, hfinished⟩
  exact ⟨between, session, next, last, hcontinued, hfinished⟩

/-- The rest of `_promote` once the watermark advanced. -/
theorem advanceTo_ensures {store : Store} {thread : Thread} {current : Current} {run : Run}
    {now watermark : ℤ} (hrepresents : Represents store.toDatabase thread)
    (hcurrent : thread.current = some current) (hid : run.id = current.run.id)
    (hsession : run.sessionId = current.run.sessionId) :
    Ensures (do
        (ordersBetween current.run.watermark watermark).forM (promoteOrder run now)
        updateRun current.run.id
          ⟨fun run ↦ { run with watermark := watermark, updatedAt := now }, fun _ ↦ rfl⟩
        if ∃ last ∈ current.run.lastOrder, last ≤ watermark then finishRun current.run.id) store
      (fun _ final ↦
        let deltas := (ordersBetween current.run.watermark watermark).filterMap fun order ↦
          store.buffer.find (current.run.id, order)
        let progress := { current.run.progress with watermark := watermark }
        if ∃ last ∈ current.run.lastOrder, last ≤ watermark then
          Settles store thread current deltas progress final
        else Proceeds store thread current deltas progress final)
      (fun _ ↦ ¬ store.Fresh (watermark - current.run.watermark).toNat) := by
  have hlength : (ordersBetween current.run.watermark watermark).length =
      (watermark - current.run.watermark).toNat := by
    rw [ordersBetween, List.length_map, List.length_range]
  rw [ensures_bind, ← hlength]
  refine (promoteOrders_ensures hrepresents hcurrent hid hsession).mono ?_ fun _ hfailed ↦ hfailed
  rintro _ between ⟨session, next, hcontinued⟩
  have hprogress := hcontinued.progress_eq
  have hflight := (hcontinued.represents.isCurrent next rfl).inFlight
  have hmoved := hcontinued.updateRun
    ⟨fun run ↦ { run with watermark := watermark, updatedAt := now }, fun _ ↦ rfl⟩ rfl
    (congrArg (fun progress : Run.Progress ↦ { progress with watermark := watermark }) hprogress)
    hflight rfl
  rw [ensures_bind, ensures_updateRun]
  dsimp only
  split_ifs with hlast
  · exact hmoved.settles
  · exact ⟨_, _, hmoved⟩

/-- `_promote` takes the parts up to the first gap. -/
theorem promote_ensures {store : Store} {thread : Thread} {current : Current} {run : Run} {now : ℤ}
    (hrepresents : Represents store.toDatabase thread) (hcurrent : thread.current = some current)
    (hidentity : run.identity = current.run.identity)
    (hprogress : run.progress = current.run.progress) :
    Ensures (promote run now) store (fun _ final ↦ Promotes store thread current final)
      (fun _ ↦ ¬ store.Fresh (promotedTo store.buffer current.run.id current.run.watermark -
        current.run.watermark).toNat) := by
  have hturn := hrepresents.isCurrent current hcurrent
  have hid : run.id = current.run.id := congrArg Run.Identity.id hidentity
  have hsession : run.sessionId = current.run.sessionId :=
    congrArg Run.Identity.sessionId hidentity
  have hwatermark : run.watermark = current.run.watermark :=
    congrArg Run.Progress.watermark hprogress
  have hlast : run.lastOrder = current.run.lastOrder := congrArg Run.Progress.lastOrder hprogress
  have hle : current.run.watermark ≤ promotedTo store.buffer current.run.id current.run.watermark :=
    promotedTo_reaches.le
  simp only [promote, ensures_bind, ensures_getSession]
  rw [hsession, hturn.session, hrepresents.find_session]
  dsimp only
  rw [ensures_bind, ensures_orders, hid, hwatermark, hlast]
  change Ensures (if promotedTo store.buffer current.run.id current.run.watermark = _ then _ else _)
    _ _ _
  by_cases hsame : promotedTo store.buffer current.run.id current.run.watermark =
      current.run.watermark
  · rw [if_pos hsame, ensures_pure]
    unfold Promotes promotedDeltas
    dsimp only
    rw [hsame, if_neg fun hmoved ↦ lt_irrefl _ hmoved.1, ordersBetween, Int.sub_self]
    exact ⟨_, _, .refl hrepresents hcurrent⟩
  · rw [if_neg hsame]
    refine (advanceTo_ensures hrepresents hcurrent hid hsession).mono ?_ fun _ hfailed ↦ hfailed
    intro _ final hadvanced
    unfold Promotes
    dsimp only
    rw [if_congr (and_iff_right (lt_of_le_of_ne hle (Ne.symm hsame))) rfl rfl]
    exact hadvanced

/-! ### The reports -/

/-- The run in flight of a represented session is that of its thread. -/
theorem Represents.find_inFlight {database : Database} {thread : Thread}
    (hrepresents : Represents database thread) :
    (database.runs.rows.find? fun run ↦
      run.sessionId = thread.session.id ∧ run.status.inFlight = true) =
        thread.current.map Current.run := by
  cases hcurrent : thread.current with
  | none =>
    refine List.find?_eq_none.mpr fun run hrun hflight ↦ ?_
    obtain ⟨howned, hstatus⟩ := of_decide_eq_true hflight
    rw [hrepresents.idle hcurrent run hrun howned] at hstatus
    cases hstatus
  | some current =>
    have hturn := hrepresents.isCurrent current hcurrent
    cases hfind : database.runs.rows.find? fun run ↦
        run.sessionId = thread.session.id ∧ run.status.inFlight = true with
    | none =>
      have hnone := List.find?_eq_none.mp hfind current.run hturn.run_mem
      exact absurd (decide_eq_true ⟨hturn.session, hturn.inFlight⟩) hnone
    | some run =>
      have hfound := List.find?_some hfind
      obtain ⟨howned, hstatus⟩ := of_decide_eq_true hfound
      exact congrArg some (hturn.only run (List.mem_of_find?_eq_some hfind) howned hstatus)

/-- The report tells that the engine is alive, at most. -/
def KeepsAlive (before : Store) (thread : Thread) (after : Store) : Prop :=
  after = before ∨ ∃ current ∈ thread.current, ∃ status,
    Proceeds before thread current [] { current.run.progress with status := status } after

/-- `acknowledge` tells that the engine is alive. -/
theorem acknowledge_ensures {store : Store} {thread : Thread} {messageId : Uuid} {now : ℤ}
    {allowed : Raised → Prop} (hrepresents : Represents store.toDatabase thread) :
    Ensures (EngineOutputService.acknowledge thread.session.id messageId now) store
      (fun _ final ↦ KeepsAlive store thread final) allowed := by
  simp only [EngineOutputService.acknowledge, ensures_bind, ensures_inFlightForSession]
  rw [hrepresents.find_inFlight]
  cases hcurrent : thread.current with
  | none => exact Or.inl rfl
  | some current =>
    dsimp only [Option.map_some]
    split_ifs
    · exact Or.inl rfl
    · rw [ensures_updateRun]
      exact Or.inr ⟨current, hcurrent, .running, _, _,
        continued_of_updateRun _ hrepresents hcurrent rfl rfl rfl rfl⟩

/-- `ping` tells that the engine is alive. -/
theorem ping_ensures {store : Store} {thread : Thread} {now : ℤ} {allowed : Raised → Prop}
    (hrepresents : Represents store.toDatabase thread) :
    Ensures (EngineOutputService.ping thread.session.id now) store
      (fun _ final ↦ KeepsAlive store thread final) allowed := by
  simp only [EngineOutputService.ping, ensures_bind, ensures_inFlightForSession]
  rw [hrepresents.find_inFlight]
  cases hcurrent : thread.current with
  | none => exact Or.inl rfl
  | some current =>
    have hturn := hrepresents.isCurrent current hcurrent
    dsimp only [Option.map_some]
    split_ifs
    · exact Or.inl rfl
    · rw [ensures_updateRun]
      exact Or.inr ⟨current, hcurrent, current.run.status, _, _,
        continued_of_updateRun _ hrepresents hcurrent rfl rfl hturn.inFlight rfl⟩

/-- A part that `partial_response` does not take. -/
def Ignored (buffer : Table Delta.key) (run : Run) (order : ℤ) (messageId : Option Uuid) : Prop :=
  run.isOther messageId = true ∨ order < 0 ∨
    (∃ last ∈ run.lastOrder, last < order) ∨ (buffer.find (run.id, order)).isSome = true

/-- A part is ignored, or else put into the buffer and promoted as far as possible. -/
def Receives (before : Store) (thread : Thread) (order : ℤ) (kind : Kind) (text : Text)
    (pressure : Option Pressure) (messageId : Option Uuid) (after : Store) : Prop :=
  (after = before ∧ ∀ current ∈ thread.current, Ignored before.buffer current.run order messageId) ∨
    ∃ current ∈ thread.current, ∃ buffer, before.buffer.insert
      (EngineOutputService.received current.run.id order kind text pressure) = some buffer ∧
        ¬ Ignored before.buffer current.run order messageId ∧
          Promotes { before with buffer := buffer } thread current after

/-- The buffer has no part in what the tables say about a session. -/
theorem Represents.withBuffer {database : Database} {thread : Thread} {buffer : Table Delta.key}
    (hrepresents : Represents database thread) :
    Represents { database with buffer := buffer } thread :=
  ⟨hrepresents.session_mem, hrepresents.latest, hrepresents.holds, hrepresents.linked,
    hrepresents.linked_settled, hrepresents.committed, hrepresents.runs, hrepresents.idle,
    hrepresents.isCurrent⟩

/-- What `partial_response` does with a part whose order is not in the buffer. -/
theorem insertPart_ensures {store : Store} {thread : Thread} {current : Current} {order : ℤ}
    {kind : Kind} {text : Text} {pressure : Option Pressure} {now : ℤ}
    (hrepresents : Represents store.toDatabase thread) (hcurrent : thread.current = some current)
    (hfind : store.buffer.find (current.run.id, order) = none) :
    Ensures (do
        insertDelta (EngineOutputService.received current.run.id order kind text pressure)
        updateRun current.run.id
          ⟨fun run ↦ { run with lastEventAt := now, updatedAt := now }, fun _ ↦ rfl⟩
        promote current.run now) store
      (fun _ final ↦ ∃ buffer, store.buffer.insert
        (EngineOutputService.received current.run.id order kind text pressure) = some buffer ∧
          Promotes { store with buffer := buffer } thread current final)
      (fun _ ↦ ∃ buffer, store.buffer.insert
        (EngineOutputService.received current.run.id order kind text pressure) = some buffer ∧
          ¬ store.Fresh (promotedTo buffer current.run.id current.run.watermark -
            current.run.watermark).toNat) := by
  have hturn := hrepresents.isCurrent current hcurrent
  rw [ensures_bind, ensures_insertDelta]
  cases hinsert : store.buffer.insert
      (EngineOutputService.received current.run.id order kind text pressure) with
  | none =>
    obtain ⟨taken, hmem, hkey⟩ := Table.insert_eq_none_iff.mp hinsert
    exact absurd hkey (Table.find_eq_none_iff.mp hfind taken hmem)
  | some buffer =>
    dsimp only
    rw [ensures_bind, ensures_updateRun]
    have hinserted : Represents { store.toDatabase with buffer := buffer } thread :=
      hrepresents.withBuffer
    have hseen : Continued { store with buffer := buffer } thread current []
        current.run.progress _ _ _ :=
      continued_of_updateRun
        ⟨fun run ↦ { run with lastEventAt := now, updatedAt := now }, fun _ ↦ rfl⟩
        hinserted hcurrent rfl rfl hturn.inFlight rfl
    refine (promote_ensures hseen.represents rfl rfl rfl).mono ?_ ?_
    · intro _ final hpromotes
      exact ⟨buffer, rfl, hseen.promotes hpromotes⟩
    · intro _ hfailed
      exact ⟨buffer, rfl, hfailed⟩

/-- `partial_response` ignores a part or takes it. -/
theorem partialResponse_ensures {store : Store} {thread : Thread} {order : ℤ} {kind : Kind}
    {text : Text} {pressure : Option Pressure} {messageId : Option Uuid} {now : ℤ}
    (hrepresents : Represents store.toDatabase thread) :
    Ensures (EngineOutputService.partialResponse thread.session.id order kind text pressure
        messageId now) store
      (fun _ final ↦ Receives store thread order kind text pressure messageId final)
      (fun _ ↦ ∃ current ∈ thread.current, ∃ buffer, store.buffer.insert
        (EngineOutputService.received current.run.id order kind text pressure) = some buffer ∧
          ¬ store.Fresh (promotedTo buffer current.run.id current.run.watermark -
            current.run.watermark).toNat) := by
  simp only [EngineOutputService.partialResponse, ensures_bind, ensures_inFlightForSession]
  rw [hrepresents.find_inFlight]
  cases hcurrent : thread.current with
  | none =>
    refine Or.inl ⟨rfl, fun _ hnone ↦ ?_⟩
    rw [hcurrent] at hnone
    exact absurd hnone (Option.not_mem_none _)
  | some current =>
    have hignored : Ignored store.buffer current.run order messageId →
        Receives store thread order kind text pressure messageId store := by
      refine fun hignored ↦ Or.inl ⟨rfl, fun other hother ↦ ?_⟩
      rw [hcurrent] at hother
      obtain rfl := Option.some.inj hother
      exact hignored
    dsimp only [Option.map_some]
    refine ensures_ite.mpr ⟨fun hmessage ↦ hignored (Or.inl hmessage), fun hmessage ↦ ?_⟩
    refine ensures_ite.mpr ⟨fun hnegative ↦ hignored (Or.inr (Or.inl hnegative)), fun hnegative ↦ ?_⟩
    refine ensures_ite.mpr
      ⟨fun hlast ↦ hignored (Or.inr (Or.inr (Or.inl hlast))), fun hlast ↦ ?_⟩
    rw [ensures_bind, ensures_getDelta]
    cases hfind : store.buffer.find (current.run.id, order) with
    | some delta => exact hignored (Or.inr (Or.inr (Or.inr (by rw [hfind]; rfl))))
    | none =>
      have htaken : ¬ Ignored store.buffer current.run order messageId := by
        rintro (hother | hother | hother | hother)
        · exact hmessage hother
        · exact hnegative hother
        · exact hlast hother
        · rw [hfind] at hother
          cases hother
      refine (insertPart_ensures hrepresents hcurrent hfind).mono ?_ ?_
      · rintro _ final ⟨buffer, hinsert, hpromotes⟩
        exact Or.inr ⟨current, hcurrent, buffer, hinsert, htaken, hpromotes⟩
      · rintro _ ⟨buffer, hinsert, hfailed⟩
        exact ⟨current, rfl, buffer, hinsert, hfailed⟩

/-- What `finish` makes of a turn. -/
def Finishes (before : Store) (thread : Thread) (current : Current) (lastOrder : Option ℤ)
    (after : Store) : Prop :=
  match lastOrder with
  | none => Breaks before thread current after
  | some last =>
    let announced := EngineOutputService.announced current.run last
    let progress := { current.run.progress with lastOrder := some announced }
    if last < 0 ∨ last < current.run.watermark then Breaks before thread current after
    else if announced ≤ current.run.watermark then
      Settles before thread current [] progress after
    else ∃ status, Proceeds before thread current [] { progress with status := status } after

/-- A broken run takes its turn away. -/
theorem Continued.breaks {before between : Store} {thread : Thread} {current next : Current}
    {session : Session} {progress : Run.Progress} {run : Run} {now : ℤ} {allowed : Raised → Prop}
    (hcontinued : Continued before thread current [] progress between session next)
    (hidentity : run.identity = current.run.identity) (hflight : run.status ≠ .finished) :
    Ensures (breakRun run now) between (fun _ final ↦ Breaks before thread current final)
      allowed := by
  have hsame := hidentity.trans hcontinued.identity.symm
  have hid : run.id = next.run.id := congrArg Run.Identity.id hsame
  have hsession : run.sessionId = next.run.sessionId := congrArg Run.Identity.sessionId hsame
  have huser : run.userEntryId = next.run.userEntryId := congrArg Run.Identity.userEntryId hsame
  refine (breakRun_ensures hcontinued.represents rfl hid hsession huser hflight).mono ?_
    fun _ hfailed ↦ hfailed
  rintro _ final ⟨last, hbroken⟩
  exact ⟨between, session, next, last, progress, hcontinued, hbroken⟩

/-- A run in flight is not finished. -/
theorem IsCurrent.not_finished {runs : Table Run.id} {thread : Thread} {current : Current}
    (hturn : IsCurrent runs thread current) : current.run.status ≠ .finished := by
  intro hfinished
  have hflight := hturn.inFlight
  rw [hfinished] at hflight
  cases hflight

/-- `finish` settles the turn, waits for its last parts, or breaks it. -/
theorem finish_ensures {store : Store} {thread : Thread} {lastOrder : Option ℤ}
    {messageId : Option Uuid} {now : ℤ} {allowed : Raised → Prop}
    (hrepresents : Represents store.toDatabase thread) :
    Ensures (EngineOutputService.finish thread.session.id lastOrder messageId now) store
      (fun _ final ↦ (final = store ∧ ∀ current ∈ thread.current,
        current.run.isOther messageId = true) ∨ ∃ current ∈ thread.current,
          current.run.isOther messageId = false ∧
            Finishes store thread current lastOrder final) allowed := by
  simp only [EngineOutputService.finish, ensures_bind, ensures_inFlightForSession]
  rw [hrepresents.find_inFlight]
  cases hcurrent : thread.current with
  | none => exact Or.inl ⟨rfl, fun _ hnone ↦ absurd hnone (Option.not_mem_none _)⟩
  | some current =>
    have hturn := hrepresents.isCurrent current hcurrent
    have hseen : Continued store thread current [] current.run.progress _ _ _ :=
      continued_of_updateRun
        ⟨fun run ↦ { run with lastEventAt := now, updatedAt := now }, fun _ ↦ rfl⟩
        hrepresents hcurrent rfl rfl hturn.inFlight rfl
    dsimp only [Option.map_some]
    refine ensures_ite.mpr ⟨fun hother ↦ Or.inl ⟨rfl, ?_⟩, fun hother ↦ ?_⟩
    · rintro _ ⟨⟩
      exact hother
    have hmine := Bool.eq_false_of_not_eq_true hother
    rw [ensures_bind, ensures_updateRun]
    cases lastOrder with
    | none =>
      refine (hseen.breaks rfl hturn.not_finished).mono ?_ fun _ hfailed ↦ hfailed
      exact fun _ final hbreaks ↦ Or.inr ⟨current, rfl, hmine, hbreaks⟩
    | some last =>
      dsimp only
      refine ensures_ite.mpr ⟨fun hinvalid ↦ ?_, fun hvalid ↦ ?_⟩
      · refine (hseen.breaks rfl hturn.not_finished).mono ?_ fun _ hfailed ↦ hfailed
        refine fun _ final hbreaks ↦ Or.inr ⟨current, rfl, hmine, ?_⟩
        rw [Finishes, if_pos hinvalid]
        exact hbreaks
      · have hannounced := hseen.updateRun
          ⟨fun run ↦ { run with lastOrder := some (EngineOutputService.announced run last) },
            fun _ ↦ rfl⟩
          rfl rfl hturn.inFlight rfl
        rw [ensures_bind, ensures_updateRun]
        refine ensures_ite.mpr ⟨fun hreached ↦ ?_, fun hwaits ↦ ?_⟩
        · refine hannounced.settles.mono ?_ fun _ hfailed ↦ hfailed
          intro _ final hsettles
          refine Or.inr ⟨current, rfl, hmine, ?_⟩
          rw [Finishes, if_neg hvalid, if_pos hreached]
          exact hsettles
        · refine ensures_ite.mpr ⟨fun _ ↦ ?_, fun _ ↦ ?_⟩
          · have hfinishing := hannounced.updateRun
              ⟨fun run ↦ { run with status := .finishing, finishAt := some now }, fun _ ↦ rfl⟩
              rfl rfl rfl rfl
            rw [ensures_updateRun]
            refine Or.inr ⟨current, rfl, hmine, ?_⟩
            rw [Finishes, if_neg hvalid, if_neg hwaits]
            exact ⟨.finishing, _, _, hfinishing⟩
          · refine Or.inr ⟨current, rfl, hmine, ?_⟩
            rw [Finishes, if_neg hvalid, if_neg hwaits]
            exact ⟨current.run.status, _, _, hannounced⟩

/-- `error` breaks the run of its message. -/
theorem error_ensures {store : Store} {thread : Thread} {messageId : Uuid} {text : Text} {now : ℤ}
    {allowed : Raised → Prop} (hrepresents : Represents store.toDatabase thread) :
    Ensures (EngineOutputService.error thread.session.id messageId text now) store
      (fun _ final ↦ (final = store ∧ ∀ current ∈ thread.current,
        current.run.messageId ≠ messageId) ∨ ∃ current ∈ thread.current,
          current.run.messageId = messageId ∧ Breaks store thread current final) allowed := by
  simp only [EngineOutputService.error, ensures_bind, ensures_inFlightForSession]
  rw [hrepresents.find_inFlight]
  cases hcurrent : thread.current with
  | none => exact Or.inl ⟨rfl, fun _ hnone ↦ absurd hnone (Option.not_mem_none _)⟩
  | some current =>
    have hturn := hrepresents.isCurrent current hcurrent
    dsimp only [Option.map_some]
    refine ensures_ite.mpr ⟨fun hother ↦ Or.inl ⟨rfl, ?_⟩, fun hmine ↦ ?_⟩
    · rintro _ ⟨⟩
      exact hother.resolve_left hturn.not_finished
    · have hfailed : Continued store thread current [] current.run.progress _ _ _ :=
        continued_of_updateRun ⟨fun run ↦ { run with errorText := some text }, fun _ ↦ rfl⟩
          hrepresents hcurrent rfl rfl hturn.inFlight rfl
      rw [ensures_bind, ensures_updateRun]
      refine (hfailed.breaks rfl hturn.not_finished).mono ?_ fun _ hraised ↦ hraised
      exact fun _ final hbreaks ↦
        Or.inr ⟨current, rfl, not_not.mp fun hne ↦ hmine (Or.inr hne), hbreaks⟩

/-- `break_run` breaks a run in flight. -/
theorem breakFor_ensures {store : Store} {thread : Thread} {current : Current} {reason : Text}
    {now : ℤ} {allowed : Raised → Prop} (hrepresents : Represents store.toDatabase thread)
    (hcurrent : thread.current = some current) :
    Ensures (EngineOutputService.breakFor current.run.id reason now) store
      (fun _ final ↦ Breaks store thread current final) allowed := by
  have hturn := hrepresents.isCurrent current hcurrent
  simp only [EngineOutputService.breakFor, ensures_bind, ensures_getRun]
  rw [Table.find_key hturn.run_mem]
  dsimp only
  rw [ensures_bind, ensures_updateRun]
  have hfailed : Continued store thread current [] current.run.progress _ _ _ :=
    continued_of_updateRun ⟨fun run ↦ { run with errorText := some reason }, fun _ ↦ rfl⟩
      hrepresents hcurrent rfl rfl hturn.inFlight rfl
  exact hfailed.breaks rfl hturn.not_finished

end Ads.Transcript
