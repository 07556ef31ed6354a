import Ads.Foundation.Runs
import Ads.SandboxEgress.Http2Proxy

/-!
# The exchanges of the HTTP/2 proxy

What holds of the exchanges in every run of the proxy (`exchanges_safe`). Most work of the proxy is
calm: it changes neither the maps of the streams nor what an exchange is, cancels at most, and does
nothing that counts (`Calm`). `Consistent` is the invariant that calm work keeps; what is not calm
(a request that opens an exchange, the drain, the headers of a request, the retirement) has a lemma
of its own.
-/

set_option autoImplicit false
set_option relaxedAutoImplicit false

namespace Ads.SandboxEgress.Http2Proxy

open Foundation.Runs

/-! ### Calm work -/

/-- A task is past its authorization and has not sent its headers. -/
def Phase.Waits (phase : Phase) : Prop :=
  phase = .connecting ∨ phase = .settling ∨ phase = .locking

/-- The task of an exchange may come to open a stream to the origin. -/
def Exchange.Undispatched (exchange : Exchange) : Prop :=
  exchange.phase = .created ∧ exchange.upgraded = false ∨ exchange.phase = .authorizing ∨
    exchange.phase.Waits

/-- An output that opens, authorizes, sends and drains nothing. -/
def Output.Quiet (output : Output) : Prop :=
  (∀ index, output ≠ .opened index) ∧ (∀ index, output ≠ .authorized index) ∧
    (∀ index originId, output ≠ .headers index originId) ∧ output ≠ .draining

/-- An exchange stays what it is: it may be cancelled, but it neither retires nor comes nearer to a
stream to the origin. -/
structure Exchange.Calm (before after : Exchange) : Prop where
  /-- The stream of the client. -/
  frontendId : after.frontendId = before.frontendId
  /-- The stream to the origin. -/
  originId : after.originId = before.originId
  /-- What is cancelled stays so. -/
  cancelled : before.cancelled = true → after.cancelled = true
  /-- The retirement. -/
  retired : after.retired = before.retired
  /-- What may open a stream might before. -/
  undispatched : after.Undispatched → before.Undispatched
  /-- What waits has waited. -/
  waits : after.phase.Waits → before.phase.Waits

theorem Exchange.Calm.refl (exchange : Exchange) : exchange.Calm exchange :=
  ⟨rfl, rfl, id, rfl, id, id⟩

theorem Exchange.Calm.trans {first second third : Exchange} (hfirst : first.Calm second)
    (hsecond : second.Calm third) : first.Calm third where
  frontendId := hsecond.frontendId.trans hfirst.frontendId
  originId := hsecond.originId.trans hfirst.originId
  cancelled h := hsecond.cancelled (hfirst.cancelled h)
  retired := hsecond.retired.trans hfirst.retired
  undispatched h := hfirst.undispatched (hsecond.undispatched h)
  waits h := hfirst.waits (hsecond.waits h)

/-- A change that keeps what counts of an exchange. -/
theorem Exchange.Calm.of_same {before after : Exchange}
    (hfrontend : after.frontendId = before.frontendId) (horigin : after.originId = before.originId)
    (hcancelled : before.cancelled = true → after.cancelled = true)
    (hretired : after.retired = before.retired) (hphase : after.phase = before.phase)
    (hupgraded : after.upgraded = before.upgraded) : before.Calm after where
  frontendId := hfrontend
  originId := horigin
  cancelled := hcancelled
  retired := hretired
  undispatched h := by rwa [Exchange.Undispatched, hphase, hupgraded] at h
  waits h := hphase ▸ h

/-- A change to a phase from which no stream is opened. -/
theorem Exchange.Calm.of_late {before after : Exchange}
    (hfrontend : after.frontendId = before.frontendId) (horigin : after.originId = before.originId)
    (hcancelled : after.cancelled = before.cancelled) (hretired : after.retired = before.retired)
    (hphase : after.phase ∉ [Phase.created, .authorizing, .connecting, .settling, .locking]) :
    before.Calm after where
  frontendId := hfrontend
  originId := horigin
  cancelled h := hcancelled.trans h
  retired := hretired
  undispatched h := by simp_all [Exchange.Undispatched, Phase.Waits]
  waits h := by simp_all [Phase.Waits]

/-- The proxy has done calm work. -/
structure Calm (before after : Proxy) : Prop where
  /-- The limit. -/
  maximumStreams : after.maximumStreams = before.maximumStreams
  /-- The map of the exchanges. -/
  exchanges : after.exchanges = before.exchanges
  /-- The map of the origin streams. -/
  originStreams : after.originStreams = before.originStreams
  /-- The drain. -/
  draining : after.draining = before.draining
  /-- The streams of the client. -/
  frontHighest : after.front.highest = before.front.highest
  /-- The streams to the origin. -/
  originHighest : (after.origin.getD {}).highest = (before.origin.getD {}).highest
  /-- The last stream of the origin. -/
  peerLast : (after.origin.getD {}).peerLast = (before.origin.getD {}).peerLast
  /-- The exchanges. -/
  objects : ∀ index : ℕ, Option.Rel Exchange.Calm before.objects[index]? after.objects[index]?
  /-- The outputs. -/
  log : ∃ quiet, after.log = before.log ++ quiet ∧ ∀ output ∈ quiet, output.Quiet

/-- Exchanges that are the same are calm. -/
theorem optionRel_refl (exchange : Option Exchange) : Option.Rel Exchange.Calm exchange exchange := by
  cases exchange with
  | none => exact .none
  | some exchange => exact .some (.refl exchange)

/-- Calm changes of an exchange one after the other. -/
theorem optionRel_trans {first second third : Option Exchange}
    (hfirst : Option.Rel Exchange.Calm first second)
    (hsecond : Option.Rel Exchange.Calm second third) : Option.Rel Exchange.Calm first third := by
  cases hfirst with
  | none => exact hsecond
  | some hearlier =>
    cases hsecond with
    | some hlater => exact .some (hearlier.trans hlater)

theorem Calm.refl (proxy : Proxy) : Calm proxy proxy :=
  ⟨rfl, rfl, rfl, rfl, rfl, rfl, rfl, fun _ ↦ optionRel_refl _, [],
    (List.append_nil _).symm, fun _ h ↦ absurd h List.not_mem_nil⟩

theorem Calm.trans {first second third : Proxy} (hfirst : Calm first second)
    (hsecond : Calm second third) : Calm first third where
  maximumStreams := hsecond.maximumStreams.trans hfirst.maximumStreams
  exchanges := hsecond.exchanges.trans hfirst.exchanges
  originStreams := hsecond.originStreams.trans hfirst.originStreams
  draining := hsecond.draining.trans hfirst.draining
  frontHighest := hsecond.frontHighest.trans hfirst.frontHighest
  originHighest := hsecond.originHighest.trans hfirst.originHighest
  peerLast := hsecond.peerLast.trans hfirst.peerLast
  objects index := optionRel_trans (hfirst.objects index) (hsecond.objects index)
  log := by
    obtain ⟨quiet, hlog, hquiet⟩ := hfirst.log
    obtain ⟨later, hlater, hsilent⟩ := hsecond.log
    refine ⟨quiet ++ later, by rw [hlater, hlog, List.append_assoc], fun output houtput ↦ ?_⟩
    exact (List.mem_append.mp houtput).elim (hquiet output) (hsilent output)

variable {services : Services} {proxy : Proxy} {index : ℕ}

/-- An exchange before calm work. -/
theorem Calm.before {after : Proxy} (hcalm : Calm proxy after) {exchange : Exchange}
    (hafter : after.objects[index]? = some exchange) :
    ∃ earlier, proxy.objects[index]? = some earlier ∧ earlier.Calm exchange := by
  have hrel := hcalm.objects index
  rw [hafter] at hrel
  generalize proxy.objects[index]? = found at hrel
  cases hrel with
  | some hearlier => exact ⟨_, rfl, hearlier⟩

/-- An exchange after calm work. -/
theorem Calm.after {after : Proxy} (hcalm : Calm proxy after) {exchange : Exchange}
    (hbefore : proxy.objects[index]? = some exchange) :
    ∃ later, after.objects[index]? = some later ∧ exchange.Calm later := by
  have hrel := hcalm.objects index
  rw [hbefore] at hrel
  generalize after.objects[index]? = found at hrel
  cases hrel with
  | some hlater => exact ⟨_, rfl, hlater⟩

/-- A calm change of an exchange. -/
theorem calm_update {change : Exchange → Exchange}
    (hchange : ∀ exchange, proxy.objects[index]? = some exchange → exchange.Calm (change exchange)) :
    Calm proxy (proxy.update index change) := by
  refine ⟨rfl, rfl, rfl, rfl, rfl, rfl, rfl, fun other ↦ ?_, [], (List.append_nil _).symm,
    fun _ h ↦ absurd h List.not_mem_nil⟩
  unfold Proxy.update
  dsimp only
  rw [List.getElem?_modify]
  cases hfound : proxy.objects[other]? with
  | none => exact .none
  | some exchange =>
    rw [Option.map_eq_map, Option.map_some]
    split_ifs with hsame
    · subst hsame
      exact .some (hchange exchange hfound)
    · exact .some (.refl exchange)

/-- A quiet output. -/
theorem calm_emit {output : Output} (hquiet : output.Quiet) : Calm proxy (proxy.emit output) := by
  refine ⟨rfl, rfl, rfl, rfl, rfl, rfl, rfl, fun _ ↦ optionRel_refl _, [output], rfl, ?_⟩
  intro other hother
  exact List.mem_singleton.mp hother ▸ hquiet

/-- Data that is received is no output that counts. -/
theorem quiet_received (side : Side) (owner : Option ℕ) (chunk : Chunk) :
    (Output.received side owner chunk).Quiet := by
  simp [Output.Quiet]

theorem quiet_credited (side : Side) (streamId : ℕ) (chunks : List Chunk) :
    (Output.credited side streamId chunks).Quiet := by
  simp [Output.Quiet]

theorem quiet_lost (side : Side) (streamId : ℕ) (chunks : List Chunk) :
    (Output.lost side streamId chunks).Quiet := by
  simp [Output.Quiet]

theorem quiet_denied (side : Side) (streamId : ℕ) : (Output.denied side streamId).Quiet := by
  simp [Output.Quiet]

theorem calm_credit (side : Side) (streamId : ℕ) (chunks : List Chunk) :
    Calm proxy (proxy.credit side streamId chunks) := by
  unfold Proxy.credit
  split_ifs
  · exact .refl proxy
  · exact calm_emit (quiet_lost side streamId chunks)
  · exact calm_emit (quiet_credited side streamId chunks)

theorem calm_deny (side : Side) (streamId : ℕ) : Calm proxy (proxy.deny side streamId) := by
  unfold Proxy.deny
  split_ifs
  · exact .refl proxy
  · exact calm_emit (quiet_denied side streamId)

theorem calm_denyOrigin (originId : Option ℕ) : Calm proxy (proxy.denyOrigin originId) := by
  cases originId with
  | none => exact .refl proxy
  | some originId => exact calm_deny .origin originId

/-- A queue is no part of what an exchange is. -/
theorem Exchange.calm_putInbox (exchange : Exchange) (inbox : Inbox) (side : Side) :
    exchange.Calm (exchange.putInbox inbox side) := by
  cases side with
  | front => exact ⟨rfl, rfl, id, rfl, id, id⟩
  | origin => exact ⟨rfl, rfl, id, rfl, id, id⟩

theorem calm_discard (index : ℕ) (side : Side) : Calm proxy (proxy.discard index side) := by
  unfold Proxy.discard
  cases (proxy.objects[index]?).bind (·.inbox side) with
  | none => exact .refl proxy
  | some inbox =>
    exact (calm_credit side _ _).trans (calm_update fun exchange _ ↦ exchange.calm_putInbox _ side)

theorem calm_cancel (index : ℕ) : Calm proxy (proxy.cancel index) := by
  unfold Proxy.cancel
  cases proxy.objects[index]? with
  | none => exact .refl proxy
  | some exchange =>
    have hcancel : Calm proxy (proxy.update index ({ · with cancelled := true })) :=
      calm_update fun _ _ ↦ ⟨rfl, rfl, fun _ ↦ rfl, rfl, id, id⟩
    exact (((hcancel.trans (calm_deny _ _)).trans (calm_discard _ _)).trans
      (calm_denyOrigin _)).trans (calm_discard _ _)

theorem calm_offerOrCancel (index : ℕ) (side : Side) (event : Event) :
    Calm proxy (proxy.offerOrCancel index side event) := by
  unfold Proxy.offerOrCancel
  cases (proxy.objects[index]?).bind (·.inbox side) with
  | none => exact .refl proxy
  | some inbox =>
    have hoffer : Calm proxy (proxy.offer index side inbox event).1 := by
      unfold Proxy.offer
      split_ifs
      · exact calm_credit _ _ _
      · exact (calm_deny _ _).trans (calm_credit _ _ _)
      · exact calm_update fun exchange _ ↦ exchange.calm_putInbox _ side
    dsimp only
    split_ifs
    · exact hoffer.trans (calm_cancel index)
    · exact hoffer

theorem calm_receive (side : Side) (owner : Option ℕ) (event : Event) :
    Calm proxy (proxy.receive side owner event) := by
  unfold Proxy.receive
  split
  · exact calm_emit (quiet_received side owner _)
  · exact .refl proxy

theorem calm_dispatchStream (side : Side) (owner : Option ℕ) (streamId : ℕ) (event : Event) :
    Calm proxy (proxy.dispatchStream side owner streamId event) := by
  cases owner with
  | none => exact (calm_receive _ _ _).trans (calm_credit _ _ _)
  | some index =>
    unfold Proxy.dispatchStream
    dsimp only
    split_ifs
    · exact calm_cancel index
    · exact (calm_receive _ _ _).trans (calm_offerOrCancel _ _ _)

theorem calm_endResponse (owner : Option ℕ) : Calm proxy (proxy.endResponse owner) := by
  cases owner with
  | none => exact .refl proxy
  | some index => exact calm_update fun _ _ ↦ ⟨rfl, rfl, id, rfl, id, id⟩

/-- Calm work one after the other. -/
theorem calm_foldl {α : Type} {work : Proxy → α → Proxy}
    (hwork : ∀ proxy item, Calm proxy (work proxy item)) (items : List α) (proxy : Proxy) :
    Calm proxy (items.foldl work proxy) := by
  induction items generalizing proxy with
  | nil => exact .refl proxy
  | cons item rest ih => exact (hwork proxy item).trans (ih _)

theorem calm_originEof : Calm proxy proxy.originEof := by
  refine calm_foldl (fun proxy entry ↦ ?_) _ proxy
  split_ifs
  · exact calm_cancel entry.2
  · exact .refl proxy

theorem calm_discardUnretired (index : ℕ) : Calm proxy (proxy.discardUnretired index) := by
  unfold Proxy.discardUnretired
  cases proxy.objects[index]? with
  | none => exact .refl proxy
  | some exchange =>
    dsimp only
    split_ifs
    · exact .refl proxy
    · exact (calm_discard _ _).trans (calm_discard _ _)

/-! ### The work of the tasks -/

theorem Exchange.calm_takeUpload (exchange : Exchange) : exchange.Calm exchange.takeUpload := by
  unfold Exchange.takeUpload
  split
  · split_ifs
    · exact ⟨rfl, rfl, id, rfl, id, id⟩
    · exact .refl exchange
  · exact ⟨rfl, rfl, id, rfl, id, id⟩

theorem Exchange.calm_respond (exchange : Exchange) (event : Event) :
    exchange.Calm (exchange.respond event) := by
  unfold Exchange.respond
  split
  · split_ifs <;> exact ⟨rfl, rfl, id, rfl, id, id⟩
  all_goals exact ⟨rfl, rfl, id, rfl, id, id⟩

theorem Exchange.calm_pumpReply (exchange : Exchange) (event : Event) :
    exchange.Calm (exchange.pumpReply event) := by
  unfold Exchange.pumpReply
  split <;> exact ⟨rfl, rfl, id, rfl, id, id⟩

theorem Exchange.calm_open (exchange : Exchange) (event : Event) :
    exchange.Calm (exchange.open services event) := by
  unfold Exchange.open
  split
  · exact ⟨rfl, rfl, id, rfl, id, id⟩
  · split_ifs
    · exact .of_late rfl rfl rfl rfl (by simp)
    · exact ⟨rfl, rfl, id, rfl, id, id⟩
    · exact .of_late rfl rfl rfl rfl (by simp)
  · exact ⟨rfl, rfl, id, rfl, id, id⟩

theorem Exchange.calm_takeReply (exchange : Exchange) :
    exchange.Calm (exchange.takeReply services) := by
  unfold Exchange.takeReply
  split
  · exact .refl exchange
  · next inbox _ =>
    split
    · split_ifs
      · exact ⟨rfl, rfl, id, rfl, id, id⟩
      · exact .refl exchange
    · next event _ _ =>
      have htaken : exchange.Calm { exchange with outgoing := some (inbox.pop event) } :=
        ⟨rfl, rfl, id, rfl, id, id⟩
      dsimp only
      split
      · exact htaken.trans (Exchange.calm_open _ event)
      · exact htaken.trans (Exchange.calm_pumpReply _ event)
      · exact htaken.trans (Exchange.calm_respond _ event)

theorem calm_takeNext (index : ℕ) (side : Side) : Calm proxy (proxy.takeNext services index side) := by
  cases side with
  | front =>
    refine calm_update fun exchange _ ↦ ?_
    split_ifs
    · exact exchange.calm_takeUpload
    · exact .refl exchange
  | origin =>
    refine calm_update fun exchange _ ↦ ?_
    split_ifs
    · exact exchange.calm_takeReply
    · exact .refl exchange

theorem calm_putDown (index : ℕ) (side : Side) (streamId : ℕ) (chunk : Chunk) (next : Progress) :
    Calm proxy (proxy.putDown index side streamId chunk next) := by
  refine (calm_credit side streamId [chunk]).trans (calm_update fun exchange _ ↦ ?_)
  cases side with
  | front => exact ⟨rfl, rfl, id, rfl, id, id⟩
  | origin => exact ⟨rfl, rfl, id, rfl, id, id⟩

theorem calm_uploadSent (index : ℕ) (exchange : Exchange) :
    Calm proxy (proxy.uploadSent index exchange) := by
  unfold Proxy.uploadSent
  split
  · exact calm_putDown _ _ _ _ _
  · exact calm_update fun _ _ ↦ ⟨rfl, rfl, id, rfl, id, id⟩
  · exact .refl proxy

theorem calm_replySent (index : ℕ) (exchange : Exchange) :
    Calm proxy (proxy.replySent index exchange) := by
  unfold Proxy.replySent
  split
  · exact calm_putDown _ _ _ _ _
  · split_ifs
    · exact .refl proxy
    · exact calm_update fun _ _ ↦ .of_late rfl rfl rfl rfl (by simp)
    · exact calm_update fun _ _ ↦ ⟨rfl, rfl, id, rfl, id, id⟩
  · split_ifs <;> exact calm_update fun _ _ ↦ ⟨rfl, rfl, id, rfl, id, id⟩
  · exact .refl proxy

theorem calm_interrupt (index : ℕ) (exchange : Exchange) (side : Side) :
    Calm proxy (proxy.interrupt index exchange side) := by
  unfold Proxy.interrupt
  split
  · exact calm_putDown _ _ _ _ _
  · exact calm_update fun _ _ ↦ ⟨rfl, rfl, id, rfl, id, id⟩
  · exact calm_putDown _ _ _ _ _
  · exact calm_update fun _ _ ↦ ⟨rfl, rfl, id, rfl, id, id⟩

theorem calm_flushed (index : ℕ) : Calm proxy (proxy.flushed index) := by
  refine calm_update fun exchange _ ↦ ?_
  split_ifs <;> exact .of_late rfl rfl rfl rfl (by simp)

/-- The connections change, but no stream is opened on them. -/
theorem calm_legs {front : Leg} {origin : Option Leg}
    (hfront : front.highest = proxy.front.highest)
    (hhighest : (origin.getD {}).highest = (proxy.origin.getD {}).highest)
    (hlast : (origin.getD {}).peerLast = (proxy.origin.getD {}).peerLast)
    (closing : Option (List ℕ)) (numbered : ℕ) :
    Calm proxy { proxy with front, origin, closing, numbered } :=
  ⟨rfl, rfl, rfl, rfl, hfront, hhighest, hlast, fun _ ↦ optionRel_refl _, [],
    (List.append_nil _).symm, fun _ h ↦ absurd h List.not_mem_nil⟩

theorem calm_fail (side : Side) : Calm proxy (proxy.fail side) := by
  cases side with
  | front => exact @calm_legs proxy { proxy.front with failed := true } _ rfl rfl rfl _ _
  | origin =>
    refine @calm_legs proxy _ _ rfl ?_ ?_ _ _
    · cases proxy.origin <;> rfl
    · cases proxy.origin <;> rfl

/-- The connection of a side that reads. -/
theorem reading_front {leg : Leg} (hreading : proxy.reading .front = some leg) :
    proxy.front = leg := by
  unfold Proxy.reading at hreading
  dsimp only at hreading
  split_ifs at hreading
  exact Option.some.inj hreading

theorem reading_origin {leg : Leg} (hreading : proxy.reading .origin = some leg) :
    proxy.origin = some leg :=
  (Option.filter_eq_some_iff.mp hreading).1

/-- The connection of a side that reads changes, but no stream is opened on it. -/
theorem calm_putLeg {side : Side} {leg next : Leg} (hreading : proxy.reading side = some leg)
    (hhighest : next.highest = leg.highest) (hlast : side = .origin → next.peerLast = leg.peerLast)
    (numbered : ℕ) : Calm proxy ({ proxy with numbered }.putLeg next side) := by
  cases side with
  | front =>
    rw [← reading_front hreading] at hhighest
    exact calm_legs hhighest rfl rfl _ _
  | origin =>
    have horigin := reading_origin hreading
    refine calm_legs rfl ?_ ?_ _ _
    · rw [horigin]
      exact hhighest
    · rw [horigin]
      exact hlast rfl

theorem calm_readEnds (side : Side) (normal : Bool) : Calm proxy (proxy.readEnds side normal) := by
  unfold Proxy.readEnds
  cases hreading : proxy.reading side with
  | none => exact .refl proxy
  | some leg =>
    have hended : Calm proxy (proxy.putLeg { leg with closed := true } side) :=
      @calm_putLeg proxy side leg { leg with closed := true } hreading rfl (fun _ ↦ rfl) proxy.numbered
    dsimp only
    split_ifs
    · exact hended.trans calm_originEof
    · exact hended

/-- The exchanges are cancelled, and those that have not run are dropped. -/
theorem calm_shutdown : Calm proxy proxy.shutdown := by
  have hcancelled : Calm proxy
      (proxy.exchanges.foldl (fun proxy entry ↦ proxy.cancel entry.2) proxy) :=
    calm_foldl (fun _ (entry : ℕ × ℕ) ↦ calm_cancel entry.2) _ proxy
  refine hcancelled.trans ⟨rfl, rfl, rfl, rfl, rfl, rfl, rfl, fun index ↦ ?_, [],
    (List.append_nil _).symm, fun _ h ↦ absurd h List.not_mem_nil⟩
  unfold Proxy.shutdown
  dsimp only
  rw [List.getElem?_map]
  cases (proxy.exchanges.foldl (fun proxy entry ↦ proxy.cancel entry.2) proxy).objects[index]? with
  | none => exact .none
  | some exchange =>
    refine .some ?_
    unfold Exchange.drop
    split_ifs
    · exact .of_late rfl rfl rfl rfl (by simp)
    · exact .refl exchange

/-! ### The maps -/

/-- The maps of the streams and the exchanges fit each other. -/
structure Consistent (proxy : Proxy) : Prop where
  /-- An exchange in the map has its own stream, and has not retired. -/
  named : ∀ entry ∈ proxy.exchanges, ∃ exchange, proxy.objects[entry.2]? = some exchange ∧
    exchange.frontendId = entry.1 ∧ exchange.retired = false
  /-- A stream of the client has one exchange. -/
  keys : (proxy.exchanges.map Prod.fst).Nodup
  /-- The client has opened the streams. -/
  below : ∀ entry ∈ proxy.exchanges, entry.1 ≤ proxy.front.highest
  /-- There are not too many exchanges. -/
  limited : proxy.exchanges.length ≤ proxy.maximumStreams.val
  /-- A stream to the origin has one exchange. -/
  originKeys : (proxy.originStreams.map Prod.fst).Nodup
  /-- A stream to the origin has the exchange that opened it. -/
  mapped : ∀ entry ∈ proxy.originStreams, ∃ exchange, proxy.objects[entry.2]? = some exchange ∧
    exchange.originId = some entry.1
  /-- The stream of an exchange in the map has that exchange. -/
  inverse : ∀ entry ∈ proxy.exchanges, ∀ exchange, proxy.objects[entry.2]? = some exchange →
    ∀ originId, exchange.originId = some originId → (originId, entry.2) ∈ proxy.originStreams
  /-- The stream of an exchange that has not retired has no other exchange. -/
  owned : ∀ (index : ℕ) exchange, proxy.objects[index]? = some exchange →
    exchange.retired = false → ∀ entry ∈ proxy.originStreams,
      exchange.originId = some entry.1 → entry.2 = index

/-- What holds of an exchange in every state. -/
structure Lawful (proxy : Proxy) (index : ℕ) (exchange : Exchange) : Prop where
  /-- Its stream to the origin was opened. -/
  fresh : exchange.retired = false → ∀ originId, exchange.originId = some originId →
    originId ≤ (proxy.origin.getD {}).highest
  /-- It has no stream to the origin before it opens one. -/
  undispatched : exchange.Undispatched → exchange.originId = none
  /-- It was authorized before it waits for the origin. -/
  waits : exchange.phase.Waits → .authorized index ∈ proxy.log
  /-- It opens no stream once it has retired. -/
  finished : exchange.retired = true → ¬ exchange.Undispatched

/-- An output may follow what has been done. -/
structure InOrder (before : List Output) (output : Output) : Prop where
  /-- Headers follow their authorization. -/
  headers : ∀ index originId, output = .headers index originId → .authorized index ∈ before
  /-- No exchange is opened after the drain began. -/
  opened : ∀ index, output = .opened index → .draining ∉ before

/-- What every part of a step keeps. -/
structure Core (proxy : Proxy) : Prop where
  /-- The maps. -/
  consistent : Consistent proxy
  /-- The exchanges. -/
  lawful : ∀ (index : ℕ) exchange, proxy.objects[index]? = some exchange →
    Lawful proxy index exchange
  /-- The outputs. -/
  ordered : Along InOrder proxy.log
  /-- The drain. -/
  drained : .draining ∈ proxy.log → proxy.draining = true

/-- The exchanges in the map whose streams the origin does not answer are cancelled. -/
def Fenced (proxy : Proxy) : Prop :=
  ∀ (index : ℕ) exchange, proxy.objects[index]? = some exchange →
    (exchange.frontendId, index) ∈ proxy.exchanges →
      ∀ last, (proxy.origin.getD {}).peerLast = some last → ∀ originId,
        exchange.originId = some originId → last < originId → exchange.cancelled = true

/-- The invariant of the runs of the proxy. -/
structure Invariant (proxy : Proxy) : Prop extends Core proxy where
  /-- The streams that the origin does not answer. -/
  fenced : Fenced proxy

/-- Quiet outputs may follow anything. -/
theorem along_append_quiet {log quiet : List Output} (hlog : Along InOrder log)
    (hquiet : ∀ output ∈ quiet, output.Quiet) : Along InOrder (log ++ quiet) := by
  induction quiet generalizing log with
  | nil => rwa [List.append_nil]
  | cons output rest ih =>
    obtain ⟨hopened, _, hheaders, _⟩ := hquiet output List.mem_cons_self
    have hnext : Along InOrder (log ++ [output]) := hlog.snoc
      ⟨fun index originId h ↦ absurd h (hheaders index originId),
        fun index h ↦ absurd h (hopened index)⟩
    have hall := ih hnext fun other hother ↦ hquiet other (List.mem_cons_of_mem _ hother)
    rwa [List.append_assoc, List.singleton_append] at hall

/-- Calm work keeps the maps. -/
theorem Consistent.calm {after : Proxy} (hproxy : Consistent proxy) (hcalm : Calm proxy after) :
    Consistent after where
  named entry hentry := by
    obtain ⟨exchange, hfound, hfrontend, hretired⟩ := hproxy.named entry (hcalm.exchanges ▸ hentry)
    obtain ⟨later, hlater, hsame⟩ := hcalm.after hfound
    exact ⟨later, hlater, hsame.frontendId.trans hfrontend, hsame.retired.trans hretired⟩
  keys := hcalm.exchanges ▸ hproxy.keys
  below entry hentry := hcalm.frontHighest ▸ hproxy.below entry (hcalm.exchanges ▸ hentry)
  limited := by
    rw [hcalm.exchanges, hcalm.maximumStreams]
    exact hproxy.limited
  originKeys := hcalm.originStreams ▸ hproxy.originKeys
  mapped entry hentry := by
    obtain ⟨exchange, hfound, horigin⟩ := hproxy.mapped entry (hcalm.originStreams ▸ hentry)
    obtain ⟨later, hlater, hsame⟩ := hcalm.after hfound
    exact ⟨later, hlater, hsame.originId.trans horigin⟩
  inverse entry hentry exchange hfound originId horigin := by
    obtain ⟨earlier, hearlier, hsame⟩ := hcalm.before hfound
    rw [hcalm.originStreams]
    exact hproxy.inverse entry (hcalm.exchanges ▸ hentry) earlier hearlier originId
      (hsame.originId ▸ horigin)
  owned index exchange hfound hretired entry hentry horigin := by
    obtain ⟨earlier, hearlier, hsame⟩ := hcalm.before hfound
    exact hproxy.owned index earlier hearlier (hsame.retired ▸ hretired) entry
      (hcalm.originStreams ▸ hentry) (hsame.originId ▸ horigin)

/-- Calm work keeps what holds of an exchange. -/
theorem Lawful.calm {after : Proxy} {exchange later : Exchange}
    (hexchange : Lawful proxy index exchange) (hcalm : Calm proxy after)
    (hsame : exchange.Calm later) : Lawful after index later where
  fresh hretired originId horigin := by
    rw [hcalm.originHighest]
    exact hexchange.fresh (hsame.retired ▸ hretired) originId (hsame.originId ▸ horigin)
  undispatched hphase := hsame.originId.trans (hexchange.undispatched (hsame.undispatched hphase))
  waits hphase := by
    obtain ⟨quiet, hlog, _⟩ := hcalm.log
    rw [hlog]
    exact List.mem_append_left quiet (hexchange.waits (hsame.waits hphase))
  finished hretired hphase :=
    hexchange.finished (hsame.retired ▸ hretired) (hsame.undispatched hphase)

/-- Calm work keeps what every part of a step keeps. -/
theorem Core.calm {after : Proxy} (hproxy : Core proxy) (hcalm : Calm proxy after) :
    Core after where
  consistent := hproxy.consistent.calm hcalm
  lawful index exchange hfound := by
    obtain ⟨earlier, hearlier, hsame⟩ := hcalm.before hfound
    exact (hproxy.lawful index earlier hearlier).calm hcalm hsame
  ordered := by
    obtain ⟨quiet, hlog, hquiet⟩ := hcalm.log
    rw [hlog]
    exact along_append_quiet hproxy.ordered hquiet
  drained hdraining := by
    obtain ⟨quiet, hlog, hquiet⟩ := hcalm.log
    rw [hlog] at hdraining
    rw [hcalm.draining]
    refine hproxy.drained ((List.mem_append.mp hdraining).resolve_right fun hlast ↦ ?_)
    exact (hquiet _ hlast).2.2.2 rfl

/-- Calm work keeps the invariant. -/
theorem Invariant.calm {after : Proxy} (hproxy : Invariant proxy) (hcalm : Calm proxy after) :
    Invariant after where
  toCore := hproxy.toCore.calm hcalm
  fenced index exchange hfound hlive last hlast originId horigin hbeyond := by
    obtain ⟨earlier, hearlier, hsame⟩ := hcalm.before hfound
    rw [hsame.frontendId, hcalm.exchanges] at hlive
    exact hsame.cancelled (hproxy.fenced index earlier hearlier hlive last (hcalm.peerLast ▸ hlast)
      originId (hsame.originId ▸ horigin) hbeyond)

/-! ### Changes of the maps -/

theorem mem_unassign {mapping : List (ℕ × ℕ)} {key : ℕ} {entry : ℕ × ℕ} :
    entry ∈ unassign mapping key ↔ entry ∈ mapping ∧ entry.1 ≠ key := by
  simp [unassign]

theorem mem_assign {mapping : List (ℕ × ℕ)} {key value : ℕ} {entry : ℕ × ℕ} :
    entry ∈ assign mapping key value ↔
      entry ∈ mapping ∧ entry.1 ≠ key ∨ entry = (key, value) := by
  simp [assign]

theorem nodup_unassign {mapping : List (ℕ × ℕ)} (hkeys : (mapping.map Prod.fst).Nodup) (key : ℕ) :
    ((unassign mapping key).map Prod.fst).Nodup :=
  hkeys.sublist (List.filter_sublist.map _)

theorem nodup_assign {mapping : List (ℕ × ℕ)} (hkeys : (mapping.map Prod.fst).Nodup)
    (key value : ℕ) : ((assign mapping key value).map Prod.fst).Nodup := by
  have hrest := nodup_unassign hkeys key
  unfold assign
  rw [List.map_append, List.nodup_append]
  refine ⟨hrest, List.nodup_singleton _, ?_⟩
  intro other hother last hlast
  obtain ⟨entry, hentry, rfl⟩ := List.mem_map.mp hother
  rw [List.map_singleton, List.mem_singleton] at hlast
  rw [hlast]
  exact (mem_unassign.mp hentry).2

/-- An exchange after a change of one of them. -/
theorem update_getElem? {change : Exchange → Exchange} {other : ℕ} {exchange : Exchange}
    (hfound : (proxy.update index change).objects[other]? = some exchange) :
    (∃ earlier, proxy.objects[other]? = some earlier ∧ index = other ∧ exchange = change earlier) ∨
      proxy.objects[other]? = some exchange ∧ index ≠ other := by
  unfold Proxy.update at hfound
  dsimp only at hfound
  rw [List.getElem?_modify, Option.map_eq_map, Option.map_eq_some_iff] at hfound
  obtain ⟨earlier, hearlier, hchange⟩ := hfound
  by_cases hsame : index = other
  · rw [if_pos hsame] at hchange
    exact Or.inl ⟨earlier, hearlier, hsame, hchange.symm⟩
  · rw [if_neg hsame] at hchange
    exact Or.inr ⟨hchange ▸ hearlier, hsame⟩

theorem update_self {change : Exchange → Exchange} {exchange : Exchange}
    (hfound : proxy.objects[index]? = some exchange) :
    (proxy.update index change).objects[index]? = some (change exchange) := by
  unfold Proxy.update
  dsimp only
  rw [List.getElem?_modify, hfound, Option.map_eq_map, Option.map_some, if_pos rfl]

theorem update_other {change : Exchange → Exchange} {other : ℕ} (hother : index ≠ other) :
    (proxy.update index change).objects[other]? = proxy.objects[other]? := by
  unfold Proxy.update
  dsimp only
  rw [List.getElem?_modify]
  simp [hother]

/-- Two changes of an exchange are one. -/
theorem update_update (first second : Exchange → Exchange) :
    (proxy.update index first).update index second = proxy.update index (second ∘ first) := by
  unfold Proxy.update
  dsimp only
  rw [List.modify_modify_eq]

/-! ### Retirement -/

/-- An exchange retires: what counts of it. -/
def Proxy.withdraw (proxy : Proxy) (index : ℕ) (exchange : Exchange) : Proxy :=
  { proxy.update index ({ · with retired := true, phase := .over }) with
    exchanges := unassign proxy.exchanges exchange.frontendId
    originStreams := exchange.originId.elim proxy.originStreams (unassign proxy.originStreams) }

theorem mem_withdraw_originStreams {exchange : Exchange} {entry : ℕ × ℕ} :
    entry ∈ (proxy.withdraw index exchange).originStreams ↔
      entry ∈ proxy.originStreams ∧ exchange.originId ≠ some entry.1 := by
  unfold Proxy.withdraw
  dsimp only
  cases exchange.originId with
  | none => simp
  | some originId =>
    rw [Option.elim_some, mem_unassign, ne_comm, ne_eq, ne_eq, Option.some_inj]

/-- The rest of a retirement is calm. -/
theorem calm_retire {exchange : Exchange} (hfound : proxy.objects[index]? = some exchange)
    (hretired : exchange.retired = false) (complete : Bool) :
    Calm (proxy.withdraw index exchange) (proxy.retire index complete) := by
  unfold Proxy.retire
  rw [hfound]
  dsimp only
  rw [if_neg (by simp [hretired])]
  generalize hmarked : proxy.update index ({ · with retired := true, phase := .over }) = marked
  have hmiddle : Calm marked
      (((if complete then marked
        else (marked.deny .front exchange.frontendId).denyOrigin exchange.originId).discard index
          .front).discard index .origin) := by
    have hdenied : Calm marked
        (if complete then marked
          else (marked.deny .front exchange.frontendId).denyOrigin exchange.originId) := by
      split_ifs
      · exact .refl marked
      · exact (calm_deny _ _).trans (calm_denyOrigin _)
    exact (hdenied.trans (calm_discard _ _)).trans (calm_discard _ _)
  generalize (((if complete then marked
        else (marked.deny .front exchange.frontendId).denyOrigin exchange.originId).discard index
          .front).discard index .origin) = middle at hmiddle ⊢
  have hexchanges : marked.exchanges = proxy.exchanges := hmarked ▸ rfl
  have hstreams : marked.originStreams = proxy.originStreams := hmarked ▸ rfl
  have hwithdrawn : proxy.withdraw index exchange =
      { marked with
        exchanges := unassign proxy.exchanges exchange.frontendId
        originStreams :=
          exchange.originId.elim proxy.originStreams (unassign proxy.originStreams) } := by
    rw [Proxy.withdraw, hmarked]
  rw [hwithdrawn]
  refine ⟨hmiddle.maximumStreams, ?_, ?_, hmiddle.draining, hmiddle.frontHighest,
    hmiddle.originHighest, hmiddle.peerLast, hmiddle.objects, hmiddle.log⟩
  · exact congrArg (unassign · exchange.frontendId) (hmiddle.exchanges.trans hexchanges)
  · have hrest := hmiddle.originStreams.trans hstreams
    cases exchange.originId with
    | none => exact hrest
    | some originId => exact congrArg (unassign · originId) hrest

/-- The maps after a retirement. -/
theorem Consistent.withdraw {exchange : Exchange} (hproxy : Consistent proxy)
    (hfound : proxy.objects[index]? = some exchange) (hretired : exchange.retired = false) :
    Consistent (proxy.withdraw index exchange) where
  named entry hentry := by
    obtain ⟨hentry, hother⟩ := mem_unassign.mp hentry
    obtain ⟨other, hobject, hfrontend, hlive⟩ := hproxy.named entry hentry
    refine ⟨other, ?_, hfrontend, hlive⟩
    refine (update_other fun hsame ↦ hother ?_).trans hobject
    rw [← hsame, hfound, Option.some_inj] at hobject
    rw [hobject, hfrontend]
  keys := nodup_unassign hproxy.keys _
  below entry hentry := hproxy.below entry (mem_unassign.mp hentry).1
  limited := (List.length_filter_le _ _).trans hproxy.limited
  originKeys := by
    unfold Proxy.withdraw
    cases exchange.originId with
    | none => exact hproxy.originKeys
    | some originId => exact nodup_unassign hproxy.originKeys originId
  mapped entry hentry := by
    obtain ⟨other, hobject, horigin⟩ := hproxy.mapped entry (mem_withdraw_originStreams.mp hentry).1
    by_cases hsame : index = entry.2
    · rw [← hsame] at hobject ⊢
      exact ⟨_, update_self hobject, horigin⟩
    · exact ⟨other, (update_other hsame).trans hobject, horigin⟩
  inverse entry hentry other hobject originId horigin := by
    obtain ⟨hentry, hkey⟩ := mem_unassign.mp hentry
    have hdifferent : index ≠ entry.2 := by
      intro hsame
      obtain ⟨named, hnamed, hfrontend, _⟩ := hproxy.named entry hentry
      rw [← hsame, hfound, Option.some_inj] at hnamed
      exact hkey (by rw [hnamed, hfrontend])
    have hold : proxy.objects[entry.2]? = some other := (update_other hdifferent).symm.trans hobject
    have hmapped := hproxy.inverse entry hentry other hold originId horigin
    refine mem_withdraw_originStreams.mpr ⟨hmapped, fun hsame ↦ hdifferent ?_⟩
    exact (hproxy.owned index exchange hfound hretired _ hmapped hsame).symm
  owned other later hobject hlive entry hentry horigin := by
    rcases update_getElem? hobject with ⟨earlier, _, _, rfl⟩ | ⟨hold, _⟩
    · exact absurd hlive (by simp)
    · exact hproxy.owned other later hold hlive entry (mem_withdraw_originStreams.mp hentry).1 horigin

/-- What is kept by a retirement, whatever the exchange that retires is. -/
theorem Core.withdraw {exchange : Exchange} (hconsistent : Consistent proxy)
    (hlawful : ∀ (other : ℕ) later, index ≠ other → proxy.objects[other]? = some later →
      Lawful proxy other later)
    (hordered : Along InOrder proxy.log) (hdrained : .draining ∈ proxy.log → proxy.draining = true)
    (hfound : proxy.objects[index]? = some exchange) (hretired : exchange.retired = false) :
    Core (proxy.withdraw index exchange) where
  consistent := hconsistent.withdraw hfound hretired
  lawful other later hobject := by
    rcases update_getElem? hobject with ⟨earlier, hearlier, rfl, rfl⟩ | ⟨hold, hdifferent⟩
    · rw [hfound, Option.some_inj] at hearlier
      subst hearlier
      refine ⟨fun h ↦ absurd h (by simp), fun h ↦ ?_, fun h ↦ ?_, fun _ h ↦ ?_⟩
      · simp [Exchange.Undispatched, Phase.Waits] at h
      · simp [Phase.Waits] at h
      · simp [Exchange.Undispatched, Phase.Waits] at h
    · have hsame := hlawful other later hdifferent hold
      exact ⟨hsame.fresh, hsame.undispatched, hsame.waits, hsame.finished⟩
  ordered := hordered
  drained := hdrained

/-- The exchanges after a retirement. -/
theorem Fenced.withdraw {exchange : Exchange} (hfound : proxy.objects[index]? = some exchange)
    (hothers : ∀ (other : ℕ) later, index ≠ other → proxy.objects[other]? = some later →
      (later.frontendId, other) ∈ proxy.exchanges →
        ∀ last, (proxy.origin.getD {}).peerLast = some last → ∀ originId,
          later.originId = some originId → last < originId → later.cancelled = true) :
    Fenced (proxy.withdraw index exchange) := by
  intro other later hobject hlive last hlast originId horigin hbeyond
  rcases update_getElem? hobject with ⟨earlier, hearlier, rfl, rfl⟩ | ⟨hold, hdifferent⟩
  · rw [hfound, Option.some_inj] at hearlier
    subst hearlier
    exact absurd rfl (mem_unassign.mp hlive).2
  · exact hothers other later hdifferent hold (mem_unassign.mp hlive).1 last hlast originId horigin
      hbeyond

/-- A retirement keeps the invariant. -/
theorem Invariant.retire (hproxy : Invariant proxy) (index : ℕ) (complete : Bool) :
    Invariant (proxy.retire index complete) := by
  cases hfound : proxy.objects[index]? with
  | none =>
    unfold Proxy.retire
    rw [hfound]
    exact hproxy
  | some exchange =>
    by_cases hretired : exchange.retired = true
    · unfold Proxy.retire
      rw [hfound]
      dsimp only
      rw [if_pos hretired]
      exact hproxy
    · have hlive : exchange.retired = false := Bool.eq_false_of_not_eq_true hretired
      have hwithdrawn : Invariant (proxy.withdraw index exchange) :=
        ⟨.withdraw hproxy.consistent (fun other later _ ↦ hproxy.lawful other later)
          hproxy.ordered hproxy.drained hfound hlive,
          .withdraw hfound fun other later _ ↦ hproxy.fenced other later⟩
      exact hwithdrawn.calm (calm_retire hfound hlive complete)

/-! ### The drain -/

/-- A cancelled exchange is cancelled. -/
theorem cancel_cancelled {exchange : Exchange}
    (hfound : (proxy.cancel index).objects[index]? = some exchange) : exchange.cancelled = true := by
  unfold Proxy.cancel at hfound
  cases hbefore : proxy.objects[index]? with
  | none =>
    rw [hbefore] at hfound
    rw [hbefore] at hfound
    cases hfound
  | some earlier =>
    rw [hbefore] at hfound
    have hcalm : Calm (proxy.update index ({ · with cancelled := true }))
        (((((proxy.update index ({ · with cancelled := true })).deny .front
          earlier.frontendId).discard index .front).denyOrigin earlier.originId).discard index
            .origin) :=
      (((calm_deny _ _).trans (calm_discard _ _)).trans (calm_denyOrigin _)).trans
        (calm_discard _ _)
    obtain ⟨marked, hmarked, hsame⟩ := hcalm.before hfound
    rw [update_self hbefore, Option.some_inj] at hmarked
    exact hsame.cancelled (hmarked ▸ rfl)

/-- The step of a drain for one exchange. -/
theorem calm_fence (originLast : Option ℕ) (proxy : Proxy) (entry : ℕ × ℕ) :
    Calm proxy (if proxy.Fences entry.2 originLast then proxy.cancel entry.2 else proxy) := by
  split_ifs
  · exact calm_cancel entry.2
  · exact .refl proxy

/-- A drain cancels the exchanges above the last stream that counts. -/
theorem fences_cancelled {entries : List (ℕ × ℕ)} {originLast : Option ℕ} {entry : ℕ × ℕ}
    (hentry : entry ∈ entries) {exchange : Exchange} {last originId : ℕ}
    (hfound : (entries.foldl (fun proxy entry ↦
      if proxy.Fences entry.2 originLast then proxy.cancel entry.2 else proxy)
        proxy).objects[entry.2]? = some exchange)
    (hlast : originLast = some last) (horigin : exchange.originId = some originId)
    (hbeyond : last < originId) : exchange.cancelled = true := by
  induction entries generalizing proxy with
  | nil => exact absurd hentry List.not_mem_nil
  | cons first rest ih =>
    rcases List.mem_cons.mp hentry with rfl | hrest
    · rw [List.foldl_cons] at hfound
      obtain ⟨middle, hmiddle, hlater⟩ := (calm_foldl (calm_fence originLast) rest _).before hfound
      refine hlater.cancelled ?_
      by_cases hfences : proxy.Fences entry.2 originLast
      · rw [if_pos hfences] at hmiddle
        exact cancel_cancelled hmiddle
      · rw [if_neg hfences] at hmiddle
        refine absurd ⟨middle, Option.mem_def.mpr hmiddle, Or.inr ?_⟩ hfences
        exact ⟨last, hlast, originId, hlater.originId ▸ horigin, hbeyond⟩
    · exact ih hrest hfound

/-- The beginning of a drain. -/
def Proxy.beginDrain (proxy : Proxy) : Proxy :=
  if proxy.draining then proxy else { proxy with draining := true }.emit .draining

/-- What the beginning of a drain leaves. -/
theorem beginDrain_fields : proxy.beginDrain.objects = proxy.objects ∧
    proxy.beginDrain.exchanges = proxy.exchanges ∧ proxy.beginDrain.origin = proxy.origin := by
  unfold Proxy.beginDrain
  split_ifs
  · exact ⟨rfl, rfl, rfl⟩
  · exact ⟨rfl, rfl, rfl⟩

theorem Core.beginDrain (hproxy : Core proxy) : Core proxy.beginDrain := by
  unfold Proxy.beginDrain
  split_ifs with hdraining
  · exact hproxy
  · have hconsistent := hproxy.consistent
    refine ⟨⟨hconsistent.named, hconsistent.keys, hconsistent.below, hconsistent.limited,
      hconsistent.originKeys, hconsistent.mapped, hconsistent.inverse, hconsistent.owned⟩,
      fun index exchange hfound ↦ ?_, ?_, fun _ ↦ rfl⟩
    · have hexchange := hproxy.lawful index exchange hfound
      exact ⟨hexchange.fresh, hexchange.undispatched,
        fun hphase ↦ List.mem_append_left _ (hexchange.waits hphase), hexchange.finished⟩
    · refine hproxy.ordered.snoc ⟨fun index originId h ↦ ?_, fun index h ↦ ?_⟩
      · cases h
      · cases h

/-- A drain keeps what every part of a step keeps. -/
theorem Core.drain (hproxy : Core proxy) (originLast : Option ℕ) :
    Core (proxy.drain originLast) :=
  hproxy.beginDrain.calm (calm_foldl (calm_fence originLast) _ _)

/-- A drain cancels what the origin does not answer. -/
theorem fenced_drain {originLast : Option ℕ} (hlast : (proxy.origin.getD {}).peerLast = originLast) :
    Fenced (proxy.drain originLast) := by
  have hcalm : Calm proxy.beginDrain (proxy.drain originLast) :=
    calm_foldl (calm_fence originLast) _ _
  obtain ⟨_, hexchanges, horigin⟩ := @beginDrain_fields proxy
  intro index exchange hfound hlive last hpeer originId hid hbeyond
  rw [hcalm.exchanges, hexchanges] at hlive
  rw [hcalm.peerLast, horigin, hlast] at hpeer
  exact fences_cancelled hlive hfound hpeer hid hbeyond

/-- A drain that the client asks for. -/
theorem Invariant.drain (hproxy : Invariant proxy) (originLast : Option ℕ) :
    Invariant (proxy.drain originLast) := by
  refine ⟨hproxy.toCore.drain originLast, ?_⟩
  have hcalm : Calm proxy.beginDrain (proxy.drain originLast) :=
    calm_foldl (calm_fence originLast) _ _
  obtain ⟨hobjects, hexchanges, horigin⟩ := @beginDrain_fields proxy
  intro index exchange hfound hlive last hpeer originId hid hbeyond
  obtain ⟨earlier, hearlier, hsame⟩ := hcalm.before hfound
  rw [hobjects] at hearlier
  rw [hsame.frontendId, hcalm.exchanges, hexchanges] at hlive
  rw [hcalm.peerLast, horigin] at hpeer
  exact hsame.cancelled (hproxy.fenced index earlier hearlier hlive last hpeer originId
    (hsame.originId ▸ hid) hbeyond)

/-! ### A request that opens an exchange -/

/-- An exchange is one that was there or the last. -/
theorem concat_getElem? {objects : List Exchange} {last exchange : Exchange}
    (hfound : (objects ++ [last])[index]? = some exchange) :
    objects[index]? = some exchange ∨ index = objects.length ∧ exchange = last := by
  rcases lt_trichotomy index objects.length with hlt | heq | hgt
  · rw [List.getElem?_append_left hlt] at hfound
    exact Or.inl hfound
  · rw [heq, List.getElem?_concat_length, Option.some_inj] at hfound
    exact Or.inr ⟨heq, hfound.symm⟩
  · rw [List.getElem?_eq_none (by simp; omega)] at hfound
    cases hfound

/-- An exchange that was there stays. -/
theorem getElem?_concat {objects : List Exchange} {exchange : Exchange} (last : Exchange)
    (hfound : objects[index]? = some exchange) : (objects ++ [last])[index]? = some exchange := by
  rw [List.getElem?_append_left (List.getElem?_eq_some_iff.mp hfound).1]
  exact hfound

/-- The index of an exchange is below that of the next. -/
theorem getElem?_ne_length {objects : List Exchange} {exchange : Exchange}
    (hfound : objects[index]? = some exchange) : index ≠ objects.length :=
  (List.getElem?_eq_some_iff.mp hfound).1.ne

/-- The client opens a stream. -/
theorem Invariant.raise {front : Leg} (hproxy : Invariant proxy)
    (hfront : proxy.front.highest ≤ front.highest) (numbered : ℕ) :
    Invariant { proxy with front, numbered } := by
  have hconsistent := hproxy.consistent
  refine ⟨⟨⟨hconsistent.named, hconsistent.keys, fun entry hentry ↦ ?_, hconsistent.limited,
    hconsistent.originKeys, hconsistent.mapped, hconsistent.inverse, hconsistent.owned⟩,
    fun index exchange hfound ↦ ?_, hproxy.ordered, hproxy.drained⟩, hproxy.fenced⟩
  · exact (hconsistent.below entry hentry).trans hfront
  · have hexchange := hproxy.lawful index exchange hfound
    exact ⟨hexchange.fresh, hexchange.undispatched, hexchange.waits, hexchange.finished⟩

/-- The maps after a request that opens an exchange. -/
theorem Consistent.openExchange {streamId : ℕ} {headers : Headers} (hproxy : Consistent proxy)
    (hnew : ∀ entry ∈ proxy.exchanges, entry.1 ≠ streamId)
    (hopened : streamId ≤ proxy.front.highest)
    (hroom : proxy.exchanges.length < proxy.maximumStreams.val) (log : List Output) :
    Consistent { proxy with
      objects := proxy.objects ++ [{ frontendId := streamId, headers, incoming := { streamId } }]
      exchanges := assign proxy.exchanges streamId proxy.objects.length
      log } where
  named entry hentry := by
    rcases mem_assign.mp hentry with ⟨hold, _⟩ | rfl
    · obtain ⟨exchange, hfound, hnamed⟩ := hproxy.named entry hold
      exact ⟨exchange, getElem?_concat _ hfound, hnamed⟩
    · exact ⟨_, List.getElem?_concat_length, rfl, rfl⟩
  keys := nodup_assign hproxy.keys _ _
  below entry hentry := by
    rcases mem_assign.mp hentry with ⟨hold, _⟩ | rfl
    · exact hproxy.below entry hold
    · exact hopened
  limited := by
    have hkept : proxy.exchanges.filter (·.1 ≠ streamId) = proxy.exchanges :=
      List.filter_eq_self.mpr fun entry hentry ↦ decide_eq_true (hnew entry hentry)
    unfold assign
    dsimp only
    rw [hkept, List.length_append, List.length_singleton]
    exact hroom
  originKeys := hproxy.originKeys
  mapped entry hentry := by
    obtain ⟨exchange, hfound, horigin⟩ := hproxy.mapped entry hentry
    exact ⟨exchange, getElem?_concat _ hfound, horigin⟩
  inverse entry hentry exchange hfound originId horigin := by
    rcases concat_getElem? hfound with hold | ⟨_, rfl⟩
    · rcases mem_assign.mp hentry with ⟨hlive, _⟩ | rfl
      · exact hproxy.inverse entry hlive exchange hold originId horigin
      · exact absurd rfl (getElem?_ne_length hold)
    · cases horigin
  owned index exchange hfound hretired entry hentry horigin := by
    rcases concat_getElem? hfound with hold | ⟨_, rfl⟩
    · exact hproxy.owned index exchange hold hretired entry hentry horigin
    · cases horigin

/-- A request that opens an exchange. -/
theorem Invariant.openExchange {streamId : ℕ} {headers : Headers} (hproxy : Invariant proxy)
    (hnew : ∀ entry ∈ proxy.exchanges, entry.1 ≠ streamId)
    (hopened : streamId ≤ proxy.front.highest) :
    Invariant (proxy.openExchange streamId headers) := by
  unfold Proxy.openExchange
  split_ifs with hrefused
  · exact hproxy.calm (calm_deny _ _)
  · rw [not_or, not_le] at hrefused
    refine ⟨⟨hproxy.consistent.openExchange hnew hopened hrefused.2 _, fun index exchange hfound ↦ ?_,
      ?_, fun hdraining ↦ ?_⟩, ?_⟩
    · rcases concat_getElem? hfound with hold | ⟨_, rfl⟩
      · have hexchange := hproxy.lawful index exchange hold
        exact ⟨hexchange.fresh, hexchange.undispatched,
          fun hphase ↦ List.mem_append_left _ (hexchange.waits hphase), hexchange.finished⟩
      · refine ⟨fun _ originId h ↦ ?_, fun _ ↦ rfl, fun hphase ↦ ?_, fun h ↦ ?_⟩
        · cases h
        · simp [Phase.Waits] at hphase
        · cases h
    · refine hproxy.ordered.snoc ⟨fun index originId h ↦ ?_, fun index h hdraining ↦ ?_⟩
      · cases h
      · exact hrefused.1 (hproxy.drained hdraining)
    · rcases List.mem_append.mp hdraining with hold | hlast
      · exact hproxy.drained hold
      · cases List.mem_singleton.mp hlast
    · intro index exchange hfound hlive last hlast originId horigin hbeyond
      rcases concat_getElem? hfound with hold | ⟨_, rfl⟩
      · rcases mem_assign.mp hlive with ⟨hbefore, _⟩ | hadded
        · exact hproxy.fenced index exchange hold hbefore last hlast originId horigin hbeyond
        · exact absurd (Prod.ext_iff.mp hadded).2 (getElem?_ne_length hold)
      · cases horigin

/-! ### The request of an exchange -/

/-- An exchange changes, but not what the maps depend on. -/
theorem Consistent.update {change : Exchange → Exchange} (hproxy : Consistent proxy)
    (hfrontend : ∀ exchange, (change exchange).frontendId = exchange.frontendId)
    (horigin : ∀ exchange, (change exchange).originId = exchange.originId)
    (hretired : ∀ exchange, (change exchange).retired = exchange.retired) :
    Consistent (proxy.update index change) where
  named entry hentry := by
    obtain ⟨exchange, hfound, hnamed, hlive⟩ := hproxy.named entry hentry
    by_cases hsame : index = entry.2
    · rw [← hsame] at hfound ⊢
      exact ⟨_, update_self hfound, (hfrontend exchange).trans hnamed,
        (hretired exchange).trans hlive⟩
    · exact ⟨exchange, (update_other hsame).trans hfound, hnamed, hlive⟩
  keys := hproxy.keys
  below := hproxy.below
  limited := hproxy.limited
  originKeys := hproxy.originKeys
  mapped entry hentry := by
    obtain ⟨exchange, hfound, hmapped⟩ := hproxy.mapped entry hentry
    by_cases hsame : index = entry.2
    · rw [← hsame] at hfound ⊢
      exact ⟨_, update_self hfound, (horigin exchange).trans hmapped⟩
    · exact ⟨exchange, (update_other hsame).trans hfound, hmapped⟩
  inverse entry hentry later hlater originId hid := by
    rcases update_getElem? hlater with ⟨earlier, hearlier, _, rfl⟩ | ⟨hold, _⟩
    · exact hproxy.inverse entry hentry earlier hearlier originId (horigin earlier ▸ hid)
    · exact hproxy.inverse entry hentry later hold originId hid
  owned other later hlater hlive entry hentry hid := by
    rcases update_getElem? hlater with ⟨earlier, hearlier, _, rfl⟩ | ⟨hold, _⟩
    · exact hproxy.owned other earlier hearlier (hretired earlier ▸ hlive) entry hentry
        (horigin earlier ▸ hid)
    · exact hproxy.owned other later hold hlive entry hentry hid

/-- An exchange is authorized. -/
theorem Invariant.authorized {exchange : Exchange} (hproxy : Invariant proxy)
    (hfound : proxy.objects[index]? = some exchange) (hphase : exchange.phase = .authorizing) :
    Invariant (proxy.authorized index) := by
  have hconsistent : Consistent (proxy.update index ({ · with phase := .connecting })) :=
    hproxy.consistent.update (fun _ ↦ rfl) (fun _ ↦ rfl) fun _ ↦ rfl
  refine ⟨⟨⟨hconsistent.named, hconsistent.keys, hconsistent.below, hconsistent.limited,
    hconsistent.originKeys, hconsistent.mapped, hconsistent.inverse, hconsistent.owned⟩,
    fun other later hlater ↦ ?_, ?_, fun hdraining ↦ ?_⟩,
    fun other later hlater hlive last hlast originId horigin hbeyond ↦ ?_⟩
  · rcases update_getElem? hlater with ⟨earlier, hearlier, rfl, rfl⟩ | ⟨hold, _⟩
    · have hbefore := hproxy.lawful index earlier hearlier
      rw [hfound, Option.some_inj] at hearlier
      subst hearlier
      exact ⟨hbefore.fresh, fun _ ↦ hbefore.undispatched (Or.inr (Or.inl hphase)),
        fun _ ↦ List.mem_append_right _ (List.mem_singleton_self _),
        fun hretired _ ↦ hbefore.finished hretired (Or.inr (Or.inl hphase))⟩
    · have hbefore := hproxy.lawful other later hold
      exact ⟨hbefore.fresh, hbefore.undispatched,
        fun hwaits ↦ List.mem_append_left _ (hbefore.waits hwaits), hbefore.finished⟩
  · refine hproxy.ordered.snoc ⟨fun index originId h ↦ ?_, fun index h ↦ ?_⟩
    · cases h
    · cases h
  · rcases List.mem_append.mp hdraining with hold | hlast
    · exact hproxy.drained hold
    · cases List.mem_singleton.mp hlast
  · rcases update_getElem? hlater with ⟨earlier, hearlier, _, rfl⟩ | ⟨hold, _⟩
    · exact hproxy.fenced other earlier hearlier hlive last hlast originId horigin hbeyond
    · exact hproxy.fenced other later hold hlive last hlast originId horigin hbeyond

/-- The maps after an exchange has a stream to the origin. -/
theorem Consistent.assign {streamId : ℕ} {before : Exchange} (hproxy : Consistent proxy)
    (change : Exchange → Exchange) (hbefore : proxy.objects[index]? = some before)
    (hnone : before.originId = none)
    (hfrontend : ∀ exchange, (change exchange).frontendId = exchange.frontendId)
    (hretired : ∀ exchange, (change exchange).retired = exchange.retired)
    (horigin : ∀ exchange, (change exchange).originId = some streamId)
    (hfresh : ∀ (other : ℕ) exchange, proxy.objects[other]? = some exchange →
      exchange.retired = false → exchange.originId ≠ some streamId)
    (origin : Option Leg) (log : List Output) :
    Consistent { proxy.update index change with
      originStreams := assign proxy.originStreams streamId index
      origin
      log } where
  named entry hentry := by
    obtain ⟨exchange, hfound, hnamed, hlive⟩ := hproxy.named entry hentry
    by_cases hsame : index = entry.2
    · rw [← hsame] at hfound ⊢
      exact ⟨_, update_self hfound, (hfrontend exchange).trans hnamed,
        (hretired exchange).trans hlive⟩
    · exact ⟨exchange, (update_other hsame).trans hfound, hnamed, hlive⟩
  keys := hproxy.keys
  below := hproxy.below
  limited := hproxy.limited
  originKeys := nodup_assign hproxy.originKeys _ _
  mapped entry hentry := by
    rcases mem_assign.mp hentry with ⟨hold, _⟩ | rfl
    · obtain ⟨exchange, hfound, hmapped⟩ := hproxy.mapped entry hold
      have hother : index ≠ entry.2 := by
        intro hsame
        rw [← hsame, hbefore, Option.some_inj] at hfound
        rw [← hfound, hnone] at hmapped
        cases hmapped
      exact ⟨exchange, (update_other hother).trans hfound, hmapped⟩
    · exact ⟨_, update_self hbefore, horigin before⟩
  inverse entry hentry later hlater originId hid := by
    rcases update_getElem? hlater with ⟨earlier, _, hsame, rfl⟩ | ⟨hold, _⟩
    · rw [horigin, Option.some_inj] at hid
      exact mem_assign.mpr (Or.inr (Prod.ext hid.symm hsame.symm))
    · obtain ⟨named, hnamed, _, hlive⟩ := hproxy.named entry hentry
      have hkept := hproxy.inverse entry hentry later hold originId hid
      rw [hold, Option.some_inj] at hnamed
      refine mem_assign.mpr (Or.inl ⟨hkept, fun hsame ↦ ?_⟩)
      exact hfresh _ later hold (hnamed ▸ hlive) (hid.trans (congrArg some hsame))
  owned other later hlater hlive entry hentry hid := by
    rcases update_getElem? hlater with ⟨earlier, _, hsame, rfl⟩ | ⟨hold, _⟩
    · rw [horigin, Option.some_inj] at hid
      rcases mem_assign.mp hentry with ⟨_, hkey⟩ | rfl
      · exact absurd hid.symm hkey
      · exact hsame
    · rcases mem_assign.mp hentry with ⟨hmapped, _⟩ | rfl
      · exact hproxy.owned other later hold hlive entry hmapped hid
      · exact absurd hid (hfresh other later hold hlive)

theorem lt_nextStreamId (leg : Leg) : leg.highest < leg.nextStreamId := by
  unfold Leg.nextStreamId
  split_ifs <;> omega

/-- The next stream to the origin is that of no exchange that has not retired. -/
theorem Core.nextStreamId_fresh {leg : Leg} (hproxy : Core proxy) (horigin : proxy.origin = some leg)
    (other : ℕ) (exchange : Exchange) (hfound : proxy.objects[other]? = some exchange)
    (hretired : exchange.retired = false) : exchange.originId ≠ some leg.nextStreamId := by
  intro hid
  have hle := (hproxy.lawful other exchange hfound).fresh hretired _ hid
  rw [horigin] at hle
  exact (lt_nextStreamId leg).not_ge hle

/-- An exchange whose stream is refused has retired. -/
theorem Invariant.refuse {exchange : Exchange} {leg : Leg} {origin : Option Leg}
    (hproxy : Invariant proxy) (hfound : proxy.objects[index]? = some exchange)
    (hwaits : exchange.phase.Waits) (horigin : proxy.origin = some leg)
    (hhighest : leg.highest ≤ (origin.getD {}).highest)
    (hlast : (origin.getD {}).peerLast = leg.peerLast) :
    Invariant (({ proxy.update index ({ · with
      originId := some leg.nextStreamId
      outgoing := some { streamId := leg.nextStreamId } }) with
        originStreams := Http2Proxy.assign proxy.originStreams leg.nextStreamId index
        origin } : Proxy).retire index false) := by
  have hself := hproxy.lawful index exchange hfound
  have hnone : exchange.originId = none := hself.undispatched (Or.inr (Or.inr hwaits))
  have hlive : exchange.retired = false :=
    Bool.eq_false_of_not_eq_true fun h ↦ hself.finished h (Or.inr (Or.inr hwaits))
  generalize hchange : (fun exchange : Exchange ↦ ({ exchange with
      originId := some leg.nextStreamId
      outgoing := some { streamId := leg.nextStreamId } } : Exchange)) = change
  have hconsistent : Consistent { proxy.update index change with
      originStreams := Http2Proxy.assign proxy.originStreams leg.nextStreamId index
      origin
      log := proxy.log } :=
    hproxy.consistent.assign change hfound hnone (fun _ ↦ hchange ▸ rfl) (fun _ ↦ hchange ▸ rfl)
      (fun _ ↦ hchange ▸ rfl) (hproxy.nextStreamId_fresh horigin) origin proxy.log
  have hmapped : ({ proxy.update index change with
      originStreams := Http2Proxy.assign proxy.originStreams leg.nextStreamId index
      origin } : Proxy).objects[index]? = some (change exchange) := update_self hfound
  have hkept : (change exchange).retired = false := hchange ▸ hlive
  have hothers : ∀ (other : ℕ) later, index ≠ other →
      (proxy.update index change).objects[other]? = some later →
        proxy.objects[other]? = some later :=
    fun other later hother hlater ↦ (update_other hother).symm.trans hlater
  refine Invariant.calm ⟨.withdraw hconsistent (fun other later hother hlater ↦ ?_)
    hproxy.ordered hproxy.drained hmapped hkept, .withdraw hmapped
      fun other later hother hlater hmember last hpeer ↦ ?_⟩ (calm_retire hmapped hkept false)
  · have hbefore := hproxy.lawful other later (hothers other later hother hlater)
    refine ⟨fun hretired originId hid ↦ ?_, hbefore.undispatched, hbefore.waits, hbefore.finished⟩
    have hle := hbefore.fresh hretired originId hid
    rw [horigin] at hle
    exact hle.trans hhighest
  · refine hproxy.fenced other later (hothers other later hother hlater) hmember last ?_
    rw [horigin]
    exact hlast ▸ hpeer

/-- The headers of a request are sent. -/
theorem Invariant.sent {exchange : Exchange} {leg : Leg} (hproxy : Invariant proxy)
    (hfound : proxy.objects[index]? = some exchange) (hwaits : exchange.phase.Waits)
    (horigin : proxy.origin = some leg) (hlast : leg.peerLast = none) :
    Invariant { proxy.update index ({ · with
      originId := some leg.nextStreamId
      outgoing := some { streamId := leg.nextStreamId }
      phase := .flushing }) with
        originStreams := Http2Proxy.assign proxy.originStreams leg.nextStreamId index
        origin := some { leg with highest := leg.nextStreamId }
        log := proxy.log ++ [.headers index leg.nextStreamId] } := by
  have hself := hproxy.lawful index exchange hfound
  have hnone : exchange.originId = none := hself.undispatched (Or.inr (Or.inr hwaits))
  refine ⟨⟨hproxy.consistent.assign _ hfound hnone (fun _ ↦ ?_) (fun _ ↦ ?_) (fun _ ↦ ?_)
    (hproxy.nextStreamId_fresh horigin) _ _, fun other later hlater ↦ ?_, ?_, fun hdraining ↦ ?_⟩,
    fun other later hlater hmember last hpeer ↦ ?_⟩
  · rfl
  · rfl
  · rfl
  · rcases update_getElem? hlater with ⟨earlier, hearlier, rfl, rfl⟩ | ⟨hold, _⟩
    · rw [hfound, Option.some_inj] at hearlier
      subst hearlier
      refine ⟨fun _ originId hid ↦ ?_, fun h ↦ ?_, fun h ↦ ?_, fun _ h ↦ ?_⟩
      · exact (Option.some_inj.mp hid).ge
      · simp [Exchange.Undispatched, Phase.Waits] at h
      · simp [Phase.Waits] at h
      · simp [Exchange.Undispatched, Phase.Waits] at h
    · have hbefore := hproxy.lawful other later hold
      refine ⟨fun hretired originId hid ↦ ?_, hbefore.undispatched,
        fun h ↦ List.mem_append_left _ (hbefore.waits h), hbefore.finished⟩
      have hle := hbefore.fresh hretired originId hid
      rw [horigin] at hle
      exact hle.trans (lt_nextStreamId leg).le
  · refine hproxy.ordered.snoc ⟨fun other originId h ↦ ?_, fun index h ↦ ?_⟩
    · cases h
      exact hself.waits hwaits
    · cases h
  · rcases List.mem_append.mp hdraining with hold | hlast
    · exact hproxy.drained hold
    · cases List.mem_singleton.mp hlast
  · exact absurd (hlast.symm.trans hpeer) (Option.some_ne_none _).symm

/-- The task of an exchange opens a stream to the origin. -/
theorem Invariant.dispatch {exchange : Exchange} (hproxy : Invariant proxy)
    (hfound : proxy.objects[index]? = some exchange) (hphase : exchange.phase = .locking)
    (sending : Proxy.Sending) : Invariant (proxy.dispatch index sending) := by
  unfold Proxy.dispatch
  cases horigin : proxy.origin with
  | none => exact hproxy
  | some leg =>
    dsimp only
    by_cases hexhausted : 2 ^ 31 - 1 < leg.nextStreamId
    · rw [if_pos hexhausted]
      exact hproxy.retire index false
    rw [if_neg hexhausted]
    have hwaits : exchange.phase.Waits := Or.inr (Or.inr hphase)
    by_cases hgone : leg.failed = true ∨ leg.peerLast ≠ none
    · rw [if_pos hgone]
      refine hproxy.refuse hfound hwaits horigin ?_ ?_
      · rw [Proxy.update, horigin]
        exact le_rfl
      · rw [Proxy.update, horigin]
        rfl
    rw [if_neg hgone]
    cases sending with
    | refused used =>
      refine hproxy.refuse hfound hwaits horigin ?_ rfl
      dsimp only [Option.getD_some]
      split_ifs
      · exact (lt_nextStreamId leg).le
      · exact le_rfl
    | sent =>
      rw [not_or, not_not] at hgone
      have hsent := hproxy.sent hfound hwaits horigin hgone.2
      dsimp only
      rw [Proxy.emit]
      unfold Proxy.update at hsent ⊢
      dsimp only at hsent ⊢
      rw [List.modify_modify_eq]
      exact hsent

/-! ### Steps -/

/-- The start of the task of an exchange. -/
theorem Invariant.start {exchange : Exchange} (hproxy : Invariant proxy)
    (hfound : proxy.objects[index]? = some exchange) (hphase : exchange.phase = .created) :
    Invariant (proxy.start services index exchange) := by
  have hstarted : Calm proxy (proxy.update index ({ · with started := true })) :=
    calm_update fun _ _ ↦ ⟨rfl, rfl, id, rfl, id, id⟩
  unfold Proxy.start
  dsimp only
  split_ifs with hcancelled hupgraded
  · exact (hproxy.calm hstarted).retire index false
  · exact hproxy.calm (hstarted.trans (calm_update fun _ _ ↦ .of_late rfl rfl rfl rfl (by simp)))
  · cases services.readHead exchange.headers with
    | none => exact (hproxy.calm hstarted).retire index false
    | some websocket =>
      dsimp only
      rw [update_update]
      refine hproxy.calm (calm_update fun before hbefore ↦ ?_)
      rw [hfound, Option.some_inj] at hbefore
      subst hbefore
      refine ⟨rfl, rfl, id, rfl, fun _ ↦ Or.inl ⟨hphase, ?_⟩, fun hwaits ↦ ?_⟩
      · exact Bool.eq_false_of_not_eq_true hupgraded
      · simp [Phase.Waits] at hwaits

/-- The task of an exchange has a connection to the origin. -/
theorem Invariant.reached {exchange : Exchange} (hproxy : Invariant proxy)
    (hfound : proxy.objects[index]? = some exchange) (hphase : exchange.phase = .connecting) :
    Invariant (proxy.reached index exchange) := by
  have hwaits : exchange.phase.Waits := Or.inl hphase
  have hreached : Calm proxy { proxy with origin := some (proxy.origin.getD {}) } :=
    @calm_legs proxy _ (some (proxy.origin.getD {})) rfl rfl rfl _ _
  unfold Proxy.reached
  dsimp only
  split_ifs
  · exact (hproxy.calm hreached).retire index false
  all_goals
    refine hproxy.calm (hreached.trans (calm_update fun before hbefore ↦ ?_))
    have hsame : before = exchange := Option.some_inj.mp (hbefore.symm.trans hfound)
    subst hsame
    exact ⟨rfl, rfl, id, rfl, fun _ ↦ Or.inr (Or.inr hwaits), fun _ ↦ hwaits⟩

/-- The settings of the origin are known. -/
theorem Invariant.settled {exchange : Exchange} (hproxy : Invariant proxy)
    (hfound : proxy.objects[index]? = some exchange) (hphase : exchange.phase = .settling)
    (enabled : Bool) : Invariant (proxy.settled index enabled) := by
  have hwaits : exchange.phase.Waits := Or.inr (Or.inl hphase)
  unfold Proxy.settled
  split_ifs
  · exact hproxy.retire index false
  · refine hproxy.calm (calm_update fun before hbefore ↦ ?_)
    have hsame : before = exchange := Option.some_inj.mp (hbefore.symm.trans hfound)
    subst hsame
    exact ⟨rfl, rfl, id, rfl, fun _ ↦ Or.inr (Or.inr hwaits), fun _ ↦ hwaits⟩

/-- The task of an exchange comes to its cleanup. -/
theorem Invariant.leave (hproxy : Invariant proxy) (index : ℕ) (exchange : Exchange)
    (normal : Bool) : Invariant (proxy.leave index exchange normal) := by
  unfold Proxy.leave
  split
  · exact hproxy
  · exact hproxy
  · split_ifs
    · exact hproxy.retire index _
    · exact hproxy
  · split_ifs
    · exact hproxy.retire index _
    · exact hproxy
  · split_ifs
    · exact hproxy.retire index _
    · exact hproxy
  · exact hproxy.retire index _

/-- The maps are cleared. -/
theorem Invariant.clear (hproxy : Invariant proxy) (closing : List ℕ) :
    Invariant (proxy.clear closing) := by
  have hdiscarded : Invariant (closing.foldl Proxy.discardUnretired proxy) :=
    hproxy.calm (calm_foldl (fun _ index ↦ calm_discardUnretired index) _ _)
  unfold Proxy.clear
  generalize closing.foldl Proxy.discardUnretired proxy = discarded at hdiscarded ⊢
  refine ⟨⟨⟨fun _ h ↦ ?_, List.nodup_nil, fun _ h ↦ ?_, Nat.zero_le _, List.nodup_nil, fun _ h ↦ ?_,
    fun _ h ↦ ?_, fun _ _ _ _ _ h ↦ ?_⟩, fun other exchange hfound ↦ ?_, hdiscarded.ordered,
    hdiscarded.drained⟩, fun _ _ _ h ↦ ?_⟩
  · exact absurd h List.not_mem_nil
  · exact absurd h List.not_mem_nil
  · exact absurd h List.not_mem_nil
  · exact absurd h List.not_mem_nil
  · exact absurd h List.not_mem_nil
  · have hbefore := hdiscarded.lawful other exchange hfound
    exact ⟨hbefore.fresh, hbefore.undispatched, hbefore.waits, hbefore.finished⟩
  · exact absurd h List.not_mem_nil

/-- An event that neither opens a stream nor drains. -/
def Event.Plain (event : Event) : Prop :=
  (∀ streamId headers, event ≠ .request streamId headers) ∧
    ∀ lastStreamId, event ≠ .shutdown lastStreamId

/-- An event that does not open a stream leaves the streams of a connection. -/
theorem after_highest {event : Event} (hevent : ∀ streamId headers, event ≠ .request streamId headers)
    (leg : Leg) (number : ℕ) : (leg.after (event.labelled number)).highest = leg.highest := by
  cases event with
  | request streamId headers => exact absurd rfl (hevent streamId headers)
  | response streamId headers => rfl
  | informational streamId headers => rfl
  | data chunk => rfl
  | trailers streamId headers => rfl
  | ended streamId => rfl
  | reset streamId => rfl
  | shutdown lastStreamId => rfl

theorem after_peerLast {event : Event} (hevent : ∀ lastStreamId, event ≠ .shutdown lastStreamId)
    (leg : Leg) (number : ℕ) : (leg.after (event.labelled number)).peerLast = leg.peerLast := by
  cases event with
  | request streamId headers => rfl
  | response streamId headers => rfl
  | informational streamId headers => rfl
  | data chunk => rfl
  | trailers streamId headers => rfl
  | ended streamId => rfl
  | reset streamId => rfl
  | shutdown lastStreamId => exact absurd rfl (hevent lastStreamId)

theorem calm_frontendEvent {event : Event} (hplain : event.Plain) (number : ℕ) :
    Calm proxy (proxy.frontendEvent (event.labelled number)) := by
  cases event with
  | request streamId headers => exact absurd rfl (hplain.1 streamId headers)
  | response streamId headers => exact .refl proxy
  | informational streamId headers => exact .refl proxy
  | data chunk => exact calm_dispatchStream _ _ _ _
  | trailers streamId headers => exact calm_dispatchStream _ _ _ _
  | ended streamId => exact calm_dispatchStream _ _ _ _
  | reset streamId => exact calm_dispatchStream _ _ _ _
  | shutdown lastStreamId => exact absurd rfl (hplain.2 lastStreamId)

theorem calm_originEvent {event : Event} (hplain : event.Plain) (number : ℕ) :
    Calm proxy (proxy.originEvent (event.labelled number)) := by
  cases event with
  | request streamId headers => exact .refl proxy
  | response streamId headers => exact calm_dispatchStream _ _ _ _
  | informational streamId headers => exact calm_dispatchStream _ _ _ _
  | data chunk => exact calm_dispatchStream _ _ _ _
  | trailers streamId headers => exact (calm_endResponse _).trans (calm_dispatchStream _ _ _ _)
  | ended streamId => exact (calm_endResponse _).trans (calm_dispatchStream _ _ _ _)
  | reset streamId => exact calm_dispatchStream _ _ _ _
  | shutdown lastStreamId => exact absurd rfl (hplain.2 lastStreamId)

/-- A connection emits a plain event. -/
theorem calm_emitted {side : Side} {event : Event} {leg : Leg}
    (hreading : proxy.reading side = some leg) (hplain : event.Plain) :
    Calm proxy ({ proxy with numbered := proxy.numbered + 1 }.putLeg
      (leg.after (event.labelled proxy.numbered)) side) :=
  calm_putLeg hreading (after_highest hplain.1 leg _) (fun _ ↦ after_peerLast hplain.2 leg _) _

/-- The connection of the client emits an event. -/
theorem Invariant.readFront {event : Event} {leg : Leg} (hproxy : Invariant proxy)
    (hreading : proxy.reading .front = some leg) (hemits : leg.Emits .front event) :
    Invariant (({ proxy with numbered := proxy.numbered + 1 }.putLeg
      (leg.after (event.labelled proxy.numbered)) .front).frontendEvent
        (event.labelled proxy.numbered)) := by
  by_cases hplain : event.Plain
  · exact hproxy.calm ((calm_emitted hreading hplain).trans (calm_frontendEvent hplain _))
  cases event with
  | request streamId headers =>
    have hfront := reading_front hreading
    have hnew : proxy.front.highest < streamId := hfront ▸ hemits
    refine Invariant.openExchange ?_ ?_ ?_
    · exact hproxy.raise hnew.le _
    · exact fun entry hentry ↦ ((hproxy.consistent.below entry hentry).trans_lt hnew).ne
    · exact le_rfl
  | shutdown lastStreamId =>
    have hfront := reading_front hreading
    refine Invariant.drain ?_ none
    exact hproxy.raise (hfront ▸ le_rfl) _
  | response streamId headers => exact absurd (by simp [Event.Plain]) hplain
  | informational streamId headers => exact absurd (by simp [Event.Plain]) hplain
  | data chunk => exact absurd (by simp [Event.Plain]) hplain
  | trailers streamId headers => exact absurd (by simp [Event.Plain]) hplain
  | ended streamId => exact absurd (by simp [Event.Plain]) hplain
  | reset streamId => exact absurd (by simp [Event.Plain]) hplain

/-- The connection to the origin changes, but it opens no stream and loses none. -/
theorem Core.relay {leg : Leg} (hproxy : Core proxy) (horigin : proxy.origin = some leg) (next : Leg)
    (hhighest : next.highest = leg.highest) (numbered : ℕ) :
    Core { proxy with origin := some next, numbered } := by
  have hconsistent := hproxy.consistent
  refine ⟨⟨hconsistent.named, hconsistent.keys, hconsistent.below, hconsistent.limited,
    hconsistent.originKeys, hconsistent.mapped, hconsistent.inverse, hconsistent.owned⟩,
    fun other exchange hfound ↦ ?_, hproxy.ordered, hproxy.drained⟩
  have hbefore := hproxy.lawful other exchange hfound
  refine ⟨fun hretired originId hid ↦ ?_, hbefore.undispatched, hbefore.waits, hbefore.finished⟩
  have hle := hbefore.fresh hretired originId hid
  rw [horigin] at hle
  exact hle.trans hhighest.ge

/-- The connection to the origin emits an event. -/
theorem Invariant.readOrigin {event : Event} {leg : Leg} (hproxy : Invariant proxy)
    (hreading : proxy.reading .origin = some leg) (hemits : leg.Emits .origin event) :
    Invariant (({ proxy with numbered := proxy.numbered + 1 }.putLeg
      (leg.after (event.labelled proxy.numbered)) .origin).originEvent
        (event.labelled proxy.numbered)) := by
  by_cases hplain : event.Plain
  · exact hproxy.calm ((calm_emitted hreading hplain).trans (calm_originEvent hplain _))
  cases event with
  | request streamId headers => exact hemits.elim
  | shutdown lastStreamId =>
    have horigin := reading_origin hreading
    have hshut : Core { proxy with
        origin := some { leg with peerLast := some lastStreamId }
        numbered := proxy.numbered + 1 } := 
      hproxy.toCore.relay horigin { leg with peerLast := some lastStreamId } rfl _
    exact ⟨hshut.drain _, fenced_drain rfl⟩
  | response streamId headers => exact absurd (by simp [Event.Plain]) hplain
  | informational streamId headers => exact absurd (by simp [Event.Plain]) hplain
  | data chunk => exact absurd (by simp [Event.Plain]) hplain
  | trailers streamId headers => exact absurd (by simp [Event.Plain]) hplain
  | ended streamId => exact absurd (by simp [Event.Plain]) hplain
  | reset streamId => exact absurd (by simp [Event.Plain]) hplain

theorem Invariant.read (hproxy : Invariant proxy) (side : Side) (event : Event) :
    Invariant (proxy.read side event) := by
  unfold Proxy.read
  cases hreading : proxy.reading side with
  | none => exact hproxy
  | some leg =>
    dsimp only
    by_cases hemits : leg.Emits side event
    · rw [if_neg (not_not.mpr hemits)]
      cases side with
      | front => exact hproxy.readFront hreading hemits
      | origin => exact hproxy.readOrigin hreading hemits
    · rw [if_pos hemits]
      exact hproxy

/-- A task that goes on from a phase. -/
theorem Invariant.resume {phase : Phase} {work : Exchange → Proxy} (hproxy : Invariant proxy)
    (hwork : ∀ exchange, proxy.objects[index]? = some exchange → exchange.phase = phase →
      Invariant (work exchange)) : Invariant (proxy.resume index phase work) := by
  unfold Proxy.resume
  cases hfound : proxy.objects[index]? with
  | none => exact hproxy
  | some exchange =>
    dsimp only
    split_ifs with hphase
    · exact hwork exchange hfound hphase.1
    · exact hproxy

/-- A task that goes on. -/
theorem Invariant.onExchange {work : Exchange → Proxy} (hproxy : Invariant proxy)
    (hwork : ∀ exchange, proxy.objects[index]? = some exchange → Invariant (work exchange)) :
    Invariant (proxy.onExchange index work) := by
  unfold Proxy.onExchange
  cases hfound : proxy.objects[index]? with
  | none => exact hproxy
  | some exchange => exact hwork exchange hfound

/-- A step keeps the invariant. -/
theorem Invariant.step (hproxy : Invariant proxy) (input : Proxy.Input) :
    Invariant (proxy.step services input) := by
  cases input with
  | event side event => exact hproxy.read side event
  | fails side => exact hproxy.calm (calm_fail side)
  | ends side normal => exact hproxy.calm (calm_readEnds side normal)
  | start index =>
    refine hproxy.onExchange fun exchange hfound ↦ ?_
    split_ifs with hphase
    · exact hproxy.start hfound hphase
    · exact hproxy
  | authorize index => exact hproxy.resume fun _ hfound hphase ↦ hproxy.authorized hfound hphase
  | reach index => exact hproxy.resume fun _ hfound hphase ↦ hproxy.reached hfound hphase
  | settle index enabled =>
    exact hproxy.resume fun _ hfound hphase ↦ hproxy.settled hfound hphase enabled
  | dispatch index sending =>
    exact hproxy.resume fun _ hfound hphase ↦ hproxy.dispatch hfound hphase sending
  | flush index => exact hproxy.resume fun _ _ _ ↦ hproxy.calm (calm_flushed index)
  | take index side => exact hproxy.calm (calm_takeNext index side)
  | sent index side =>
    cases side with
    | front => exact hproxy.onExchange fun exchange _ ↦ hproxy.calm (calm_uploadSent index exchange)
    | origin => exact hproxy.onExchange fun exchange _ ↦ hproxy.calm (calm_replySent index exchange)
  | interrupt index side =>
    exact hproxy.onExchange fun exchange _ ↦ hproxy.calm (calm_interrupt index exchange side)
  | leave index normal =>
    exact hproxy.onExchange fun exchange _ ↦ hproxy.leave index exchange normal
  | shutdown =>
    unfold Proxy.step
    split_ifs
    · exact hproxy.calm calm_shutdown
    · exact hproxy
  | clear =>
    unfold Proxy.step
    cases proxy.closing with
    | none => exact hproxy
    | some closing => exact hproxy.clear closing

/-- The invariant holds before `run`. -/
theorem invariant_initial (maximumStreams : StreamLimit) (adoption : Option Headers) :
    Invariant (.initial maximumStreams adoption) := by
  have hdone : Along InOrder [] := .nil
  cases adoption with
  | none =>
    refine ⟨⟨⟨fun _ h ↦ ?_, List.nodup_nil, fun _ h ↦ ?_, Nat.zero_le _, List.nodup_nil,
      fun _ h ↦ ?_, fun _ h ↦ ?_, fun _ _ h ↦ ?_⟩, fun _ _ h ↦ ?_, hdone, fun h ↦ ?_⟩,
      fun _ _ h ↦ ?_⟩
    all_goals cases h
  | some headers =>
    have honly : ∀ (index : ℕ) exchange,
        (Proxy.adopted maximumStreams headers).objects[index]? = some exchange →
          index = 0 ∧ exchange.originId = some 1 ∧ exchange.phase = .created ∧
            exchange.upgraded = true ∧ exchange.retired = false := by
      intro index exchange hfound
      unfold Proxy.adopted at hfound
      dsimp only at hfound
      rw [List.getElem?_singleton] at hfound
      split_ifs at hfound with hindex
      cases hfound
      exact ⟨hindex, rfl, rfl, rfl, rfl⟩
    refine ⟨⟨⟨fun entry hentry ↦ ?_, List.nodup_singleton 1, fun entry hentry ↦ ?_,
      maximumStreams.2.1, List.nodup_singleton 1, fun entry hentry ↦ ?_,
      fun entry hentry exchange hfound originId hid ↦ ?_,
      fun index exchange hfound _ entry hentry _ ↦ ?_⟩, fun index exchange hfound ↦ ?_, hdone,
      fun h ↦ ?_⟩, fun _ _ _ _ _ hlast ↦ ?_⟩
    · cases List.mem_singleton.mp hentry
      exact ⟨_, rfl, rfl, rfl⟩
    · cases List.mem_singleton.mp hentry
      exact le_rfl
    · cases List.mem_singleton.mp hentry
      exact ⟨_, rfl, rfl⟩
    · cases List.mem_singleton.mp hentry
      have hone := (honly _ exchange hfound).2.1
      rw [hone, Option.some_inj] at hid
      exact hid ▸ List.mem_singleton_self _
    · cases List.mem_singleton.mp hentry
      exact (honly index exchange hfound).1.symm
    · obtain ⟨_, hone, hcreated, hupgraded, hretired⟩ := honly index exchange hfound
      refine ⟨fun _ originId hid ↦ ?_, fun h ↦ ?_, fun h ↦ ?_, fun h ↦ ?_⟩
      · rw [hone, Option.some_inj] at hid
        exact hid.ge
      · simp [Exchange.Undispatched, Phase.Waits, hcreated, hupgraded] at h
      · simp [Phase.Waits, hcreated] at h
      · simp [hretired] at h
    · cases h
    · cases hlast

/-- The invariant holds in every run. -/
theorem Invariant.run (hproxy : Invariant proxy) (inputs : List Proxy.Input) :
    Invariant (proxy.run services inputs) := by
  induction inputs generalizing proxy with
  | nil => exact hproxy
  | cons input rest ih => exact ih (hproxy.step input)

/-! ### Safety -/

/-- The exchanges of a proxy with at most `maximumStreams` of them are safe. An exchange is live while
it is in the map of the exchanges. -/
structure Safe (maximumStreams : StreamLimit) (proxy : Proxy) : Prop where
  /-- The headers of a request are sent to the origin after its own authorization succeeded. -/
  authorized : ∀ before index originId after,
    proxy.log = before ++ .headers index originId :: after → .authorized index ∈ before
  /-- A live exchange has one stream of the client. -/
  frontendInjective : ∀ frontendId other index, proxy.exchanges.lookup frontendId = some index →
    proxy.exchanges.lookup other = some index → frontendId = other
  /-- An exchange has one stream to the origin. -/
  originInjective : ∀ originId other index, proxy.originStreams.lookup originId = some index →
    proxy.originStreams.lookup other = some index → originId = other
  /-- The streams of a live exchange lead to it, and no others do. -/
  inverse : ∀ frontendId index, proxy.exchanges.lookup frontendId = some index →
    ∃ exchange, proxy.objects[index]? = some exchange ∧ exchange.frontendId = frontendId ∧
      ∀ originId, exchange.originId = some originId ↔
        proxy.originStreams.lookup originId = some index
  /-- No exchange is opened after the drain began. -/
  opened : ∀ before index after, proxy.log = before ++ .opened index :: after → .draining ∉ before
  /-- A live exchange above the last stream that the origin answers is cancelled. -/
  cancelled : ∀ leg ∈ proxy.origin, ∀ last ∈ leg.peerLast, ∀ frontendId index,
    proxy.exchanges.lookup frontendId = some index → ∀ exchange ∈ proxy.objects[index]?,
      ∀ originId ∈ exchange.originId, last < originId → exchange.cancelled = true
  /-- There are not too many exchanges. -/
  limited : proxy.exchanges.length ≤ maximumStreams.val

/-- A map with one value for each key. -/
theorem lookup_eq_some {mapping : List (ℕ × ℕ)} (hkeys : (mapping.map Prod.fst).Nodup)
    {key value : ℕ} : mapping.lookup key = some value ↔ (key, value) ∈ mapping := by
  induction mapping with
  | nil => simp
  | cons entry rest ih =>
    obtain ⟨hhead, hrest⟩ := List.nodup_cons.mp hkeys
    rw [List.lookup_cons, List.mem_cons]
    by_cases hkey : key = entry.1
    · subst hkey
      have habsent : (entry.1, value) ∉ rest :=
        fun h ↦ hhead (List.mem_map.mpr ⟨(entry.1, value), h, rfl⟩)
      simp only [beq_self_eq_true, Option.some_inj, habsent, or_false]
      constructor
      · rintro rfl
        rfl
      · intro h
        exact (Prod.ext_iff.mp h).2.symm
    · have hne : (key == entry.1) = false := beq_false_of_ne hkey
      rw [hne]
      dsimp only
      rw [ih hrest]
      constructor
      · exact Or.inr
      · rintro (h | h)
        · exact absurd (Prod.ext_iff.mp h).1 hkey
        · exact h

theorem maximumStreams_retire (index : ℕ) (complete : Bool) :
    (proxy.retire index complete).maximumStreams = proxy.maximumStreams := by
  cases hfound : proxy.objects[index]? with
  | none =>
    unfold Proxy.retire
    rw [hfound]
  | some exchange =>
    by_cases hretired : exchange.retired = true
    · unfold Proxy.retire
      rw [hfound]
      dsimp only
      rw [if_pos hretired]
    · exact (calm_retire hfound (Bool.eq_false_of_not_eq_true hretired) complete).maximumStreams

theorem maximumStreams_drain (originLast : Option ℕ) :
    (proxy.drain originLast).maximumStreams = proxy.maximumStreams := by
  have hcalm : Calm proxy.beginDrain (proxy.drain originLast) :=
    calm_foldl (calm_fence originLast) _ _
  refine hcalm.maximumStreams.trans ?_
  unfold Proxy.beginDrain
  split_ifs <;> rfl

theorem maximumStreams_frontendEvent (event : Event) :
    (proxy.frontendEvent event).maximumStreams = proxy.maximumStreams := by
  cases event with
  | request streamId headers =>
    unfold Proxy.frontendEvent Proxy.openExchange
    dsimp only
    split_ifs
    · exact (calm_deny _ _).maximumStreams
    · rfl
  | shutdown lastStreamId => exact maximumStreams_drain _
  | response streamId headers => rfl
  | informational streamId headers => rfl
  | data chunk => exact (calm_dispatchStream _ _ _ _).maximumStreams
  | trailers streamId headers => exact (calm_dispatchStream _ _ _ _).maximumStreams
  | ended streamId => exact (calm_dispatchStream _ _ _ _).maximumStreams
  | reset streamId => exact (calm_dispatchStream _ _ _ _).maximumStreams

theorem maximumStreams_originEvent (event : Event) (number : ℕ) :
    (proxy.originEvent (event.labelled number)).maximumStreams = proxy.maximumStreams := by
  by_cases hplain : event.Plain
  · exact (calm_originEvent hplain number).maximumStreams
  · cases event with
    | request streamId headers => rfl
    | shutdown lastStreamId => exact maximumStreams_drain _
    | response streamId headers => exact absurd (by simp [Event.Plain]) hplain
    | informational streamId headers => exact absurd (by simp [Event.Plain]) hplain
    | data chunk => exact absurd (by simp [Event.Plain]) hplain
    | trailers streamId headers => exact absurd (by simp [Event.Plain]) hplain
    | ended streamId => exact absurd (by simp [Event.Plain]) hplain
    | reset streamId => exact absurd (by simp [Event.Plain]) hplain

theorem maximumStreams_read (side : Side) (event : Event) :
    (proxy.read side event).maximumStreams = proxy.maximumStreams := by
  unfold Proxy.read
  cases proxy.reading side with
  | none => rfl
  | some leg =>
    dsimp only
    by_cases hemits : leg.Emits side event
    · rw [if_neg (not_not.mpr hemits)]
      cases side with
      | front => exact maximumStreams_frontendEvent _
      | origin => exact maximumStreams_originEvent event _
    · rw [if_pos hemits]

/-- A task that goes on keeps what its work keeps. -/
theorem maximumStreams_onExchange {work : Exchange → Proxy}
    (hwork : ∀ exchange, (work exchange).maximumStreams = proxy.maximumStreams) :
    (proxy.onExchange index work).maximumStreams = proxy.maximumStreams := by
  unfold Proxy.onExchange
  cases proxy.objects[index]? with
  | none => rfl
  | some exchange => exact hwork exchange

theorem maximumStreams_resume {phase : Phase} {work : Exchange → Proxy}
    (hwork : ∀ exchange, (work exchange).maximumStreams = proxy.maximumStreams) :
    (proxy.resume index phase work).maximumStreams = proxy.maximumStreams := by
  unfold Proxy.resume
  cases proxy.objects[index]? with
  | none => rfl
  | some exchange =>
    dsimp only
    split_ifs
    · exact hwork exchange
    · rfl

theorem maximumStreams_start (exchange : Exchange) :
    (proxy.start services index exchange).maximumStreams = proxy.maximumStreams := by
  unfold Proxy.start
  dsimp only
  split_ifs
  · exact maximumStreams_retire _ _
  · rfl
  · cases services.readHead exchange.headers with
    | none => exact maximumStreams_retire _ _
    | some websocket => rfl

theorem maximumStreams_dispatch (sending : Proxy.Sending) :
    (proxy.dispatch index sending).maximumStreams = proxy.maximumStreams := by
  unfold Proxy.dispatch
  cases proxy.origin with
  | none => rfl
  | some leg =>
    dsimp only
    split_ifs
    · exact maximumStreams_retire _ _
    · exact maximumStreams_retire _ _
    · cases sending with
      | sent => rfl
      | refused used => exact maximumStreams_retire _ _

theorem maximumStreams_leave (exchange : Exchange) (normal : Bool) :
    (proxy.leave index exchange normal).maximumStreams = proxy.maximumStreams := by
  unfold Proxy.leave
  split
  · rfl
  · rfl
  · split_ifs
    · exact maximumStreams_retire _ _
    · rfl
  · split_ifs
    · exact maximumStreams_retire _ _
    · rfl
  · split_ifs
    · exact maximumStreams_retire _ _
    · rfl
  · exact maximumStreams_retire _ _

/-- No step changes the limit. -/
theorem maximumStreams_step (input : Proxy.Input) :
    (proxy.step services input).maximumStreams = proxy.maximumStreams := by
  cases input with
  | event side event => exact maximumStreams_read side event
  | fails side => exact (calm_fail side).maximumStreams
  | ends side normal => exact (calm_readEnds side normal).maximumStreams
  | start index =>
    refine maximumStreams_onExchange fun exchange ↦ ?_
    split_ifs
    · exact maximumStreams_start exchange
    · rfl
  | authorize index => exact maximumStreams_resume fun _ ↦ rfl
  | reach index =>
    refine maximumStreams_resume fun exchange ↦ ?_
    unfold Proxy.reached
    dsimp only
    split_ifs
    · exact maximumStreams_retire _ _
    · rfl
    · rfl
  | settle index enabled =>
    refine maximumStreams_resume fun exchange ↦ ?_
    unfold Proxy.settled
    split_ifs
    · exact maximumStreams_retire _ _
    · rfl
  | dispatch index sending => exact maximumStreams_resume fun _ ↦ maximumStreams_dispatch sending
  | flush index => exact maximumStreams_resume fun _ ↦ rfl
  | take index side => exact (calm_takeNext index side).maximumStreams
  | sent index side =>
    cases side with
    | front => exact maximumStreams_onExchange fun _ ↦ (calm_uploadSent _ _).maximumStreams
    | origin => exact maximumStreams_onExchange fun _ ↦ (calm_replySent _ _).maximumStreams
  | interrupt index side => exact maximumStreams_onExchange fun _ ↦ (calm_interrupt _ _ _).maximumStreams
  | leave index normal => exact maximumStreams_onExchange fun _ ↦ maximumStreams_leave _ normal
  | shutdown =>
    unfold Proxy.step
    split_ifs
    · exact calm_shutdown.maximumStreams
    · rfl
  | clear =>
    unfold Proxy.step
    cases proxy.closing with
    | none => rfl
    | some closing =>
      exact (calm_foldl (fun _ index ↦ calm_discardUnretired index) closing proxy).maximumStreams

theorem maximumStreams_run (inputs : List Proxy.Input) (proxy : Proxy) :
    (proxy.run services inputs).maximumStreams = proxy.maximumStreams := by
  induction inputs generalizing proxy with
  | nil => rfl
  | cons input rest ih => exact (ih _).trans (maximumStreams_step input)

/-- The invariant makes the exchanges safe. -/
theorem Invariant.safe (hproxy : Invariant proxy) : Safe proxy.maximumStreams proxy where
  authorized before index originId after hlog :=
    (hproxy.ordered before _ after hlog).headers index originId rfl
  opened before index after hlog := (hproxy.ordered before _ after hlog).opened index rfl
  frontendInjective frontendId other index hfrontend hother := by
    rw [lookup_eq_some hproxy.consistent.keys] at hfrontend hother
    obtain ⟨exchange, hfound, hnamed, _⟩ := hproxy.consistent.named _ hfrontend
    obtain ⟨same, hsame, hagain, _⟩ := hproxy.consistent.named _ hother
    have heq : exchange = same := Option.some_inj.mp (hfound.symm.trans hsame)
    exact hnamed.symm.trans ((congrArg Exchange.frontendId heq).trans hagain)
  originInjective originId other index horigin hother := by
    rw [lookup_eq_some hproxy.consistent.originKeys] at horigin hother
    obtain ⟨exchange, hfound, hmapped⟩ := hproxy.consistent.mapped _ horigin
    obtain ⟨same, hsame, hagain⟩ := hproxy.consistent.mapped _ hother
    have heq : exchange = same := Option.some_inj.mp (hfound.symm.trans hsame)
    exact Option.some_inj.mp
      (hmapped.symm.trans ((congrArg Exchange.originId heq).trans hagain))
  inverse frontendId index hfrontend := by
    rw [lookup_eq_some hproxy.consistent.keys] at hfrontend
    obtain ⟨exchange, hfound, hnamed, _⟩ := hproxy.consistent.named _ hfrontend
    refine ⟨exchange, hfound, hnamed, fun originId ↦ ?_⟩
    rw [lookup_eq_some hproxy.consistent.originKeys]
    constructor
    · exact hproxy.consistent.inverse _ hfrontend exchange hfound originId
    · intro horigin
      obtain ⟨same, hsame, hmapped⟩ := hproxy.consistent.mapped _ horigin
      have heq : exchange = same := Option.some_inj.mp (hfound.symm.trans hsame)
      exact heq ▸ hmapped
  cancelled leg hleg last hlast frontendId index hfrontend exchange hfound originId hid hbeyond := by
    rw [lookup_eq_some hproxy.consistent.keys] at hfrontend
    obtain ⟨same, hsame, hnamed, _⟩ := hproxy.consistent.named _ hfrontend
    have heq : exchange = same := Option.some_inj.mp ((Option.mem_def.mp hfound).symm.trans hsame)
    have hlive : (exchange.frontendId, index) ∈ proxy.exchanges := by
      rw [heq, hnamed]
      exact hfrontend
    refine hproxy.fenced index exchange hfound hlive last ?_ originId hid hbeyond
    rw [Option.mem_def.mp hleg]
    exact hlast
  limited := hproxy.consistent.limited

/-- The exchanges are safe in every run of the proxy, whatever the events of its connections and
whenever its tasks go on. -/
theorem exchanges_safe (services : Services) (maximumStreams : StreamLimit)
    (adoption : Option Headers) (inputs : List Proxy.Input) :
    Safe maximumStreams ((Proxy.initial maximumStreams adoption).run services inputs) := by
  have hproxy : Invariant ((Proxy.initial maximumStreams adoption).run services inputs) :=
    (invariant_initial maximumStreams adoption).run inputs
  have hmaximum : ((Proxy.initial maximumStreams adoption).run services inputs).maximumStreams =
      maximumStreams := by
    rw [maximumStreams_run]
    cases adoption <;> rfl
  have hsafe := hproxy.safe
  rwa [hmaximum] at hsafe

end Ads.SandboxEgress.Http2Proxy
