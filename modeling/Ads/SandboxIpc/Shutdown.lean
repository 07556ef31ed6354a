import Ads.SandboxIpc.AtMostOnce

/-!
# Acknowledging a shutdown

A shutdown latches first. Then it drops the unit that waits, and its acknowledgement follows the
result of the unit that executes. A result is owed from the step that makes it until it is published.

The terminal slot remembers an owed result until the next unit ends. A unit that ends without having
executed has no result, and with it the slot forgets the one that was owed:
`acknowledges_owed` acknowledges a shutdown after that, and `clean_of_keeps` says that a shutdown is
clean in every other run.
-/

set_option autoImplicit false
set_option relaxedAutoImplicit false

namespace Ads.SandboxIpc

open Python

/-! ### Owed results -/

/-- An attempt to publish a result, and whether it succeeded. -/
def Effect.resultSent : Effect → Option Bool
  | .publish (.result _) _ published => some published
  | _ => none

/-- The results of a step are new ones. For a message of the last execution, and for a shutdown, the
last result is sent again. -/
def Event.isFresh (service : Service) : Event → Bool
  | .executed _ _ _ => true
  | .accept delivery _ _ => service.lastId ≠ some delivery.message.control.executionId
  | _ => false

/-- Whether the last result is owed after some effects of a step. -/
def owedAfter (fresh owed : Bool) (effects : List Effect) : Bool :=
  (effects.filterMap Effect.resultSent).foldl
    (fun owed published ↦ if published then false else fresh || owed) owed

/-- Whether the last result is owed after some steps from a state. -/
def owedFrom (settings : Settings) (service : Service) (owed : Bool) : List Event → Bool
  | [] => owed
  | event :: rest =>
    let (next, effects) := step settings service event
    owedFrom settings next (owedAfter (event.isFresh service) owed effects) rest

/-- Whether the last result is owed after some steps from the start. -/
def owedResult (settings : Settings) (events : List Event) : Bool :=
  owedFrom settings .initial false events

theorem owedFrom_snoc (settings : Settings) (service : Service) (owed : Bool) (events : List Event)
    (event : Event) :
    owedFrom settings service owed (events ++ [event]) =
      owedAfter (event.isFresh (runFrom settings service events).1)
        (owedFrom settings service owed events)
        (step settings (runFrom settings service events).1 event).2 := by
  induction events generalizing service owed with
  | nil => rfl
  | cons first rest ih => exact ih _ _

@[simp] theorem owedAfter_nil (fresh owed : Bool) : owedAfter fresh owed [] = owed :=
  rfl

theorem owedAfter_append (fresh owed : Bool) (first second : List Effect) :
    owedAfter fresh owed (first ++ second) =
      owedAfter fresh (owedAfter fresh owed first) second := by
  simp [owedAfter]

/-- Effects without results change nothing. -/
theorem owedAfter_of_none {fresh owed : Bool} {effects : List Effect}
    (hnone : ∀ effect ∈ effects, effect.resultSent = none) :
    owedAfter fresh owed effects = owed := by
  rw [owedAfter, List.filterMap_eq_nil_iff.mpr hnone, List.foldl_nil]

/-! ### What a clean shutdown is -/

/-- No unit is current and no task executes one. -/
structure Idle (service : Service) : Prop where
  current : service.current = none
  scheduled : service.scheduled = []
  running : service.running = []

/-- A unit is moved to executing. -/
def Starts (before after : Service) : Prop :=
  ∃ unit, after.current = some unit ∧ unit.executing = true ∧
    ∀ earlier, before.current = some earlier → earlier.executing = false

/-- What a step has to keep to after some steps from the start. -/
structure Clean (settings : Settings) (events : List Event) (event : Event) : Prop where
  /-- A shutdown is acknowledged while the service is idle and owes no result. -/
  acknowledged : ∀ sent transition token published rest,
    (step settings (run settings events).1 event).2 =
      sent ++ .publish (.shutdownAck transition) token published :: rest →
    Idle (step settings (run settings events).1 event).1 ∧
      owedAfter (event.isFresh (run settings events).1) (owedResult settings events) sent = false
  /-- No unit is moved to executing once a shutdown was latched. -/
  latched : ∀ earlier token transition later,
    events = earlier ++ .shutdown token transition :: later →
      ¬ Starts (run settings events).1 (step settings (run settings events).1 event).1

/-- The current unit while it waits for the reply to its acknowledgement. -/
def Service.waiting (service : Service) : Option CurrentUnit :=
  service.current.filter fun unit ↦ !unit.executing

/-- A step ends a unit that did not execute. -/
def EndsWaiting (settings : Settings) (service : Service) : Event → Prop
  | .accept delivery now published =>
    service.kafkaReady = true ∧ service.stopping = false ∧ service.failed = false ∧
      service.lastId ≠ some delivery.message.control.executionId ∧
      match delivery.message with
      | .request request => service.current = none ∧ published = false ∧
          (encodeUtf8 request.payload).length ≤ settings.inputBytes
      | .ackReply control => ∃ unit ∈ service.waiting, control = unit.request.control ∧
          delivery.subject = unit.subject ∧ unit.deadline ≤ now
      | .ackReset control | .abort control => ∃ unit ∈ service.waiting,
          control = unit.request.control ∧ delivery.subject = unit.subject
  | .ackTimeout now => ∃ unit ∈ service.waiting, unit.deadline ≤ now
  | .drain _ _ => service.draining ≠ 0 ∧ service.waiting.isSome = true
  | _ => False

instance decidableEndsWaiting (settings : Settings) (service : Service) :
    DecidablePred (EndsWaiting settings service)
  | .accept delivery _ _ =>
    match delivery with
    | ⟨.request _, _, _⟩ => inferInstanceAs (Decidable (_ ∧ _))
    | ⟨.ackReply _, _, _⟩ => inferInstanceAs (Decidable (_ ∧ _))
    | ⟨.ackReset _, _, _⟩ => inferInstanceAs (Decidable (_ ∧ _))
    | ⟨.abort _, _, _⟩ => inferInstanceAs (Decidable (_ ∧ _))
  | .ackTimeout now => inferInstanceAs (Decidable (∃ unit ∈ service.waiting, unit.deadline ≤ now))
  | .drain _ _ => inferInstanceAs (Decidable (_ ∧ _))
  | .startup _ | .executeUnit | .executed _ _ _ | .shutdown _ _ | .closed | .stop | .stopped =>
    inferInstanceAs (Decidable False)

/-- No unit ends without having executed while the result in the terminal slot is undelivered. -/
def Keeps (settings : Settings) (events : List Event) : Prop :=
  ∀ (index : ℕ) (hindex : index < events.length),
    (run settings (events.take index)).1.resultDelivered = false →
      ¬ EndsWaiting settings (run settings (events.take index)).1 events[index]

instance decidableKeeps (settings : Settings) : DecidablePred (Keeps settings) :=
  fun _ ↦ Nat.decidableBallLT _ _

/-- The unit that waits is the current one. -/
theorem mem_waiting {service : Service} {unit : CurrentUnit} (hcurrent : service.current = some unit)
    (hwaiting : unit.executing = false) : unit ∈ service.waiting := by
  simp [Service.waiting, hcurrent, hwaiting]

/-! ### Tasks -/

/-- At most one task executes, and only for a current unit that executes. -/
structure Tasks (service : Service) : Prop where
  single : service.scheduled.length + service.running.length ≤ 1
  waiting : (∀ unit, service.current = some unit → unit.executing = false) →
    service.scheduled = [] ∧ service.running = []

section Tasks

variable {before after : Service} {event : Event} {effects : List Effect}

/-- Without tasks the invariant holds. -/
theorem tasks_of_none (hscheduled : after.scheduled = []) (hrunning : after.running = []) :
    Tasks after := by
  refine ⟨?_, fun _ ↦ ⟨hscheduled, hrunning⟩⟩
  simp [hscheduled, hrunning]

theorem Tasks.move (htasks : Tasks before) (hmove : Move before after event effects) :
    Tasks after := by
  cases hmove with
  | quiet current last scheduled running quiet =>
    refine ⟨by simpa [scheduled, running] using htasks.single, fun hwaiting ↦ ?_⟩
    rw [scheduled, running]
    refine htasks.waiting fun unit hunit ↦ ?_
    rw [hunit] at current
    obtain ⟨same, hsame, heq⟩ := Option.map_eq_some_iff.mp current
    exact (congrArg Prod.snd heq).symm.trans (hwaiting same hsame)
  | @drops _ unit current waiting dropped last scheduled running quiet =>
    obtain ⟨hscheduled, hrunning⟩ := htasks.waiting (by simp [current, waiting])
    exact tasks_of_none (scheduled.trans hscheduled) (running.trans hrunning)
  | refuses idle current last scheduled running quiet =>
    obtain ⟨hscheduled, hrunning⟩ := htasks.waiting (by simp [idle])
    exact tasks_of_none (scheduled.trans hscheduled) (running.trans hrunning)
  | waits accepts message idle current waiting new last scheduled running quiet =>
    obtain ⟨hscheduled, hrunning⟩ := htasks.waiting (by simp [idle])
    exact tasks_of_none (scheduled.trans hscheduled) (running.trans hrunning)
  | @replies unit executing current waiting executes same started last scheduled running =>
    obtain ⟨hscheduled, hrunning⟩ := htasks.waiting (by simp [current, waiting])
    refine ⟨by simp [scheduled, running, hscheduled, hrunning], fun hwaiting ↦ ?_⟩
    simpa [started] using hwaiting executing executes
  | begins scheduled left running current last =>
    have hsingle := htasks.single
    refine ⟨?_, fun hwaiting ↦ ?_⟩
    · simp only [scheduled, left, running, List.length_cons, List.length_append, List.length_nil]
        at hsingle ⊢
      omega
    · rw [current] at hwaiting
      simpa [scheduled] using (htasks.waiting hwaiting).1
  | ends running left scheduled current last quiet =>
    have hsingle := htasks.single
    rw [running, List.length_cons] at hsingle
    refine tasks_of_none ?_ ?_
    · rw [scheduled]
      exact List.eq_nil_of_length_eq_zero (by omega)
    · rw [left]
      exact List.eq_nil_of_length_eq_zero (by omega)
  | stops scheduled running left current last => exact tasks_of_none left.1 left.2

theorem run_tasks (settings : Settings) (events : List Event) : Tasks (run settings events).1 := by
  induction events using List.reverseRecOn with
  | nil => exact tasks_of_none rfl rfl
  | append_singleton events event ih =>
    rw [run_snoc]
    exact ih.move step_moves

end Tasks

/-! ### What a step publishes -/

/-- An acknowledgement of a shutdown. -/
def Effect.isAck : Effect → Bool
  | .publish (.shutdownAck _) _ _ => true
  | _ => false

theorem Effect.resultSent_of_isAck {effect : Effect} (hack : effect.isAck = true) :
    effect.resultSent = none := by
  cases effect with
  | execute request => rfl
  | publish message token published =>
    cases message with
    | result => simp [isAck] at hack
    | acknowledge | ready | shutdownAck => rfl

/-- Effects that are neither results nor acknowledgements of a shutdown. -/
def Quiet (effects : List Effect) : Prop :=
  ∀ effect ∈ effects, effect.resultSent = none ∧ effect.isAck = false

/-- The acknowledgements that a step ends with. -/
structure Acks (after : Service) (acks : List Effect) : Prop where
  only : ∀ effect ∈ acks, effect.isAck = true
  allowed : acks ≠ [] →
    after.current = none ∧ (after.lastResult = none ∨ after.resultDelivered = true)

/-- What a step publishes, and what becomes of the terminal slot. -/
inductive Publishes (settings : Settings) (before after : Service) (event : Event) :
    List Effect → Prop where
  /-- The slot stays. -/
  | quiet {sent acks : List Effect} (sent_quiet : Quiet sent) (acknowledges : Acks after acks)
      (result : after.lastResult = before.lastResult)
      (delivered : after.resultDelivered = before.resultDelivered) :
      Publishes settings before after event (sent ++ acks)
  /-- A unit ends without a result. -/
  | forgets {sent acks : List Effect} (sent_quiet : Quiet sent) (acknowledges : Acks after acks)
      (ends : EndsWaiting settings before event) (result : after.lastResult = none)
      (delivered : after.resultDelivered = true) :
      Publishes settings before after event (sent ++ acks)
  /-- A new result. -/
  | makes {result : Result} {token : Option Text} {published : Bool} {acks : List Effect}
      (fresh : event.isFresh before = true) (acknowledges : Acks after acks)
      (slot : after.lastResult = some result) (delivered : after.resultDelivered = published) :
      Publishes settings before after event (.publish (.result result) token published :: acks)
  /-- The result in the slot is sent again. -/
  | repeats {result : Result} {token : Option Text} {published : Bool} {acks : List Effect}
      (fresh : event.isFresh before = false) (acknowledges : Acks after acks)
      (slot : after.lastResult = some result) (known : before.lastResult = some result)
      (delivered : after.resultDelivered = (before.resultDelivered || published)) :
      Publishes settings before after event (.publish (.result result) token published :: acks)

section Publishes

variable {settings : Settings} {before after service : Service} {event : Event}

theorem quiet_nil : Quiet [] :=
  fun _ hmem ↦ absurd hmem List.not_mem_nil

theorem acks_nil : Acks after [] :=
  ⟨fun _ hmem ↦ absurd hmem List.not_mem_nil, fun hne ↦ absurd rfl hne⟩

/-- Only shutdowns are acknowledged, and the slot stays. -/
theorem publishes_acks {acks : List Effect} (hacks : Acks after acks)
    (hresult : after.lastResult = before.lastResult)
    (hdelivered : after.resultDelivered = before.resultDelivered) :
    Publishes settings before after event acks := by
  show Publishes settings before after event ([] ++ acks)
  exact .quiet quiet_nil hacks hresult hdelivered

/-- Nothing is published, and the slot stays. -/
theorem publishes_nothing (hresult : after.lastResult = before.lastResult)
    (hdelivered : after.resultDelivered = before.resultDelivered) :
    Publishes settings before after event [] :=
  publishes_acks acks_nil hresult hdelivered

/-- One other message is published, and the slot stays. -/
theorem publishes_other {message : Effect} (hother : message.resultSent = none)
    (hack : message.isAck = false) (hresult : after.lastResult = before.lastResult)
    (hdelivered : after.resultDelivered = before.resultDelivered) :
    Publishes settings before after event [message] := by
  show Publishes settings before after event ([message] ++ [])
  exact .quiet (by simp [Quiet, hother, hack]) acks_nil hresult hdelivered

/-- A unit that waits is dropped. -/
theorem publishes_dropWaiter {unit : CurrentUnit} (hends : EndsWaiting settings service event) :
    Publishes settings service (service.dropWaiter unit) event [] :=
  .forgets quiet_nil acks_nil hends rfl rfl

/-- What `finishShutdown` publishes are acknowledgements. -/
theorem finishShutdown_isAck {acks : ℕ} {effect : Effect}
    (hmem : effect ∈ (service.finishShutdown acks).2) : effect.isAck = true := by
  rcases List.mem_append.mp hmem with hmem | hmem
  · obtain ⟨shutdown, -, rfl⟩ := List.mem_map.mp hmem
    rfl
  · obtain ⟨shutdown, -, rfl⟩ := Option.map_eq_some_iff.mp (Option.mem_toList.mp hmem)
    rfl

/-- Shutdowns are acknowledged. -/
theorem finishShutdown_acks {acks : ℕ} (hcurrent : service.current = none)
    (hallowed : service.lastResult = none ∨ service.resultDelivered = true) :
    Acks (service.finishShutdown acks).1 (service.finishShutdown acks).2 :=
  ⟨fun _ ↦ finishShutdown_isAck, fun _ ↦ ⟨hcurrent, hallowed⟩⟩

theorem replay_publishes {delivery : VerifiedMessage} {now : ℚ} {published : Bool}
    (hlast : service.lastId = some delivery.message.control.executionId) :
    Publishes settings service (service.replay delivery published).1
      (.accept delivery now published) (service.replay delivery published).2 := by
  unfold Service.replay
  cases hresult : service.lastResult with
  | none => exact publishes_nothing rfl rfl
  | some result =>
    dsimp only
    split_ifs
    · exact .repeats (by simp [Event.isFresh, hlast]) acks_nil rfl hresult rfl
    · exact publishes_nothing rfl rfl

theorem acceptUnit_publishes {request : Request} {delivery : VerifiedMessage} {now : ℚ}
    {published : Bool} (hopen : service.kafkaReady = true ∧ service.stopping = false ∧
      service.failed = false)
    (hnew : service.lastId ≠ some delivery.message.control.executionId)
    (hmessage : delivery.message = .request request) (hidle : service.current = none) :
    Publishes settings service (service.acceptUnit settings request delivery now published).1
      (.accept delivery now published)
      (service.acceptUnit settings request delivery now published).2 := by
  unfold Service.acceptUnit
  dsimp only
  split_ifs with hlong hpublished
  · exact .makes (by simp [Event.isFresh, hnew]) acks_nil rfl rfl
  · exact publishes_other rfl rfl rfl rfl
  · have hends : EndsWaiting settings service (.accept delivery now published) := by
      refine ⟨hopen.1, hopen.2.1, hopen.2.2, hnew, ?_⟩
      rw [hmessage]
      exact ⟨hidle, by simpa using hpublished, by simpa using hlong⟩
    show Publishes settings service _ _ ([_] ++ [])
    exact .forgets (by simp [Quiet, Effect.resultSent, Effect.isAck]) acks_nil hends rfl rfl

theorem acceptControl_publishes {unit : CurrentUnit} {delivery : VerifiedMessage} {now : ℚ}
    {published : Bool} (hopen : service.kafkaReady = true ∧ service.stopping = false ∧
      service.failed = false)
    (hnew : service.lastId ≠ some delivery.message.control.executionId)
    (hcurrent : service.current = some unit)
    (hcontrol : delivery.message.control = unit.request.control)
    (hsubject : delivery.subject = unit.subject) :
    Publishes settings service (service.acceptControl unit delivery now)
      (.accept delivery now published) [] := by
  have hends : unit.executing = false →
      (∀ request, delivery.message ≠ .request request) →
      (∀ control, delivery.message = .ackReply control → unit.deadline ≤ now) →
      EndsWaiting settings service (.accept delivery now published) := by
    intro hwaiting hrequest hlate
    refine ⟨hopen.1, hopen.2.1, hopen.2.2, hnew, ?_⟩
    cases hmessage : delivery.message with
    | request request => exact absurd hmessage (hrequest request)
    | ackReply control =>
      rw [hmessage] at hcontrol
      exact ⟨unit, mem_waiting hcurrent hwaiting, hcontrol, hsubject, hlate control hmessage⟩
    | ackReset control | abort control =>
      rw [hmessage] at hcontrol
      exact ⟨unit, mem_waiting hcurrent hwaiting, hcontrol, hsubject⟩
  unfold Service.acceptControl
  cases hmessage : delivery.message with
  | request request => exact publishes_nothing rfl rfl
  | ackReply control =>
    dsimp only
    unfold Service.acceptReply
    split_ifs with hexecuting hlate
    · exact publishes_nothing rfl rfl
    · exact publishes_dropWaiter (hends (by simpa using hexecuting) (by simp [hmessage])
        fun _ _ ↦ hlate)
    · exact publishes_nothing rfl rfl
  | ackReset control =>
    dsimp only
    split_ifs with hexecuting
    · exact publishes_nothing rfl rfl
    · exact publishes_dropWaiter (hends (by simpa using hexecuting) (by simp [hmessage])
        (by simp [hmessage]))
  | abort control =>
    dsimp only
    split_ifs with hexecuting
    · exact publishes_nothing rfl rfl
    · exact publishes_dropWaiter (hends (by simpa using hexecuting) (by simp [hmessage])
        (by simp [hmessage]))

theorem accept_publishes {delivery : VerifiedMessage} {now : ℚ} {published : Bool} :
    Publishes settings service (service.accept settings delivery now published).1
      (.accept delivery now published) (service.accept settings delivery now published).2 := by
  unfold Service.accept
  split_ifs with hclosed hlast
  · exact publishes_nothing rfl rfl
  · exact replay_publishes hlast
  · have hopen : service.kafkaReady = true ∧ service.stopping = false ∧ service.failed = false := by
      simpa using hclosed
    cases hmessage : delivery.message with
    | request request =>
      dsimp only
      unfold Service.acceptRequest
      cases hcurrent : service.current with
      | none =>
        exact acceptUnit_publishes hopen hlast hmessage hcurrent
      | some unit =>
        dsimp only
        split_ifs
        · exact publishes_other rfl rfl rfl rfl
        · exact publishes_nothing rfl rfl
    | ackReply | ackReset | abort =>
      dsimp only
      cases hcurrent : service.current with
      | none => exact publishes_nothing rfl rfl
      | some unit =>
        dsimp only
        split_ifs with hnamed
        · exact acceptControl_publishes hopen hlast hcurrent (hmessage ▸ hnamed.1) hnamed.2
        · exact publishes_nothing rfl rfl

theorem executed_publishes {output : Option Output} {published : Bool} {acks : ℕ} :
    Publishes settings service (service.executed output published acks).1
      (.executed output published acks) (service.executed output published acks).2 := by
  unfold Service.executed
  cases service.running with
  | nil => exact publishes_nothing rfl rfl
  | cons unit rest =>
    dsimp only
    split_ifs with hpublished
    · exact .makes rfl (finishShutdown_acks rfl (.inr rfl)) rfl hpublished.symm
    · exact .makes rfl acks_nil rfl (by simp [Service.remember, hpublished])

/-- A result that is still undelivered is sent before the shutdowns are acknowledged. -/
theorem retryResult_publishes {published : Bool} {acks : ℕ} (hfresh : event.isFresh before = false)
    (hcurrent : service.current = none) (hslot : service.lastResult = before.lastResult)
    (hdelivery : service.resultDelivered = before.resultDelivered) :
    Publishes settings before (service.retryResult published acks).1 event
      (service.retryResult published acks).2 := by
  unfold Service.retryResult
  cases hresult : service.lastResult with
  | none =>
    exact publishes_acks (finishShutdown_acks hcurrent (.inl hresult)) hslot hdelivery
  | some result =>
    have hknown := hslot.symm.trans hresult
    dsimp only
    split_ifs with hdelivered hpublished
    · exact publishes_acks (finishShutdown_acks hcurrent (.inr hdelivered)) (hresult ▸ hslot)
        hdelivery
    · exact .repeats hfresh (finishShutdown_acks hcurrent (.inr rfl)) rfl hknown
        (by simp [hpublished, Service.finishShutdown])
    · exact .repeats hfresh acks_nil hresult hknown (by simp [hpublished, hdelivery])

theorem drain_publishes {published : Bool} {acks : ℕ} :
    Publishes settings service (service.drain published acks).1 (.drain published acks)
      (service.drain published acks).2 := by
  unfold Service.drain
  split_ifs with hnone
  · exact publishes_nothing rfl rfl
  unfold Service.dropWaiting
  dsimp only
  cases hcurrent : service.current with
  | none =>
    dsimp only
    rw [if_neg (by simp)]
    exact retryResult_publishes rfl rfl rfl rfl
  | some unit =>
    dsimp only
    split_ifs with hexecuting hsome
    · exact publishes_nothing rfl rfl
    · exact absurd rfl hsome
    · simp [Service.dropWaiter] at *
    · show Publishes settings service _ _ ([] ++ _)
      exact .forgets quiet_nil (finishShutdown_acks rfl (.inl rfl))
        ⟨hnone, by simp [Service.waiting, hcurrent, hexecuting]⟩ rfl rfl

/-- Every step publishes in one of these ways. -/
theorem step_publishes : Publishes settings service (step settings service event).1 event
    (step settings service event).2 := by
  cases event with
  | startup published =>
    unfold step Service.startup
    dsimp only
    split_ifs
    · exact publishes_nothing rfl rfl
    · exact publishes_other rfl rfl rfl rfl
    · exact publishes_other rfl rfl rfl rfl
  | accept delivery now published => exact accept_publishes
  | ackTimeout now =>
    unfold step Service.ackTimeout
    dsimp only
    cases hcurrent : service.current with
    | none => exact publishes_nothing rfl rfl
    | some unit =>
      dsimp only
      split_ifs with hlate
      · exact publishes_dropWaiter ⟨unit, mem_waiting hcurrent hlate.1, hlate.2⟩
      · exact publishes_nothing rfl rfl
  | executeUnit =>
    unfold step Service.executeUnit
    dsimp only
    cases service.scheduled with
    | nil => exact publishes_nothing rfl rfl
    | cons unit rest => exact publishes_other rfl rfl rfl rfl
  | executed output published acks => exact executed_publishes
  | shutdown token transition => exact publishes_nothing rfl rfl
  | closed =>
    unfold step Service.closed
    dsimp only
    cases service.closing with
    | nil => exact publishes_nothing rfl rfl
    | cons call rest => exact publishes_nothing rfl rfl
  | drain published acks => exact drain_publishes
  | stop => exact publishes_nothing rfl rfl
  | stopped =>
    unfold step Service.stopped
    dsimp only
    split_ifs
    · exact publishes_nothing rfl rfl
    · exact publishes_nothing rfl rfl

end Publishes

/-! ### The terminal slot -/

/-- An undelivered result is in the terminal slot, and it is the one that is owed. -/
structure Remembers (service : Service) (owed : Bool) : Prop where
  owed : owed = !service.resultDelivered
  kept : service.resultDelivered = false → service.lastResult ≠ none

section Remembers

variable {settings : Settings} {before after : Service} {event : Event} {owed fresh : Bool}
  {sent effects rest : List Effect}

/-- Acknowledgements of a shutdown leave a result owed. -/
theorem Acks.owedAfter {acks : List Effect} (hacks : Acks after acks) :
    owedAfter fresh owed acks = owed :=
  owedAfter_of_none fun effect hmem ↦ Effect.resultSent_of_isAck (hacks.only effect hmem)

theorem Remembers.publishes (hbefore : Remembers before owed)
    (hpublishes : Publishes settings before after event effects)
    (hkeeps : before.resultDelivered = false → ¬ EndsWaiting settings before event) :
    Remembers after (owedAfter (event.isFresh before) owed effects) := by
  cases hpublishes with
  | quiet sent_quiet acknowledges result delivered =>
    rw [owedAfter_append, owedAfter_of_none fun effect hmem ↦ (sent_quiet effect hmem).1,
      acknowledges.owedAfter]
    exact ⟨by rw [delivered, hbefore.owed], by rw [delivered, result]; exact hbefore.kept⟩
  | forgets sent_quiet acknowledges ends result delivered =>
    rw [owedAfter_append, owedAfter_of_none fun effect hmem ↦ (sent_quiet effect hmem).1,
      acknowledges.owedAfter]
    have hdelivered : before.resultDelivered = true := by
      by_contra hundelivered
      exact hkeeps (by simpa using hundelivered) ends
    exact ⟨by rw [hbefore.owed, hdelivered, delivered], by simp [delivered]⟩
  | @makes result token published acks fresh acknowledges slot delivered =>
    rw [← List.singleton_append, owedAfter_append, acknowledges.owedAfter, fresh]
    refine ⟨?_, by simp [slot]⟩
    cases published <;> simp [Ads.SandboxIpc.owedAfter, Effect.resultSent, delivered]
  | @repeats result token published acks fresh acknowledges slot known delivered =>
    rw [← List.singleton_append, owedAfter_append, acknowledges.owedAfter, fresh]
    refine ⟨?_, by simp [slot]⟩
    cases published <;> simp [Ads.SandboxIpc.owedAfter, Effect.resultSent, delivered, hbefore.owed]

/-- A step acknowledges a shutdown only once its unit ended and its result is delivered. -/
theorem Publishes.acknowledged {transition : Option ℤ} {token : Option Text} {published : Bool}
    (hpublishes : Publishes settings before after event effects)
    (heffects : effects = sent ++ .publish (.shutdownAck transition) token published :: rest) :
    after.current = none ∧ (after.lastResult = none ∨ after.resultDelivered = true) ∧
      owedAfter (event.isFresh before) owed sent = owedAfter (event.isFresh before) owed effects := by
  have hafter : ∀ first acks, effects = first ++ acks → (∀ effect ∈ first, effect.isAck = false) →
      Acks after acks → after.current = none ∧
        (after.lastResult = none ∨ after.resultDelivered = true) ∧
          owedAfter (event.isFresh before) owed sent =
            owedAfter (event.isFresh before) owed effects := by
    intro first acks hsplit hfirst hacks
    -- The acknowledgement is one of the last ones, so that all other effects stand before it.
    rcases List.append_eq_append_iff.mp (hsplit.symm.trans heffects) with
      ⟨middle, hsent, hack⟩ | ⟨middle, rfl, hack⟩
    · have hallowed := hacks.allowed (by rw [hack]; simp)
      refine ⟨hallowed.1, hallowed.2, ?_⟩
      have hmiddle : owedAfter (event.isFresh before) (owedAfter (event.isFresh before) owed first)
          middle = owedAfter (event.isFresh before) owed first := by
        refine owedAfter_of_none fun effect hmem ↦ Effect.resultSent_of_isAck ?_
        exact hacks.only effect (by rw [hack]; exact List.mem_append_left _ hmem)
      rw [hsplit, owedAfter_append, hacks.owedAfter, hsent, owedAfter_append, hmiddle]
    · cases middle with
      | nil =>
        simp only [List.nil_append] at hack
        have hallowed := hacks.allowed (by rw [← hack]; simp)
        refine ⟨hallowed.1, hallowed.2, ?_⟩
        rw [hsplit, List.append_nil, owedAfter_append, hacks.owedAfter]
      | cons effect middle =>
        simp only [List.cons_append, List.cons.injEq] at hack
        have hnot := hfirst effect (by simp)
        rw [← hack.1] at hnot
        exact absurd hnot (by simp [Effect.isAck])
  cases hpublishes with
  | quiet sent_quiet acknowledges result delivered =>
    exact hafter _ _ rfl (fun effect hmem ↦ (sent_quiet effect hmem).2) acknowledges
  | forgets sent_quiet acknowledges ends result delivered =>
    exact hafter _ _ rfl (fun effect hmem ↦ (sent_quiet effect hmem).2) acknowledges
  | makes fresh acknowledges slot delivered =>
    exact hafter [_] _ rfl (by simp [Effect.isAck]) acknowledges
  | repeats fresh acknowledges slot known delivered =>
    exact hafter [_] _ rfl (by simp [Effect.isAck]) acknowledges

/-- The terminal slot remembers what is owed in every run that keeps its results. -/
theorem run_remembers {events : List Event} (hkeeps : Keeps settings events) :
    Remembers (run settings events).1 (owedResult settings events) := by
  induction events using List.reverseRecOn with
  | nil =>
    refine ⟨rfl, fun hundelivered ↦ ?_⟩
    cases hundelivered
  | append_singleton events last ih =>
    have hearlier : Keeps settings events := by
      intro index hindex
      have hkept := hkeeps index (by simp; omega)
      rwa [List.take_append_of_le_length hindex.le, List.getElem_append_left hindex] at hkept
    have hlast := hkeeps events.length (by simp)
    rw [List.take_left, List.getElem_concat_length rfl] at hlast
    rw [run_snoc, owedResult, owedFrom_snoc]
    exact (ih hearlier).publishes step_publishes hlast

end Remembers

/-! ### The latch -/

/-- A step that neither lifts the latch nor moves a unit to executing. -/
structure Latched (before after : Service) : Prop where
  stopping : after.stopping = true
  executing : ∀ unit, after.current = some unit → unit.executing = true →
    ∃ earlier, before.current = some earlier ∧ earlier.executing = true

section Latch

variable {settings : Settings} {before after service : Service} {event : Event}

theorem latched_of_same (hstopping : after.stopping = true) (hsame : after.current = before.current) :
    Latched before after :=
  ⟨hstopping, fun unit hunit hexecuting ↦ ⟨unit, hsame ▸ hunit, hexecuting⟩⟩

theorem latched_of_none (hstopping : after.stopping = true) (hnone : after.current = none) :
    Latched before after :=
  ⟨hstopping, fun unit hunit _ ↦ absurd (hnone.symm.trans hunit) (Option.some_ne_none unit).symm⟩

/-- No message is accepted. -/
theorem accept_of_stopping (hstopping : service.stopping = true) (delivery : VerifiedMessage)
    (now : ℚ) (published : Bool) :
    service.accept settings delivery now published = (service, []) := by
  rw [Service.accept, if_pos (.inr (.inl hstopping))]

theorem retryResult_stopping {published : Bool} {acks : ℕ} :
    (service.retryResult published acks).1.stopping = service.stopping := by
  unfold Service.retryResult
  cases service.lastResult with
  | none => rfl
  | some result =>
    dsimp only
    split_ifs <;> rfl

theorem drain_latched {published : Bool} {acks : ℕ} (hstopping : service.stopping = true) :
    Latched service (service.drain published acks).1 := by
  unfold Service.drain
  split_ifs with hnone
  · exact latched_of_same hstopping rfl
  unfold Service.dropWaiting
  dsimp only
  cases hcurrent : service.current with
  | none =>
    dsimp only
    rw [if_neg (by simp)]
    exact latched_of_none (retryResult_stopping.trans hstopping) (retryResult_frame _ _ _).1
  | some unit =>
    dsimp only
    split_ifs with hexecuting hsome
    · exact latched_of_same hstopping hcurrent.symm
    · exact absurd rfl hsome
    · simp [Service.dropWaiter] at *
    · exact latched_of_none (retryResult_stopping.trans hstopping) (retryResult_frame _ _ _).1

/-- Once a shutdown is latched, no step lifts the latch or moves a unit to executing. -/
theorem step_latched (hstopping : service.stopping = true) :
    Latched service (step settings service event).1 := by
  cases event with
  | startup published =>
    unfold step Service.startup
    dsimp only
    split_ifs <;> exact latched_of_same hstopping rfl
  | accept delivery now published =>
    rw [step, accept_of_stopping hstopping]
    exact latched_of_same hstopping rfl
  | ackTimeout now =>
    unfold step Service.ackTimeout
    dsimp only
    cases hcurrent : service.current with
    | none => exact latched_of_none hstopping hcurrent
    | some unit =>
      dsimp only
      split_ifs
      · exact latched_of_none hstopping rfl
      · exact latched_of_same hstopping rfl
  | executeUnit =>
    unfold step Service.executeUnit
    dsimp only
    cases service.scheduled with
    | nil => exact latched_of_same hstopping rfl
    | cons unit rest => exact latched_of_same hstopping rfl
  | executed output published acks =>
    unfold step Service.executed
    dsimp only
    cases service.running with
    | nil => exact latched_of_same hstopping rfl
    | cons unit rest =>
      dsimp only
      split_ifs <;> exact latched_of_none hstopping rfl
  | shutdown token transition => exact latched_of_same rfl rfl
  | closed =>
    unfold step Service.closed
    dsimp only
    cases service.closing with
    | nil => exact latched_of_same hstopping rfl
    | cons call rest => exact latched_of_same hstopping rfl
  | drain published acks => exact drain_latched hstopping
  | stop =>
    refine ⟨rfl, fun unit hunit hexecuting ↦ ?_⟩
    obtain ⟨earlier, hearlier, rfl⟩ := Option.map_eq_some_iff.mp hunit
    refine ⟨earlier, hearlier, ?_⟩
    split_ifs at hexecuting with hbusy
    · exact hbusy
    · exact hexecuting
  | stopped =>
    unfold step Service.stopped
    dsimp only
    split_ifs
    · exact latched_of_none hstopping rfl
    · exact latched_of_same hstopping rfl

/-- The latch holds after every run with a shutdown. -/
theorem stopping_of_shutdown (earlier later : List Event) (token : Text)
    (transition : Option ℤ) :
    (run settings (earlier ++ .shutdown token transition :: later)).1.stopping = true := by
  induction later using List.reverseRecOn with
  | nil =>
    rw [run_snoc]
    rfl
  | append_singleton later event ih =>
    rw [← List.cons_append, ← List.append_assoc, run_snoc]
    exact (step_latched ih).stopping

end Latch

/-! ### The main result -/

/-- A shutdown is clean after every run that keeps its results. -/
theorem clean_of_keeps (settings : Settings) (events : List Event) (event : Event)
    (hkeeps : Keeps settings (events ++ [event])) : Clean settings events event := by
  have hruns := run_snoc settings events event
  have hremembers := run_remembers hkeeps
  rw [hruns, owedResult, owedFrom_snoc] at hremembers
  have htasks := run_tasks settings (events ++ [event])
  rw [hruns] at htasks
  constructor
  · intro sent transition token published rest heffects
    obtain ⟨hcurrent, hallowed, hsame⟩ :=
      @Publishes.acknowledged settings _ _ event (owedResult settings events) sent _ rest transition
        token published step_publishes heffects
    obtain ⟨hscheduled, hrunning⟩ := htasks.waiting (by simp [hcurrent])
    refine ⟨⟨hcurrent, hscheduled, hrunning⟩, ?_⟩
    have hdelivered : (step settings (run settings events).1 event).1.resultDelivered = true := by
      rcases hallowed with hnone | hdelivered
      · by_contra hundelivered
        exact hremembers.kept (by simpa using hundelivered) hnone
      · exact hdelivered
    rw [hsame]
    exact hremembers.owed.trans (by simp [hdelivered])
  · rintro earlier token transition later rfl ⟨unit, hunit, hexecuting, hwaiting⟩
    obtain ⟨busy, hbusy, hstill⟩ :=
      (step_latched (stopping_of_shutdown earlier later token transition)).executing unit hunit
        hexecuting
    rw [hwaiting busy hbusy] at hstill
    cases hstill

/-- An execution whose result cannot be published. -/
def executeUnpublished (executionId : Uuid) : List Event :=
  [.accept (verified (.request (sampleRequest executionId))) 0 true,
    .accept (verified (.ackReply (sampleRequest executionId).control)) 1 true,
    .executeUnit,
    .executed none false 0]

/-- A shutdown that publishes the result of an execution first. -/
theorem clean_of_keeps_owed : Clean ⟨10, 100⟩
    (.startup true :: executeUnpublished 10 ++ [.shutdown "token".toList none, .closed])
    (.drain true 1) :=
  clean_of_keeps _ _ _ (by decide +kernel)

/-- The next unit is dropped by the shutdown, and the owed result with it. -/
def displacement : List Event :=
  .startup true :: executeUnpublished 10 ++
    [.accept (verified (.request (sampleRequest 20))) 2 true, .shutdown "token".toList none, .closed]

/-- A shutdown is acknowledged while the result of an execution is owed. -/
theorem acknowledges_owed : ¬ ∀ settings events event, Clean settings events event := by
  intro hclean
  have hsent : (step ⟨10, 100⟩ (run ⟨10, 100⟩ displacement).1 (.drain true 1)).2 =
      [] ++ .publish (.shutdownAck none) (some "token".toList) true :: [] := by
    decide +kernel
  have howed := ((hclean ⟨10, 100⟩ displacement (.drain true 1)).acknowledged [] none _ true []
    hsent).2
  have hstill : owedResult ⟨10, 100⟩ displacement = true := by decide +kernel
  rw [owedAfter_nil, hstill] at howed
  cases howed

end Ads.SandboxIpc
