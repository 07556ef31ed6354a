import Mathlib.Data.List.Induction
import Ads.SandboxIpc.Service

/-!
# Executing at most once

The service remembers the current unit and the one that ended last. While an execution is one of
these, no message makes it run again. Once another unit replaced it in the terminal slot its request
is a new one: `executes_twice` runs a request again that is delivered after that, and
`executes_at_most_once` says that nothing else does.

Every step is one of a few `Move`s of the current unit, the terminal slot and the tasks
(`step_moves`); the invariant is kept by each of them.
-/

set_option autoImplicit false
set_option relaxedAutoImplicit false

namespace Ads.SandboxIpc

open Python

/-- How often `guest.execute` is called for an execution. -/
def executions (executionId : Uuid) (effects : List Effect) : ℕ :=
  effects.countP fun effect ↦
    match effect with
    | .execute request => request.executionId = executionId
    | .publish _ _ _ => false

/-- An execution was in the terminal slot, and another one is there now. -/
def Retired (settings : Settings) (events : List Event) (executionId : Uuid) : Prop :=
  (∃ front back, events = front ++ back ∧ (run settings front).1.lastId = some executionId) ∧
    (run settings events).1.lastId ≠ some executionId

/-- The request of an execution that ran is delivered after another unit replaced it in the terminal
slot. -/
def Redelivered (settings : Settings) (events : List Event) (executionId : Uuid) : Prop :=
  ∃ front delivery now published back request,
    events = front ++ .accept delivery now published :: back ∧
      delivery.message = .request request ∧ request.executionId = executionId ∧
        1 ≤ executions executionId (run settings front).2 ∧ Retired settings front executionId

/-! ### Runs -/

/-- A run whose first step is given. -/
theorem runFrom_cons (settings : Settings) (service : Service) (event : Event) (rest : List Event) :
    runFrom settings service (event :: rest) =
      ((runFrom settings (step settings service event).1 rest).1,
        (step settings service event).2 ++
          (runFrom settings (step settings service event).1 rest).2) :=
  rfl

theorem runFrom_append (settings : Settings) (service : Service) (first second : List Event) :
    runFrom settings service (first ++ second) =
      ((runFrom settings (runFrom settings service first).1 second).1,
        (runFrom settings service first).2 ++
          (runFrom settings (runFrom settings service first).1 second).2) := by
  induction first generalizing service with
  | nil => rfl
  | cons event rest ih =>
    rw [List.cons_append, runFrom_cons, ih, runFrom_cons]
    exact Prod.ext rfl (List.append_assoc _ _ _).symm

/-- A run with one more step. -/
theorem run_snoc (settings : Settings) (events : List Event) (event : Event) :
    run settings (events ++ [event]) =
      ((step settings (run settings events).1 event).1,
        (run settings events).2 ++ (step settings (run settings events).1 event).2) := by
  rw [run, runFrom_append, runFrom_cons, runFrom, List.append_nil]
  rfl

theorem executions_append {executionId : Uuid} {first second : List Effect} :
    executions executionId (first ++ second) =
      executions executionId first + executions executionId second :=
  List.countP_append

/-! ### Moves -/

/-- What a step does to the current unit, the terminal slot and the tasks. -/
inductive Move (before after : Service) (event : Event) : List Effect → Prop where
  /-- Nothing that matters for the executions changes. -/
  | quiet {effects : List Effect}
      (current : after.current.map (fun unit ↦ (unit.request, unit.executing)) =
        before.current.map fun unit ↦ (unit.request, unit.executing))
      (last : after.lastId = before.lastId) (scheduled : after.scheduled = before.scheduled)
      (running : after.running = before.running)
      (effects_quiet : ∀ request, .execute request ∉ effects) : Move before after event effects
  /-- A unit that waits ends. -/
  | drops {effects : List Effect} {unit : CurrentUnit} (current : before.current = some unit)
      (waiting : unit.executing = false) (dropped : after.current = none)
      (last : after.lastId = some unit.request.executionId)
      (scheduled : after.scheduled = before.scheduled) (running : after.running = before.running)
      (effects_quiet : ∀ request, .execute request ∉ effects) : Move before after event effects
  /-- A new request waits. -/
  | waits {effects : List Effect} {unit : CurrentUnit} {delivery : VerifiedMessage} {now : ℚ}
      {published : Bool} (accepts : event = .accept delivery now published)
      (message : delivery.message = .request unit.request) (idle : before.current = none)
      (current : after.current = some unit) (waiting : unit.executing = false)
      (new : before.lastId ≠ some unit.request.executionId) (last : after.lastId = before.lastId)
      (scheduled : after.scheduled = before.scheduled) (running : after.running = before.running)
      (effects_quiet : ∀ request, .execute request ∉ effects) : Move before after event effects
  /-- A new request ends at once. -/
  | refuses {effects : List Effect} {executionId : Uuid} (idle : before.current = none)
      (current : after.current = none) (last : after.lastId = some executionId)
      (scheduled : after.scheduled = before.scheduled) (running : after.running = before.running)
      (effects_quiet : ∀ request, .execute request ∉ effects) : Move before after event effects
  /-- The reply to its acknowledgement lets a unit execute. -/
  | replies {unit executing : CurrentUnit} (current : before.current = some unit)
      (waiting : unit.executing = false) (executes : after.current = some executing)
      (same : executing.request = unit.request) (started : executing.executing = true)
      (last : after.lastId = before.lastId)
      (scheduled : after.scheduled = before.scheduled ++ [executing])
      (running : after.running = before.running) : Move before after event []
  /-- A task calls the guest. -/
  | begins {unit : CurrentUnit} {rest : List CurrentUnit}
      (scheduled : before.scheduled = unit :: rest) (left : after.scheduled = rest)
      (running : after.running = before.running ++ [unit]) (current : after.current = before.current)
      (last : after.lastId = before.lastId) : Move before after event [.execute unit.request]
  /-- A task ends. -/
  | ends {effects : List Effect} {unit : CurrentUnit} {rest : List CurrentUnit}
      (running : before.running = unit :: rest) (left : after.running = rest)
      (scheduled : after.scheduled = before.scheduled) (current : after.current = none)
      (last : after.lastId = some unit.request.executionId)
      (effects_quiet : ∀ request, .execute request ∉ effects) : Move before after event effects
  /-- Without tasks the service stops. -/
  | stops (scheduled : before.scheduled = []) (running : before.running = [])
      (left : after.scheduled = [] ∧ after.running = []) (current : after.current = none)
      (last : after.lastId = before.lastId) : Move before after event []

section Moves

variable {settings : Settings} {service : Service} {event : Event}

/-- Nothing changes. -/
theorem Move.refl : Move service service event [] :=
  .quiet rfl rfl rfl rfl fun _ ↦ List.not_mem_nil

/-- A message is published, and nothing else changes. -/
theorem Move.publishes {message : Outbound} {token : Option Text} {published : Bool} :
    Move service service event [.publish message token published] :=
  .quiet rfl rfl rfl rfl fun _ hmem ↦ nomatch List.mem_singleton.mp hmem

/-- A unit that waits is dropped. -/
theorem dropWaiter_moves {unit : CurrentUnit} (hcurrent : service.current = some unit)
    (hwaiting : unit.executing = false) : Move service (service.dropWaiter unit) event [] :=
  .drops hcurrent hwaiting rfl rfl rfl rfl fun _ ↦ List.not_mem_nil

theorem replay_moves {delivery : VerifiedMessage} {published : Bool} :
    Move service (service.replay delivery published).1 event
      (service.replay delivery published).2 := by
  unfold Service.replay
  cases service.lastResult with
  | none => exact .refl
  | some result =>
    dsimp only
    split_ifs
    · exact .quiet rfl rfl rfl rfl fun _ hmem ↦ nomatch List.mem_singleton.mp hmem
    · exact .refl

theorem acceptRequest_moves {request : Request} {delivery : VerifiedMessage} {now : ℚ}
    {published : Bool} (hmessage : delivery.message = .request request)
    (hnew : service.lastId ≠ some request.executionId) :
    Move service (service.acceptRequest settings request delivery now published).1
      (.accept delivery now published)
      (service.acceptRequest settings request delivery now published).2 := by
  unfold Service.acceptRequest
  cases hcurrent : service.current with
  | some unit =>
    dsimp only
    split_ifs
    · exact .publishes
    · exact .refl
  | none =>
    unfold Service.acceptUnit
    dsimp only
    split_ifs
    · exact .refuses hcurrent hcurrent rfl rfl rfl fun _ hmem ↦ nomatch List.mem_singleton.mp hmem
    · exact .waits rfl hmessage hcurrent rfl rfl hnew rfl rfl rfl
        fun _ hmem ↦ nomatch List.mem_singleton.mp hmem
    · exact .refuses hcurrent rfl rfl rfl rfl fun _ hmem ↦ nomatch List.mem_singleton.mp hmem

theorem acceptControl_moves {unit : CurrentUnit} {delivery : VerifiedMessage} {now : ℚ}
    (hcurrent : service.current = some unit) :
    Move service (service.acceptControl unit delivery now) event [] := by
  unfold Service.acceptControl
  cases delivery.message with
  | request request => exact .refl
  | ackReply control =>
    dsimp only
    unfold Service.acceptReply
    split_ifs with hexecuting
    · exact .refl
    · exact dropWaiter_moves hcurrent (Bool.eq_false_of_not_eq_true hexecuting)
    · exact .replies hcurrent (Bool.eq_false_of_not_eq_true hexecuting) rfl rfl rfl rfl rfl rfl
  | ackReset control =>
    dsimp only
    split_ifs with hexecuting
    · exact .refl
    · exact dropWaiter_moves hcurrent (Bool.eq_false_of_not_eq_true hexecuting)
  | abort control =>
    dsimp only
    split_ifs with hexecuting
    · exact .quiet (by rw [hcurrent]; rfl) rfl rfl rfl fun _ ↦ List.not_mem_nil
    · exact dropWaiter_moves hcurrent (Bool.eq_false_of_not_eq_true hexecuting)

theorem accept_moves {delivery : VerifiedMessage} {now : ℚ} {published : Bool} :
    Move service (service.accept settings delivery now published).1
      (.accept delivery now published) (service.accept settings delivery now published).2 := by
  unfold Service.accept
  split_ifs with hclosed hlast
  · exact .refl
  · exact replay_moves
  · cases hmessage : delivery.message with
    | request request =>
      rw [hmessage] at hlast
      exact acceptRequest_moves hmessage hlast
    | ackReply | ackReset | abort =>
      dsimp only
      cases hcurrent : service.current with
      | none => exact .refl
      | some unit =>
        dsimp only
        split_ifs
        · exact acceptControl_moves hcurrent
        · exact .refl

/-- The acknowledgements of shutdowns are no executions. -/
theorem finishShutdown_quiet {acks : ℕ} (request : Request) :
    .execute request ∉ (service.finishShutdown acks).2 := by
  unfold Service.finishShutdown
  dsimp only
  rw [List.mem_append]
  rintro (hmem | hmem)
  · obtain ⟨_, -, heq⟩ := List.mem_map.mp hmem
    cases heq
  · obtain ⟨_, -, heq⟩ := Option.map_eq_some_iff.mp (Option.mem_toList.mp hmem)
    cases heq

theorem executed_moves {output : Option Output} {published : Bool} {acks : ℕ} :
    Move service (service.executed output published acks).1 event
      (service.executed output published acks).2 := by
  unfold Service.executed
  cases hrunning : service.running with
  | nil => exact .refl
  | cons unit rest =>
    dsimp only
    split_ifs
    · refine .ends hrunning rfl rfl rfl rfl fun request hmem ↦ ?_
      rcases List.mem_cons.mp hmem with heq | hack
      · cases heq
      · exact finishShutdown_quiet request hack
    · exact .ends hrunning rfl rfl rfl rfl fun _ hmem ↦ nomatch List.mem_singleton.mp hmem

/-- Publishing the last result again touches neither the units nor the tasks. -/
theorem retryResult_frame (service : Service) (published : Bool) (acks : ℕ) :
    (service.retryResult published acks).1.current = service.current ∧
      (service.retryResult published acks).1.lastId = service.lastId ∧
      (service.retryResult published acks).1.scheduled = service.scheduled ∧
      (service.retryResult published acks).1.running = service.running ∧
      ∀ request, .execute request ∉ (service.retryResult published acks).2 := by
  unfold Service.retryResult
  cases service.lastResult with
  | none => exact ⟨rfl, rfl, rfl, rfl, finishShutdown_quiet⟩
  | some result =>
    dsimp only
    split_ifs
    · exact ⟨rfl, rfl, rfl, rfl, finishShutdown_quiet⟩
    · refine ⟨rfl, rfl, rfl, rfl, fun request hmem ↦ ?_⟩
      rcases List.mem_cons.mp hmem with heq | hack
      · cases heq
      · exact finishShutdown_quiet request hack
    · exact ⟨rfl, rfl, rfl, rfl, fun _ hmem ↦ nomatch List.mem_singleton.mp hmem⟩

theorem drain_moves {published : Bool} {acks : ℕ} :
    Move service (service.drain published acks).1 event (service.drain published acks).2 := by
  unfold Service.drain
  split_ifs with hnone
  · exact .refl
  unfold Service.dropWaiting
  dsimp only
  cases hcurrent : service.current with
  | none =>
    dsimp only
    rw [if_neg (by exact Bool.false_ne_true)]
    obtain ⟨hsame, hlast, hscheduled, hrunning, hquiet⟩ := retryResult_frame
      { service with current := none, draining := service.draining - 1 } published acks
    exact .quiet (by rw [hsame, hcurrent]) hlast hscheduled hrunning hquiet
  | some unit =>
    dsimp only
    split_ifs with hexecuting hsome
    · exact .quiet (by rw [hcurrent]) rfl rfl rfl fun _ ↦ List.not_mem_nil
    · exact absurd rfl hsome
    · next hdropped => cases hdropped
    · obtain ⟨hsame, hlast, hscheduled, hrunning, hquiet⟩ := retryResult_frame
        (Service.dropWaiter { service with current := some unit, draining := service.draining - 1 }
          unit) published acks
      exact .drops hcurrent (Bool.eq_false_of_not_eq_true hexecuting) hsame hlast hscheduled hrunning
        hquiet

/-- Every step is one of the moves. -/
theorem step_moves : Move service (step settings service event).1 event
    (step settings service event).2 := by
  cases event with
  | startup published =>
    unfold step Service.startup
    dsimp only
    split_ifs
    · exact .refl
    · exact .quiet rfl rfl rfl rfl fun _ hmem ↦ nomatch List.mem_singleton.mp hmem
    · exact .quiet rfl rfl rfl rfl fun _ hmem ↦ nomatch List.mem_singleton.mp hmem
  | accept delivery now published => exact accept_moves
  | ackTimeout now =>
    unfold step Service.ackTimeout
    dsimp only
    cases hcurrent : service.current with
    | none => exact .refl
    | some unit =>
      dsimp only
      split_ifs with hwaiting
      · exact dropWaiter_moves hcurrent hwaiting.1
      · exact .refl
  | executeUnit =>
    unfold step Service.executeUnit
    dsimp only
    cases hscheduled : service.scheduled with
    | nil => exact .refl
    | cons unit rest => exact .begins hscheduled rfl rfl rfl rfl
  | executed output published acks => exact executed_moves
  | shutdown token transition => exact .quiet rfl rfl rfl rfl fun _ ↦ List.not_mem_nil
  | closed =>
    unfold step Service.closed
    dsimp only
    cases service.closing with
    | nil => exact .refl
    | cons call rest => exact .quiet rfl rfl rfl rfl fun _ ↦ List.not_mem_nil
  | drain published acks => exact drain_moves
  | stop =>
    refine .quiet ?_ rfl rfl rfl fun _ ↦ List.not_mem_nil
    unfold step Service.stop
    dsimp only
    rw [Option.map_map]
    refine Option.map_congr fun unit _ ↦ ?_
    dsimp only [Function.comp_apply]
    split_ifs <;> rfl
  | stopped =>
    unfold step Service.stopped
    dsimp only
    split_ifs with hstopped
    · exact .stops hstopped.2.1 hstopped.2.2 ⟨hstopped.2.1, hstopped.2.2⟩ rfl rfl
    · exact .refl

end Moves

/-! ### The invariant -/

/-- The calls of the guest for an execution, with those that its task will make. -/
def issued (executionId : Uuid) (service : Service) (effects : List Effect) : ℕ :=
  executions executionId effects +
    service.scheduled.countP fun unit ↦ unit.request.executionId = executionId

/-- An execution that was issued is the current one, the last one, or retired. -/
structure Once (settings : Settings) (events : List Event) (executionId : Uuid)
    (service : Service) (effects : List Effect) : Prop where
  single : service.scheduled.length + service.running.length ≤ 1
  tasks : ∀ unit ∈ service.scheduled ++ service.running, ∃ current,
    service.current = some current ∧ current.executing = true ∧ current.request = unit.request
  busy : ∀ unit, service.current = some unit → unit.executing = true →
    service.scheduled ++ service.running ≠ []
  waiting : ∀ unit, service.current = some unit → unit.executing = false →
    unit.request.executionId = executionId → issued executionId service effects = 0
  known : 1 ≤ issued executionId service effects →
    (∃ unit, service.current = some unit ∧ unit.executing = true ∧
      unit.request.executionId = executionId) ∨ service.lastId = some executionId ∨
        Retired settings events executionId
  once : issued executionId service effects ≤ 1

section Invariant

variable {settings : Settings} {events : List Event} {event : Event} {executionId : Uuid}
  {before after : Service} {effects more : List Effect}

/-- Effects without executions issue none. -/
theorem issued_quiet (hquiet : ∀ request, .execute request ∉ more)
    (hscheduled : after.scheduled = before.scheduled) :
    issued executionId after (effects ++ more) = issued executionId before effects := by
  have hnone : executions executionId more = 0 := by
    refine List.countP_eq_zero.mpr fun effect hmem ↦ ?_
    cases effect with
    | publish => exact Bool.false_ne_true
    | execute request => exact absurd hmem (hquiet request)
  rw [issued, issued, executions_append, hnone, hscheduled, Nat.add_zero]

/-- What is the last execution or retired stays one of these. -/
theorem retired_snoc (hlast : (run settings events).1.lastId = some executionId ∨
    Retired settings events executionId) :
    (run settings (events ++ [event])).1.lastId = some executionId ∨
      Retired settings (events ++ [event]) executionId := by
  by_cases hstill : (run settings (events ++ [event])).1.lastId = some executionId
  · exact Or.inl hstill
  · refine Or.inr ⟨?_, hstill⟩
    rcases hlast with hbefore | ⟨⟨front, back, rfl, hfront⟩, -⟩
    · exact ⟨events, [event], rfl, hbefore⟩
    · exact ⟨front, back ++ [event], List.append_assoc _ _ _, hfront⟩

/-- The executions issued before a task is added. -/
theorem issued_scheduled {unit : CurrentUnit} (hscheduled : after.scheduled = before.scheduled ++ [unit]) :
    issued executionId after (effects ++ []) = issued executionId before effects +
      if unit.request.executionId = executionId then 1 else 0 := by
  rw [issued, issued, List.append_nil, hscheduled, List.countP_append, List.countP_singleton]
  simp only [decide_eq_true_eq]
  omega

/-- A task that calls the guest issues nothing new. -/
theorem issued_begins {unit : CurrentUnit} (hscheduled : before.scheduled = unit :: after.scheduled) :
    issued executionId after (effects ++ [.execute unit.request]) =
      issued executionId before effects := by
  have hone : executions executionId [.execute unit.request] =
      if decide (unit.request.executionId = executionId) = true then 1 else 0 :=
    List.countP_singleton
  rw [issued, issued, executions_append, hone, hscheduled, List.countP_cons]
  omega

/-- Without an executing unit there are no tasks. -/
theorem Once.no_tasks (honce : Once settings events executionId before effects)
    (hidle : ∀ unit, before.current = some unit → unit.executing = true → False) :
    before.scheduled = [] ∧ before.running = [] := by
  rw [← List.append_eq_nil_iff]
  refine List.eq_nil_iff_forall_not_mem.mpr fun task htask ↦ ?_
  obtain ⟨unit, hunit, hexecuting, -⟩ := honce.tasks task htask
  exact hidle unit hunit hexecuting

/-- A move to a state without a unit and without tasks. -/
theorem Once.emptied {later : List Event} (honce : Once settings events executionId before effects)
    (hcurrent : after.current = none) (hscheduled : after.scheduled = before.scheduled)
    (hrunning : after.running = before.running)
    (hidle : before.scheduled = [] ∧ before.running = [])
    (hquiet : ∀ request, .execute request ∉ more)
    (hknown : 1 ≤ issued executionId before effects → after.lastId = some executionId ∨
      Retired settings later executionId) :
    Once settings later executionId after (effects ++ more) := by
  have hissued : issued executionId after (effects ++ more) = issued executionId before effects :=
    issued_quiet hquiet hscheduled
  rw [hidle.1] at hscheduled
  rw [hidle.2] at hrunning
  refine ⟨?_, ?_, ?_, ?_, ?_, ?_⟩
  · rw [hscheduled, hrunning]
    exact Nat.zero_le 1
  · rw [hscheduled, hrunning]
    exact fun _ hmem ↦ absurd hmem List.not_mem_nil
  · intro unit hunit
    rw [hcurrent] at hunit
    cases hunit
  · intro unit hunit
    rw [hcurrent] at hunit
    cases hunit
  · rw [hissued]
    exact fun hissuedOnce ↦ Or.inr (hknown hissuedOnce)
  · rw [hissued]
    exact honce.once

/-- One move keeps the invariant, as long as the request of the execution is not delivered again once
it is retired. -/
theorem Once.move (honce : Once settings events executionId before effects)
    (hbefore : before = (run settings events).1)
    (hafter : after = (run settings (events ++ [event])).1)
    (hmove : Move before after event more)
    (hnew : ∀ delivery now published request, event = .accept delivery now published →
      delivery.message = .request request → request.executionId = executionId →
        1 ≤ executions executionId effects → ¬ Retired settings events executionId) :
    Once settings (events ++ [event]) executionId after (effects ++ more) := by
  have hlater : before.lastId = some executionId ∨ Retired settings events executionId →
      after.lastId = some executionId ∨ Retired settings (events ++ [event]) executionId := by
    rw [hbefore, hafter]
    exact retired_snoc
  cases hmove with
  | quiet current last scheduled running quiet =>
    have hissued : issued executionId after (effects ++ more) = issued executionId before effects :=
      issued_quiet quiet scheduled
    have hthere : ∀ unit, before.current = some unit → ∃ same, after.current = some same ∧
        same.request = unit.request ∧ same.executing = unit.executing := by
      intro unit hunit
      rw [hunit] at current
      obtain ⟨same, hsame, heq⟩ := Option.map_eq_some_iff.mp current
      exact ⟨same, hsame, congrArg Prod.fst heq, congrArg Prod.snd heq⟩
    have hback : ∀ unit, after.current = some unit → ∃ same, before.current = some same ∧
        same.request = unit.request ∧ same.executing = unit.executing := by
      intro unit hunit
      rw [hunit] at current
      obtain ⟨same, hsame, heq⟩ := Option.map_eq_some_iff.mp current.symm
      exact ⟨same, hsame, congrArg Prod.fst heq, congrArg Prod.snd heq⟩
    constructor
    · rw [scheduled, running]
      exact honce.single
    · rw [scheduled, running]
      intro unit hunit
      obtain ⟨busy, hbusy, hexecuting, hrequest⟩ := honce.tasks unit hunit
      obtain ⟨same, hsame, hsameRequest, hsameExecuting⟩ := hthere busy hbusy
      exact ⟨same, hsame, hsameExecuting.trans hexecuting, hsameRequest.trans hrequest⟩
    · rw [scheduled, running]
      intro unit hunit hexecuting
      obtain ⟨same, hsame, -, hsameExecuting⟩ := hback unit hunit
      exact honce.busy same hsame (hsameExecuting.trans hexecuting)
    · intro unit hunit hwaiting hid
      obtain ⟨same, hsame, hrequest, hexecuting⟩ := hback unit hunit
      rw [hissued]
      exact honce.waiting same hsame (hexecuting.trans hwaiting)
        ((congrArg Request.executionId hrequest).trans hid)
    · rw [hissued]
      intro hissuedOnce
      rcases honce.known hissuedOnce with ⟨unit, hunit, hexecuting, hid⟩ | hknown
      · obtain ⟨same, hsame, hrequest, hsameExecuting⟩ := hthere unit hunit
        exact Or.inl ⟨same, hsame, hsameExecuting.trans hexecuting,
          (congrArg Request.executionId hrequest).trans hid⟩
      · exact Or.inr (hlater hknown)
    · rw [hissued]
      exact honce.once
  | @drops effects' unit current waiting dropped last scheduled running quiet =>
    have hidle := honce.no_tasks fun busy hbusy hexecuting ↦ by
      rw [current] at hbusy
      rw [← Option.some.inj hbusy, waiting] at hexecuting
      cases hexecuting
    refine honce.emptied dropped scheduled running hidle quiet fun hissuedOnce ↦ ?_
    rcases honce.known hissuedOnce with ⟨busy, hbusy, hexecuting, -⟩ | hknown
    · rw [current] at hbusy
      rw [← Option.some.inj hbusy, waiting] at hexecuting
      cases hexecuting
    · exact hlater hknown
  | @refuses effects' refused idle current last scheduled running quiet =>
    have hidle := honce.no_tasks fun busy hbusy _ ↦ by
      rw [idle] at hbusy
      cases hbusy
    refine honce.emptied current scheduled running hidle quiet fun hissuedOnce ↦ ?_
    rcases honce.known hissuedOnce with ⟨busy, hbusy, -, -⟩ | hknown
    · rw [idle] at hbusy
      cases hbusy
    · exact hlater hknown
  | @waits effects' unit delivery now published accepts message idle current waiting new last
      scheduled running quiet =>
    have hidle := honce.no_tasks fun busy hbusy _ ↦ by
      rw [idle] at hbusy
      cases hbusy
    have hissued : issued executionId after (effects ++ more) = issued executionId before effects :=
      issued_quiet quiet scheduled
    have hknown : 1 ≤ issued executionId before effects →
        before.lastId = some executionId ∨ Retired settings events executionId := by
      intro hissuedOnce
      rcases honce.known hissuedOnce with ⟨busy, hbusy, -, -⟩ | hknown
      · rw [idle] at hbusy
        cases hbusy
      · exact hknown
    rw [hidle.1] at scheduled
    rw [hidle.2] at running
    refine ⟨?_, ?_, ?_, ?_, ?_, ?_⟩
    · rw [scheduled, running]
      exact Nat.zero_le 1
    · rw [scheduled, running]
      exact fun _ hmem ↦ absurd hmem List.not_mem_nil
    · intro other hother hexecuting
      rw [current] at hother
      rw [← Option.some.inj hother, waiting] at hexecuting
      cases hexecuting
    · -- An execution that was issued would be retired by now, and its request delivered again.
      intro other hother _ hid
      rw [current] at hother
      obtain rfl := Option.some.inj hother
      rw [hissued]
      by_contra hissuedOnce
      rcases hknown (Nat.one_le_iff_ne_zero.mpr hissuedOnce) with hlast | hretired
      · exact new (hlast.trans (congrArg some hid.symm))
      · refine hnew delivery now published unit.request accepts message hid ?_ hretired
        rw [issued, hidle.1, List.countP_nil, Nat.add_zero] at hissuedOnce
        exact Nat.one_le_iff_ne_zero.mpr hissuedOnce
    · rw [hissued]
      exact fun hissuedOnce ↦ Or.inr (hlater (hknown hissuedOnce))
    · rw [hissued]
      exact honce.once
  | @replies unit executing current waiting executes same started last scheduled running =>
    have hidle := honce.no_tasks fun busy hbusy hexecuting ↦ by
      rw [current] at hbusy
      rw [← Option.some.inj hbusy, waiting] at hexecuting
      cases hexecuting
    have hissued : issued executionId after (effects ++ []) = issued executionId before effects +
        if executing.request.executionId = executionId then 1 else 0 := issued_scheduled scheduled
    rw [hidle.1, List.nil_append] at scheduled
    rw [hidle.2] at running
    refine ⟨?_, ?_, ?_, ?_, ?_, ?_⟩
    · rw [scheduled, running]
      exact le_refl 1
    · rw [scheduled, running, List.append_nil]
      intro task htask
      exact ⟨executing, executes, started, congrArg _ (List.mem_singleton.mp htask).symm⟩
    · intro _ _ _
      rw [scheduled]
      exact List.cons_ne_nil _ _
    · intro other hother hwaiting _
      rw [executes] at hother
      rw [← Option.some.inj hother, started] at hwaiting
      cases hwaiting
    · rw [hissued]
      intro hissuedOnce
      by_cases hid : executing.request.executionId = executionId
      · exact Or.inl ⟨executing, executes, started, hid⟩
      · rw [if_neg hid, Nat.add_zero] at hissuedOnce
        rcases honce.known hissuedOnce with ⟨busy, hbusy, hexecuting, -⟩ | hknown
        · rw [current] at hbusy
          rw [← Option.some.inj hbusy, waiting] at hexecuting
          cases hexecuting
        · exact Or.inr (hlater hknown)
    · rw [hissued]
      split_ifs with hid
      · rw [honce.waiting unit current waiting ((congrArg Request.executionId same).symm.trans hid)]
      · exact honce.once
  | @begins unit rest scheduled left running current last =>
    have hissued : issued executionId after (effects ++ [.execute unit.request]) =
        issued executionId before effects := issued_begins (scheduled.trans (by rw [left]))
    have htasks : after.scheduled ++ after.running ⊆ before.scheduled ++ before.running := by
      rw [left, running, scheduled]
      intro task htask
      simp only [List.mem_append, List.mem_cons, List.not_mem_nil, or_false] at htask ⊢
      tauto
    refine ⟨?_, ?_, ?_, ?_, ?_, ?_⟩
    · have hsingle := honce.single
      rw [scheduled, List.length_cons] at hsingle
      rw [left, running, List.length_append, List.length_singleton]
      omega
    · rw [current]
      exact fun task htask ↦ honce.tasks task (htasks htask)
    · intro _ _ _
      rw [running, ← List.append_assoc]
      exact List.append_ne_nil_of_right_ne_nil _ (List.cons_ne_nil _ _)
    · rw [current, hissued]
      exact honce.waiting
    · rw [current, hissued]
      exact fun hissuedOnce ↦ (honce.known hissuedOnce).imp_right hlater
    · rw [hissued]
      exact honce.once
  | @ends effects' unit rest running left scheduled current last quiet =>
    have hissued : issued executionId after (effects ++ more) = issued executionId before effects :=
      issued_quiet quiet scheduled
    have hsingle := honce.single
    rw [running, List.length_cons] at hsingle
    have hscheduled : after.scheduled = [] := by
      rw [scheduled]
      exact List.eq_nil_of_length_eq_zero (by omega)
    have hrunning : after.running = [] := by
      rw [left]
      exact List.eq_nil_of_length_eq_zero (by omega)
    refine ⟨?_, ?_, ?_, ?_, ?_, ?_⟩
    · rw [hscheduled, hrunning]
      exact Nat.zero_le 1
    · rw [hscheduled, hrunning]
      exact fun _ hmem ↦ absurd hmem List.not_mem_nil
    · intro other hother
      rw [current] at hother
      cases hother
    · intro other hother
      rw [current] at hother
      cases hother
    · rw [hissued]
      intro hissuedOnce
      rcases honce.known hissuedOnce with ⟨busy, hbusy, -, hid⟩ | hknown
      · obtain ⟨mine, hmine, -, hrequest⟩ := honce.tasks unit
          (List.mem_append_right _ (running ▸ List.mem_cons_self))
        rw [hbusy] at hmine
        obtain rfl := Option.some.inj hmine
        rw [last, ← hrequest, hid]
        exact Or.inr (Or.inl rfl)
      · exact Or.inr (hlater hknown)
    · rw [hissued]
      exact honce.once
  | stops scheduled running left current last =>
    refine honce.emptied current (left.1.trans scheduled.symm) (left.2.trans running.symm)
      ⟨scheduled, running⟩ (fun _ ↦ List.not_mem_nil) fun hissuedOnce ↦ ?_
    rcases honce.known hissuedOnce with ⟨busy, hbusy, hexecuting, -⟩ | hknown
    · have hsome := honce.busy busy hbusy hexecuting
      rw [scheduled, running] at hsome
      exact absurd rfl hsome
    · exact hlater hknown

/-- The invariant holds after every run in which the request is not delivered again once its
execution is retired. -/
theorem run_once (hredelivered : ¬ Redelivered settings events executionId) :
    Once settings events executionId (run settings events).1 (run settings events).2 := by
  induction events using List.reverseRecOn with
  | nil =>
    refine ⟨Nat.zero_le 1, fun _ hmem ↦ absurd hmem List.not_mem_nil, fun _ hnone ↦ ?_,
      fun _ hnone ↦ ?_, fun hissuedOnce ↦ absurd hissuedOnce (Nat.not_succ_le_zero 0), Nat.zero_le 1⟩
    · cases hnone
    · cases hnone
  | append_singleton events event ih =>
    have hearlier : ¬ Redelivered settings events executionId := by
      rintro ⟨front, delivery, now, published, back, request, rfl, hrest⟩
      exact hredelivered ⟨front, delivery, now, published, back ++ [event], request,
        List.append_assoc _ _ _, hrest⟩
    have hsnoc := run_snoc settings events event
    have hmoved := (ih hearlier).move rfl (congrArg Prod.fst hsnoc).symm step_moves
      fun delivery now published request heq hmessage hid hran hretired ↦ hredelivered
        ⟨events, delivery, now, published, [], request, by rw [heq], hmessage, hid, hran, hretired⟩
    rw [hsnoc]
    exact hmoved

end Invariant

/-! ### The main result -/

/-- `guest.execute` is called at most once for an execution, unless its request is delivered again
after another unit replaced it in the terminal slot. -/
theorem executes_at_most_once (settings : Settings) (events : List Event) (executionId : Uuid) :
    executions executionId (run settings events).2 ≤ 1 ∨
      Redelivered settings events executionId := by
  by_cases hredelivered : Redelivered settings events executionId
  · exact Or.inr hredelivered
  · exact Or.inl ((Nat.le_add_right _ _).trans (run_once hredelivered).once)

/-- A request with its tuple. -/
def sampleRequest (executionId : Uuid) : Request :=
  ⟨executionId, 1, 2, .shell, "true".toList⟩

/-- A message of the manager. -/
def verified (message : Inbound) : VerifiedMessage :=
  ⟨message, "user".toList, "token".toList⟩

/-- A request, the reply to its acknowledgement, and its execution. -/
def executeOnce (executionId : Uuid) : List Event :=
  [.accept (verified (.request (sampleRequest executionId))) 0 true,
    .accept (verified (.ackReply (sampleRequest executionId).control)) 1 true,
    .executeUnit,
    .executed none true 0]

/-- Two executions, and the messages of the first one once more. -/
def redelivery : List Event :=
  .startup true :: executeOnce 10 ++ executeOnce 20 ++ executeOnce 10

/-- An execution that another one replaced in the terminal slot runs again. -/
theorem executes_twice :
    ¬ ∀ settings events executionId, executions executionId (run settings events).2 ≤ 1 := by
  intro honce
  have htwice : executions 10 (run ⟨10, 100⟩ redelivery).2 = 2 := by decide +kernel
  have hbound := honce ⟨10, 100⟩ redelivery 10
  rw [htwice] at hbound
  exact absurd hbound (by decide)

end Ads.SandboxIpc
