import Mathlib.Tactic
import Ads.SandboxEgress.DnsTransport

/-!
# Admitted queries

`transport_accounting` says of every run of the transport that the counter of accepted queries is
the number of queries that are admitted and not given back, that each of them is given back once,
and that the limits hold. A query is held by `_tasks` or by the connection that waits for it, and
what a task that is done still holds is given back by its callback, which is due then.
-/

set_option autoImplicit false
set_option relaxedAutoImplicit false

namespace Ads.SandboxEgress.DnsTransport

open Foundation.Leases Foundation.Runs

variable {limits : DnsLimits} {state : DnsState} {trace : List DnsEffect}

/-- The task waits for a query of the connection. -/
def DnsState.IsPending (state : DnsState) (task : ℕ) : Prop :=
  ∃ connection, ∃ query ∈ state.pending connection, query.task = task

/-- The work of a connection or of a datagram. -/
def Work.IsOwn (work : Work) : Prop :=
  ∀ connection id, work ≠ .process connection id

/-- The state fits to the effects so far. -/
structure Coherent (limits : DnsLimits) (state : DnsState) (trace : List DnsEffect) : Prop where
  orderly : Along IsOrderly trace
  accepted : state.accepted = (held .query trace).card
  connections : state.connections = (held .connection trace).card
  fresh : ∀ task, state.next ≤ task →
    state.work task = none ∧ state.done task = false ∧ ¬ IsAcquired trace task
  queries : ∀ task, task ∈ held .query trace ↔
    state.tasks task = some .query ∨ state.IsPending task
  tasks : ∀ task, task ∈ held .connection trace ↔ state.tasks task = some .connection
  waits : ∀ connection, ∀ query ∈ state.pending connection,
    state.work query.task = some (.process connection query.id)
  owns : ∀ task, state.tasks task ≠ none → ∃ work, state.work task = some work ∧ work.IsOwn
  ids : ∀ connection, ((state.pending connection).map PendingQuery.id).Nodup
  due : ∀ task ∈ held .query trace, state.done task = true → state.due task = true
  accepted_le : state.accepted ≤ limits.accepted
  connections_le : state.connections ≤ limits.connections
  pending_le : ∀ connection, (state.pending connection).length ≤ limits.outstanding
  executing_le : state.executing.card ≤ limits.executing

/-- What holds after a run. -/
structure Accounted (limits : DnsLimits) (state : DnsState) (trace : List DnsEffect) : Prop where
  /-- The counter is the number of outstanding queries, which the tasks and connections hold. -/
  counter : state.accepted = (held .query trace).card ∧
    ∀ task, task ∈ held .query trace ↔ state.tasks task = some .query ∨ state.IsPending task
  nonneg : 0 ≤ state.accepted
  /-- An admission is given back once when it is no longer outstanding, and never before. -/
  once : ∀ task, .acquired .query task ∈ trace →
    trace.count (.released .query task) = if task ∈ held .query trace then 0 else 1
  /-- What is not admitted is not given back. -/
  never : ∀ task, .acquired .query task ∉ trace → .released .query task ∉ trace
  /-- What is outstanding is still run, or its callback is due. -/
  unleaked : ∀ task ∈ held .query trace, state.done task = false ∨ state.due task = true
  limits : state.accepted ≤ limits.accepted ∧ 0 ≤ state.connections ∧
    state.connections ≤ limits.connections ∧ state.executing.card ≤ limits.executing ∧
      ∀ connection, (state.pending connection).length ≤ limits.outstanding
  /-- On one connection at most one outstanding query has an identifier. -/
  unique : ∀ first ∈ held .query trace, ∀ second ∈ held .query trace, ∀ connection id,
    state.work first = some (.process connection id) →
      state.work second = some (.process connection id) → first = second

/-! ### Giving back -/

/-- A pending query is found by its identifier. -/
theorem Coherent.find_pending (hcoherent : Coherent limits state trace) {connection : ℕ}
    {query : PendingQuery} (hquery : query ∈ state.pending connection) :
    (state.pending connection).find? (·.id == query.id) = some query := by
  cases hfind : (state.pending connection).find? (·.id == query.id) with
  | none => simpa using List.find?_eq_none.mp hfind query hquery
  | some found =>
    have hid : found.id = query.id := by simpa using List.find?_some hfind
    have hmem := List.mem_of_find?_eq_some hfind
    rw [List.inj_on_of_nodup_map (hcoherent.ids connection) hmem hquery hid]

/-- A task that a connection waits for is in no other table, and a connection waits for it once. -/
theorem Coherent.pending_alone (hcoherent : Coherent limits state trace) {connection other : ℕ}
    {query found : PendingQuery} (hquery : query ∈ state.pending connection)
    (hfound : found ∈ state.pending other) (htask : found.task = query.task) :
    other = connection ∧ found.id = query.id := by
  have hwork := hcoherent.waits other found hfound
  rw [htask, hcoherent.waits connection query hquery] at hwork
  obtain ⟨hconnection, hid⟩ := Work.process.inj (Option.some.inj hwork)
  exact ⟨hconnection.symm, hid.symm⟩

theorem Coherent.pending_not_task (hcoherent : Coherent limits state trace) {connection : ℕ}
    {query : PendingQuery} (hquery : query ∈ state.pending connection) :
    state.tasks query.task = none := by
  by_contra htask
  obtain ⟨work, hwork, hown⟩ := hcoherent.owns query.task htask
  rw [hcoherent.waits connection query hquery] at hwork
  exact hown connection query.id (Option.some.inj hwork).symm

/-- The connection of an outstanding query waits for it. -/
theorem Coherent.pending_of_process (hcoherent : Coherent limits state trace) {task connection : ℕ}
    {id : ℕ} (htask : task ∈ held .query trace)
    (hwork : state.work task = some (.process connection id)) :
    (⟨id, task⟩ : PendingQuery) ∈ state.pending connection := by
  rcases (hcoherent.queries task).mp htask with htasks | ⟨other, query, hquery, rfl⟩
  · obtain ⟨work, hown, hisOwn⟩ := hcoherent.owns task (by rw [htasks]; simp)
    rw [hwork] at hown
    exact absurd (Option.some.inj hown).symm (hisOwn connection id)
  · have hwaits := hcoherent.waits other query hquery
    rw [hwork] at hwaits
    obtain ⟨rfl, rfl⟩ := Work.process.inj (Option.some.inj hwaits)
    exact hquery

/-- What a task counts for is given back, and nothing else changes. -/
structure GivesBack (counted : Counted) (task : ℕ) (state after : DnsState) : Prop where
  next : after.next = state.next
  work : after.work = state.work
  done : after.done = state.done
  due : after.due = state.due
  executing : after.executing = state.executing
  accepted : after.accepted = state.accepted - if counted = .query then 1 else 0
  connections : after.connections = state.connections - if counted = .connection then 1 else 0
  tasks : ∀ other kind, after.tasks other = some kind ↔
    state.tasks other = some kind ∧ ¬ (other = task ∧ kind = counted)
  pending : ∀ connection, (after.pending connection).Sublist (state.pending connection)
  waiting : ∀ connection, ∀ query ∈ state.pending connection,
    (query ∈ after.pending connection ↔ ¬ (query.task = task ∧ counted = .query))

variable {counted : Counted} {task : ℕ} {after : DnsState}

theorem GivesBack.mem_held (hgives : GivesBack counted task state after)
    (hcoherent : Coherent limits state trace) (other : ℕ) :
    (after.tasks other = some .query ∨ after.IsPending other) ↔
      ¬ (counted = .query ∧ task = other) ∧ other ∈ held .query trace := by
  rw [hcoherent.queries, hgives.tasks]
  constructor
  · rintro (⟨htasks, hother⟩ | ⟨connection, query, hquery, rfl⟩)
    · exact ⟨fun h ↦ hother ⟨h.2.symm, h.1.symm⟩, Or.inl htasks⟩
    · have hbefore := (hgives.pending connection).subset hquery
      have hkept := (hgives.waiting connection query hbefore).mp hquery
      exact ⟨fun h ↦ hkept ⟨h.2.symm, h.1⟩, Or.inr ⟨connection, query, hbefore, rfl⟩⟩
  · rintro ⟨hother, htasks | ⟨connection, query, hquery, rfl⟩⟩
    · exact Or.inl ⟨htasks, fun h ↦ hother ⟨h.2.symm, h.1.symm⟩⟩
    · refine Or.inr ⟨connection, query, (hgives.waiting connection query hquery).mpr ?_, rfl⟩
      exact fun h ↦ hother ⟨h.2, h.1.symm⟩

/-- Giving back what is held keeps the state fit to the effects. -/
theorem Coherent.give (hcoherent : Coherent limits state trace)
    (hgives : GivesBack counted task state after) (hheld : task ∈ held counted trace) :
    Coherent limits after (trace ++ [.released counted task]) := by
  have hcard := card_held_released hheld
  have haccepted := hcoherent.accepted
  have hconnections := hcoherent.connections
  have hgivenQuery := hgives.accepted
  have hgivenConnection := hgives.connections
  have hquery : after.accepted = (held .query (trace ++ [.released counted task])).card := by
    cases counted with
    | query =>
      rw [if_pos rfl] at hgivenQuery
      omega
    | connection =>
      rw [held_released_of_ne (by decide), hgivenQuery, if_neg (by decide), sub_zero, haccepted]
  have hconnection :
      after.connections = (held .connection (trace ++ [.released counted task])).card := by
    cases counted with
    | query =>
      rw [held_released_of_ne (by decide), hgivenConnection, if_neg (by decide), sub_zero,
        hconnections]
    | connection =>
      rw [if_pos rfl] at hgivenConnection
      omega
  constructor
  case orderly => exact hcoherent.orderly.snoc hheld
  case accepted => exact hquery
  case connections => exact hconnection
  case fresh =>
    intro other hother
    rw [hgives.next] at hother
    obtain ⟨hwork, hdone, hnew⟩ := hcoherent.fresh other hother
    rw [hgives.work, hgives.done]
    exact ⟨hwork, hdone, by simpa [IsAcquired] using hnew⟩
  case queries =>
    intro other
    rw [mem_held_released]
    exact (hgives.mem_held hcoherent other).symm
  case tasks =>
    intro other
    rw [mem_held_released, hcoherent.tasks, hgives.tasks]
    exact ⟨fun h ↦ ⟨h.2, fun hsame ↦ h.1 ⟨hsame.2.symm, hsame.1.symm⟩⟩,
      fun h ↦ ⟨fun hsame ↦ h.2 ⟨hsame.2.symm, hsame.1.symm⟩, h.1⟩⟩
  case waits =>
    intro connection query hquery
    rw [hgives.work]
    exact hcoherent.waits connection query ((hgives.pending connection).subset hquery)
  case owns =>
    intro other hother
    obtain ⟨kind, hkind⟩ := Option.ne_none_iff_exists'.mp hother
    rw [hgives.work]
    exact hcoherent.owns other (by rw [((hgives.tasks other kind).mp hkind).1]; simp)
  case ids =>
    exact fun connection ↦ (hcoherent.ids connection).sublist ((hgives.pending connection).map _)
  case due =>
    intro other hother
    rw [hgives.done, hgives.due]
    exact hcoherent.due other (mem_held_released.mp hother).2
  case accepted_le =>
    have hle := hcoherent.accepted_le
    split_ifs at hgivenQuery <;> omega
  case connections_le =>
    have hle := hcoherent.connections_le
    split_ifs at hgivenConnection <;> omega
  case pending_le =>
    intro connection
    exact (hgives.pending connection).length_le.trans (hcoherent.pending_le connection)
  case executing_le =>
    rw [hgives.executing]
    exact hcoherent.executing_le

/-- What `complete` gives back is outstanding. -/
theorem Coherent.complete (hcoherent : Coherent limits state trace) (connection : ℕ)
    (query : PendingQuery) :
    Coherent limits (complete state connection query).1
      (trace ++ (complete state connection query).2) := by
  unfold DnsTransport.complete
  split_ifs with hfound
  · have hquery : query ∈ state.pending connection := List.mem_of_find?_eq_some hfound
    refine hcoherent.give ⟨rfl, rfl, rfl, rfl, rfl, rfl, (sub_zero _).symm, ?_, ?_, ?_⟩
      ((hcoherent.queries query.task).mpr (Or.inr ⟨connection, query, hquery, rfl⟩))
    · intro other kind
      refine ⟨fun htasks ↦ ⟨htasks, ?_⟩, fun h ↦ h.1⟩
      rintro ⟨rfl, -⟩
      rw [hcoherent.pending_not_task hquery] at htasks
      cases htasks
    · intro other
      by_cases hother : other = connection
      · subst hother
        simp
      · simp [hother]
    · intro other found hmem
      by_cases hother : other = connection
      · subst hother
        simp only [Function.update_self, List.mem_filter, hmem, true_and, bne_iff_ne, and_true]
        refine not_congr ⟨fun hid ↦ ?_, fun htask ↦ (hcoherent.pending_alone hquery hmem htask).2⟩
        rw [List.inj_on_of_nodup_map (hcoherent.ids other) hmem hquery hid]
      · simp only [Function.update_of_ne hother, hmem, true_iff, and_true]
        exact fun htask ↦ hother (hcoherent.pending_alone hquery hmem htask).1
  · simpa using hcoherent

/-- What `_completed` gives back is held. -/
theorem Coherent.completed (hcoherent : Coherent limits state trace) (task : ℕ) :
    Coherent limits (completed state task).1 (trace ++ (completed state task).2) := by
  unfold DnsTransport.completed
  cases htask : state.tasks task with
  | none => simpa using hcoherent
  | some counted =>
    have htasks : ∀ other kind, Function.update state.tasks task none other = some kind ↔
        state.tasks other = some kind ∧ ¬ (other = task ∧ kind = counted) := by
      intro other kind
      by_cases hother : other = task
      · subst hother
        simp [htask, eq_comm]
      · simp [hother]
    have hwaiting : ∀ connection, ∀ query ∈ state.pending connection, query.task ≠ task := by
      rintro connection query hquery rfl
      rw [hcoherent.pending_not_task hquery] at htask
      cases htask
    cases counted with
    | query =>
      exact hcoherent.give ⟨rfl, rfl, rfl, rfl, rfl, rfl, (sub_zero _).symm, htasks,
        fun _ ↦ List.Sublist.refl _, fun connection query hquery ↦
          iff_of_true hquery fun h ↦ hwaiting connection query hquery h.1⟩
        ((hcoherent.queries task).mpr (Or.inl htask))
    | connection =>
      exact hcoherent.give ⟨rfl, rfl, rfl, rfl, rfl, (sub_zero _).symm, rfl, htasks,
        fun _ ↦ List.Sublist.refl _, fun connection query hquery ↦
          iff_of_true hquery fun h ↦ hwaiting connection query hquery h.1⟩
        ((hcoherent.tasks task).mpr htask)

/-- An action that keeps the state fit to the effects does so for each of some items. -/
theorem Coherent.each {α : Type} {action : DnsState → α → Moved}
    (haction : ∀ {state trace}, Coherent limits state trace → ∀ item,
      Coherent limits (action state item).1 (trace ++ (action state item).2))
    (hcoherent : Coherent limits state trace) (items : List α) :
    Coherent limits (each action state items).1 (trace ++ (each action state items).2) := by
  induction items generalizing state trace with
  | nil => simpa [DnsTransport.each] using hcoherent
  | cons item items ih =>
    unfold DnsTransport.each
    dsimp only
    rw [← List.append_assoc]
    exact ih (haction hcoherent item)

/-! ### Admitting -/

theorem Coherent.next_free (hcoherent : Coherent limits state trace) :
    state.tasks state.next = none ∧ state.next ∉ held .query trace ∧
      state.next ∉ held .connection trace := by
  obtain ⟨hwork, -, hnew⟩ := hcoherent.fresh state.next le_rfl
  refine ⟨?_, fun h ↦ hnew ⟨_, acquired_of_mem_held h⟩, fun h ↦ hnew ⟨_, acquired_of_mem_held h⟩⟩
  by_contra htask
  obtain ⟨work, hsome, -⟩ := hcoherent.owns state.next htask
  rw [hwork] at hsome
  cases hsome

/-- A task is created that counts. Who holds it is left open. -/
structure Takes (limits : DnsLimits) (counted : Counted) (own : Work) (state after : DnsState) :
    Prop where
  next : after.next = state.next + 1
  work : after.work = Function.update state.work state.next (some own)
  done : after.done = state.done
  due : after.due = state.due
  executing : after.executing = state.executing
  accepted : after.accepted = state.accepted + if counted = .query then 1 else 0
  connections : after.connections = state.connections + if counted = .connection then 1 else 0
  accepted_le : after.accepted ≤ limits.accepted
  connections_le : after.connections ≤ limits.connections
  queries : ∀ other, (after.tasks other = some .query ∨ after.IsPending other) ↔
    (counted = .query ∧ state.next = other) ∨ state.tasks other = some .query ∨
      state.IsPending other
  tasks : ∀ other, after.tasks other = some .connection ↔
    (counted = .connection ∧ state.next = other) ∨ state.tasks other = some .connection
  waits : ∀ connection, ∀ query ∈ after.pending connection,
    query ∈ state.pending connection ∨
      query.task = state.next ∧ own = .process connection query.id
  owns : ∀ other, after.tasks other ≠ none →
    state.tasks other ≠ none ∨ other = state.next ∧ own.IsOwn
  ids : ∀ connection, ((after.pending connection).map PendingQuery.id).Nodup
  pending_le : ∀ connection, (after.pending connection).length ≤ limits.outstanding

/-- A task that counts keeps the state fit to the effects. -/
theorem Coherent.take {own : Work} (hcoherent : Coherent limits state trace)
    (htakes : Takes limits counted own state after) :
    Coherent limits after (trace ++ [.acquired counted state.next]) := by
  obtain ⟨hwork, hdone, hnew⟩ := hcoherent.fresh state.next le_rfl
  have hcard : (held counted (trace ++ [.acquired counted state.next])).card =
      (held counted trace).card + 1 := card_held_acquired hnew
  have haccepted := hcoherent.accepted
  have hconnections := hcoherent.connections
  have htakenQuery := htakes.accepted
  have htakenConnection := htakes.connections
  have hkept : ∀ other, state.work other ≠ none → after.work other = state.work other := by
    intro other hother
    rw [htakes.work, Function.update_of_ne]
    rintro rfl
    exact hother hwork
  have hquery : after.accepted = (held .query (trace ++ [.acquired counted state.next])).card := by
    cases counted with
    | query =>
      rw [if_pos rfl] at htakenQuery
      omega
    | connection =>
      rw [held_acquired_of_ne (by decide), htakenQuery, if_neg (by decide), add_zero, haccepted]
  have hconnection :
      after.connections = (held .connection (trace ++ [.acquired counted state.next])).card := by
    cases counted with
    | query =>
      rw [held_acquired_of_ne (by decide), htakenConnection, if_neg (by decide), add_zero,
        hconnections]
    | connection =>
      rw [if_pos rfl] at htakenConnection
      omega
  constructor
  case orderly => exact hcoherent.orderly.snoc hnew
  case accepted => exact hquery
  case connections => exact hconnection
  case fresh =>
    intro other hother
    rw [htakes.next] at hother
    obtain ⟨hnone, hundone, hunknown⟩ := hcoherent.fresh other (by omega)
    have hne : other ≠ state.next := by omega
    rw [htakes.work, htakes.done, Function.update_of_ne hne]
    refine ⟨hnone, hundone, fun hacquired ↦ ?_⟩
    obtain ⟨kind, hkind⟩ := hacquired
    rcases List.mem_append.mp hkind with hmem | hmem
    · exact hunknown ⟨kind, hmem⟩
    · exact hne (Lease.acquired.inj (List.mem_singleton.mp hmem)).2
  case queries =>
    intro other
    rw [mem_held_acquired, htakes.queries, hcoherent.queries]
  case tasks =>
    intro other
    rw [mem_held_acquired, htakes.tasks, hcoherent.tasks]
  case waits =>
    intro connection query hquery
    rcases htakes.waits connection query hquery with hbefore | ⟨htask, rfl⟩
    · have hwaits := hcoherent.waits connection query hbefore
      rw [hkept query.task (by rw [hwaits]; simp), hwaits]
    · rw [htakes.work, htask, Function.update_self]
  case owns =>
    intro other hother
    rcases htakes.owns other hother with hbefore | ⟨rfl, hown⟩
    · obtain ⟨work, hsome, hwork⟩ := hcoherent.owns other hbefore
      exact ⟨work, (hkept other (by rw [hsome]; simp)).trans hsome, hwork⟩
    · exact ⟨own, by rw [htakes.work, Function.update_self], hown⟩
  case ids => exact htakes.ids
  case due =>
    intro other hother
    rw [htakes.done, htakes.due]
    rcases mem_held_acquired.mp hother with ⟨-, rfl⟩ | hbefore
    · intro hfinished
      rw [hdone] at hfinished
      cases hfinished
    · exact hcoherent.due other hbefore
  case accepted_le => exact htakes.accepted_le
  case connections_le => exact htakes.connections_le
  case pending_le => exact htakes.pending_le
  case executing_le =>
    rw [htakes.executing]
    exact hcoherent.executing_le

/-- A task that `_tasks` holds is one more there. -/
theorem tasks_update {tasks : ℕ → Option Counted} {other : ℕ} {kind : Counted}
    (hfree : tasks task = none) :
    Function.update tasks task (some counted) other = some kind ↔
      (counted = kind ∧ task = other) ∨ tasks other = some kind := by
  by_cases hother : other = task
  · subst hother
    simp [hfree]
  · simp [hother, Ne.symm hother]

theorem Coherent.datagramReceived (hcoherent : Coherent limits state trace) (isSupported : Bool) :
    Coherent limits (datagramReceived limits state isSupported).1
      (trace ++ (datagramReceived limits state isSupported).2) := by
  unfold DnsTransport.datagramReceived
  split_ifs with hrefused
  · simpa using hcoherent
  · rw [not_or] at hrefused
    have hroom : state.accepted < limits.accepted :=
      not_le.mp fun hfull ↦ hrefused.2 (Or.inr hfull)
    obtain ⟨hfree, -, -⟩ := hcoherent.next_free
    exact hcoherent.take
      { next := rfl, work := rfl, done := rfl, due := rfl, executing := rfl, accepted := rfl
        connections := (add_zero _).symm
        accepted_le := hroom
        connections_le := hcoherent.connections_le
        queries := fun other ↦ by
          dsimp only [DnsState.create]
          rw [tasks_update hfree, or_assoc]
          rfl
        tasks := fun other ↦ by
          dsimp only [DnsState.create]
          rw [tasks_update hfree]
        waits := fun connection query hquery ↦ Or.inl hquery
        owns := fun other hother ↦ by
          by_cases heq : other = state.next
          · exact Or.inr ⟨heq, fun _ _ hprocess ↦ by cases hprocess⟩
          · refine Or.inl fun hnone ↦ hother ?_
            dsimp only [DnsState.create]
            rw [Function.update_of_ne heq, hnone]
        ids := hcoherent.ids
        pending_le := hcoherent.pending_le }

theorem Coherent.tcp (hcoherent : Coherent limits state trace) :
    Coherent limits (tcp limits state).1 (trace ++ (tcp limits state).2) := by
  unfold DnsTransport.tcp
  split_ifs with hrefused
  · simpa using hcoherent
  · rw [not_or] at hrefused
    obtain ⟨hfree, -, -⟩ := hcoherent.next_free
    exact hcoherent.take
      { next := rfl, work := rfl, done := rfl, due := rfl, executing := rfl, connections := rfl
        accepted := (add_zero _).symm
        accepted_le := hcoherent.accepted_le
        connections_le := not_le.mp hrefused.2
        queries := fun other ↦ by
          dsimp only [DnsState.create]
          rw [tasks_update hfree, or_assoc]
          rfl
        tasks := fun other ↦ by
          dsimp only [DnsState.create]
          rw [tasks_update hfree]
        waits := fun connection query hquery ↦ Or.inl hquery
        owns := fun other hother ↦ by
          by_cases heq : other = state.next
          · exact Or.inr ⟨heq, fun _ _ hprocess ↦ by cases hprocess⟩
          · refine Or.inl fun hnone ↦ hother ?_
            dsimp only [DnsState.create]
            rw [Function.update_of_ne heq, hnone]
        ids := hcoherent.ids
        pending_le := hcoherent.pending_le }

/-! ### Connections -/

/-- A connection stands at another point of its task. -/
theorem Coherent.move (hcoherent : Coherent limits state trace) {connection : ℕ} {work : Work}
    (hconnection : ∃ before, state.work connection = some before ∧ before.IsOwn)
    (hwork : work.IsOwn) : Coherent limits (state.move connection work) trace := by
  obtain ⟨before, hbefore, hown⟩ := hconnection
  refine { hcoherent with
    fresh := fun task htask ↦ ?_
    waits := fun other query hquery ↦ ?_
    owns := fun task htask ↦ ?_ }
  · obtain ⟨hnone, hdone, hnew⟩ := hcoherent.fresh task htask
    refine ⟨?_, hdone, hnew⟩
    dsimp only [DnsState.move]
    rw [Function.update_of_ne, hnone]
    rintro rfl
    rw [hnone] at hbefore
    cases hbefore
  · have hwaits := hcoherent.waits other query hquery
    dsimp only [DnsState.move]
    rw [Function.update_of_ne, hwaits]
    rintro heq
    rw [heq, hbefore] at hwaits
    exact hown other query.id (Option.some.inj hwaits)
  · by_cases heq : task = connection
    · subst heq
      exact ⟨work, Function.update_self _ _ _, hwork⟩
    · dsimp only [DnsState.move]
      rw [Function.update_of_ne heq]
      exact hcoherent.owns task htask

theorem Coherent.leaveLoop (hcoherent : Coherent limits state trace) {connection : ℕ}
    (hconnection : ∃ before, state.work connection = some before ∧ before.IsOwn) :
    Coherent limits (leaveLoop state connection) trace :=
  hcoherent.move hconnection fun _ _ hprocess ↦ by cases hprocess

theorem Coherent.loopHead (hcoherent : Coherent limits state trace) {connection : ℕ}
    (hconnection : ∃ before, state.work connection = some before ∧ before.IsOwn) :
    Coherent limits (loopHead state connection) trace := by
  unfold DnsTransport.loopHead
  split_ifs
  · exact hcoherent.move hconnection fun _ _ hprocess ↦ by cases hprocess
  · exact hcoherent.leaveLoop hconnection

/-- One more query waits for its answer on a connection. -/
theorem mem_update_concat {pending : ℕ → List PendingQuery} {connection other : ℕ}
    {query found : PendingQuery} :
    found ∈ Function.update pending connection (pending connection ++ [query]) other ↔
      found ∈ pending other ∨ other = connection ∧ found = query := by
  by_cases hother : other = connection
  · subst hother
    simp
  · simp [hother]

theorem Coherent.frameReceived (hcoherent : Coherent limits state trace) {connection : ℕ}
    (hreading : state.work connection = some .reading) (id : Option ℕ) :
    Coherent limits (frameReceived limits state connection id).1
      (trace ++ (frameReceived limits state connection id).2) := by
  have hconnection : ∃ before, state.work connection = some before ∧ before.IsOwn :=
    ⟨.reading, hreading, fun _ _ hprocess ↦ by cases hprocess⟩
  cases id with
  | none =>
    unfold DnsTransport.frameReceived
    rw [List.append_nil]
    exact hcoherent.leaveLoop hconnection
  | some id =>
    unfold DnsTransport.frameReceived
    dsimp only
    split_ifs with hrefused
    · rw [List.append_nil]
      exact hcoherent.leaveLoop hconnection
    · rw [not_or, not_or] at hrefused
      obtain ⟨hunused, hfew, hopen⟩ := hrefused
      have hroom : state.accepted < limits.accepted := not_le.mp fun hfull ↦ hopen (Or.inr hfull)
      have hnew : ∀ query ∈ state.pending connection, query.id ≠ id := by
        simpa using hunused
      obtain ⟨hnone, -, -⟩ := hcoherent.fresh state.next le_rfl
      have hne : connection ≠ state.next := by
        rintro rfl
        rw [hnone] at hreading
        cases hreading
      have htakes : Takes limits .query (.process connection id) state { state with
          accepted := state.accepted + 1
          next := state.next + 1
          work := Function.update state.work state.next (some (.process connection id))
          pending := Function.update state.pending connection
            (state.pending connection ++ [⟨id, state.next⟩]) } := by
        constructor
        case accepted => rfl
        case connections => exact (add_zero _).symm
        case accepted_le => exact hroom
        case connections_le => exact hcoherent.connections_le
        case queries =>
          intro other
          have hpending : DnsState.IsPending { state with
              accepted := state.accepted + 1
              next := state.next + 1
              work := Function.update state.work state.next (some (.process connection id))
              pending := Function.update state.pending connection
                (state.pending connection ++ [⟨id, state.next⟩]) } other ↔
              state.next = other ∨ state.IsPending other := by
            simp only [DnsState.IsPending, mem_update_concat]
            constructor
            · rintro ⟨place, query, hquery | ⟨rfl, rfl⟩, rfl⟩
              · exact Or.inr ⟨place, query, hquery, rfl⟩
              · exact Or.inl rfl
            · rintro (rfl | ⟨place, query, hquery, rfl⟩)
              · exact ⟨connection, _, Or.inr ⟨rfl, rfl⟩, rfl⟩
              · exact ⟨place, query, Or.inl hquery, rfl⟩
          rw [hpending]
          simp [or_left_comm]
        case tasks => exact fun other ↦ by simp
        case waits =>
          intro other query hquery
          rcases mem_update_concat.mp hquery with hbefore | ⟨rfl, rfl⟩
          · exact Or.inl hbefore
          · exact Or.inr ⟨rfl, rfl⟩
        case owns => exact fun other hother ↦ Or.inl hother
        case ids =>
          intro other
          by_cases hother : other = connection
          · subst hother
            dsimp only
            rw [Function.update_self, List.map_append, List.nodup_append]
            refine ⟨hcoherent.ids other, List.nodup_singleton _, ?_⟩
            intro first hfirst second hsecond
            obtain ⟨query, hquery, rfl⟩ := List.mem_map.mp hfirst
            rw [List.mem_singleton.mp hsecond]
            exact hnew query hquery
          · dsimp only
            rw [Function.update_of_ne hother]
            exact hcoherent.ids other
        case pending_le =>
          intro other
          by_cases hother : other = connection
          · subst hother
            dsimp only
            rw [Function.update_self, List.length_append, List.length_singleton]
            omega
          · dsimp only
            rw [Function.update_of_ne hother]
            exact hcoherent.pending_le other
        all_goals rfl
      refine (hcoherent.take htakes).loopHead ⟨.reading, ?_, fun _ _ hprocess ↦ by cases hprocess⟩
      dsimp only
      rw [Function.update_of_ne hne, hreading]

/-! ### Tasks that are done -/

/-- A task that is done has its callback due. -/
theorem Coherent.finished (hcoherent : Coherent limits state trace)
    (hwork : state.work task ≠ none) : Coherent limits (state.finished task) trace := by
  refine { hcoherent with
    fresh := fun other hother ↦ ?_
    due := fun other hother hdone ↦ ?_
    executing_le := (Finset.card_erase_le).trans hcoherent.executing_le }
  · obtain ⟨hnone, hundone, hnew⟩ := hcoherent.fresh other hother
    refine ⟨hnone, ?_, hnew⟩
    dsimp only [DnsState.finished]
    rw [Function.update_of_ne, hundone]
    rintro rfl
    exact hwork hnone
  · dsimp only [DnsState.finished] at hdone ⊢
    by_cases heq : other = task
    · rw [heq, Function.update_self]
    · rw [Function.update_of_ne heq] at hdone ⊢
      exact hcoherent.due other hother hdone

theorem Coherent.finishTask (hcoherent : Coherent limits state trace) (task : ℕ)
    (hasFailed : Bool) : Coherent limits (finishTask state task hasFailed) trace := by
  unfold DnsTransport.finishTask
  by_cases hdone : state.done task = true
  · rwa [if_pos hdone]
  · rw [if_neg hdone]
    cases hwork : state.work task with
    | none => exact hcoherent
    | some work =>
      have hfinished := hcoherent.finished (by rw [hwork]; simp)
      cases work with
      | process connection id =>
        cases hasFailed with
        | true => exact { hfinished with }
        | false => exact hfinished
      | reading => exact hcoherent
      | datagram => exact hfinished
      | starting => exact hfinished
      | draining queries => exact hfinished
      | leaving => exact hfinished

/-- A task that holds nothing needs no callback. -/
theorem Coherent.undue (hcoherent : Coherent limits state trace)
    (hfree : task ∉ held .query trace) :
    Coherent limits { state with due := Function.update state.due task false } trace := by
  refine { hcoherent with due := fun other hother hdone ↦ ?_ }
  have hne : other ≠ task := by
    rintro rfl
    exact hfree hother
  dsimp only
  rw [Function.update_of_ne hne]
  exact hcoherent.due other hother hdone

theorem complete_due {due : ℕ → Bool} {connection : ℕ} {query : PendingQuery} :
    complete { state with due := due } connection query =
      ({ (complete state connection query).1 with due := due },
        (complete state connection query).2) := by
  unfold complete
  dsimp only
  split_ifs <;> rfl

theorem completed_due {due : ℕ → Bool} : completed { state with due := due } task =
    ({ (completed state task).1 with due := due }, (completed state task).2) := by
  unfold completed
  dsimp only
  cases state.tasks task with
  | none => rfl
  | some counted => cases counted <;> rfl

@[simp] theorem complete_same {connection : ℕ} {query : PendingQuery} :
    (complete state connection query).1.due = state.due ∧
      (complete state connection query).1.work = state.work := by
  unfold complete
  split_ifs <;> exact ⟨rfl, rfl⟩

@[simp] theorem completed_same : (completed state task).1.due = state.due ∧
    (completed state task).1.work = state.work := by
  unfold completed
  cases state.tasks task with
  | none => exact ⟨rfl, rfl⟩
  | some counted => cases counted <;> exact ⟨rfl, rfl⟩

/-- After its callback a task of a connection holds nothing. -/
theorem Coherent.not_held_complete (hcoherent : Coherent limits state trace) {connection id : ℕ}
    (hwork : state.work task = some (.process connection id)) :
    task ∉ held .query (trace ++ (DnsTransport.complete state connection ⟨id, task⟩).2) := by
  have hafter := hcoherent.complete connection ⟨id, task⟩
  rw [hafter.queries]
  rintro (htask | ⟨other, query, hquery, rfl⟩)
  · obtain ⟨own, hown, hprocess⟩ := hafter.owns task (by rw [htask]; simp)
    rw [complete_same.2, hwork] at hown
    exact hprocess connection id (Option.some.inj hown).symm
  · have hwaits := hafter.waits other query hquery
    rw [complete_same.2, hwork] at hwaits
    obtain ⟨rfl, rfl⟩ := Work.process.inj (Option.some.inj hwaits)
    unfold DnsTransport.complete at hquery
    split_ifs at hquery with hfound
    · simp at hquery
    · exact hfound (hcoherent.find_pending hquery)

/-- After its callback any other task holds nothing. -/
theorem Coherent.not_held_completed (hcoherent : Coherent limits state trace)
    (hwork : ∀ connection id, state.work task ≠ some (.process connection id)) :
    task ∉ held .query (trace ++ (DnsTransport.completed state task).2) := by
  have hafter := hcoherent.completed task
  rw [hafter.queries]
  rintro (htask | ⟨connection, query, hquery, rfl⟩)
  · unfold DnsTransport.completed at htask
    cases htasks : state.tasks task with
    | none => simp [htasks] at htask
    | some counted => cases counted <;> simp [htasks] at htask
  · have hwaits := hafter.waits connection query hquery
    rw [completed_same.2] at hwaits
    exact hwork connection query.id hwaits

theorem Coherent.callbackOf (hcoherent : Coherent limits state trace) (task : ℕ) :
    Coherent limits (callbackOf state task).1 (trace ++ (callbackOf state task).2) := by
  unfold DnsTransport.callbackOf
  split_ifs
  · dsimp only
    split
    · rename_i connection id hwork
      rw [complete_due]
      have hafter := (hcoherent.complete connection ⟨id, task⟩).undue
        (hcoherent.not_held_complete hwork)
      rwa [complete_same.1] at hafter
    · rename_i hother
      rw [completed_due]
      have hafter := (hcoherent.completed task).undue (hcoherent.not_held_completed hother)
      rwa [completed_same.1] at hafter
  · simpa using hcoherent

/-! ### Runs -/

/-- Every step keeps the state fit to the effects. -/
theorem Coherent.step (hcoherent : Coherent limits state trace) (input : DnsInput) :
    Coherent limits (step limits state input).1 (trace ++ (step limits state input).2) := by
  cases input with
  | datagram isSupported => exact hcoherent.datagramReceived isSupported
  | connect => exact hcoherent.tcp
  | start connection =>
    unfold DnsTransport.step
    dsimp only
    split_ifs with hstarting
    · rw [List.append_nil]
      exact hcoherent.loopHead ⟨_, hstarting.1, fun _ _ hprocess ↦ by cases hprocess⟩
    · simpa using hcoherent
  | frame connection id =>
    unfold DnsTransport.step
    dsimp only
    split_ifs with hreading
    · exact hcoherent.frameReceived hreading id
    · simpa using hcoherent
  | leave connection =>
    unfold DnsTransport.step
    dsimp only
    split_ifs with hreading
    · rw [List.append_nil]
      exact hcoherent.leaveLoop ⟨_, hreading, fun _ _ hprocess ↦ by cases hprocess⟩
    · simpa using hcoherent
  | enter task =>
    unfold DnsTransport.step
    dsimp only
    split_ifs with hroom
    · rw [List.append_nil]
      exact { hcoherent with
        executing_le := (Finset.card_insert_le _ _).trans hroom.2.2 }
    · simpa using hcoherent
  | exit task =>
    rw [DnsTransport.step, List.append_nil]
    exact { hcoherent with
      executing_le := Finset.card_erase_le.trans hcoherent.executing_le }
  | finish task hasFailed =>
    rw [DnsTransport.step, List.append_nil]
    exact hcoherent.finishTask task hasFailed
  | callback task => exact hcoherent.callbackOf task
  | drained connection =>
    unfold DnsTransport.step
    dsimp only
    split
    · rename_i queries hdraining
      split_ifs
      · have hmoved : Coherent limits (state.move connection .leaving) trace :=
          hcoherent.move ⟨_, hdraining, fun _ _ hprocess ↦ by cases hprocess⟩
            fun _ _ hprocess ↦ by cases hprocess
        exact hmoved.each (fun hkept query ↦ hkept.complete connection query) queries
      · simpa using hcoherent
    · simpa using hcoherent
  | close =>
    rw [DnsTransport.step, List.append_nil]
    exact { hcoherent with }
  | closed gathered =>
    unfold DnsTransport.step
    dsimp only
    split_ifs
    · have hclosed : Coherent limits
          { state with closings := state.closings.erase gathered } trace := { hcoherent with }
      exact hclosed.each (fun hkept task ↦ hkept.completed task) gathered
    · simpa using hcoherent

theorem Coherent.initial : Coherent limits DnsState.initial [] := by
  constructor
  case orderly => exact Along.nil
  case queries => simp [DnsState.initial, DnsState.IsPending]
  case tasks => simp [DnsState.initial]
  all_goals simp [DnsState.initial, IsAcquired]

/-- For every run of the transport, in any order of datagrams, connections, frames, answers,
failures, cancellations, disconnects, callbacks and closes: the counter of accepted queries is the
number of queries that are admitted and not given back, each of them is given back once, and only
when it is no longer outstanding, what is outstanding is still run or its callback is due, the
limits hold, and on one connection at most one outstanding query has an identifier. -/
theorem transport_accounting (limits : DnsLimits) (inputs : List DnsInput) :
    Accounted limits (runFrom (step limits) DnsState.initial inputs).1
      (runFrom (step limits) DnsState.initial inputs).2 := by
  have hcoherent := run_induction (fun _ state trace ↦ Coherent limits state trace)
    Coherent.initial (fun _ input _ _ hbefore ↦ hbefore.step input) inputs
  generalize (runFrom (step limits) DnsState.initial inputs).1 = state at hcoherent ⊢
  generalize (runFrom (step limits) DnsState.initial inputs).2 = trace at hcoherent ⊢
  have haccepted := hcoherent.accepted
  have hconnections := hcoherent.connections
  constructor
  case counter => exact ⟨hcoherent.accepted, hcoherent.queries⟩
  case nonneg => omega
  case once =>
    intro task htask
    rw [count_released hcoherent.orderly]
    split_ifs with h1 h2 h2 <;> simp_all
  case never =>
    intro task htask hreleased
    have hcount := @count_released _ _ _ _ Counted.query task _ hcoherent.orderly
    rw [if_neg fun h ↦ htask h.1] at hcount
    exact List.count_eq_zero.mp hcount hreleased
  case unleaked =>
    intro task htask
    cases hdone : state.done task with
    | false => exact Or.inl rfl
    | true => exact Or.inr (hcoherent.due task htask hdone)
  case limits =>
    exact ⟨hcoherent.accepted_le, by omega, hcoherent.connections_le, hcoherent.executing_le,
      hcoherent.pending_le⟩
  case unique =>
    intro first hfirst second hsecond connection id hfirstWork hsecondWork
    have hfirstPending := hcoherent.pending_of_process hfirst hfirstWork
    have hsecondPending := hcoherent.pending_of_process hsecond hsecondWork
    exact (PendingQuery.mk.inj (List.inj_on_of_nodup_map (hcoherent.ids connection)
      hfirstPending hsecondPending rfl)).2

end Ads.SandboxEgress.DnsTransport
