import Ads.ManagerKafka.Admission
import Mathlib.Tactic.Set

/-!
# The invariant of durable admission

`Sound` relates what was shown of each assignment to the tasks, the epochs and the consumer. Every
step keeps it and extends a lawful trace lawfully (`Correct.step`), so every run is lawful and leaves
no partition paused without a task (`durable_admission`).
-/

set_option autoImplicit false
set_option relaxedAutoImplicit false

namespace Ads.ManagerKafka.Admission

open Foundation.Runs

variable {P : Type} [DecidableEq P]

/-! ### The invariant -/

/-- How far the assignment of a task has come. -/
structure Progress (trace : List (Event P)) (task : BatchTask P) : Prop where
  /-- The records that are left are in order. -/
  increasing : task.records.Pairwise (· < ·)
  /-- They were delivered. -/
  taken : ∀ offset ∈ task.records, .delivered task.partition task.epoch offset ∈ trace
  /-- Every other delivered record is earlier and settled. -/
  delivered : ∀ offset, .delivered task.partition task.epoch offset ∈ trace →
    offset ∈ task.records ∨
      Settled trace task.partition task.epoch offset ∧ ∀ left ∈ task.records, offset < left
  /-- Only earlier records and perhaps the current one are admitted. -/
  admitted : ∀ offset, .admitted task.partition task.epoch offset ∈ trace →
    (∀ left ∈ task.records, offset < left) ∨
      task.point.admitted = true ∧ task.records.head? = some offset
  /-- The variable `admitted` tells the truth. -/
  current : task.point.admitted = true → ∀ offset, task.records.head? = some offset →
    .admitted task.partition task.epoch offset ∈ trace
  /-- A commit that is awaited was called. -/
  commits : task.point = .committing → ∀ offset, task.records.head? = some offset →
    .commit task.partition task.epoch (offset + 1) ∈ trace

/-- The invariant of `DurableAdmission`. -/
structure Sound (trace : List (Event P)) (state : State P) : Prop where
  /-- Tasks are numbered in the order of their creation. -/
  fresh : ∀ id, state.created ≤ id → state.running id = none
  /-- No event is of a later generation. -/
  pastEvents : ∀ event ∈ trace, event.assignment.2 ≤ state.generation
  /-- No task is of a later generation. -/
  pastTasks : ∀ id task, state.running id = some task → task.epoch ≤ state.generation
  /-- No epoch is later than the generation. -/
  pastEpochs : ∀ partition epoch, state.epochs partition = some epoch → epoch ≤ state.generation
  /-- An assignment has one task at most. -/
  alone : ∀ id task other task', state.running id = some task → state.running other = some task' →
    task.partition = task'.partition → task.epoch = task'.epoch → id = other
  /-- How far each task has come. -/
  progress : ∀ id task, state.running id = some task → Progress trace task
  /-- `tasks` names tasks that were created. -/
  issued : ∀ partition id, state.tasks partition = some id → id < state.created
  /-- `tasks` names a task of the partition. -/
  named : ∀ partition id task, state.tasks partition = some id → state.running id = some task →
    task.partition = partition
  /-- Admitted records were delivered. -/
  sources : ∀ partition epoch offset, .admitted partition epoch offset ∈ trace →
    .delivered partition epoch offset ∈ trace
  /-- The consumer is ahead of what it delivered. -/
  ahead : ∀ partition epoch, state.epochs partition = some epoch →
    ∀ offset, .delivered partition epoch offset ∈ trace → offset < state.position partition
  /-- The partition of a task of the current assignment is paused. -/
  busy : ∀ partition epoch, state.epochs partition = some epoch →
    ∀ id task, state.running id = some task → task.partition = partition → task.epoch = epoch →
      state.paused partition = true
  /-- A current assignment without a task is not paused, and all it delivered is settled. -/
  idle : ∀ partition epoch, state.epochs partition = some epoch →
    (∀ id task, state.running id = some task → task.partition = partition →
      task.epoch ≠ epoch) →
    state.paused partition = false ∧
      ∀ offset, .delivered partition epoch offset ∈ trace → Settled trace partition epoch offset
  /-- A revoked assignment is not the current one. -/
  revoked : ∀ partition epoch, .revoked partition epoch ∈ trace →
    state.epochs partition ≠ some epoch
  /-- Neither is that of a task told to cancel. -/
  cancelled : ∀ id task, state.running id = some task → task.cancelled = true →
    state.epochs task.partition ≠ some task.epoch

omit [DecidableEq P] in
theorem Settled.append {trace : List (Event P)} {partition : P} {epoch offset : ℕ}
    (hsettled : Settled trace partition epoch offset) (events : List (Event P)) :
    Settled (trace ++ events) partition epoch offset :=
  ⟨List.mem_append_left _ hsettled.1, List.mem_append_left _ hsettled.2⟩

omit [DecidableEq P] in
/-- Only deliveries and admissions of its assignment concern a task. -/
theorem Progress.append {trace events : List (Event P)} {task : BatchTask P}
    (hprogress : Progress trace task)
    (hdelivered : ∀ offset, .delivered task.partition task.epoch offset ∉ events)
    (hadmitted : ∀ offset, .admitted task.partition task.epoch offset ∉ events) :
    Progress (trace ++ events) task where
  increasing := hprogress.increasing
  taken offset hoffset := List.mem_append_left _ (hprogress.taken offset hoffset)
  delivered offset hoffset := by
    have hold := (List.mem_append.mp hoffset).resolve_right (hdelivered offset)
    exact (hprogress.delivered offset hold).imp_right fun h ↦ ⟨h.1.append events, h.2⟩
  admitted offset hoffset :=
    hprogress.admitted offset ((List.mem_append.mp hoffset).resolve_right (hadmitted offset))
  current hcurrent offset hhead :=
    List.mem_append_left _ (hprogress.current hcurrent offset hhead)
  commits hpoint offset hhead := List.mem_append_left _ (hprogress.commits hpoint offset hhead)

omit [DecidableEq P] in
@[simp] theorem State.wait_running (state : State P) (id : ℕ) (task : BatchTask P)
    (records : List ℕ) (point : Point) : (state.wait id task records point).running =
      Function.update state.running id (some { task with records, point }) :=
  rfl

@[simp] theorem State.finish_running (state : State P) (id : ℕ) (task : BatchTask P) :
    (state.finish id task).running = Function.update state.running id none := by
  unfold State.finish
  dsimp only
  split_ifs <;> rfl

@[simp] theorem State.finish_epochs (state : State P) (id : ℕ) (task : BatchTask P) :
    (state.finish id task).epochs = state.epochs := by
  unfold State.finish
  dsimp only
  split_ifs <;> rfl

@[simp] theorem State.finish_generation (state : State P) (id : ℕ) (task : BatchTask P) :
    (state.finish id task).generation = state.generation := by
  unfold State.finish
  dsimp only
  split_ifs <;> rfl

@[simp] theorem State.finish_created (state : State P) (id : ℕ) (task : BatchTask P) :
    (state.finish id task).created = state.created := by
  unfold State.finish
  dsimp only
  split_ifs <;> rfl

@[simp] theorem State.finish_position (state : State P) (id : ℕ) (task : BatchTask P) :
    (state.finish id task).position = state.position := by
  unfold State.finish
  dsimp only
  split_ifs <;> rfl

/-- `tasks` names nothing new after a task ended. -/
theorem State.finish_tasks {state : State P} {id other : ℕ} {task : BatchTask P} {partition : P}
    (htasks : (state.finish id task).tasks partition = some other) :
    state.tasks partition = some other := by
  unfold State.finish at htasks
  dsimp only at htasks
  split_ifs at htasks
  · dsimp only at htasks
    by_cases h : partition = task.partition
    · subst h
      rw [Function.update_self] at htasks
      cases htasks
    · rwa [Function.update_of_ne h] at htasks
  · exact htasks

/-- Only the partition of a task that ended in its own epoch is resumed. -/
theorem State.finish_paused (state : State P) (id : ℕ) (task : BatchTask P) (partition : P) :
    (state.finish id task).paused partition =
      if state.epochs task.partition = some task.epoch ∧ partition = task.partition then false
      else state.paused partition := by
  unfold State.finish
  dsimp only
  by_cases hcurrent : state.epochs task.partition = some task.epoch
  · rw [if_pos hcurrent]
    dsimp only
    by_cases h : partition = task.partition
    · subst h
      rw [Function.update_self, if_pos ⟨hcurrent, rfl⟩]
    · rw [Function.update_of_ne h, if_neg fun hand ↦ h hand.2]
  · rw [if_neg hcurrent, if_neg fun hand ↦ hcurrent hand.1]

omit [DecidableEq P] in
/-- The tasks after one of them moved on. -/
theorem running_wait {state : State P} {id other : ℕ} {task task' : BatchTask P}
    {records : List ℕ} {point : Point}
    (htask : (state.wait id task records point).running other = some task') :
    other = id ∧ task' = { task with records, point } ∨
      other ≠ id ∧ state.running other = some task' := by
  by_cases h : other = id
  · subst h
    rw [State.wait_running, Function.update_self] at htask
    exact Or.inl ⟨rfl, (Option.some.inj htask).symm⟩
  · rw [State.wait_running, Function.update_of_ne h] at htask
    exact Or.inr ⟨h, htask⟩

/-- The tasks after one of them ended. -/
theorem running_finish {state : State P} {id other : ℕ} {task task' : BatchTask P}
    (htask : (state.finish id task).running other = some task') :
    other ≠ id ∧ state.running other = some task' := by
  rw [State.finish_running] at htask
  by_cases h : other = id
  · subst h
    rw [Function.update_self] at htask
    cases htask
  · rw [Function.update_of_ne h] at htask
    exact ⟨h, htask⟩

/-- What a task shows of its own records. -/
def Event.IsOf (task : BatchTask P) : Event P → Prop
  | .admission partition epoch _ | .admitted partition epoch _ | .commit partition epoch _
  | .committed partition epoch _ => partition = task.partition ∧ epoch = task.epoch
  | .delivered _ _ _ | .revoked _ _ => False

omit [DecidableEq P] in
theorem Event.IsOf.assignment_eq {task : BatchTask P} {event : Event P} (hevent : event.IsOf task) :
    event.assignment = (task.partition, task.epoch) := by
  cases event with
  | delivered => exact hevent.elim
  | revoked => exact hevent.elim
  | admission => exact Prod.ext hevent.1 hevent.2
  | admitted => exact Prod.ext hevent.1 hevent.2
  | commit => exact Prod.ext hevent.1 hevent.2
  | committed => exact Prod.ext hevent.1 hevent.2

omit [DecidableEq P] in
/-- A task of an assignment moves on: its events are of that assignment, and it has come as far
as they say. -/
theorem Sound.wait {trace events : List (Event P)} {state : State P} {id : ℕ} {task : BatchTask P}
    (hsound : Sound trace state) (hrunning : state.running id = some task)
    (hevents : ∀ event ∈ events, event.IsOf task)
    (hadmits : ∀ offset, .admitted task.partition task.epoch offset ∈ events →
      offset ∈ task.records)
    {records : List ℕ} {point : Point}
    (hprogress : Progress (trace ++ events) { task with records, point }) :
    Sound (trace ++ events) (state.wait id task records point) := by
  have hold : ∀ partition epoch offset,
      .delivered partition epoch offset ∈ trace ++ events →
        .delivered partition epoch offset ∈ trace := by
    intro partition epoch offset hmem
    rcases List.mem_append.mp hmem with hmem | hmem
    · exact hmem
    · exact (hevents _ hmem).elim
  constructor
  case fresh =>
    intro other hother
    have hnone := hsound.fresh other hother
    have hne : other ≠ id := by
      rintro rfl
      rw [hrunning] at hnone
      cases hnone
    rwa [State.wait_running, Function.update_of_ne hne]
  case pastEvents =>
    intro event hevent
    rcases List.mem_append.mp hevent with hmem | hmem
    · exact hsound.pastEvents event hmem
    · rw [(hevents event hmem).assignment_eq]
      exact hsound.pastTasks id task hrunning
  case pastTasks =>
    intro other task' htask
    rcases running_wait htask with ⟨-, rfl⟩ | ⟨-, htask⟩
    · exact hsound.pastTasks id task hrunning
    · exact hsound.pastTasks other task' htask
  case pastEpochs => exact hsound.pastEpochs
  case alone =>
    intro first task₁ second task₂ hfirst hsecond hpartition hepoch
    rcases running_wait hfirst with ⟨hid, rfl⟩ | ⟨-, hold₁⟩ <;>
      rcases running_wait hsecond with ⟨hid', rfl⟩ | ⟨-, hold₂⟩
    · exact hid.trans hid'.symm
    · exact hid.trans (hsound.alone _ _ _ _ hrunning hold₂ hpartition hepoch)
    · exact (hsound.alone _ _ _ _ hold₁ hrunning hpartition hepoch).trans hid'.symm
    · exact hsound.alone _ _ _ _ hold₁ hold₂ hpartition hepoch
  case progress =>
    intro other task' htask
    rcases running_wait htask with ⟨-, rfl⟩ | ⟨hne, htask⟩
    · exact hprogress
    · refine (hsound.progress other task' htask).append (fun offset hmem ↦ ?_)
        fun offset hmem ↦ hne ?_
      · exact hevents _ hmem
      · obtain ⟨hpartition, hepoch⟩ := hevents _ hmem
        exact hsound.alone _ _ _ _ htask hrunning hpartition hepoch
  case issued => exact hsound.issued
  case named =>
    intro partition other task' htasks htask
    rcases running_wait htask with ⟨rfl, rfl⟩ | ⟨-, htask⟩
    · exact hsound.named partition other task htasks hrunning
    · exact hsound.named partition other task' htasks htask
  case sources =>
    intro partition epoch offset hadmitted
    rcases List.mem_append.mp hadmitted with hmem | hmem
    · exact List.mem_append_left _ (hsound.sources partition epoch offset hmem)
    · obtain ⟨rfl, rfl⟩ := hevents _ hmem
      exact List.mem_append_left _
        ((hsound.progress id task hrunning).taken offset (hadmits offset hmem))
  case ahead =>
    intro partition epoch hepoch offset hdelivered
    exact hsound.ahead partition epoch hepoch offset (hold _ _ _ hdelivered)
  case busy =>
    intro partition epoch hepoch other task' htask hpartition hsame
    rcases running_wait htask with ⟨rfl, rfl⟩ | ⟨-, htask⟩
    · exact hsound.busy partition epoch hepoch other task hrunning hpartition hsame
    · exact hsound.busy partition epoch hepoch other task' htask hpartition hsame
  case idle =>
    intro partition epoch hepoch hnone
    have hidle := hsound.idle partition epoch hepoch fun other task' htask hpartition hsame ↦ by
      by_cases h : other = id
      · subst h
        obtain rfl : task = task' := Option.some.inj (hrunning.symm.trans htask)
        refine hnone other { task with records, point } ?_ hpartition hsame
        rw [State.wait_running, Function.update_self]
      · refine hnone other task' ?_ hpartition hsame
        rw [State.wait_running, Function.update_of_ne h]
        exact htask
    exact ⟨hidle.1, fun offset hdelivered ↦
      (hidle.2 offset (hold _ _ _ hdelivered)).append events⟩
  case revoked =>
    intro partition epoch hrevoked
    rcases List.mem_append.mp hrevoked with hmem | hmem
    · exact hsound.revoked partition epoch hmem
    · exact (hevents _ hmem).elim
  case cancelled =>
    intro other task' htask hcancelled
    rcases running_wait htask with ⟨-, rfl⟩ | ⟨-, htask⟩
    · exact hsound.cancelled id task hrunning hcancelled
    · exact hsound.cancelled other task' htask hcancelled

/-- A task ends: all of its records are settled, or its assignment is over. -/
theorem Sound.finish {trace : List (Event P)} {state : State P} {id : ℕ} {task : BatchTask P}
    (hsound : Sound trace state) (hrunning : state.running id = some task)
    (hend : task.records = [] ∨ state.epochs task.partition ≠ some task.epoch) :
    Sound trace (state.finish id task) := by
  constructor
  case fresh =>
    intro other hother
    by_cases h : other = id
    · rw [h, State.finish_running, Function.update_self]
    · rw [State.finish_running, Function.update_of_ne h]
      exact hsound.fresh other (state.finish_created id task ▸ hother)
  case pastEvents =>
    rw [State.finish_generation]
    exact hsound.pastEvents
  case pastTasks =>
    intro other task' htask
    rw [State.finish_generation]
    exact hsound.pastTasks other task' (running_finish htask).2
  case pastEpochs =>
    rw [State.finish_generation, State.finish_epochs]
    exact hsound.pastEpochs
  case alone =>
    intro first task₁ second task₂ hfirst hsecond
    exact hsound.alone _ _ _ _ (running_finish hfirst).2 (running_finish hsecond).2
  case progress =>
    intro other task' htask
    exact hsound.progress other task' (running_finish htask).2
  case issued =>
    intro partition other htasks
    rw [State.finish_created]
    exact hsound.issued partition other (State.finish_tasks htasks)
  case named =>
    intro partition other task' htasks htask
    exact hsound.named partition other task' (State.finish_tasks htasks) (running_finish htask).2
  case sources => exact hsound.sources
  case ahead =>
    rw [State.finish_epochs, State.finish_position]
    exact hsound.ahead
  case busy =>
    intro partition epoch hepoch other task' htask hpartition hsame
    rw [State.finish_epochs] at hepoch
    obtain ⟨hne, htask⟩ := running_finish htask
    rw [State.finish_paused, if_neg]
    · exact hsound.busy partition epoch hepoch other task' htask hpartition hsame
    · rintro ⟨hcurrent, rfl⟩
      have hepochs : task.epoch = epoch := Option.some.inj (hcurrent.symm.trans hepoch)
      exact hne (hsound.alone _ _ _ _ htask hrunning hpartition (hsame.trans hepochs.symm))
  case idle =>
    intro partition epoch hepoch hnone
    rw [State.finish_epochs] at hepoch
    rw [State.finish_paused]
    by_cases hown : task.partition = partition ∧ task.epoch = epoch
    · -- The task that ends is that of the assignment, so all of its records are settled.
      obtain ⟨rfl, rfl⟩ := hown
      have hempty := hend.resolve_right fun hne ↦ hne hepoch
      refine ⟨if_pos ⟨hepoch, rfl⟩, fun offset hdelivered ↦ ?_⟩
      rcases (hsound.progress id task hrunning).delivered offset hdelivered with hleft | hsettled
      · rw [hempty] at hleft
        cases hleft
      · exact hsettled.1
    · have hidle := hsound.idle partition epoch hepoch fun other task' htask hpartition hsame ↦ by
        by_cases h : other = id
        · subst h
          obtain rfl : task = task' := Option.some.inj (hrunning.symm.trans htask)
          exact hown ⟨hpartition, hsame⟩
        · refine hnone other task' ?_ hpartition hsame
          rw [State.finish_running, Function.update_of_ne h]
          exact htask
      refine ⟨?_, hidle.2⟩
      split_ifs
      · rfl
      · exact hidle.1
  case revoked =>
    rw [State.finish_epochs]
    exact hsound.revoked
  case cancelled =>
    intro other task' htask hcancelled
    rw [State.finish_epochs]
    exact hsound.cancelled other task' (running_finish htask).2 hcancelled

/-! ### One step -/

/-- The invariant and the lawfulness of what was shown so far. -/
structure Correct (trace : List (Event P)) (state : State P) : Prop where
  /-- The invariant holds. -/
  sound : Sound trace state
  /-- The trace is lawful. -/
  lawful : Lawful trace

omit [DecidableEq P] in
/-- The offsets of the broker do not matter. -/
theorem Sound.committed {trace : List (Event P)} {state : State P} (hsound : Sound trace state)
    (committed : P → ℕ) : Sound trace { state with committed } :=
  ⟨hsound.fresh, hsound.pastEvents, hsound.pastTasks, hsound.pastEpochs, hsound.alone,
    hsound.progress, hsound.issued, hsound.named, hsound.sources, hsound.ahead, hsound.busy, hsound.idle,
    hsound.revoked, hsound.cancelled⟩

omit [DecidableEq P] in
/-- What follows for the task at its turn. -/
theorem Progress.turn {trace : List (Event P)} {task : BatchTask P} {offset : ℕ} {rest : List ℕ}
    (hprogress : Progress trace task) (hrecords : task.records = offset :: rest)
    (hpoint : task.point.admitted = false) :
    Turn trace task.partition task.epoch offset := by
  have hleast : ∀ left ∈ task.records, offset ≤ left := by
    intro left hleft
    rw [hrecords] at hleft
    rcases List.mem_cons.mp hleft with rfl | hrest
    · exact Nat.le_refl _
    · exact Nat.le_of_lt (List.rel_of_pairwise_cons (hrecords ▸ hprogress.increasing) hrest)
  constructor
  · intro earlier hearlier hdelivered
    rcases hprogress.delivered earlier hdelivered with hleft | hsettled
    · exact absurd (hleast earlier hleft) (Nat.not_le_of_lt hearlier)
    · exact hsettled.1
  · intro other hadmitted
    rcases hprogress.admitted other hadmitted with hbefore | ⟨htrue, -⟩
    · exact hbefore offset (hrecords ▸ List.mem_cons_self)
    · rw [hpoint] at htrue
      cases htrue

omit [DecidableEq P] in
/-- A task that waits at another point with the same value of `admitted` has come as far. -/
theorem Progress.at_point {trace events : List (Event P)} {task : BatchTask P} {point : Point}
    (hprogress : Progress trace task) (hpoint : point.admitted = task.point.admitted)
    (hevents : ∀ event ∈ events, ∀ partition epoch offset,
      event ≠ .delivered partition epoch offset ∧ event ≠ .admitted partition epoch offset)
    (hcommits : point = .committing → ∀ offset, task.records.head? = some offset →
      .commit task.partition task.epoch (offset + 1) ∈ events) :
    Progress (trace ++ events) { task with point } where
  increasing := hprogress.increasing
  taken offset hoffset := List.mem_append_left _ (hprogress.taken offset hoffset)
  delivered offset hdelivered := by
    rcases List.mem_append.mp hdelivered with hmem | hmem
    · exact (hprogress.delivered offset hmem).imp_right fun h ↦ ⟨h.1.append _, h.2⟩
    · exact absurd rfl (hevents _ hmem _ _ _).1
  admitted offset hadmitted := by
    rcases List.mem_append.mp hadmitted with hmem | hmem
    · exact (hprogress.admitted offset hmem).imp_right fun h ↦ ⟨hpoint.trans h.1, h.2⟩
    · exact absurd rfl (hevents _ hmem _ _ _).2
  current hadmitted offset hhead :=
    List.mem_append_left _ (hprogress.current (hpoint.symm.trans hadmitted) offset hhead)
  commits hcommitting offset hhead :=
    List.mem_append_right _ (hcommits hcommitting offset hhead)

/-- A task that sleeps goes on with its records. -/
theorem Correct.goOn {trace : List (Event P)} {state : State P} {id : ℕ} {task : BatchTask P}
    (hcorrect : Correct trace state) (hrunning : state.running id = some task) :
    Correct (trace ++ (state.goOn id task task.records task.point.admitted).2)
      (state.goOn id task task.records task.point.admitted).1 := by
  have hprogress := hcorrect.sound.progress id task hrunning
  unfold State.goOn
  split
  · rename_i hrecords
    rw [List.append_nil]
    exact ⟨hcorrect.sound.finish hrunning (Or.inl hrecords), hcorrect.lawful⟩
  · rename_i offset rest hrecords
    have hhead : task.records.head? = some offset := hrecords ▸ rfl
    split_ifs with hepoch hadmitted
    · rw [List.append_nil]
      exact ⟨hcorrect.sound.finish hrunning (Or.inr hepoch), hcorrect.lawful⟩
    · have hcurrent := not_not.mp hepoch
      constructor
      · refine hcorrect.sound.wait hrunning ?_ ?_ (hprogress.at_point hadmitted.symm ?_ ?_)
        · exact List.forall_mem_singleton.mpr ⟨rfl, rfl⟩
        · exact fun other hother ↦ (nomatch List.mem_singleton.mp hother)
        · intro event hevent partition epoch other
          obtain rfl := List.mem_singleton.mp hevent
          exact ⟨nofun, nofun⟩
        · intro _ other hother
          obtain rfl : offset = other := Option.some.inj (hhead.symm.trans hother)
          exact List.mem_singleton.mpr rfl
      · refine hcorrect.lawful.snoc
          ⟨fun hrevoked ↦ hcorrect.sound.revoked _ _ hrevoked hcurrent, offset, rfl, ?_⟩
        -- What was delivered up to an admitted current record is the record or settled.
        intro earlier hearlier hdelivered
        rcases hprogress.delivered earlier hdelivered with hleft | hsettled
        · rw [hrecords] at hleft
          rcases List.mem_cons.mp hleft with rfl | hrest
          · exact hprogress.current hadmitted earlier hhead
          · have hlater := List.rel_of_pairwise_cons (hrecords ▸ hprogress.increasing) hrest
            exact absurd hearlier (Nat.not_le_of_lt hlater)
        · exact hsettled.1.1
    · have hfalse := (Bool.not_eq_true _).mp hadmitted
      constructor
      · refine hcorrect.sound.wait hrunning ?_ ?_ (hprogress.at_point hfalse.symm ?_ nofun)
        · exact List.forall_mem_singleton.mpr ⟨rfl, rfl⟩
        · exact fun other hother ↦ (nomatch List.mem_singleton.mp hother)
        · intro event hevent partition epoch other
          obtain rfl := List.mem_singleton.mp hevent
          exact ⟨nofun, nofun⟩
      · exact hcorrect.lawful.snoc (hprogress.turn hrecords hfalse)

omit [DecidableEq P] in
theorem running_wait_self (state : State P) (id : ℕ) (task : BatchTask P) (records : List ℕ)
    (point : Point) : (state.wait id task records point).running id =
      some { task with records, point } := by
  rw [State.wait_running, Function.update_self]

/-- To go on does not depend on what the state says of the task itself. -/
theorem goOn_wait (state : State P) (id : ℕ) (task : BatchTask P) (records left : List ℕ)
    (point : Point) (admitted : Bool) :
    (state.wait id task records point).goOn id { task with records, point } left admitted =
      state.goOn id task left admitted := by
  unfold State.goOn
  split
  · simp [State.finish, State.wait]
  · simp [State.finish, State.wait]

omit [DecidableEq P] in
/-- The admission of the current record has returned. -/
theorem Progress.afterAdmission {trace : List (Event P)} {task : BatchTask P} {offset : ℕ} {rest : List ℕ}
    (hprogress : Progress trace task) (hrecords : task.records = offset :: rest)
    (hpoint : task.point.admitted = false) :
    Progress (trace ++ [.admitted task.partition task.epoch offset])
      { task with point := .sleeping true } where
  increasing := hprogress.increasing
  taken other hother := List.mem_append_left _ (hprogress.taken other hother)
  delivered other hdelivered := by
    rcases List.mem_append.mp hdelivered with hmem | hmem
    · exact (hprogress.delivered other hmem).imp_right fun h ↦ ⟨h.1.append _, h.2⟩
    · exact (nomatch List.mem_singleton.mp hmem)
  admitted other hadmitted := by
    rcases List.mem_append.mp hadmitted with hmem | hmem
    · rcases hprogress.admitted other hmem with hbefore | ⟨htrue, -⟩
      · exact Or.inl hbefore
      · rw [hpoint] at htrue
        cases htrue
    · obtain rfl : other = offset := by simpa using hmem
      exact Or.inr ⟨rfl, hrecords ▸ rfl⟩
  current _ other hhead := by
    obtain rfl : offset = other := by simpa [hrecords] using hhead
    exact List.mem_append_right _ (List.mem_singleton.mpr rfl)
  commits := nofun

omit [DecidableEq P] in
/-- The commit after the current record has returned. -/
theorem Progress.commit {trace : List (Event P)} {task : BatchTask P} {offset : ℕ} {rest : List ℕ}
    (hprogress : Progress trace task) (hrecords : task.records = offset :: rest)
    (hpoint : task.point = .committing) :
    Progress (trace ++ [.committed task.partition task.epoch (offset + 1)])
      { task with records := rest, point := .sleeping false } := by
  have hlater : ∀ left ∈ rest, offset < left := fun left hleft ↦
    List.rel_of_pairwise_cons (hrecords ▸ hprogress.increasing) hleft
  have hadmitted := hprogress.current (hpoint ▸ rfl) offset (hrecords ▸ rfl)
  constructor
  case increasing =>
    exact (hrecords ▸ hprogress.increasing : (offset :: rest).Pairwise (· < ·)).of_cons
  case taken =>
    intro other hother
    exact List.mem_append_left _
      (hprogress.taken other (hrecords ▸ List.mem_cons_of_mem _ hother))
  case delivered =>
    intro other hdelivered
    rcases List.mem_append.mp hdelivered with hmem | hmem
    · rcases hprogress.delivered other hmem with hleft | hsettled
      · rw [hrecords] at hleft
        rcases List.mem_cons.mp hleft with rfl | hrest
        · exact Or.inr ⟨⟨List.mem_append_left _ hadmitted,
            List.mem_append_right _ (List.mem_singleton.mpr rfl)⟩, hlater⟩
        · exact Or.inl hrest
      · exact Or.inr ⟨hsettled.1.append _, fun left hleft ↦
          hsettled.2 left (hrecords ▸ List.mem_cons_of_mem _ hleft)⟩
    · exact (nomatch List.mem_singleton.mp hmem)
  case admitted =>
    intro other hmem
    rcases List.mem_append.mp hmem with hmem | hmem
    · rcases hprogress.admitted other hmem with hbefore | ⟨-, hhead⟩
      · exact Or.inl fun left hleft ↦ hbefore left (hrecords ▸ List.mem_cons_of_mem _ hleft)
      · obtain rfl : offset = other := by simpa [hrecords] using hhead
        exact Or.inl hlater
    · exact (nomatch List.mem_singleton.mp hmem)
  case current => exact nofun
  case commits => exact nofun

/-- A task goes on after its wait. -/
theorem Correct.wake {trace : List (Event P)} {state : State P} {id : ℕ} {task : BatchTask P}
    (hcorrect : Correct trace state) (hrunning : state.running id = some task) (wake : Wake) :
    Correct (trace ++ (state.wake id task wake).2) (state.wake id task wake).1 := by
  have hprogress := hcorrect.sound.progress id task hrunning
  unfold State.wake
  split
  case h_1 hpoint =>
    rw [show false = task.point.admitted by rw [hpoint]; rfl]
    exact hcorrect.goOn hrunning
  case h_2 admitted hpoint =>
    rw [show admitted = task.point.admitted by rw [hpoint]; rfl]
    exact hcorrect.goOn hrunning
  case h_3 offset rest hpoint hrecords =>
    have hfalse : task.point.admitted = false := hpoint ▸ rfl
    have hmid : Correct (trace ++ [.admitted task.partition task.epoch offset])
        (state.wait id task task.records (.sleeping true)) := by
      refine ⟨hcorrect.sound.wait hrunning ?_ ?_ (hprogress.afterAdmission hrecords hfalse),
        hcorrect.lawful.snoc (hprogress.turn hrecords hfalse)⟩
      · exact List.forall_mem_singleton.mpr ⟨rfl, rfl⟩
      · intro other hother
        obtain rfl : other = offset := by simpa using hother
        exact hrecords ▸ List.mem_cons_self
    have hgo := hmid.goOn (running_wait_self _ _ _ _ _)
    rw [goOn_wait, List.append_assoc, hrecords] at hgo
    exact hgo
  case h_4 hpoint =>
    rw [List.append_nil]
    refine ⟨?_, hcorrect.lawful⟩
    have hwait := hcorrect.sound.wait hrunning (List.forall_mem_nil _) nofun
      (hprogress.at_point (hpoint ▸ rfl) (List.forall_mem_nil _) nofun :
        Progress (trace ++ []) { task with point := .sleeping false })
    rwa [List.append_nil] at hwait
  case h_5 offset rest hpoint hrecords =>
    have hbroker : Sound trace { state with
        committed := Function.update state.committed task.partition (offset + 1) } :=
      hcorrect.sound.committed _
    have hmid : Correct (trace ++ [.committed task.partition task.epoch (offset + 1)])
        (State.wait { state with
          committed := Function.update state.committed task.partition (offset + 1) } id task rest
          (.sleeping false)) := by
      refine ⟨hbroker.wait hrunning ?_ ?_ (hprogress.commit hrecords hpoint),
        hcorrect.lawful.snoc (hprogress.commits hpoint offset (hrecords ▸ rfl))⟩
      · exact List.forall_mem_singleton.mpr ⟨rfl, rfl⟩
      · exact fun other hother ↦ (nomatch List.mem_singleton.mp hother)
    have hgo := hmid.goOn (running_wait_self _ _ _ _ _)
    rw [goOn_wait, List.append_assoc] at hgo
    exact hgo
  case h_6 offset rest applied hpoint hrecords =>
    have hwait : ∀ committed, Sound trace
        (State.wait { state with committed } id task task.records (.sleeping true)) := by
      intro committed
      have hmoved := (hcorrect.sound.committed committed).wait hrunning (List.forall_mem_nil _)
        nofun (hprogress.at_point (hpoint ▸ rfl) (List.forall_mem_nil _) nofun :
          Progress (trace ++ []) { task with point := .sleeping true })
      rwa [List.append_nil] at hmoved
    rw [List.append_nil]
    refine ⟨?_, hcorrect.lawful⟩
    rw [← hrecords]
    split_ifs
    · exact hwait _
    · exact hwait state.committed
  case h_7 =>
    split_ifs with hcancelled hpoint
    · have hover := hcorrect.sound.cancelled id task hrunning hcancelled
      have hfinish := hcorrect.sound.finish hrunning (Or.inr hover)
      rw [State.finish, if_neg hover] at hfinish
      rw [List.append_nil]
      exact ⟨hfinish, hcorrect.lawful⟩
    · have hover := hcorrect.sound.cancelled id task hrunning hcancelled
      rw [List.append_nil]
      exact ⟨hcorrect.sound.finish hrunning (Or.inr hover), hcorrect.lawful⟩
    · rw [List.append_nil]
      exact hcorrect
  case h_8 =>
    rw [List.append_nil]
    exact hcorrect

/-- The epochs after an assignment. -/
theorem epochs_assign {state : State P} {partition other : P} {epoch : ℕ}
    (hepoch : (state.assign partition).epochs other = some epoch) :
    other = partition ∧ epoch = state.generation ∨
      other ≠ partition ∧ state.epochs other = some epoch := by
  unfold State.assign at hepoch
  dsimp only at hepoch
  by_cases h : other = partition
  · subst h
    rw [Function.update_self] at hepoch
    exact Or.inl ⟨rfl, (Option.some.inj hepoch).symm⟩
  · rw [Function.update_of_ne h] at hepoch
    exact Or.inr ⟨h, hepoch⟩

/-- `on_partitions_assigned` for one partition, in a generation without events. -/
theorem Sound.assign {trace : List (Event P)} {state : State P} (hsound : Sound trace state)
    (partition : P) (hnew : ∀ event ∈ trace, event.assignment.2 < state.generation)
    (hidle : ∀ id task, state.running id = some task → task.epoch < state.generation) :
    Sound trace (state.assign partition) := by
  constructor
  case fresh => exact hsound.fresh
  case pastEvents => exact hsound.pastEvents
  case pastTasks => exact hsound.pastTasks
  case pastEpochs =>
    intro other epoch hepoch
    rcases epochs_assign hepoch with ⟨-, rfl⟩ | ⟨-, hepoch⟩
    · exact Nat.le_refl _
    · exact hsound.pastEpochs other epoch hepoch
  case alone => exact hsound.alone
  case progress => exact hsound.progress
  case issued => exact hsound.issued
  case named => exact hsound.named
  case sources => exact hsound.sources
  case ahead =>
    intro other epoch hepoch offset hdelivered
    rcases epochs_assign hepoch with ⟨-, rfl⟩ | ⟨hne, hepoch⟩
    · exact absurd (hnew _ hdelivered) (Nat.lt_irrefl _)
    · unfold State.assign
      dsimp only
      rw [Function.update_of_ne hne]
      exact hsound.ahead other epoch hepoch offset hdelivered
  case busy =>
    intro other epoch hepoch id task htask hpartition hsame
    rcases epochs_assign hepoch with ⟨-, rfl⟩ | ⟨hne, hepoch⟩
    · exact absurd hsame (Nat.ne_of_lt (hidle id task htask))
    · unfold State.assign
      dsimp only
      rw [Function.update_of_ne hne]
      exact hsound.busy other epoch hepoch id task htask hpartition hsame
  case idle =>
    intro other epoch hepoch hnone
    rcases epochs_assign hepoch with ⟨rfl, rfl⟩ | ⟨hne, hepoch⟩
    · unfold State.assign
      refine ⟨Function.update_self other false state.paused, fun offset hdelivered ↦ ?_⟩
      exact absurd (hnew _ hdelivered) (Nat.lt_irrefl _)
    · unfold State.assign
      dsimp only
      rw [Function.update_of_ne hne]
      exact hsound.idle other epoch hepoch hnone
  case revoked =>
    intro other epoch hrevoked hepoch
    rcases epochs_assign hepoch with ⟨-, rfl⟩ | ⟨-, hepoch⟩
    · exact absurd (hnew _ hrevoked) (Nat.lt_irrefl _)
    · exact hsound.revoked other epoch hrevoked hepoch
  case cancelled =>
    intro id task htask hcancelled hepoch
    rcases epochs_assign hepoch with ⟨-, hsame⟩ | ⟨-, hepoch⟩
    · exact absurd hsame (Nat.ne_of_lt (hidle id task htask))
    · exact hsound.cancelled id task htask hcancelled hepoch

/-- A new assignment. -/
theorem Correct.assigned {trace : List (Event P)} {state : State P} (hcorrect : Correct trace state)
    (partitions : List P) :
    Correct trace
      (partitions.foldl State.assign { state with generation := state.generation + 1 }) := by
  have hsound := hcorrect.sound
  have hraised : Sound trace { state with generation := state.generation + 1 } :=
    ⟨hsound.fresh, fun event hevent ↦ Nat.le_succ_of_le (hsound.pastEvents event hevent),
      fun id task htask ↦ Nat.le_succ_of_le (hsound.pastTasks id task htask),
      fun partition epoch hepoch ↦ Nat.le_succ_of_le (hsound.pastEpochs partition epoch hepoch),
      hsound.alone, hsound.progress, hsound.issued, hsound.named, hsound.sources, hsound.ahead,
      hsound.busy, hsound.idle, hsound.revoked, hsound.cancelled⟩
  -- Assigning a partition leaves the generation and the tasks as they are.
  have hall : ∀ current : State P, Sound trace current →
      (∀ event ∈ trace, event.assignment.2 < current.generation) →
      (∀ id task, current.running id = some task → task.epoch < current.generation) →
      Sound trace (partitions.foldl State.assign current) := by
    induction partitions with
    | nil => exact fun current hcurrent _ _ ↦ hcurrent
    | cons partition rest ih =>
      intro current hcurrent hnew hidle
      exact ih (current.assign partition) (hcurrent.assign partition hnew hidle) hnew hidle
  exact ⟨hall _ hraised (fun event hevent ↦ Nat.lt_succ_of_le (hsound.pastEvents event hevent))
    fun id task htask ↦ Nat.lt_succ_of_le (hsound.pastTasks id task htask), hcorrect.lawful⟩

omit [DecidableEq P] in
/-- The tasks after one of them was told to cancel. -/
theorem running_cancel {state : State P} {id other : ℕ} {task : BatchTask P}
    (htask : (state.cancel id).running other = some task) :
    ∃ task', state.running other = some task' ∧
      (task = task' ∨ other = id ∧ task = { task' with cancelled := true }) := by
  unfold State.cancel at htask
  dsimp only at htask
  by_cases h : other = id
  · subst h
    rw [Function.update_self] at htask
    obtain ⟨task', htask', rfl⟩ := Option.map_eq_some_iff.mp htask
    exact ⟨task', htask', Or.inr ⟨rfl, rfl⟩⟩
  · rw [Function.update_of_ne h] at htask
    exact ⟨task, htask, Or.inl rfl⟩

omit [DecidableEq P] in
/-- A task that is told to cancel stays in its place. -/
theorem exists_running_cancel {state : State P} {id other : ℕ} {task : BatchTask P}
    (htask : state.running other = some task) :
    ∃ task', (state.cancel id).running other = some task' ∧ task'.partition = task.partition ∧
      task'.epoch = task.epoch := by
  unfold State.cancel
  dsimp only
  by_cases h : other = id
  · subst h
    rw [Function.update_self, htask]
    exact ⟨_, rfl, rfl, rfl⟩
  · rw [Function.update_of_ne h]
    exact ⟨task, htask, rfl, rfl⟩

omit [DecidableEq P] in
/-- A task of an assignment that is over is told to cancel. -/
theorem Sound.cancel {trace : List (Event P)} {state : State P} {id : ℕ} (hsound : Sound trace state)
    (hover : ∀ task, state.running id = some task →
      state.epochs task.partition ≠ some task.epoch) :
    Sound trace (state.cancel id) := by
  -- Of the task only the flag changes.
  have hbefore : ∀ other task, (state.cancel id).running other = some task →
      ∃ task', state.running other = some task' ∧ task.partition = task'.partition ∧
        task.epoch = task'.epoch := by
    intro other task htask
    obtain ⟨task', htask', rfl | ⟨-, rfl⟩⟩ := running_cancel htask
    · exact ⟨task, htask', rfl, rfl⟩
    · exact ⟨task', htask', rfl, rfl⟩
  constructor
  case fresh =>
    intro other hother
    by_contra hsome
    obtain ⟨task, htask⟩ := Option.ne_none_iff_exists'.mp hsome
    obtain ⟨task', htask', -⟩ := hbefore other task htask
    rw [hsound.fresh other hother] at htask'
    cases htask'
  case pastEvents => exact hsound.pastEvents
  case pastTasks =>
    intro other task htask
    obtain ⟨task', htask', -, hepoch⟩ := hbefore other task htask
    rw [hepoch]
    exact hsound.pastTasks other task' htask'
  case pastEpochs => exact hsound.pastEpochs
  case alone =>
    intro first task₁ second task₂ hfirst hsecond hpartition hepoch
    obtain ⟨task₁', hfirst', hpartition₁, hepoch₁⟩ := hbefore first task₁ hfirst
    obtain ⟨task₂', hsecond', hpartition₂, hepoch₂⟩ := hbefore second task₂ hsecond
    exact hsound.alone _ _ _ _ hfirst' hsecond' (hpartition₁ ▸ hpartition₂ ▸ hpartition)
      (hepoch₁ ▸ hepoch₂ ▸ hepoch)
  case progress =>
    intro other task htask
    obtain ⟨task', htask', rfl | ⟨-, rfl⟩⟩ := running_cancel htask
    · exact hsound.progress other task htask'
    · have hprogress := hsound.progress other task' htask'
      exact ⟨hprogress.increasing, hprogress.taken, hprogress.delivered, hprogress.admitted,
        hprogress.current, hprogress.commits⟩
  case issued => exact hsound.issued
  case named =>
    intro partition other task htasks htask
    obtain ⟨task', htask', hpartition, -⟩ := hbefore other task htask
    exact hpartition.trans (hsound.named partition other task' htasks htask')
  case sources => exact hsound.sources
  case ahead => exact hsound.ahead
  case busy =>
    intro partition epoch hepoch other task htask hpartition hsame
    obtain ⟨task', htask', hpartition', hepoch'⟩ := hbefore other task htask
    exact hsound.busy partition epoch hepoch other task' htask' (hpartition'.symm.trans hpartition)
      (hepoch'.symm.trans hsame)
  case idle =>
    intro partition epoch hepoch hnone
    refine hsound.idle partition epoch hepoch fun other task htask hpartition hsame ↦ ?_
    obtain ⟨task', htask', hpartition', hepoch'⟩ := exists_running_cancel htask
    exact hnone other task' htask' (hpartition'.trans hpartition) (hepoch'.trans hsame)
  case revoked => exact hsound.revoked
  case cancelled =>
    intro other task htask hcancelled
    obtain ⟨task', htask', rfl | ⟨rfl, rfl⟩⟩ := running_cancel htask
    · exact hsound.cancelled other task htask' hcancelled
    · exact hover task' htask'

/-- A partition is revoked. -/
theorem Correct.revoke {trace : List (Event P)} {state : State P} (hcorrect : Correct trace state)
    (partition : P) :
    Correct (trace ++ (state.revoke partition).2) (state.revoke partition).1 := by
  have hsound := hcorrect.sound
  set events : List (Event P) := (state.epochs partition).toList.map (.revoked partition)
    with hevents
  have hrevoked : ∀ event ∈ events, ∃ epoch, event = .revoked partition epoch ∧
      state.epochs partition = some epoch := by
    intro event hevent
    obtain ⟨epoch, hepoch, rfl⟩ := List.mem_map.mp hevent
    exact ⟨epoch, rfl, Option.mem_toList.mp hepoch⟩
  have hold : ∀ event, (∀ epoch, event ≠ .revoked partition epoch) → event ∈ trace ++ events →
      event ∈ trace := by
    intro event hother hmem
    refine (List.mem_append.mp hmem).resolve_right fun hnew ↦ ?_
    obtain ⟨epoch, rfl, -⟩ := hrevoked event hnew
    exact hother epoch rfl
  have hlawful : Lawful (trace ++ events) := by
    refine hcorrect.lawful.append fun event hevent before ↦ ?_
    obtain ⟨epoch, rfl, -⟩ := hrevoked event hevent
    exact trivial
  have hepochs : ∀ other epoch, Function.update state.epochs partition none other = some epoch →
      other ≠ partition ∧ state.epochs other = some epoch := by
    intro other epoch hepoch
    by_cases h : other = partition
    · subst h
      rw [Function.update_self] at hepoch
      cases hepoch
    · rw [Function.update_of_ne h] at hepoch
      exact ⟨h, hepoch⟩
  have hdropped : Sound (trace ++ events) { state with
      epochs := Function.update state.epochs partition none
      tasks := Function.update state.tasks partition none } := by
    constructor
    case fresh => exact hsound.fresh
    case pastEvents =>
      intro event hevent
      rcases List.mem_append.mp hevent with hmem | hmem
      · exact hsound.pastEvents event hmem
      · obtain ⟨epoch, rfl, hepoch⟩ := hrevoked event hmem
        exact hsound.pastEpochs partition epoch hepoch
    case pastTasks => exact hsound.pastTasks
    case pastEpochs =>
      exact fun other epoch hepoch ↦ hsound.pastEpochs other epoch (hepochs other epoch hepoch).2
    case alone => exact hsound.alone
    case progress =>
      intro id task htask
      refine (hsound.progress id task htask).append (fun offset hmem ↦ ?_) fun offset hmem ↦ ?_
      · obtain ⟨epoch, hevent, -⟩ := hrevoked _ hmem
        cases hevent
      · obtain ⟨epoch, hevent, -⟩ := hrevoked _ hmem
        cases hevent
    case issued =>
      intro other id htasks
      dsimp only at htasks
      by_cases h : other = partition
      · subst h
        rw [Function.update_self] at htasks
        cases htasks
      · rw [Function.update_of_ne h] at htasks
        exact hsound.issued other id htasks
    case named =>
      intro other id task htasks htask
      dsimp only at htasks
      by_cases h : other = partition
      · subst h
        rw [Function.update_self] at htasks
        cases htasks
      · rw [Function.update_of_ne h] at htasks
        exact hsound.named other id task htasks htask
    case sources =>
      intro other epoch offset hadmitted
      exact List.mem_append_left _
        (hsound.sources other epoch offset (hold _ (fun _ ↦ nofun) hadmitted))
    case ahead =>
      intro other epoch hepoch offset hdelivered
      exact hsound.ahead other epoch (hepochs other epoch hepoch).2 offset
        (hold _ (fun _ ↦ nofun) hdelivered)
    case busy =>
      intro other epoch hepoch
      exact hsound.busy other epoch (hepochs other epoch hepoch).2
    case idle =>
      intro other epoch hepoch hnone
      have hidle := hsound.idle other epoch (hepochs other epoch hepoch).2 hnone
      exact ⟨hidle.1, fun offset hdelivered ↦
        (hidle.2 offset (hold _ (fun _ ↦ nofun) hdelivered)).append events⟩
    case revoked =>
      intro other epoch hmem hepoch
      obtain ⟨hne, hepoch⟩ := hepochs other epoch hepoch
      rcases List.mem_append.mp hmem with hmem | hmem
      · exact hsound.revoked other epoch hmem hepoch
      · obtain ⟨epoch', hevent, -⟩ := hrevoked _ hmem
        exact hne (Event.revoked.inj hevent).1
    case cancelled =>
      intro id task htask hcancelled hepoch
      exact hsound.cancelled id task htask hcancelled (hepochs _ _ hepoch).2
  refine ⟨?_, hlawful⟩
  unfold State.revoke
  dsimp only
  split
  · rename_i id htasks
    refine hdropped.cancel fun task htask hepoch ↦ ?_
    exact (hepochs _ _ hepoch).1 (hsound.named partition id task htasks htask)
  · exact hdropped

omit [DecidableEq P] in
/-- The consumer may move ahead. -/
theorem Sound.position {trace : List (Event P)} {state : State P} (hsound : Sound trace state)
    (position : P → ℕ) (hahead : ∀ partition, state.position partition ≤ position partition) :
    Sound trace { state with position } :=
  ⟨hsound.fresh, hsound.pastEvents, hsound.pastTasks, hsound.pastEpochs, hsound.alone,
    hsound.progress, hsound.issued, hsound.named, hsound.sources,
    fun partition epoch hepoch offset hdelivered ↦
      Nat.lt_of_lt_of_le (hsound.ahead partition epoch hepoch offset hdelivered)
        (hahead partition),
    hsound.busy, hsound.idle, hsound.revoked, hsound.cancelled⟩

/-- The records of a partition that is not paused are handed to a new task. -/
theorem Sound.spawn {trace : List (Event P)} {state : State P} {partition : P} {epoch count : ℕ}
    (hsound : Sound trace state) (hpaused : state.paused partition = false)
    (hepoch : state.epochs partition = some epoch) :
    Sound (trace ++
        (List.range' (state.position partition) count).map (.delivered partition epoch))
      { state with
        position := Function.update state.position partition (state.position partition + count)
        paused := Function.update state.paused partition true
        tasks := Function.update state.tasks partition (some state.created)
        running := Function.update state.running state.created
          (some ⟨partition, List.range' (state.position partition) count, epoch, .created, false⟩)
        created := state.created + 1 } := by
  set records := List.range' (state.position partition) count with hrecords
  set events : List (Event P) := records.map (.delivered partition epoch) with hevents
  have hfrom : ∀ left ∈ records, state.position partition ≤ left ∧
      left < state.position partition + count := fun left hleft ↦ List.mem_range'_1.mp hleft
  have hevent : ∀ event ∈ events, ∃ offset ∈ records, event = .delivered partition epoch offset := by
    intro event hmem
    obtain ⟨offset, hoffset, rfl⟩ := List.mem_map.mp hmem
    exact ⟨offset, hoffset, rfl⟩
  have hold : ∀ event, (∀ offset, event ≠ .delivered partition epoch offset) →
      event ∈ trace ++ events → event ∈ trace := by
    intro event hother hmem
    refine (List.mem_append.mp hmem).resolve_right fun hnew ↦ ?_
    obtain ⟨offset, -, rfl⟩ := hevent event hnew
    exact hother offset rfl
  -- The assignment has no task, since the partition of a task is paused.
  have hnone : ∀ id task, state.running id = some task → task.partition = partition →
      task.epoch ≠ epoch := by
    intro id task htask hpartition hsame
    have htrue := hsound.busy partition epoch hepoch id task htask hpartition hsame
    rw [hpaused] at htrue
    cases htrue
  obtain ⟨-, hsettled⟩ := hsound.idle partition epoch hepoch hnone
  have hrunning : ∀ id task, Function.update state.running state.created
      (some ⟨partition, records, epoch, .created, false⟩) id = some task →
      id = state.created ∧ task = ⟨partition, records, epoch, .created, false⟩ ∨
        id ≠ state.created ∧ state.running id = some task := by
    intro id task htask
    by_cases h : id = state.created
    · rw [h, Function.update_self] at htask
      exact Or.inl ⟨h, (Option.some.inj htask).symm⟩
    · rw [Function.update_of_ne h] at htask
      exact Or.inr ⟨h, htask⟩
  constructor
  case fresh =>
    intro id hid
    have hne : id ≠ state.created := Nat.ne_of_gt (Nat.lt_of_succ_le hid)
    dsimp only
    rw [Function.update_of_ne hne]
    exact hsound.fresh id (Nat.le_of_succ_le hid)
  case pastEvents =>
    intro event hmem
    rcases List.mem_append.mp hmem with hmem | hmem
    · exact hsound.pastEvents event hmem
    · obtain ⟨offset, -, rfl⟩ := hevent event hmem
      exact hsound.pastEpochs partition epoch hepoch
  case pastTasks =>
    intro id task htask
    rcases hrunning id task htask with ⟨-, rfl⟩ | ⟨-, htask⟩
    · exact hsound.pastEpochs partition epoch hepoch
    · exact hsound.pastTasks id task htask
  case pastEpochs => exact hsound.pastEpochs
  case alone =>
    intro first task₁ second task₂ hfirst hsecond hpartition hsame
    rcases hrunning first task₁ hfirst with ⟨hid, rfl⟩ | ⟨-, hold₁⟩ <;>
      rcases hrunning second task₂ hsecond with ⟨hid', rfl⟩ | ⟨-, hold₂⟩
    · exact hid.trans hid'.symm
    · exact absurd hsame.symm (hnone second task₂ hold₂ hpartition.symm)
    · exact absurd hsame (hnone first task₁ hold₁ hpartition)
    · exact hsound.alone _ _ _ _ hold₁ hold₂ hpartition hsame
  case progress =>
    intro id task htask
    rcases hrunning id task htask with ⟨-, rfl⟩ | ⟨-, htask⟩
    · constructor
      · exact List.pairwise_lt_range' (s := state.position partition) (n := count)
      · intro offset hoffset
        exact List.mem_append_right _ (List.mem_map_of_mem hoffset)
      · intro offset hdelivered
        rcases List.mem_append.mp hdelivered with hmem | hmem
        · have hbefore := hsound.ahead partition epoch hepoch offset hmem
          exact Or.inr ⟨(hsettled offset hmem).append events, fun left hleft ↦
            Nat.lt_of_lt_of_le hbefore (hfrom left hleft).1⟩
        · obtain ⟨other, hother, hsame⟩ := hevent _ hmem
          obtain rfl : offset = other := (Event.delivered.inj hsame).2.2
          exact Or.inl hother
      · intro offset hadmitted
        have hsource := hsound.sources _ _ _ (hold _ (fun _ ↦ nofun) hadmitted)
        exact Or.inl fun left hleft ↦
          Nat.lt_of_lt_of_le (hsound.ahead partition epoch hepoch offset hsource)
            (hfrom left hleft).1
      · exact nofun
      · exact nofun
    · refine (hsound.progress id task htask).append (fun offset hmem ↦ ?_) fun offset hmem ↦ ?_
      · obtain ⟨other, -, hsame⟩ := hevent _ hmem
        obtain ⟨hpartition, hsame, -⟩ := Event.delivered.inj hsame
        exact hnone id task htask hpartition hsame
      · obtain ⟨other, -, hsame⟩ := hevent _ hmem
        cases hsame
  case issued =>
    intro other id htasks
    dsimp only at htasks ⊢
    by_cases h : other = partition
    · subst h
      rw [Function.update_self] at htasks
      obtain rfl := Option.some.inj htasks
      exact Nat.lt_succ_self _
    · rw [Function.update_of_ne h] at htasks
      exact Nat.lt_succ_of_lt (hsound.issued other id htasks)
  case named =>
    intro other id task htasks htask
    dsimp only at htasks
    by_cases h : other = partition
    · subst h
      rw [Function.update_self] at htasks
      rcases hrunning id task htask with ⟨-, rfl⟩ | ⟨hne, -⟩
      · rfl
      · exact absurd (Option.some.inj htasks).symm hne
    · rw [Function.update_of_ne h] at htasks
      rcases hrunning id task htask with ⟨hid, rfl⟩ | ⟨-, htask⟩
      · exact absurd hid (Nat.ne_of_lt (hsound.issued other id htasks))
      · exact hsound.named other id task htasks htask
  case sources =>
    intro other epoch' offset hadmitted
    exact List.mem_append_left _ (hsound.sources other epoch' offset
      (hold _ (fun _ ↦ nofun) hadmitted))
  case ahead =>
    intro other epoch' hepoch' offset hdelivered
    dsimp only
    rcases List.mem_append.mp hdelivered with hmem | hmem
    · have hbefore := hsound.ahead other epoch' hepoch' offset hmem
      by_cases h : other = partition
      · subst h
        rw [Function.update_self]
        exact Nat.lt_add_right count hbefore
      · rwa [Function.update_of_ne h]
    · obtain ⟨other', hother', hsame⟩ := hevent _ hmem
      obtain ⟨rfl, -, rfl⟩ := Event.delivered.inj hsame
      rw [Function.update_self]
      exact (hfrom offset hother').2
  case busy =>
    intro other epoch' hepoch' id task htask hpartition hsame
    dsimp only
    by_cases h : other = partition
    · subst h
      rw [Function.update_self]
    · rw [Function.update_of_ne h]
      rcases hrunning id task htask with ⟨-, rfl⟩ | ⟨-, htask⟩
      · exact absurd hpartition.symm h
      · exact hsound.busy other epoch' hepoch' id task htask hpartition hsame
  case idle =>
    intro other epoch' hepoch' hfree
    dsimp only
    by_cases h : other = partition
    · subst h
      obtain rfl : epoch = epoch' := Option.some.inj (hepoch.symm.trans hepoch')
      refine (hfree state.created ⟨other, records, epoch, .created, false⟩ ?_ rfl rfl).elim
      exact Function.update_self ..
    · have hidle := hsound.idle other epoch' hepoch' fun id task htask hpartition hsame ↦ by
        refine hfree id task ?_ hpartition hsame
        have hne : id ≠ state.created := by
          rintro rfl
          rw [hsound.fresh state.created (Nat.le_refl _)] at htask
          cases htask
        dsimp only
        rw [Function.update_of_ne hne]
        exact htask
      rw [Function.update_of_ne h]
      refine ⟨hidle.1, fun offset hdelivered ↦ (hidle.2 offset ?_).append events⟩
      exact hold _ (fun _ hsame ↦ h (Event.delivered.inj hsame).1) hdelivered
  case revoked =>
    intro other epoch' hrevoked
    exact hsound.revoked other epoch' (hold _ (fun _ ↦ nofun) hrevoked)
  case cancelled =>
    intro id task htask hcancelled
    rcases hrunning id task htask with ⟨-, rfl⟩ | ⟨-, htask⟩
    · cases hcancelled
    · exact hsound.cancelled id task htask hcancelled

/-- A batch of a partition is taken. -/
theorem Correct.take {trace : List (Event P)} {state : State P} (hcorrect : Correct trace state)
    (batch : P × ℕ) : Correct (trace ++ (state.take batch).2) (state.take batch).1 := by
  obtain ⟨partition, count⟩ := batch
  have hmoved : Sound trace { state with
      position := Function.update state.position partition (state.position partition + count) } := by
    refine hcorrect.sound.position _ fun other ↦ ?_
    by_cases h : other = partition
    · subst h
      rw [Function.update_self]
      exact Nat.le_add_right _ _
    · exact Nat.le_of_eq (Function.update_of_ne h _ _).symm
  unfold State.take
  dsimp only
  by_cases hpaused : state.paused partition = true
  · rw [if_pos hpaused, List.append_nil]
    exact hcorrect
  · rw [if_neg hpaused]
    split
    · rw [List.append_nil]
      exact ⟨hmoved, hcorrect.lawful⟩
    · rename_i epoch hepoch
      split_ifs
      · rw [List.append_nil]
        exact ⟨hmoved, hcorrect.lawful⟩
      · refine ⟨hcorrect.sound.spawn ((Bool.not_eq_true _).mp hpaused) hepoch,
          hcorrect.lawful.append fun event hevent before ↦ ?_⟩
        obtain ⟨offset, -, rfl⟩ := List.mem_map.mp hevent
        exact trivial

/-! ### Runs -/

omit [DecidableEq P] in
/-- Steps that keep the invariant one by one keep it in a row. -/
theorem Correct.run {α : Type} {act : State P → α → State P × List (Event P)}
    (hact : ∀ trace state item, Correct trace state →
      Correct (trace ++ (act state item).2) (act state item).1)
    {trace : List (Event P)} {state : State P} (hcorrect : Correct trace state) (items : List α) :
    Correct (trace ++ (runFrom act state items).2) (runFrom act state items).1 := by
  refine run_induction (fun _ current events ↦ Correct (trace ++ events) current) ?_ ?_
    items
  · rw [List.append_nil]
    exact hcorrect
  · intro _ item current events hcurrent
    rw [← List.append_assoc]
    exact hact (trace ++ events) current item hcurrent

/-- One step keeps the invariant. -/
theorem Correct.step {trace : List (Event P)} {state : State P} (hcorrect : Correct trace state)
    (input : Input P) :
    Correct (trace ++ (Admission.step state input).2) (Admission.step state input).1 := by
  cases input with
  | assigned partitions =>
    rw [show (Admission.step state (.assigned partitions)).2 = [] from rfl, List.append_nil]
    exact hcorrect.assigned partitions
  | revoked partitions =>
    exact hcorrect.run (fun _ _ partition hcurrent ↦ hcurrent.revoke partition) partitions
  | fetched batches => exact hcorrect.run (fun _ _ batch hcurrent ↦ hcurrent.take batch) batches
  | woken id wake =>
    unfold Admission.step
    dsimp only
    split
    · rename_i task hrunning
      exact hcorrect.wake hrunning wake
    · rw [List.append_nil]
      exact hcorrect
  | elsewhere partition offset =>
    rw [show (Admission.step state (.elsewhere partition offset)).2 = [] from rfl, List.append_nil]
    exact ⟨hcorrect.sound.committed _, hcorrect.lawful⟩

omit [DecidableEq P] in
/-- The invariant holds at the start. -/
theorem correct_start (position committed : P → ℕ) : Correct [] (start position committed) where
  sound :=
    { fresh := fun _ _ ↦ rfl
      pastEvents := nofun
      pastTasks := nofun
      pastEpochs := nofun
      alone := nofun
      progress := nofun
      issued := nofun
      named := nofun
      sources := nofun
      ahead := nofun
      busy := nofun
      idle := nofun
      revoked := nofun
      cancelled := nofun }
  lawful := fun before _ _ hsplit ↦ by simp at hsplit

/-- Every run of `DurableAdmission` is lawful: a commit has everything before its offset that was
delivered in its assignment admitted, and its assignment is not revoked; records are admitted in
order, each after the commit of the one before it and none twice. And a partition of a current
assignment is paused only while it has a task that runs. -/
theorem durable_admission (position committed : P → ℕ) (inputs : List (Input P)) :
    let run := runFrom step (start position committed) inputs
    Lawful run.2 ∧
      ∀ partition epoch, run.1.epochs partition = some epoch → run.1.paused partition = true →
        ∃ id task, run.1.running id = some task ∧ task.partition = partition ∧
          task.epoch = epoch ∧ task.cancelled = false := by
  have hcorrect : Correct (runFrom step (start position committed) inputs).2
      (runFrom step (start position committed) inputs).1 :=
    run_induction (fun _ state trace ↦ Correct trace state)
      (correct_start position committed) (fun _ input _ _ hcurrent ↦ hcurrent.step input) inputs
  refine ⟨hcorrect.lawful, fun partition epoch hepoch hpaused ↦ ?_⟩
  by_contra hnone
  have hidle := hcorrect.sound.idle partition epoch hepoch
    fun id task hrunning hpartition hsame ↦ hnone ⟨id, task, hrunning, hpartition, hsame, by
      by_contra hcancelled
      refine hcorrect.sound.cancelled id task hrunning ((Bool.not_eq_false _).mp hcancelled) ?_
      rw [hpartition, hsame]
      exact hepoch⟩
  rw [hpaused] at hidle
  cases hidle.1

/-- A commit that fails is tried again, and its record is not admitted again. -/
example : (runFrom step (start (fun _ : Unit ↦ 0) (fun _ ↦ 7))
    [.assigned [()], .fetched [((), 1)], .woken 0 .resumed, .woken 0 .returned,
      .woken 0 (.failed false), .woken 0 .resumed, .woken 0 .returned]).2 =
    [.delivered () 1 7, .admission () 1 7, .admitted () 1 7, .commit () 1 8, .commit () 1 8,
      .committed () 1 8] := by decide

end Ads.ManagerKafka.Admission
