import Ads.Foundation.Brackets
import Ads.Context.CompactorRounds

/-!
# Where a history may be cut

A call is opened by its turn and closed by its result, and a task is opened and closed by the
transitions that results report. `safeBoundaries` returns exactly the positive indices of user turns
before which every call and every task is closed (`safeBoundaries_exact`). Where a history is cut at
one of them, each result has its call in the same part and each task ends in the part in which it
began.
-/

set_option autoImplicit false
set_option relaxedAutoImplicit false

namespace Ads.Context

open Foundation.StateExcept Foundation.Brackets Python

/-! ### Openings and closings of a history -/

/-- A call is opened by its turn and closed by its result. -/
def HistoryTurn.callBracket : HistoryTurn → Option (Bracket Text)
  | .message (.toolCall call) => some (.opening call.id)
  | .message (.toolResult result) => some (.closing result.toolCallId)
  | _ => none

/-- A task is opened when it is created and closed by its other transitions. -/
def TaskTransition.bracket (transition : TaskTransition) : Bracket Text :=
  if transition.state = .created then .opening transition.taskId else .closing transition.taskId

/-- The transitions that a turn reports. -/
def HistoryTurn.taskBrackets : HistoryTurn → List (Bracket Text)
  | .message (.toolResult result) => result.taskTransitions.map TaskTransition.bracket
  | _ => []

/-- The calls and results of some turns. -/
def callBrackets (turns : List HistoryTurn) : List (Bracket Text) :=
  turns.filterMap HistoryTurn.callBracket

/-- The task transitions of some turns. -/
def taskBrackets (turns : List HistoryTurn) : List (Bracket Text) :=
  turns.flatMap HistoryTurn.taskBrackets

@[simp] theorem callBrackets_append (first second : List HistoryTurn) :
    callBrackets (first ++ second) = callBrackets first ++ callBrackets second :=
  List.filterMap_append

@[simp] theorem taskBrackets_append (first second : List HistoryTurn) :
    taskBrackets (first ++ second) = taskBrackets first ++ taskBrackets second :=
  List.flatMap_append

/-- An index at which a history may be cut: a later user turn with everything before it closed. -/
structure IsSafe (source : List HistoryTurn) (index : ℕ) : Prop where
  pos : 0 < index
  user : ∃ turn, source[index]? = some turn ∧ turn.isUser = true
  calls : Closed (callBrackets (source.take index))
  tasks : Closed (taskBrackets (source.take index))

/-! ### What the pass tracks -/

/-- The lifecycle after the turns that were visited. -/
structure Tracks (visited : List HistoryTurn) (state : Lifecycle) : Prop where
  calls : ∀ id, (∃ name, (id, name) ∈ state.calls) ↔ Pending (callBrackets visited) id
  tasks : ∀ task, task ∈ state.tasks ↔ Pending (taskBrackets visited) task
  nodup : state.tasks.Nodup
  callsMatched : Matched (callBrackets visited)
  tasksMatched : Matched (taskBrackets visited)

/-- What a list of transitions does to the open tasks. -/
theorem applyTransitions_eq_ok {transitions : List TaskTransition} {open₁ tasks : List Text}
    {brackets : List (Bracket Text)} (hnodup : open₁.Nodup) (hmatched : Matched brackets)
    (hopen : ∀ task, task ∈ open₁ ↔ Pending brackets task)
    (hrun : transitions.foldlM applyTransition open₁ = .ok tasks) :
    tasks.Nodup ∧ Matched (brackets ++ transitions.map TaskTransition.bracket) ∧
      ∀ task, task ∈ tasks ↔ Pending (brackets ++ transitions.map TaskTransition.bracket) task := by
  induction transitions generalizing open₁ brackets with
  | nil =>
    obtain rfl := Except.ok.inj hrun
    simpa using ⟨hnodup, hmatched, hopen⟩
  | cons transition rest ih =>
    obtain ⟨next, hstep, hrest⟩ := except_bind_eq_ok.mp hrun
    have hsplit : brackets ++ (transition :: rest).map TaskTransition.bracket =
        (brackets ++ [transition.bracket]) ++ rest.map TaskTransition.bracket := by simp
    rw [hsplit]
    unfold applyTransition at hstep
    split_ifs at hstep with hcreated
    · obtain ⟨_, hfresh, hnext⟩ := except_bind_eq_ok.mp hstep
      obtain rfl := Except.ok.inj hnext
      have hbracket : transition.bracket = .opening transition.taskId := if_pos hcreated
      rw [hbracket]
      refine ih (List.nodup_cons.mpr ⟨failIf_eq_ok.mp hfresh, hnodup⟩)
        (hmatched.snoc fun key hkey ↦ by cases hkey) (fun task ↦ ?_) hrest
      rw [pending_snoc, List.mem_cons, hopen task]
      simp [eq_comm]
    · obtain ⟨_, hknown, hnext⟩ := except_bind_eq_ok.mp hstep
      obtain rfl := Except.ok.inj hnext
      have hbracket : transition.bracket = .closing transition.taskId := if_neg hcreated
      have hmem : transition.taskId ∈ open₁ := not_not.mp (failIf_eq_ok.mp hknown)
      rw [hbracket]
      refine ih (hnodup.erase _) (hmatched.snoc fun key hkey ↦ ?_) (fun task ↦ ?_) hrest
      · obtain rfl : transition.taskId = key := by simpa using hkey
        exact (hopen _).mp hmem
      · rw [pending_snoc, hnodup.mem_erase_iff, hopen task]
        simp [eq_comm]

/-- A boundary that is marked is no other part of the lifecycle. -/
theorem Lifecycle.mark_frame (state : Lifecycle) (index : ℕ) (item : HistoryTurn) :
    (state.mark index item).calls = state.calls ∧ (state.mark index item).tasks = state.tasks := by
  unfold Lifecycle.mark
  split_ifs
  · exact ⟨rfl, rfl⟩
  · exact ⟨rfl, rfl⟩

/-- A turn that opens and closes nothing. -/
theorem Tracks.neutral {visited : List HistoryTurn} {state next : Lifecycle} {item : HistoryTurn}
    (htracks : Tracks visited state) (hcall : item.callBracket = none)
    (htask : item.taskBrackets = []) (hcalls : next.calls = state.calls)
    (htasks : next.tasks = state.tasks) : Tracks (visited ++ [item]) next := by
  have hcallBrackets : callBrackets (visited ++ [item]) = callBrackets visited := by
    simp [callBrackets, hcall]
  have htaskBrackets : taskBrackets (visited ++ [item]) = taskBrackets visited := by
    simp [taskBrackets, htask]
  refine ⟨?_, ?_, htasks ▸ htracks.nodup, ?_, ?_⟩
  · rw [hcallBrackets, hcalls]
    exact htracks.calls
  · rw [htaskBrackets, htasks]
    exact htracks.tasks
  · rw [hcallBrackets]
    exact htracks.callsMatched
  · rw [htaskBrackets]
    exact htracks.tasksMatched

/-- A call is opened. -/
theorem Tracks.opened {visited : List HistoryTurn} {state next : Lifecycle} {call : ToolCall}
    (htracks : Tracks visited state) (hcalls : next.calls = (call.id, call.name) :: state.calls)
    (htasks : next.tasks = state.tasks) :
    Tracks (visited ++ [.message (.toolCall call)]) next := by
  have hcallBrackets : callBrackets (visited ++ [.message (.toolCall call)]) =
      callBrackets visited ++ [.opening call.id] := by
    simp [callBrackets, HistoryTurn.callBracket]
  have htaskBrackets : taskBrackets (visited ++ [.message (.toolCall call)]) =
      taskBrackets visited := by
    simp [taskBrackets, HistoryTurn.taskBrackets]
  refine ⟨fun id ↦ ?_, ?_, htasks ▸ htracks.nodup, ?_, ?_⟩
  · rw [hcallBrackets, pending_snoc, hcalls, ← htracks.calls id]
    simp only [List.mem_cons, Prod.mk.injEq, Bracket.opening.injEq, ne_eq, reduceCtorEq,
      not_false_eq_true, true_and]
    constructor
    · rintro ⟨name, ⟨rfl, -⟩ | hold⟩
      · exact Or.inl rfl
      · exact Or.inr ⟨name, hold⟩
    · rintro (rfl | ⟨name, hold⟩)
      · exact ⟨call.name, Or.inl ⟨rfl, rfl⟩⟩
      · exact ⟨name, Or.inr hold⟩
  · rw [htaskBrackets, htasks]
    exact htracks.tasks
  · rw [hcallBrackets]
    exact htracks.callsMatched.snoc fun key hkey ↦ by cases hkey
  · rw [htaskBrackets]
    exact htracks.tasksMatched

/-- A call is closed, with the transitions that its result reports. -/
theorem Tracks.closed {visited : List HistoryTurn} {state next : Lifecycle} {result : ToolResult}
    {name : Text} (htracks : Tracks visited state)
    (hname : (result.toolCallId, name) ∈ state.calls)
    (hcalls : next.calls = state.calls.filter fun call ↦ call.1 ≠ result.toolCallId)
    (htasks : result.taskTransitions.foldlM applyTransition state.tasks = .ok next.tasks) :
    Tracks (visited ++ [.message (.toolResult result)]) next := by
  have hcallBrackets : callBrackets (visited ++ [.message (.toolResult result)]) =
      callBrackets visited ++ [.closing result.toolCallId] := by
    simp [callBrackets, HistoryTurn.callBracket]
  have htaskBrackets : taskBrackets (visited ++ [.message (.toolResult result)]) =
      taskBrackets visited ++ result.taskTransitions.map TaskTransition.bracket := by
    simp [taskBrackets, HistoryTurn.taskBrackets]
  obtain ⟨hnodup, hmatched, hopen⟩ :=
    applyTransitions_eq_ok htracks.nodup htracks.tasksMatched htracks.tasks htasks
  refine ⟨fun id ↦ ?_, fun task ↦ ?_, hnodup, ?_, ?_⟩
  · rw [hcallBrackets, pending_snoc, hcalls, ← htracks.calls id]
    simp only [List.mem_filter, decide_eq_true_eq, reduceCtorEq, false_or, ne_eq,
      Bracket.closing.injEq]
    constructor
    · rintro ⟨other, hold, hother⟩
      exact ⟨fun heq ↦ hother heq.symm, other, hold⟩
    · rintro ⟨hother, other, hold⟩
      exact ⟨other, hold, fun heq ↦ hother heq.symm⟩
  · rw [htaskBrackets]
    exact hopen task
  · rw [hcallBrackets]
    refine htracks.callsMatched.snoc fun key hkey ↦ ?_
    obtain rfl : result.toolCallId = key := by simpa using hkey
    exact (htracks.calls _).mp ⟨name, hname⟩
  · rw [htaskBrackets]
    exact hmatched

/-- One turn of the pass. -/
theorem Tracks.visit {visited : List HistoryTurn} {state next : Lifecycle} {index : ℕ}
    {item : HistoryTurn} (htracks : Tracks visited state)
    (hvisit : (state.mark index item).visit index item = .ok next) :
    Tracks (visited ++ [item]) next := by
  obtain ⟨hcalls, htasks⟩ := state.mark_frame index item
  cases item with
  | tombstone memory =>
    obtain ⟨_, -, hvisit⟩ := except_bind_eq_ok.mp hvisit
    obtain rfl := Except.ok.inj hvisit
    exact htracks.neutral rfl rfl hcalls htasks
  | message message =>
    cases message with
    | user text =>
      obtain rfl := Except.ok.inj hvisit
      exact htracks.neutral rfl rfl hcalls htasks
    | assistant text =>
      obtain rfl := Except.ok.inj hvisit
      exact htracks.neutral rfl rfl hcalls htasks
    | toolCall call =>
      obtain ⟨_, -, hvisit⟩ := except_bind_eq_ok.mp hvisit
      obtain rfl := Except.ok.inj hvisit
      exact htracks.opened (congrArg _ hcalls) htasks
    | toolResult result =>
      unfold Lifecycle.visit at hvisit
      dsimp only at hvisit
      rw [hcalls, htasks] at hvisit
      cases hlookup : state.calls.lookup result.toolCallId with
      | none => simp [hlookup] at hvisit
      | some name =>
        simp only [hlookup] at hvisit
        obtain ⟨_, -, hvisit⟩ := except_bind_eq_ok.mp hvisit
        obtain ⟨_, -, hvisit⟩ := except_bind_eq_ok.mp hvisit
        obtain ⟨tasks, hfold, hvisit⟩ := except_bind_eq_ok.mp hvisit
        obtain rfl := Except.ok.inj hvisit
        obtain ⟨before, after, hsplit, -⟩ := List.lookup_eq_some_iff.mp hlookup
        have hmem : (result.toolCallId, name) ∈ state.calls := by simp [hsplit]
        exact htracks.closed hmem rfl hfold

/-- No call is open exactly when every call is closed. -/
theorem Tracks.calls_eq_nil_iff {visited : List HistoryTurn} {state : Lifecycle}
    (htracks : Tracks visited state) : state.calls = [] ↔ Closed (callBrackets visited) := by
  rw [List.eq_nil_iff_forall_not_mem]
  constructor
  · intro hnone id hpending
    obtain ⟨name, hmem⟩ := (htracks.calls id).mpr hpending
    exact hnone _ hmem
  · intro hclosed call hmem
    exact hclosed call.1 ((htracks.calls call.1).mp ⟨call.2, hmem⟩)

/-- No task is open exactly when every task is closed. -/
theorem Tracks.tasks_eq_nil_iff {visited : List HistoryTurn} {state : Lifecycle}
    (htracks : Tracks visited state) : state.tasks = [] ↔ Closed (taskBrackets visited) := by
  rw [List.eq_nil_iff_forall_not_mem]
  exact forall_congr' fun task ↦ not_congr (htracks.tasks task)

/-- The turn that is visited next is a boundary under the conditions that are checked. -/
theorem Tracks.isSafe_iff {visited : List HistoryTurn} {state : Lifecycle}
    (htracks : Tracks visited state) (item : HistoryTurn) (rest : List HistoryTurn) : IsSafe (visited ++ item :: rest) visited.length ↔
      item.isUser = true ∧ 0 < visited.length ∧ state.calls = [] ∧ state.tasks = [] := by
  rw [htracks.calls_eq_nil_iff, htracks.tasks_eq_nil_iff]
  have htake : (visited ++ item :: rest).take visited.length = visited := List.take_left' rfl
  have hitem : (visited ++ item :: rest)[visited.length]? = some item := by simp
  constructor
  · rintro ⟨hpos, ⟨turn, hturn, huser⟩, hcalls, htasks⟩
    rw [htake] at hcalls htasks
    obtain rfl : item = turn := Option.some.inj (hitem.symm.trans hturn)
    exact ⟨huser, hpos, hcalls, htasks⟩
  · rintro ⟨huser, hpos, hcalls, htasks⟩
    exact ⟨hpos, ⟨item, hitem, huser⟩, htake.symm ▸ hcalls, htake.symm ▸ htasks⟩

/-- Where a boundary is marked. -/
theorem Tracks.mem_mark {visited rest : List HistoryTurn} {state : Lifecycle} {item : HistoryTurn}
    (htracks : Tracks visited state)
    (hmarked : ∀ index, index ∈ state.boundaries ↔
      index < visited.length ∧ IsSafe (visited ++ item :: rest) index) (index : ℕ) :
    index ∈ (state.mark visited.length item).boundaries ↔
      index < (visited ++ [item]).length ∧ IsSafe (visited ++ item :: rest) index := by
  have hlength : (visited ++ [item]).length = visited.length + 1 := by simp
  rw [hlength]
  have hlast := htracks.isSafe_iff item rest
  unfold Lifecycle.mark
  split_ifs with hcondition
  · have hsafe := hlast.mpr hcondition
    rw [List.mem_append, hmarked, List.mem_singleton]
    constructor
    · rintro (⟨hlt, hold⟩ | rfl)
      · exact ⟨by omega, hold⟩
      · exact ⟨Nat.lt_succ_self _, hsafe⟩
    · rintro ⟨hlt, hold⟩
      rcases Nat.lt_succ_iff_lt_or_eq.mp hlt with hless | rfl
      · exact Or.inl ⟨hless, hold⟩
      · exact Or.inr rfl
  · rw [hmarked]
    refine ⟨fun h ↦ ⟨by omega, h.2⟩, fun h ↦ ⟨?_, h.2⟩⟩
    rcases Nat.lt_succ_iff_lt_or_eq.mp h.1 with hless | rfl
    · exact hless
    · exact absurd (hlast.mp h.2) hcondition

/-- The pass from some visited turns on. -/
theorem Tracks.visitFrom {items visited : List HistoryTurn} {state final : Lifecycle}
    (htracks : Tracks visited state)
    (hmarked : ∀ index, index ∈ state.boundaries ↔
      index < visited.length ∧ IsSafe (visited ++ items) index)
    (hrun : visitFrom visited.length items state = .ok final) :
    Tracks (visited ++ items) final ∧
      ∀ index, index ∈ final.boundaries ↔
        index < (visited ++ items).length ∧ IsSafe (visited ++ items) index := by
  induction items generalizing visited state with
  | nil =>
    obtain rfl := Except.ok.inj hrun
    rw [List.append_nil] at hmarked ⊢
    exact ⟨htracks, hmarked⟩
  | cons item rest ih =>
    obtain ⟨next, hvisit, hrest⟩ := except_bind_eq_ok.mp hrun
    have hboundaries := (Lifecycle.visit_eq_ok hvisit).1
    have hsplit : visited ++ item :: rest = (visited ++ [item]) ++ rest := by simp
    have hlength : visited.length + 1 = (visited ++ [item]).length := by simp
    rw [hlength] at hrest
    have hnext := htracks.mem_mark hmarked
    rw [hsplit] at hnext ⊢
    refine ih (htracks.visit hvisit) (fun index ↦ ?_) hrest
    rw [hboundaries]
    exact hnext index

/-- Whenever `safe_boundaries` returns, it returns exactly the positive indices of user turns before
which every call has its result and every task is closed. Cut at such an index, neither part has a
result without its call, the first part has no call without its result, and no task is opened in one
part and closed in the other. -/
theorem safeBoundaries_exact {source : List HistoryTurn} {boundaries : List ℕ}
    (hrun : safeBoundaries source = .ok boundaries) :
    (∀ index, index ∈ boundaries ↔ IsSafe source index) ∧
      ∀ index ∈ boundaries,
        Matched (callBrackets (source.take index)) ∧ Matched (callBrackets (source.drop index)) ∧
          Closed (callBrackets (source.take index)) ∧ Closed (taskBrackets (source.take index)) ∧
            Matched (taskBrackets (source.take index)) ∧
              Matched (taskBrackets (source.drop index)) := by
  obtain ⟨final, hvisit, hrun⟩ := except_bind_eq_ok.mp hrun
  obtain ⟨_, -, hrun⟩ := except_bind_eq_ok.mp hrun
  obtain rfl := Except.ok.inj hrun
  have hstart : Tracks [] ({} : Lifecycle) :=
    ⟨fun _ ↦ ⟨fun h ↦ absurd h.choose_spec List.not_mem_nil, fun h ↦ absurd h not_pending_nil⟩,
      fun _ ↦ ⟨fun h ↦ absurd h List.not_mem_nil, fun h ↦ absurd h not_pending_nil⟩,
      List.nodup_nil, matched_nil, matched_nil⟩
  obtain ⟨htracks, hboundaries⟩ := @Tracks.visitFrom source [] {} final hstart (by simp) hvisit
  rw [List.nil_append] at htracks hboundaries
  have hcalls : ∀ index, callBrackets (source.take index) ++ callBrackets (source.drop index) =
      callBrackets source := fun index ↦ by
    rw [← callBrackets_append, List.take_append_drop]
  have htasks : ∀ index, taskBrackets (source.take index) ++ taskBrackets (source.drop index) =
      taskBrackets source := fun index ↦ by
    rw [← taskBrackets_append, List.take_append_drop]
  refine ⟨fun index ↦ ⟨fun h ↦ ((hboundaries index).mp h).2, fun h ↦ (hboundaries index).mpr ⟨?_, h⟩⟩,
    fun index hindex ↦ ?_⟩
  · obtain ⟨turn, hturn, -⟩ := h.user
    exact (List.getElem?_eq_some_iff.mp hturn).1
  · have hsafe := ((hboundaries index).mp hindex).2
    have hcallsMatched := hcalls index ▸ htracks.callsMatched
    have htasksMatched := htasks index ▸ htracks.tasksMatched
    exact ⟨hcallsMatched.of_append_left, hcallsMatched.of_append hsafe.calls, hsafe.calls,
      hsafe.tasks, htasksMatched.of_append_left, htasksMatched.of_append hsafe.tasks⟩

namespace Example

/-- A call with its result between two user turns, and a task that is open at the end. -/
def lifecycle : List HistoryTurn :=
  [.message (.user "a".toList),
    .message (.toolCall { id := "1".toList, name := "ls".toList, arguments := [] }),
    .message (.toolResult
      { toolCallId := "1".toList, name := "ls".toList, status := .success, content := .null }),
    .message (.user "b".toList),
    .message (.toolCall { id := "2".toList, name := "run".toList, arguments := [] }),
    .message (.toolResult
      { toolCallId := "2".toList, name := "run".toList, status := .success, content := .null,
        taskTransitions := [⟨"t".toList, .created⟩] }),
    .message (.user "c".toList)]

end Example

/-- Only the user turn before the task is a boundary. -/
theorem safeBoundaries_exact_lifecycle :
    (∀ index, index ∈ [3] ↔ IsSafe Example.lifecycle index) ∧
      Matched (callBrackets (Example.lifecycle.drop 3)) := by
  have hexact := @safeBoundaries_exact Example.lifecycle [3] (by decide +kernel)
  exact ⟨hexact.1, (hexact.2 3 (by decide)).2.1⟩

end Ads.Context
