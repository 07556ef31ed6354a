import Ads.Context.FrameBudget

/-!
# Batches of calls

A batch is admitted whole: all its calls are charged with a reserved result each, and then the calls
are served in order, each reserved result giving way to the real one. Every measurement on the way
charges the old exchanges, the calls and exactly one result for each of them (`IsCharged`), and the
deeds of the frame never run a tool or a child after the frame is left with its final answer only
(`Orderly`). What `dispatch_batch` returns is closed (`dispatchBatch_closed`).
-/

set_option autoImplicit false
set_option relaxedAutoImplicit false

namespace Ads.Context.Recall

open Foundation.StateExcept Foundation.Interrupted Foundation.Interrupted.Program Foundation.Runs
  Python

variable {World : Type} {environment : RecallEnvironment World} {settings : RecallSettings}
  {runner : Runner World}

/-! ### Deeds in order -/

/-- A batch of calls for a frame. -/
structure Batch where
  frame : Frame
  calls : List ToolCall

/-- The calls of the batch are charged once, and one result for each of them. -/
def Batch.IsCharged (batch : Batch) (turns : List HistoryTurn) : Prop :=
  ∃ results : List ToolResult,
    turns = batch.frame.source ++ questionTurn batch.frame :: batch.frame.exchanges ++
      callTurns batch.calls ++ resultTurns results ∧
    results.map ToolResult.toolCallId = batch.calls.map ToolCall.id

/-- A tool or a child is run. -/
def Deed.IsRun : Deed → Prop
  | .tool _ | .child _ => True
  | _ => False

/-- Only the final answer is allowed after these deeds. -/
def Batch.IsFinal (batch : Batch) (deeds : List Deed) : Prop :=
  batch.frame.finalizationOnly = true ∨ .finalized ∈ deeds

/-- A deed that is in order after others. -/
def Batch.IsOrderly (batch : Batch) (before : List Deed) : Deed → Prop
  | .measured turns => batch.IsCharged turns
  | .guarded remaining => 0 ≤ remaining
  | .finalized => True
  | .tool _ | .child _ => ¬ batch.IsFinal before

/-- Some deeds of the batch after the deeds before it, in order. Where `isOpen` holds, more than the
final answer is allowed. -/
def Batch.Kept (batch : Batch) (past : List Deed) (isOpen : Prop) (deeds : List Deed) : Prop :=
  ∃ new, deeds = past ++ new ∧ Along batch.IsOrderly new ∧ (isOpen → ¬ batch.IsFinal new)

variable {batch : Batch} {past deeds : List Deed} {isOpen narrower : Prop} {deed : Deed}

theorem Batch.Kept.mono (hkept : batch.Kept past isOpen deeds) (hnarrower : narrower → isOpen) :
    batch.Kept past narrower deeds := by
  obtain ⟨new, hdeeds, horderly, hopen⟩ := hkept
  exact ⟨new, hdeeds, horderly, fun h ↦ hopen (hnarrower h)⟩

/-- One more deed that ends nothing. -/
theorem Batch.Kept.note (hkept : batch.Kept past isOpen deeds) (deed : Deed) (hdeed : deed ≠ .finalized)
    (horderly : ∀ before, (isOpen → ¬ batch.IsFinal before) → batch.IsOrderly before deed) :
    batch.Kept past isOpen (deeds ++ [deed]) := by
  obtain ⟨new, rfl, hbefore, hopen⟩ := hkept
  refine ⟨new ++ [deed], List.append_assoc _ _ _, hbefore.snoc (horderly new hopen),
    fun h hfinal ↦ hopen h ?_⟩
  refine hfinal.imp id fun hmem ↦ ?_
  rcases List.mem_append.mp hmem with hnew | hlast
  · exact hnew
  · exact absurd (List.mem_singleton.mp hlast).symm hdeed

/-- From now on only the final answer is allowed. -/
theorem Batch.Kept.finalize (hkept : batch.Kept past isOpen deeds) :
    batch.Kept past False (deeds ++ [.finalized]) := by
  obtain ⟨new, rfl, hbefore, -⟩ := hkept
  have horderly : batch.IsOrderly new .finalized := trivial
  exact ⟨new ++ [.finalized], List.append_assoc _ _ _, hbefore.snoc horderly, False.elim⟩

/-! ### Scripts and deeds -/

section Scripts

variable {α : Type} {state : World × List Deed} {post : α → World × List Deed → Prop}
  {stopped : Halted → World × List Deed → Prop}

@[simp] theorem leaves_await {action : StateM World α} :
    Leaves (await action) state post stopped ↔
      post (action state.1).1 ((action state.1).2, state.2) :=
  Iff.rfl

@[simp] theorem leaves_note {after : Unit → World × List Deed → Prop} :
    Leaves (note deed) state after stopped ↔ after () (state.1, state.2 ++ [deed]) :=
  Iff.rfl

@[simp] theorem leaves_raise {failure : Failure} :
    Leaves (raise failure : Script World α) state post stopped ↔ stopped (.failed failure) state :=
  Iff.rfl

/-- What is done apart leaves the deeds as they were. -/
theorem leaves_apart {script : Script World α} (hpost : ∀ value world, post value (world, state.2))
    (hstopped : ∀ halted world, stopped halted (world, state.2)) :
    Leaves (apart script) state post stopped := by
  unfold Leaves apart
  cases hrun : script (state.1, []) with
  | mk outcome final =>
    cases outcome with
    | error halted => exact hstopped halted final.1
    | ok value => exact hpost value final.1

/-- Counting leaves the deeds as they were. -/
theorem leaves_count {messages : List HistoryTurn} {after : ℤ → World × List Deed → Prop}
    (hafter : ∀ tokens world, 0 ≤ tokens → after tokens (world, state.2))
    (hstopped : ∀ halted world, stopped halted (world, state.2)) :
    Leaves (count environment messages) state after stopped := by
  unfold count
  rw [leaves_bind, leaves_await]
  cases (environment.meter messages state.1).1 with
  | none => exact hstopped _ _
  | some tokens =>
    dsimp only
    split_ifs with hnegative
    · exact hstopped _ _
    · exact hafter _ _ (not_lt.mp hnegative)

end Scripts

variable {frame : Frame} {call : ToolCall} {state : World × List Deed}

/-- A measurement of turns that are charged once. -/
theorem leaves_remaining {turns : List HistoryTurn} (hkept : batch.Kept past isOpen state.2)
    (hcharged : batch.IsCharged turns) :
    Leaves (remaining environment settings turns frame) state
      (fun _ final ↦ batch.Kept past isOpen final.2) fun _ final ↦ batch.Kept past False final.2 := by
  unfold remaining
  rw [leaves_bind]
  refine leaves_count (fun tokens world _ ↦ ?_) fun _ _ ↦ hkept.mono False.elim
  rw [leaves_bind, leaves_note, leaves_pure]
  exact hkept.note _ (by simp) fun _ _ ↦ hcharged

/-- A guard lets the frame pass, or leaves it with its final answer only. -/
theorem leaves_guard (hkept : batch.Kept past (frame.finalizationOnly = false) state.2)
    (hcharged : batch.IsCharged (charged frame)) :
    Leaves (guard environment settings frame) state
      (fun outcome final ↦ (outcome.2 = frame ∨ outcome.2 = finalized frame) ∧
        batch.Kept past (outcome.2.finalizationOnly = false) final.2)
      fun _ final ↦ batch.Kept past False final.2 := by
  unfold guard
  refine (leaves_remaining hkept hcharged).bind fun report next hnext ↦ ?_
  split_ifs with hoverflow hpermitted
  · exact hnext.mono False.elim
  · rw [leaves_bind, leaves_note, leaves_pure]
    exact ⟨Or.inl rfl, hnext.note _ (by simp) fun _ _ ↦ not_lt.mp hoverflow⟩
  · rw [leaves_bind, leaves_note, leaves_bind, leaves_note, leaves_pure]
    have hguarded := hnext.note (.guarded report.remainingTokens) (by simp)
      fun _ _ ↦ not_lt.mp hoverflow
    exact ⟨Or.inr rfl, hguarded.finalize.mono fun h ↦ absurd h (by simp [finalized])⟩

/-! ### Serving a call -/

/-- Some calls of the batch are served: their results follow the calls, and results for the other
calls are reserved. -/
structure Served (batch : Batch) (done : List ToolResult) (frame : Frame) : Prop where
  source : frame.source = batch.frame.source
  question : frame.question = batch.frame.question
  reserve : frame.reserve = batch.frame.reserve
  exchanges : frame.exchanges = batch.frame.exchanges ++ callTurns batch.calls ++ resultTurns done
  ids : (done ++ frame.pendingResults).map ToolResult.toolCallId = batch.calls.map ToolCall.id

variable {done rest : List ToolResult} {result : ToolResult}

theorem Served.finalized (hserved : Served batch done frame) :
    Served batch done (finalized frame) :=
  ⟨hserved.source, hserved.question, hserved.reserve, hserved.exchanges, hserved.ids⟩

theorem Served.base (hserved : Served batch done frame) :
    frame.source ++ questionTurn frame :: frame.exchanges =
      batch.frame.source ++ questionTurn batch.frame :: batch.frame.exchanges ++
        callTurns batch.calls ++ resultTurns done := by
  have hquestion : questionTurn frame = questionTurn batch.frame := by
    rw [questionTurn, hserved.question, questionTurn]
  rw [hserved.source, hquestion, hserved.exchanges]
  simp

/-- Every call is charged with one result, whether served or reserved. -/
theorem Served.charged (hserved : Served batch done frame) : batch.IsCharged (charged frame) := by
  refine ⟨done ++ frame.pendingResults, ?_, hserved.ids⟩
  rw [Recall.charged, hserved.base, List.append_assoc]
  simp [resultTurns]

/-- The frame is about to serve a call of the batch: the reserved result of the call is the next
one. -/
structure Serving (batch : Batch) (done rest : List ToolResult) (call : ToolCall) (frame : Frame) :
    Prop extends Served batch done frame where
  pending : ∃ reserved, frame.pendingResults = reserved :: rest ∧ reserved.toolCallId = call.id
  others : ∀ other ∈ rest, other.toolCallId ≠ call.id

theorem Serving.finalized (hserving : Serving batch done rest call frame) :
    Serving batch done rest call (finalized frame) :=
  ⟨hserving.toServed.finalized, hserving.pending, hserving.others⟩

theorem Serving.isNext (hserving : Serving batch done rest call frame) : IsNext frame call := by
  obtain ⟨reserved, hpending, hid⟩ := hserving.pending
  exact Or.inr ⟨reserved, rest, hpending, hid, hserving.others⟩

theorem Serving.isReserved (hserving : Serving batch done rest call frame) :
    isReserved frame call = true := by
  obtain ⟨reserved, hpending, hid⟩ := hserving.pending
  simp [Recall.isReserved, hpending, hid]

/-- The call is served by a result with its identifier. -/
theorem Serving.served {next : Frame} (hserving : Serving batch done rest call frame)
    (hresult : result.toolCallId = call.id) (hsource : next.source = frame.source)
    (hquestion : next.question = frame.question) (hreserve : next.reserve = frame.reserve)
    (hexchanges : next.exchanges = frame.exchanges ++ [.message (.toolResult result)])
    (hpending : next.pendingResults = rest) : Served batch (done ++ [result]) next := by
  refine ⟨hsource.trans hserving.source, hquestion.trans hserving.question,
    hreserve.trans hserving.reserve, ?_, ?_⟩
  · rw [hexchanges, hserving.exchanges]
    simp [resultTurns]
  · obtain ⟨reserved, hreserved, hid⟩ := hserving.pending
    rw [← hserving.ids, hpending, hreserved]
    simp [hid, hresult]

/-- The result takes the place of the reserved one. -/
theorem Serving.pending_accept (hserving : Serving batch done rest call frame) :
    (accept frame call result).pendingResults = rest := by
  obtain ⟨reserved, hpending, hid⟩ := hserving.pending
  have hfilter : rest.filter (fun pending ↦ !decide (pending.toolCallId = call.id)) = rest :=
    List.filter_eq_self.mpr fun other hother ↦ by simpa using hserving.others other hother
  simp [accept, hserving.isReserved, hpending, hid, hfilter]

/-- An accepted result serves the call. -/
theorem Serving.accept (hserving : Serving batch done rest call frame)
    (hresult : result.toolCallId = call.id) :
    Served batch (done ++ [result]) (accept frame call result) := by
  refine hserving.served hresult ?_ ?_ ?_ ?_ hserving.pending_accept
  all_goals simp [Recall.accept, hserving.isReserved]

/-- A result of the call is measured in the place of the reserved one. -/
theorem Serving.withResult (hserving : Serving batch done rest call frame)
    (hresult : result.toolCallId = call.id) : batch.IsCharged (withResult frame call result) := by
  rw [← charged_accept hserving.isNext]
  exact (hserving.accept hresult).charged

/-! ### Results -/

/-- Every result that is tried is measured in the place of the reserved one. -/
theorem leaves_resolve {content : Json} {attempts : ℕ} {previous : Option Report}
    (hserving : Serving batch done rest call frame) (hkept : batch.Kept past isOpen state.2) :
    Leaves (resolve environment settings frame call content attempts previous) state
      (fun outcome final ↦ (∀ result ∈ outcome, result.toolCallId = call.id) ∧
        batch.Kept past isOpen final.2)
      fun _ final ↦ batch.Kept past False final.2 := by
  induction attempts generalizing previous state with
  | zero => exact hkept.mono False.elim
  | succ attempts ih =>
    unfold resolve
    refine (leaves_remaining hkept (hserving.withResult rfl)).bind fun measured next hnext ↦ ?_
    split_ifs with hoverflow henough hstable
    · exact ⟨by simp, hnext⟩
    · exact ⟨by simp [answerResult], hnext⟩
    · exact ⟨by simp [answerResult], hnext⟩
    · exact ih hnext

theorem leaves_prohibition {reason : String} (hserving : Serving batch done rest call frame)
    (hkept : batch.Kept past isOpen state.2) :
    Leaves (prohibition environment settings frame call reason) state
      (fun result final ↦ result.toolCallId = call.id ∧ batch.Kept past isOpen final.2)
      fun _ final ↦ batch.Kept past False final.2 := by
  unfold prohibition
  refine (leaves_remaining hkept (hserving.withResult rfl)).bind fun report next hnext ↦ ?_
  split_ifs with hoverflow
  · exact hnext.mono False.elim
  · exact ⟨rfl, hnext⟩

/-- Each attempt of a recall runs a child while more than the final answer is allowed. -/
theorem leaves_recallAttempts {memory : Tombstone} {question : Text} {report : Report}
    {attempts : List Bool} (hserving : Serving batch done rest call frame) (hopen : isOpen)
    (hkept : batch.Kept past isOpen state.2) :
    Leaves (recallAttempts environment settings runner frame call memory question report attempts)
      state
      (fun outcome final ↦ (∀ result ∈ outcome, result.toolCallId = call.id) ∧
        batch.Kept past isOpen final.2)
      fun _ final ↦ batch.Kept past False final.2 := by
  induction attempts generalizing state with
  | nil => exact ⟨by simp, hkept⟩
  | cons retried attempts ih =>
    unfold recallAttempts
    rw [leaves_bind, leaves_note, leaves_bind]
    have hchild : batch.Kept past isOpen (state.2 ++ [.child memory]) :=
      hkept.note _ (by simp) fun _ hbefore ↦ hbefore hopen
    refine leaves_apart (fun answer world ↦ ?_) fun _ _ ↦ hchild.mono False.elim
    cases answer with
    | none => exact ih hchild
    | some answer =>
      refine (leaves_resolve hserving hchild).bind fun outcome next hnext ↦ ?_
      cases outcome with
      | none => exact ih hnext.2
      | some result => exact hnext

theorem leaves_recallResult {report : Report} (hserving : Serving batch done rest call frame)
    (hopen : isOpen) (hkept : batch.Kept past isOpen state.2) :
    Leaves (recallResult environment settings runner frame call report) state
      (fun outcome final ↦ (∀ result ∈ outcome, result.toolCallId = call.id) ∧
        batch.Kept past isOpen final.2)
      fun _ final ↦ batch.Kept past False final.2 := by
  unfold recallResult
  split
  · exact hkept.mono False.elim
  · refine (leaves_resolve hserving hkept).bind fun outcome next hnext ↦ ?_
    cases outcome with
    | none => exact ⟨by simp, hnext.2⟩
    | some envelope => exact leaves_recallAttempts hserving hopen hnext.2

/-! ### Serving a batch -/

/-- What a part of `dispatch` leaves: a frame that is about to serve the call, and a result for the
call. -/
def IsServing (batch : Batch) (past : List Deed) (done rest : List ToolResult) (call : ToolCall)
    (results : List ToolResult) (frame : Frame) (deeds : List Deed) : Prop :=
  Serving batch done rest call frame ∧ (∀ result ∈ results, result.toolCallId = call.id) ∧
    batch.Kept past (frame.finalizationOnly = false) deeds

/-- A recall that fails leaves its failure as the result, and the frame with its final answer
only. -/
theorem leaves_recallOrFail {report : Report} (hserving : Serving batch done rest call frame)
    (hopen : frame.finalizationOnly = false)
    (hkept : batch.Kept past (frame.finalizationOnly = false) state.2) :
    Leaves (recallOrFail environment settings runner frame call report) state
      (fun outcome final ↦ IsServing batch past done rest call outcome.1.toList outcome.2 final.2)
      fun _ final ↦ batch.Kept past False final.2 := by
  unfold recallOrFail
  rw [leaves_tryCatch]
  refine Leaves.bind ((leaves_recallResult hserving hopen hkept).mono (fun _ _ h ↦ h)
    fun halted next hnext ↦ ?_) fun outcome next hnext ↦ ?_
  · cases halted with
    | outOfFuel => exact hnext
    | failed failure =>
      rw [leaves_bind, leaves_note]
      have hfailed : Serving batch done rest call
          { Recall.finalized frame with finalizationReason := "recall_failed" } :=
        ⟨⟨hserving.source, hserving.question, hserving.reserve, hserving.exchanges, hserving.ids⟩,
          hserving.pending, hserving.others⟩
      refine (leaves_prohibition hfailed hnext.finalize).bind fun result last hlast ↦ ?_
      exact ⟨hfailed, by simpa using hlast.1, hlast.2.mono (by simp [Recall.finalized])⟩
  · exact ⟨hserving, by simpa using hnext.1, hnext.2⟩

theorem leaves_runTool {report : Report} (hserving : Serving batch done rest call frame)
    (hopen : frame.finalizationOnly = false)
    (hkept : batch.Kept past (frame.finalizationOnly = false) state.2) :
    Leaves (runTool environment settings runner frame call report) state
      (fun outcome final ↦ IsServing batch past done rest call outcome.1.toList outcome.2 final.2)
      fun _ final ↦ batch.Kept past False final.2 := by
  unfold runTool
  split_ifs with hbudget hrecall
  · rw [leaves_bind, leaves_note]
    have htool : batch.Kept past (frame.finalizationOnly = false) (state.2 ++ [.tool call]) :=
      hkept.note _ (by simp) fun _ hbefore ↦ hbefore hopen
    unfold resolvedResult
    refine (leaves_resolve hserving htool).bind fun outcome next hnext ↦ ?_
    exact ⟨hserving, by simpa using hnext.1, hnext.2⟩
  · exact leaves_recallOrFail hserving hopen hkept
  · exact hkept.mono False.elim

theorem leaves_settle {outcome : Option ToolResult}
    (hserving : IsServing batch past done rest call outcome.toList frame state.2) :
    Leaves (settle environment settings frame call outcome) state
      (fun settled final ↦ IsServing batch past done rest call [settled.1] settled.2 final.2)
      fun _ final ↦ batch.Kept past False final.2 := by
  obtain ⟨hserving, hresults, hkept⟩ := hserving
  cases outcome with
  | some result => exact ⟨hserving, hresults, hkept⟩
  | none =>
    unfold settle
    rw [leaves_bind, leaves_note]
    refine (leaves_prohibition hserving.finalized hkept.finalize).bind fun result next hnext ↦ ?_
    exact ⟨hserving.finalized, by simpa using hnext.1, hnext.2.mono (by simp [Recall.finalized])⟩

/-- What a call of the batch leaves: the call is served, and the frame that follows. -/
def IsServed (batch : Batch) (past : List Deed) (done rest : List ToolResult) (call : ToolCall)
    (frame : Frame) (deeds : List Deed) : Prop :=
  ∃ result : ToolResult, result.toolCallId = call.id ∧ Served batch (done ++ [result]) frame ∧
    frame.pendingResults = rest ∧ batch.Kept past (frame.finalizationOnly = false) deeds

theorem leaves_dispatch (hserving : Serving batch done rest call frame)
    (hkept : batch.Kept past (frame.finalizationOnly = false) state.2) :
    Leaves (dispatch environment settings runner frame call) state
      (fun outcome final ↦ IsServed batch past done rest call outcome.2 final.2)
      fun _ final ↦ batch.Kept past False final.2 := by
  unfold dispatch
  refine (leaves_guard hkept hserving.charged).bind fun outcome next hnext ↦ ?_
  obtain ⟨report, guarded⟩ := outcome
  obtain ⟨hguarded, hnext⟩ := hnext
  have hstill : Serving batch done rest call guarded := by
    rcases hguarded with rfl | rfl
    · exact hserving
    · exact hserving.finalized
  dsimp only
  split_ifs with hfinal
  · exact hnext.mono False.elim
  · refine (leaves_runTool hstill (Bool.eq_false_iff.mpr hfinal) hnext).bind fun ran between hran ↦ ?_
    refine (leaves_settle hran).bind fun settled middle hsettled ↦ ?_
    obtain ⟨hsettled, hresult, hmiddle⟩ := hsettled
    have haccepted := hsettled.accept (hresult settled.1 (List.mem_singleton.mpr rfl))
    have haccept : (accept settled.2 call settled.1).finalizationOnly = settled.2.finalizationOnly := by
      unfold accept
      split_ifs <;> rfl
    rw [← haccept] at hmiddle
    refine (leaves_guard hmiddle haccepted.charged).bind fun last final hlast ↦ ?_
    obtain ⟨hguarded, hfinal⟩ := hlast
    refine ⟨settled.1, hresult settled.1 (List.mem_singleton.mpr rfl), ?_, ?_, hfinal⟩
    · rcases hguarded with heq | heq
      · exact heq ▸ haccepted
      · exact heq ▸ haccepted.finalized
    · rcases hguarded with heq | heq
      · exact heq ▸ hsettled.pending_accept
      · exact heq ▸ hsettled.pending_accept

/-- Results are reserved for the calls, which have identifiers of their own. -/
theorem Served.serving {calls : List ToolCall} (hserved : Served batch done frame)
    (hpending : frame.pendingResults.map ToolResult.toolCallId =
      (call :: calls).map ToolCall.id)
    (hnodup : ((call :: calls).map ToolCall.id).Nodup) :
    ∃ rest, Serving batch done rest call frame ∧
      rest.map ToolResult.toolCallId = calls.map ToolCall.id := by
  cases hresults : frame.pendingResults with
  | nil => simp [hresults] at hpending
  | cons reserved rest =>
    rw [hresults] at hpending
    obtain ⟨hid, hrest⟩ := List.cons.inj hpending
    refine ⟨rest, ⟨hserved, ⟨reserved, hresults, hid⟩, fun other hother hsame ↦ ?_⟩, hrest⟩
    refine (List.nodup_cons.mp hnodup).1 ?_
    rw [← hsame]
    exact hrest ▸ List.mem_map_of_mem hother

/-- Every call of a batch is served, in order. -/
theorem leaves_serveCalls {calls : List ToolCall} (hserved : Served batch done frame)
    (hpending : frame.pendingResults.map ToolResult.toolCallId = calls.map ToolCall.id)
    (hnodup : (calls.map ToolCall.id).Nodup)
    (hkept : batch.Kept past (frame.finalizationOnly = false) state.2) :
    Leaves (serveCalls environment settings runner calls frame) state
      (fun next final ↦ (∃ results, Served batch results next) ∧ next.pendingResults = [] ∧
        batch.Kept past (next.finalizationOnly = false) final.2)
      fun _ final ↦ batch.Kept past False final.2 := by
  induction calls generalizing done frame state with
  | nil => exact ⟨⟨done, hserved⟩, List.map_eq_nil_iff.mp hpending, hkept⟩
  | cons call calls ih =>
    have hcalls := (List.nodup_cons.mp hnodup).2
    obtain ⟨rest, hserving, hrest⟩ := hserved.serving hpending hnodup
    unfold serveCalls
    refine (leaves_guard hkept hserved.charged).bind fun outcome next hnext ↦ ?_
    obtain ⟨report, guarded⟩ := outcome
    obtain ⟨hguarded, hnext⟩ := hnext
    have hstill : Serving batch done rest call guarded := by
      rcases hguarded with rfl | rfl
      · exact hserving
      · exact hserving.finalized
    dsimp only
    split_ifs with hfinal hreserved
    · obtain ⟨reserved, hresults, hid⟩ := hstill.pending
      have herased : (unreserve guarded call).pendingResults = rest := by
        simp [unreserve, hresults, hid]
      have hcalled : Served batch (done ++ [errorResult call guarded.finalizationReason])
          { unreserve guarded call with
            exchanges := guarded.exchanges ++
              [.message (.toolResult (errorResult call guarded.finalizationReason))] } :=
        hstill.served rfl rfl rfl rfl rfl herased
      refine ih hcalled ?_ hcalls hnext
      rw [← hrest]
      exact congrArg _ herased
    · exact absurd hstill.isReserved hreserved
    · refine (leaves_dispatch hstill hnext).bind fun dispatched between hdispatched ↦ ?_
      obtain ⟨result, -, hcalled, hleft, hbetween⟩ := hdispatched
      exact ih hcalled (hleft ▸ hrest) hcalls hbetween

/-! ### The batch -/

/-- Identifiers that pass the check are not empty, new, and each used once. -/
theorem checkCallIds_eq_ok {seen : List Text} {calls : List ToolCall}
    (hrun : checkCallIds seen calls = .ok ()) :
    (calls.map ToolCall.id).Nodup ∧ ∀ call ∈ calls, call.id ≠ [] ∧ call.id ∉ seen := by
  induction calls generalizing seen with
  | nil => simp
  | cons call calls ih =>
    unfold checkCallIds at hrun
    obtain ⟨_, hfresh, hrest⟩ := except_bind_eq_ok.mp hrun
    rw [failIf_eq_ok, not_or] at hfresh
    obtain ⟨hnodup, hothers⟩ := ih hrest
    refine ⟨?_, ?_⟩
    · rw [List.map_cons, List.nodup_cons]
      refine ⟨fun hmem ↦ ?_, hnodup⟩
      obtain ⟨other, hother, hsame⟩ := List.mem_map.mp hmem
      exact (hothers other hother).2 (hsame ▸ List.mem_cons_self)
    · intro other hother
      rcases List.mem_cons.mp hother with rfl | hother
      · exact hfresh
      · exact ⟨(hothers other hother).1, fun hmem ↦
          (hothers other hother).2 (List.mem_cons_of_mem _ hmem)⟩

/-- The identifiers of the calls are not empty, new, and each used once. -/
def Batch.IsFresh (batch : Batch) : Prop :=
  (batch.calls.map ToolCall.id).Nodup ∧ ∀ call ∈ batch.calls,
    call.id ≠ [] ∧ call.id ∉ callIds (batch.frame.source ++ batch.frame.exchanges)

theorem leaves_dispatchBatch (hidle : batch.frame.pendingResults = []) :
    Leaves (dispatchBatch environment settings runner batch.frame batch.calls) state
      (fun next final ↦ batch.IsFresh ∧ (∃ results, Served batch results next) ∧
        next.pendingResults = [] ∧ batch.Kept state.2 False final.2)
      fun _ _ ↦ True := by
  unfold dispatchBatch
  rw [leaves_bind, leaves_evaluate]
  refine ⟨fun _ hcheck ↦ ?_, fun _ _ ↦ trivial⟩
  have hfresh : batch.IsFresh := by
    refine checkCallIds_eq_ok ?_
    cases hcalls : checkCallIds (callIds (batch.frame.source ++ batch.frame.exchanges)) batch.calls with
    | error failure => simp [hcalls, Except.mapError] at hcheck
    | ok done => rfl
  have hstart : batch.Kept state.2 (batch.frame.finalizationOnly = false) state.2 :=
    ⟨[], (List.append_nil _).symm, Along.nil, fun hopen hfinal ↦ by simp [Batch.IsFinal, hopen] at hfinal⟩
  have hreserved : (batch.calls.map fun call ↦ errorResult call starvation).map
      ToolResult.toolCallId = batch.calls.map ToolCall.id := by
    rw [List.map_map]
    rfl
  have hclosed : batch.IsCharged (charged batch.frame ++ callTurns batch.calls ++
      resultTurns (batch.calls.map fun call ↦ errorResult call starvation)) :=
    ⟨_, by simp [charged, hidle, resultTurns], hreserved⟩
  refine ((leaves_remaining hstart hclosed).mono (fun _ _ h ↦ h) fun _ _ _ ↦ trivial).bind
    fun report next hnext ↦ ?_
  split_ifs with hoverflow
  · trivial
  · have hadmitted : Served batch [] { batch.frame with
        exchanges := batch.frame.exchanges ++ callTurns batch.calls
        pendingResults := batch.frame.pendingResults ++
          batch.calls.map fun call ↦ errorResult call starvation } :=
      ⟨rfl, rfl, rfl, by simp [resultTurns], by rw [hidle]; exact hreserved⟩
    refine ((leaves_serveCalls hadmitted ?_ hfresh.1 hnext).mono (fun _ _ h ↦ h)
      fun _ _ _ ↦ trivial).bind fun served between hserved ↦ ?_
    · rw [hidle]
      exact hreserved
    · obtain ⟨⟨results, hserved⟩, hpending, hbetween⟩ := hserved
      refine ((leaves_guard hbetween hserved.charged).mono (fun _ _ h ↦ h)
        fun _ _ _ ↦ trivial).bind fun outcome final hfinal ↦ ?_
      obtain ⟨hguarded, hfinal⟩ := hfinal
      refine ⟨hfresh, ⟨results, ?_⟩, ?_, hfinal.mono False.elim⟩
      · rcases hguarded with heq | heq
        · exact heq ▸ hserved
        · exact heq ▸ hserved.finalized
      · rcases hguarded with heq | heq
        · exact heq ▸ hpending
        · exact heq ▸ hpending

/-- For every frame with nothing pending, every batch of calls, every meter, model and way to run the
children, when `dispatch_batch` returns normally:

* the calls have new identifiers of their own,
* the exchanges are the old ones, the calls, and one result for each call in the order of the calls,
* nothing is pending,
* whatever was measured on the way charges the calls once and one result for each of them, no guard
  let a negative budget pass, and no tool or child was run once only the final answer was allowed. -/
theorem dispatchBatch_closed {calls : List ToolCall} {next : Frame} {world after : World}
    {later : List Deed} (hidle : frame.pendingResults = [])
    (hrun : dispatchBatch environment settings runner frame calls (world, deeds) =
      (.ok next, (after, later))) :
    Batch.IsFresh ⟨frame, calls⟩ ∧
    (∃ results : List ToolResult, results.map ToolResult.toolCallId = calls.map ToolCall.id ∧
      next.exchanges = frame.exchanges ++ callTurns calls ++ resultTurns results) ∧
    next.source = frame.source ∧ next.question = frame.question ∧ next.pendingResults = [] ∧
    ∃ new, later = deeds ++ new ∧ Along (Batch.IsOrderly ⟨frame, calls⟩) new := by
  have hleaves : Leaves (dispatchBatch environment settings runner frame calls) (world, deeds) _ _ :=
    @leaves_dispatchBatch _ environment settings runner ⟨frame, calls⟩ (world, deeds) hidle
  obtain ⟨hfresh, ⟨results, hserved⟩, hpending, new, hlater, horderly, -⟩ := hleaves.of_ok hrun
  have hids := hserved.ids
  rw [hpending, List.append_nil] at hids
  exact ⟨hfresh, ⟨results, hids, hserved.exchanges⟩, hserved.source, hserved.question, hpending,
    new, hlater, horderly⟩

/-- The small frame is served a batch that asks for its budget and recalls its memory. -/
theorem dispatchBatch_closed_pair :
    ∃ next later, dispatchBatch Example.environment Example.settings
        (run Example.environment Example.settings 1 1) Example.frame
        [Example.budgetCall, Example.recallCall] ((), []) = (.ok next, ((), later)) ∧
      next.exchanges.length = 4 ∧ next.pendingResults = [] := by
  have hserved : (dispatchBatch Example.environment Example.settings
      (run Example.environment Example.settings 1 1) Example.frame
      [Example.budgetCall, Example.recallCall] ((), [])).1.toBool = true := by decide +kernel
  cases hrun : dispatchBatch Example.environment Example.settings
      (run Example.environment Example.settings 1 1) Example.frame
      [Example.budgetCall, Example.recallCall] ((), []) with
  | mk outcome final =>
    cases outcome with
    | error halted => simp [hrun, Except.toBool] at hserved
    | ok next =>
      obtain ⟨-, ⟨results, hids, hexchanges⟩, -, -, hpending, -⟩ := dispatchBatch_closed rfl hrun
      have hlength : results.length = 2 := by simpa using congrArg List.length hids
      refine ⟨next, final.2, rfl, ?_, hpending⟩
      rw [hexchanges]
      simp [callTurns, resultTurns, hlength, Example.frame]

end Ads.Context.Recall
